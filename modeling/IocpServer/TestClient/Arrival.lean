import IocpServer.NetWork.SendIntegrity
import IocpServer.Server.PacketEncoding

namespace IocpServer.TestClient

open NetWork (SendBuffer Receiver headerSize readHeader packetBytes packetFormat streamOf)
open NetWork.SendPipeline (At TokenInv Live Dead Careful)
open Framing (WellFormed parse)
open Server (Messages Made)

/-- Where the loop of the client stops: behind complete packets, and there the bytes wait for more or
nobody is connected any more, unless it closed the connection itself. -/
structure Stops (isConnected : Nat → Bool) (data : List UInt8) (pos : Nat) (r : Processed)
    (n : Nat) : Prop where
  le : n ≤ data.length
  cut : r.packets.flatten++data.drop n=data.drop pos
  frames : ∀ f∈r.packets, WellFormed packetFormat f
  stop : r.processLen=none ∨ r.processLen=some n ∧
    (isConnected n=false ∨ parse packetFormat (data.drop n)=⟨[],data.drop n,false⟩)

/-- One packet is processed before the others. -/
theorem Stops.cons {isConnected : Nat → Bool} {data : List UInt8} {pos size n : Nat} {r : Processed}
    (hf : WellFormed packetFormat ((data.drop pos).take size))
    (h : Stops isConnected data (pos+size) r n) :
    Stops isConnected data pos ⟨r.processLen,(data.drop pos).take size::r.packets⟩ n where
  le := h.le
  cut := by
    have hcut := h.cut
    rw [List.flatten_cons,List.append_assoc,hcut,← List.drop_drop,List.take_append_drop]
  frames := by
    intro f hf'
    cases List.mem_cons.mp hf' with
    | inl he =>
      subst he
      exact hf
    | inr hf' => exact h.frames f hf'
  stop := h.stop

/-- A packet on which the loop ends. -/
theorem Stops.last {isConnected : Nat → Bool} {data : List UInt8} {pos size : Nat}
    {processLen : Option Nat} (hf : WellFormed packetFormat ((data.drop pos).take size))
    (hle : pos+size ≤ data.length)
    (hstop : processLen=none ∨ processLen=some (pos+size) ∧ isConnected (pos+size)=false) :
    Stops isConnected data pos ⟨processLen,[(data.drop pos).take size]⟩ (pos+size) := by
  have hnone : Stops isConnected data (pos+size) ⟨processLen,[]⟩ (pos+size) :=
    ⟨hle,rfl,fun f hf => absurd hf List.not_mem_nil,hstop.imp id fun h => ⟨h.1,Or.inl h.2⟩⟩
  exact hnone.cons hf

/-- Whatever the handlers return, the loop hands over complete packets, one after the other. -/
theorem processLoop_stops (handlers : Handlers) (isConnected : Nat → Bool) (data : List UInt8)
    (pos : Nat) (hpos : pos ≤ data.length) :
    ∃ r n, processLoop handlers isConnected data pos=some r ∧ Stops isConnected data pos r n := by
  have hlen : (data.drop pos).length=data.length-pos := List.length_drop
  have hnone : ∀ f∈([] : List (List UInt8)), WellFormed packetFormat f :=
    fun f hf => absurd hf List.not_mem_nil
  by_cases hshort : data.length-pos<headerSize
  · refine ⟨⟨some pos,[]⟩,pos,by rw [processLoop,if_pos hshort],hpos,rfl,hnone,
      Or.inr ⟨rfl,Or.inr ?_⟩⟩
    exact Framing.parse_of_short (by rw [hlen]; exact hshort)
  obtain ⟨id,hread⟩ := NetWork.readHeader_of_le (show pos+headerSize ≤ data.length by omega)
  have hmax := NetWork.packetFormat_size_le (data.drop pos)
  have hincomplete := Framing.parse_of_incomplete (F:=packetFormat) (s:=data.drop pos)
  have htake := Framing.wellFormed_take (F:=packetFormat) (s:=data.drop pos)
  generalize packetFormat.size (data.drop pos)=size at *
  by_cases hsmall : size<headerSize
  · refine ⟨⟨none,[]⟩,pos,?_,hpos,rfl,hnone,Or.inl rfl⟩
    rw [processLoop,if_neg hshort,hread]
    exact if_pos hsmall
  have hge : headerSize ≤ size := Nat.not_lt.mp hsmall
  have hbig : ¬maxPacketSize<size := by
    simp only [maxPacketSize]
    omega
  by_cases hwait : data.length-pos<size
  · refine ⟨⟨some pos,[]⟩,pos,?_,hpos,rfl,hnone,Or.inr ⟨rfl,Or.inr (hincomplete hge (by omega))⟩⟩
    rw [processLoop,if_neg hshort,hread]
    simp only [if_neg hsmall,if_neg hbig,if_pos hwait]
  have hle : pos+size ≤ data.length := by omega
  have hpacket : NetWork.readPacket data pos size=some ((data.drop pos).take size) := if_pos hle
  have hframe := htake hge (by omega)
  have hsize : ((data.drop pos).take size).length=size := by
    rw [List.length_take,List.length_drop]
    omega
  -- the frame carries its length, so that `HandlePacket` reads its header
  obtain ⟨answer,hanswer⟩ : ∃ answer, handlePacket handlers ((data.drop pos).take size) size=
      some answer := by
    obtain ⟨header,hheader,heq⟩ := readHeader_of_wellFormed hframe
    rw [handlePacket,if_neg hsmall,hheader]
    simp only [heq,hsize,ne_eq,not_true_eq_false,if_false]
    cases handlers.find header.id with
    | none => exact ⟨false,rfl⟩
    | some handler => exact ⟨_,rfl⟩
  cases answer with
  | false =>
    refine ⟨⟨none,[(data.drop pos).take size]⟩,pos+size,?_,Stops.last hframe hle (Or.inl rfl)⟩
    rw [processLoop,if_neg hshort,hread]
    simp only [if_neg hsmall,if_neg hbig,if_neg hwait,hpacket,hanswer]
  | true =>
    by_cases hconnected : isConnected (pos+size)
    · obtain ⟨r,n,hr,hstops⟩ := processLoop_stops handlers isConnected data (pos+size) hle
      refine ⟨⟨r.processLen,(data.drop pos).take size::r.packets⟩,n,?_,hstops.cons hframe⟩
      rw [processLoop,if_neg hshort,hread]
      simp only [if_neg hsmall,if_neg hbig,if_neg hwait,hpacket,hanswer,hconnected,hr]
      rfl
    · refine ⟨⟨some (pos+size),[(data.drop pos).take size]⟩,pos+size,?_,
        Stops.last hframe hle (Or.inr ⟨rfl,Bool.eq_false_iff.mpr hconnected⟩)⟩
      rw [processLoop,if_neg hshort,hread]
      simp only [if_neg hsmall,if_neg hbig,if_neg hwait,hpacket,hanswer,hconnected]
      rfl
termination_by data.length-pos
decreasing_by
  simp only [headerSize] at *
  omega

/-- The client keeps what it dispatched and what it holds together, whatever its handlers return. -/
theorem inv_processRecv (handlers : Handlers) (isConnected : Nat → Bool) {stream : List UInt8}
    {s : Receiver} (h : s.Inv stream) {bytes : List UInt8}
    (hfit : s.isConnect=true → bytes.length ≤ s.recvBuffer.freeSize) :
    ∃ s', processRecv handlers isConnected s bytes=some s' ∧ s'.Inv (stream++bytes) := by
  by_cases hconnect : s.isConnect=true
  swap
  · have hoff : s.isConnect=false := Bool.eq_false_iff.mpr hconnect
    exact ⟨s,if_pos hoff,h.frames,h.sent.trans (List.prefix_append _ _),
      fun hon => absurd hon hconnect⟩
  by_cases hne : bytes=[]
  · refine ⟨s.disconnect,?_,h.disconnect bytes⟩
    simp only [processRecv,hconnect,hne]
    rfl
  have hlive := h.live hconnect
  obtain ⟨b,hwrite,hdata,hsize⟩ := NetWork.RecvBuffer.fill_onWrite_data (hfit hconnect)
  obtain ⟨r,n,hr,hstops⟩ := processLoop_stops handlers isConnected b.data 0 (Nat.zero_le _)
  have hlen : bytes.length≠0 := fun hzero => hne (List.eq_nil_of_length_eq_zero hzero)
  have hle : n ≤ b.dataSize := by
    rw [← b.data_length]
    exact hstops.le
  have hcut : (s.dispatched++r.packets).flatten++b.data.drop n=stream++bytes := by
    have hstream := hlive.cut
    have hloop := hstops.cut
    rw [List.drop_zero,hdata] at hloop
    rw [hdata,List.flatten_append,List.append_assoc,hloop,← List.append_assoc,hstream]
  have hframes : ∀ f∈s.dispatched++r.packets, WellFormed packetFormat f := by
    intro f hf
    exact (List.mem_append.mp hf).elim (h.frames f) (hstops.frames f)
  cases hstops.stop with
  | inl hnone =>
    have hrun : processRecv handlers isConnected s bytes=
        some (Receiver.disconnect ⟨b,true,s.dispatched++r.packets⟩) := by
      simp only [processRecv,hconnect,Bool.true_eq_false,if_false,if_neg hlen,hwrite,hr,hnone,
        Option.bind_eq_bind,Option.bind_some]
      rfl
    refine ⟨_,hrun,hframes,⟨_,hcut⟩,?_⟩
    intro hon
    cases hon
  | inr hsome =>
    obtain ⟨hsome,hstop⟩ := hsome
    obtain ⟨b',hread,hdata',hsize'⟩ := NetWork.RecvBuffer.onRead_data hle
    have hrun : processRecv handlers isConnected s bytes=
        some ⟨b'.clean,isConnected n,s.dispatched++r.packets⟩ := by
      simp only [processRecv,hconnect,Bool.true_eq_false,if_false,if_neg hlen,hwrite,hr,hsome,
        if_neg (Nat.not_lt.mpr hle),hread,Option.bind_eq_bind,Option.bind_some]
      rfl
    refine ⟨_,hrun,hframes,⟨_,hcut⟩,?_⟩
    intro hon
    have hwaits := hstop.resolve_left (by
      rw [show isConnected n=true from hon]
      exact Bool.true_eq_false.mp)
    have hbuffer : b'.bufferSize=NetWork.bufferSize := hsize'.trans (hsize.trans hlive.size)
    have hclean : b'.clean.data=b.data.drop n := by
      rw [NetWork.RecvBuffer.data_clean,hdata']
    refine ⟨?_,?_,?_,?_⟩
    · rw [hclean]
      exact hcut
    · rw [hclean]
      exact hwaits
    · rw [NetWork.RecvBuffer.clean_bufferSize,hbuffer]
    · have hnine := Receiver.waiting_length_le hwaits
      rw [← hclean,NetWork.RecvBuffer.data_clean,NetWork.RecvBuffer.data_length] at hnine
      rw [← hbuffer]
      exact NetWork.RecvBuffer.freeSize_clean (by omega)

/-- The buffer that the server's `MakeSendBuffer` returns, if it returns one. -/
def serverBuffer {P : Type} (m : Messages P) (pkt : P) : Option SendBuffer :=
  match Server.makeSendBuffer m pkt with
  | .sendBuffer buffer writeSize =>
    if h : writeSize ≤ buffer.length then some ⟨buffer,writeSize,h⟩ else none
  | _ => none

/-- The frame of a packet. -/
def frameOf {P : Type} (m : Messages P) (pkt : P) : List UInt8 :=
  packetBytes (headerSize+m.byteSizeLong pkt) (m.packetId pkt) (m.bytes pkt)

/-- The send path of a server session, its connection and the receiving half of the client. `delivered`
counts the transmitted bytes that the client has received. -/
structure Downlink (T : Type) where
  server : NetWork.SendPipeline.State T
  delivered : Nat
  client : Receiver

namespace Downlink

variable {T P : Type} [DecidableEq T]

/-- `send` is a call of `Session::send` with a packet, `pipe` another step of the send path; `deliver`
is a receive completion of the client with the next bytes of the connection, with what `is_connected()`
answers meanwhile; `clientDisconnect` ends the client's session from another thread. -/
inductive Action (T P : Type) where
  | send (t : T) (pkt : P)
  | pipe (a : NetWork.SendPipeline.Action T)
  | deliver (n : Nat) (isConnected : Nat → Bool)
  | clientDisconnect

def init (closeAfterSend : Bool) : Downlink T :=
  ⟨NetWork.SendPipeline.State.init closeAfterSend,0,Receiver.init⟩

def step (m : Messages P) (handlers : Handlers) (s : Downlink T) : Action T P → Option (Downlink T)
  | .send t pkt =>
    (serverBuffer m pkt).bind fun b =>
      (NetWork.SendPipeline.step s.server (.send t b)).map fun server => { s with server := server }
  | .pipe a => (NetWork.SendPipeline.step s.server a).map fun server => { s with server := server }
  | .deliver n isConnected =>
    if s.delivered+n ≤ s.server.session.wire.length ∧
        (s.client.isConnect=true → n ≤ s.client.recvBuffer.freeSize) then
      (processRecv handlers isConnected s.client
        ((s.server.session.wire.drop s.delivered).take n)).map fun client =>
          { s with client := client, delivered := s.delivered+n }
    else none
  | .clientDisconnect => some { s with client := s.client.disconnect }

/-- Every packet fits into its 16-bit size, all buffers come from `MakeSendBuffer`, and no send is
registered between a failed one and its disconnect. -/
def Ok (m : Messages P) (s : Downlink T) : Action T P → Prop
  | .send _ pkt => m.byteSizeLong pkt ≤ 65531
  | .pipe (.send _ _) => False
  | .pipe a => Careful s.server a
  | _ => True

end Downlink

/-- The buffer holds the frame of a packet that fits. -/
def IsFrame {P : Type} (m : Messages P) (b : SendBuffer) : Prop :=
  ∃ pkt, m.byteSizeLong pkt ≤ 65531 ∧ b.bytes=frameOf m pkt

theorem isFrame_serverBuffer {P : Type} {m : Messages P} {pkt : P} {b : SendBuffer}
    (hsize : m.byteSizeLong pkt ≤ 65531) (h : serverBuffer m pkt=some b) : IsFrame m b := by
  have hfit : headerSize+m.byteSizeLong pkt<2^16 := by
    simp only [headerSize]
    omega
  have hlen := NetWork.packetBytes_length (headerSize+m.byteSizeLong pkt) (m.packetId pkt)
    (m.bytes pkt)
  rw [serverBuffer,Server.makeSendBuffer_of_fits hfit] at h
  simp only at h
  split at h
  · cases h
    exact ⟨pkt,hsize,List.take_of_length_le (Nat.le_of_eq (hlen.trans (Nat.add_comm _ _)))⟩
  · cases h

theorem wellFormed_frameOf {P : Type} {m : Messages P} {pkt : P} (hsize : m.byteSizeLong pkt ≤ 65531) :
    WellFormed packetFormat (frameOf m pkt) := by
  apply NetWork.wellFormed_packetBytes
  · simp only [headerSize]
    omega
  · rw [Messages.byteSizeLong,Nat.add_comm]

/-- Buffers with frames come from packets. -/
theorem packets_of_isFrame {P : Type} {m : Messages P} {bs : List SendBuffer}
    (h : ∀ b∈bs, IsFrame m b) : ∃ pkts : List P, (∀ pkt∈pkts, m.byteSizeLong pkt ≤ 65531) ∧
      bs.map SendBuffer.bytes=pkts.map (frameOf m) := by
  induction bs with
  | nil => exact ⟨[],fun _ h => absurd h List.not_mem_nil,rfl⟩
  | cons b bs ih =>
    obtain ⟨⟨pkt,hsize,hb⟩,hbs⟩ := List.forall_mem_cons.mp h
    obtain ⟨pkts,hsizes,hpkts⟩ := ih hbs
    refine ⟨pkt::pkts,List.forall_mem_cons.mpr ⟨hsize,hsizes⟩,?_⟩
    rw [List.map_cons,hb,hpkts,List.map_cons]

/-- The buffer that a thread is about to accept into the queue. -/
def carries : At → Option SendBuffer
  | .send b | .enqueue b => some b
  | _ => none

theorem advance_accepts {s σ : NetWork.SendPipeline.Session} {ok : Bool} {pc pc' : At}
    (h : NetWork.SendPipeline.advance s ok pc=some (σ,pc')) :
    σ.wire=s.wire ∧ (∀ b∈σ.accepted, b∈s.accepted ∨ carries pc=some b) ∧
      ∀ b, carries pc'=some b → carries pc=some b := by
  cases NetWork.SendPipeline.advance_move h with
  | accept b hon hroom =>
    refine ⟨rfl,?_,?_⟩
    · intro c hc
      cases List.mem_append.mp hc with
      | inl hc => exact Or.inl hc
      | inr hc => exact Or.inr (by rw [List.mem_singleton.mp hc]; rfl)
    · intro c hc
      split at hc <;> cases hc
  | send b hon => exact ⟨rfl,fun b hb => Or.inl hb,fun c hc => hc⟩
  | nothing | whole =>
    refine ⟨rfl,fun b hb => Or.inl hb,?_⟩
    intro c hc
    split at hc <;> cases hc
  | _ => exact ⟨rfl,fun b hb => Or.inl hb,fun c hc => by cases hc⟩

/-- A thread that was idle starts with `pc`. -/
theorem enter_accepts {T : Type} [DecidableEq T] {s s' : NetWork.SendPipeline.State T} {t : T}
    {σ : NetWork.SendPipeline.Session} {pc : At} (h : s.enter t σ pc=some s') :
    s'.session=σ ∧ ∀ u b, carries (s'.threads u)=some b →
      carries (s.threads u)=some b ∨ carries pc=some b := by
  unfold NetWork.SendPipeline.State.enter at h
  split at h
  · cases h
    refine ⟨rfl,?_⟩
    intro u b hb
    simp only [NetWork.SendPipeline.State.set] at hb
    by_cases hu : u=t
    · subst hu
      rw [Function.update_self] at hb
      exact Or.inr hb
    · rw [Function.update_of_ne hu] at hb
      exact Or.inl hb
  · cases h

/-- The send path of the server takes back no byte, and accepts only what some thread sends. -/
theorem pipe_accepts {T P : Type} [DecidableEq T] {m : Messages P}
    {s s' : NetWork.SendPipeline.State T} {a : NetWork.SendPipeline.Action T}
    (hsend : ∀ t b, a=.send t b → IsFrame m b) (haccepted : ∀ b∈s.session.accepted, IsFrame m b)
    (hcarried : ∀ t b, carries (s.threads t)=some b → IsFrame m b)
    (h : NetWork.SendPipeline.step s a=some s') :
    s.session.wire<+:s'.session.wire ∧ (∀ b∈s'.session.accepted, IsFrame m b) ∧
      ∀ t b, carries (s'.threads t)=some b → IsFrame m b := by
  have henter : ∀ t σ pc, s.enter t σ pc=some s' → s.session.wire<+:σ.wire →
      σ.accepted=s.session.accepted → (∀ b, carries pc=some b → IsFrame m b) →
      s.session.wire<+:s'.session.wire ∧ (∀ b∈s'.session.accepted, IsFrame m b) ∧
        ∀ t b, carries (s'.threads t)=some b → IsFrame m b := by
    intro t σ pc he hwire hacc hpc
    obtain ⟨hσ,hc⟩ := enter_accepts he
    refine ⟨hσ ▸ hwire,?_,fun u b hb => (hc u b hb).elim (hcarried u b) (hpc b)⟩
    intro b hb
    rw [hσ,hacc] at hb
    exact haccepted b hb
  cases a with
  | send t b =>
    refine henter t _ _ h List.prefix_rfl rfl ?_
    intro c hc
    cases hc
    exact hsend t b rfl
  | disconnect t | beginShutdown t =>
    exact henter t _ _ h List.prefix_rfl rfl fun c hc => by cases hc
  | run t ok =>
    simp only [NetWork.SendPipeline.step,Option.map_eq_some_iff] at h
    obtain ⟨⟨σ,pc⟩,ha,rfl⟩ := h
    obtain ⟨hwire,hacc,hc⟩ := advance_accepts ha
    refine ⟨?_,?_,?_⟩
    · show s.session.wire<+:σ.wire
      rw [hwire]
    · intro b hb
      exact (hacc b hb).elim (haccepted b) (hcarried t b)
    · intro u b hb
      simp only [NetWork.SendPipeline.State.set] at hb
      by_cases hu : u=t
      · subst hu
        rw [Function.update_self] at hb
        exact hcarried u b (hc b hb)
      · rw [Function.update_of_ne hu] at hb
        exact hcarried u b hb
  | sendCompleted t n =>
    simp only [NetWork.SendPipeline.step] at h
    split at h
    · split at h
      · exact henter t _ _ h (List.prefix_append _ _) rfl fun c hc => by cases hc
      · cases h
    · cases h
  | disconnectCompleted t =>
    simp only [NetWork.SendPipeline.step] at h
    split at h
    · exact henter t _ _ h List.prefix_rfl rfl fun c hc => by cases hc
    · cases h

namespace Downlink

variable {T P : Type} [DecidableEq T]

/-- The server sends what it accepted, in frames, and the client has received the first bytes of
that. -/
structure Inv [Fintype T] (m : Messages P) (s : Downlink T) : Prop where
  token : TokenInv s.server
  flow : Live s.server ∨ Dead s.server
  accepted : ∀ b∈s.server.session.accepted, IsFrame m b
  carried : ∀ t b, carries (s.server.threads t)=some b → IsFrame m b
  delivered : s.delivered ≤ s.server.session.wire.length
  client : s.client.Inv (s.server.session.wire.take s.delivered)

variable [Fintype T] {m : Messages P} {handlers : Handlers} {s s' : Downlink T}

omit [DecidableEq T] in
theorem inv_init (closeAfterSend : Bool) : Inv m (init closeAfterSend : Downlink T) where
  token := TokenInv.init closeAfterSend
  flow := Or.inl (Live.init closeAfterSend)
  accepted b hb := by cases hb
  carried t b hb := by cases hb
  delivered := Nat.le_refl 0
  client := Receiver.inv_init

/-- A step of the send path. -/
theorem Inv.pipe (h : Inv m s) {a : NetWork.SendPipeline.Action T}
    {server : NetWork.SendPipeline.State T} (hsend : ∀ t b, a=.send t b → IsFrame m b)
    (hcareful : Careful s.server a) (hs : NetWork.SendPipeline.step s.server a=some server) :
    Inv m { s with server := server } := by
  obtain ⟨⟨more,hmore⟩,haccepted,hcarried⟩ := pipe_accepts hsend h.accepted h.carried hs
  refine ⟨h.token.step a hs,?_,haccepted,hcarried,?_,?_⟩
  · cases h.flow with
    | inl hlive => exact hlive.step h.token hs
    | inr hdead => exact Or.inr (hdead.step h.token hcareful hs)
  · show s.delivered ≤ server.session.wire.length
    rw [← hmore,List.length_append]
    exact Nat.le_add_right_of_le h.delivered
  · show s.client.Inv (server.session.wire.take s.delivered)
    rw [← hmore,List.take_append_of_le_length h.delivered]
    exact h.client

theorem Inv.step (h : Inv m s) {a : Action T P} (hok : Ok m s a)
    (hs : step m handlers s a=some s') : Inv m s' := by
  cases a with
  | send t pkt =>
    simp only [Downlink.step,Option.bind_eq_some_iff,Option.map_eq_some_iff] at hs
    obtain ⟨b,hb,server,hserver,rfl⟩ := hs
    refine h.pipe (a:=.send t b) ?_ trivial hserver
    intro u c hc
    cases hc
    exact isFrame_serverBuffer hok hb
  | pipe a =>
    obtain ⟨server,hserver,rfl⟩ := Option.map_eq_some_iff.mp hs
    refine h.pipe ?_ ?_ hserver
    · intro t b ha
      subst ha
      exact absurd hok id
    · cases a with
      | send t b => exact absurd hok id
      | _ => exact hok
  | deliver n isConnected =>
    simp only [Downlink.step] at hs
    split at hs
    · rename_i hn
      obtain ⟨client,hclient,rfl⟩ := Option.map_eq_some_iff.mp hs
      have hlen : ((s.server.session.wire.drop s.delivered).take n).length=n := by
        rw [List.length_take,List.length_drop]
        omega
      have hfit : s.client.isConnect=true →
          ((s.server.session.wire.drop s.delivered).take n).length ≤ s.client.recvBuffer.freeSize :=
        fun hon => hlen.symm ▸ hn.2 hon
      obtain ⟨client',hclient',hinv⟩ := inv_processRecv handlers isConnected h.client hfit
      cases hclient.symm.trans hclient'
      refine ⟨h.token,h.flow,h.accepted,h.carried,hn.1,?_⟩
      rw [List.take_add]
      exact hinv
    · cases hs
  | clientDisconnect =>
    cases hs
    have hoff := h.client.disconnect []
    rw [List.append_nil] at hoff
    exact ⟨h.token,h.flow,h.accepted,h.carried,h.delivered,hoff⟩

omit [Fintype T] in
/-- The network may deliver what is on the wire in any pieces for which the client has room. -/
theorem deliver_run {chunks : List (List UInt8)} {c : Receiver}
    (hfit : Fits handlers s.client chunks) (hreceive : receive handlers s.client chunks=some c)
    (hdelivered : s.delivered ≤ s.server.session.wire.length)
    (hwire : chunks.flatten<+:s.server.session.wire.drop s.delivered) :
    runActions (step m handlers) s
      (chunks.map fun bytes => .deliver bytes.length fun _ => true)=
        some { s with client := c, delivered := s.delivered+chunks.flatten.length } := by
  induction chunks generalizing s with
  | nil =>
    cases hreceive
    rfl
  | cons bytes chunks ih =>
    obtain ⟨hroom,hrest⟩ := hfit
    rw [receive,List.foldlM_cons] at hreceive
    obtain ⟨client,hclient,hreceive⟩ := Option.bind_eq_some_iff.mp hreceive
    rw [List.flatten_cons] at hwire
    obtain ⟨hle,hnext,hlater⟩ := Framing.take_piece hdelivered hwire
    have hstep : step m handlers s (.deliver bytes.length fun _ => true)=
        some { s with client := client, delivered := s.delivered+bytes.length } := by
      simp only [step,hnext,hclient]
      exact if_pos ⟨hle,fun hon => (hroom hon).2⟩
    have hrun := ih (s:={ s with client := client, delivered := s.delivered+bytes.length })
      (hrest client hclient) hreceive hle hlater
    simp only [List.map_cons,runActions,hstep,Option.bind_some,hrun,List.flatten_cons,
      List.length_append,Nat.add_assoc]

omit [DecidableEq T] in
theorem Inv.sent (h : Inv m s) : s.server.session.wire<+:streamOf s.server.session.accepted :=
  h.flow.elim Live.sent Dead.sent

end Downlink

/-- A connected client that received complete frames only has dispatched all of them. -/
theorem dispatched_of_flatten {frames : List (List UInt8)} {client : Receiver}
    (h : client.Inv frames.flatten) (hf : ∀ f∈frames, WellFormed packetFormat f)
    (hon : client.isConnect=true) : client.dispatched=frames := by
  have hlive := h.live hon
  have hparse := Framing.parse_flatten hf
  rw [← hlive.cut,Framing.parse_append,Framing.parse_flatten h.frames] at hparse
  simp only [Bool.false_eq_true,if_false,List.nil_append,hlive.waits,List.append_nil] at hparse
  exact congrArg Framing.Parsed.frames hparse

/-- What the client dispatches are the first of the packets that the server accepted for it, each with
its id and payload, whatever the handlers return and whoever disconnects. It has dispatched all of them
if it is connected when the last byte is delivered. -/
theorem client_dispatches_accepted_packets {T P : Type} [Fintype T] [DecidableEq T] (m : Messages P)
    (handlers : Handlers) (closeAfterSend : Bool) (s : Downlink T)
    (h : Reaches (Downlink.step m handlers) (Downlink.Ok m) (Downlink.init closeAfterSend) s) :
    ∃ pkts sent : List P, s.server.session.accepted.map SendBuffer.bytes=pkts.map (frameOf m) ∧
      sent<+:pkts ∧
      s.client.dispatched=sent.map (frameOf m) ∧
      (∀ pkt∈sent, (frameOf m pkt).drop headerSize=m.bytes pkt ∧
        handlePacket handlers (frameOf m pkt) (frameOf m pkt).length=
          some ((handlers.find (m.packetId pkt)).elim false fun handler => handler (frameOf m pkt))) ∧
      (s.client.isConnect=true → s.delivered=(streamOf s.server.session.accepted).length →
        sent=pkts) := by
  have hi : Downlink.Inv m s :=
    h.invariant (Downlink.inv_init closeAfterSend) fun _ _ _ hi hok hs => hi.step hok hs
  obtain ⟨pkts,hsizes,hpkts⟩ := packets_of_isFrame hi.accepted
  have hframes : ∀ f∈pkts.map (frameOf m), WellFormed packetFormat f := by
    intro f hf
    obtain ⟨pkt,hpkt,rfl⟩ := List.mem_map.mp hf
    exact wellFormed_frameOf (hsizes pkt hpkt)
  have hstream : streamOf s.server.session.accepted=(pkts.map (frameOf m)).flatten :=
    congrArg List.flatten hpkts
  have hsent := hi.sent
  have hflat := (hi.client.sent.trans (List.take_prefix _ _)).trans hsent
  rw [hstream] at hflat
  have htake := Framing.frames_isPrefix hi.client.frames hframes hflat
  rw [List.prefix_iff_eq_take,← List.map_take] at htake
  refine ⟨pkts,pkts.take s.client.dispatched.length,hpkts,List.take_prefix _ _,htake,?_,?_⟩
  · intro pkt hpkt
    have hfit : headerSize+m.byteSizeLong pkt<2^16 := by
      have := hsizes pkt (List.mem_of_mem_take hpkt)
      simp only [headerSize]
      omega
    have hdecodes := Server.decodes_packetBytes hfit
    exact ⟨hdecodes.payload,hdecodes.handle handlers⟩
  · intro hon hall
    -- all of the stream is on the wire and delivered
    have hwire : s.server.session.wire=streamOf s.server.session.accepted := by
      have hle := hi.delivered
      exact hsent.eq_of_length_le (by omega)
    have hclient := hi.client
    rw [hall,hwire,List.take_length,hstream] at hclient
    have heq := dispatched_of_flatten hclient hframes hon
    rw [heq,List.length_map,List.take_length]

/-- The login answer with one byte, and a packet without a payload. -/
def twoMessages : Messages Bool :=
  ⟨fun b => if b then 1001 else 1007,fun b => if b then [7] else [],fun b => by cases b <;> decide⟩

/-- The server sends two packets: the first in two pieces, the second behind it. -/
def downlinkTwo : List (Downlink.Action Unit Bool) :=
  [.send () true]++List.replicate 5 (.pipe (.run () true))++
  [.send () false]++List.replicate 2 (.pipe (.run () true))++
  [.pipe (.sendCompleted () 3)]++List.replicate 5 (.pipe (.run () true))++
  [.pipe (.sendCompleted () 2)]++List.replicate 6 (.pipe (.run () true))++
  [.pipe (.sendCompleted () 4)]

/-- A step of the only thread of a server that sends small packets. -/
def sendsAlone : Downlink.Action Unit Bool → Bool
  | .send _ _ | .pipe (.run _ _) | .pipe (.sendCompleted _ _) => true
  | _ => false

theorem ok_of_sendsAlone {a : Downlink.Action Unit Bool} (h : sendsAlone a) (x : Downlink Unit) :
    Downlink.Ok twoMessages x a := by
  have hsmall : ∀ b, twoMessages.byteSizeLong b ≤ 65531 := by decide
  cases a with
  | send t b => exact hsmall b
  | pipe a =>
    cases a with
    | run t ok =>
      intro ht hon u hu
      rw [ht] at hu
      cases hu
    | sendCompleted t n => trivial
    | _ => cases h
  | _ => cases h

theorem client_dispatches_accepted_packets_downlinkTwo :
    ∃ s : Downlink Unit, Reaches (Downlink.step twoMessages fun _ => some fun _ => true)
      (Downlink.Ok twoMessages) (Downlink.init false) s ∧
      s.client.dispatched=[[5,0,233,3,7],[4,0,239,3]] ∧
      ∃ pkts sent : List Bool,
        s.server.session.accepted.map SendBuffer.bytes=pkts.map (frameOf twoMessages) ∧ sent=pkts ∧
        s.client.dispatched=sent.map (frameOf twoMessages) := by
  let handlers : Handlers := fun _ => some fun _ => true
  obtain ⟨s,hs,hdelivered,hclient,hwire,haccepted⟩ : ∃ s : Downlink Unit,
      runActions (Downlink.step twoMessages handlers) (Downlink.init false) downlinkTwo=some s ∧
      s.delivered=0 ∧ s.client=Receiver.init ∧
      s.server.session.wire=[5,0,233,3,7,4,0,239,3] ∧
      streamOf s.server.session.accepted=[5,0,233,3,7,4,0,239,3] := ⟨_,rfl,rfl,rfl,rfl,rfl⟩
  have hsent : Reaches (Downlink.step twoMessages handlers) (Downlink.Ok twoMessages)
      (Downlink.init false) s :=
    Reaches.of_admitted downlinkTwo
      (fun a ha => ok_of_sendsAlone (List.all_eq_true.mp (by decide) a ha)) hs
  -- the network delivers three bytes first, then the others
  have hparse : parse packetFormat ([]++[[5,0,233],[3,7,4,0,239,3]].flatten)=
      ⟨[[5,0,233,3,7],[4,0,239,3]],[],false⟩ := by
    simp [parse,packetFormat,headerSize]
  have hanswer : ∀ f∈(parse packetFormat ([]++[[5,0,233],[3,7,4,0,239,3]].flatten)).frames,
      Answered handlers f := by
    rw [hparse]
    simp only [List.forall_mem_cons]
    exact ⟨⟨⟨5,1001⟩,fun _ => true,rfl,rfl,rfl⟩,⟨⟨4,1007⟩,fun _ => true,rfl,rfl,rfl⟩,by simp⟩
  have hfits : Fits handlers Receiver.init [[5,0,233],[3,7,4,0,239,3]] :=
    fits_of_small Receiver.inv_init hanswer (by simp [NetWork.bufferSize])
  obtain ⟨heq,hfits'⟩ := receive_eq Receiver.exact_init Receiver.inv_init hanswer hfits
  obtain ⟨c,hc,hexact,-⟩ := Receiver.receive_exact Receiver.exact_init Receiver.inv_init hfits'
  have hon : c.isConnect=true := by
    by_contra hoff
    have hmalformed := hexact.malformed.mp (Bool.eq_false_iff.mpr hoff)
    rw [hparse] at hmalformed
    cases hmalformed
  have hreceive := heq.trans hc
  rw [← hclient] at hfits hreceive
  have hpieces : [[5,0,233],[3,7,4,0,239,3]].flatten<+:s.server.session.wire.drop s.delivered := by
    rw [hdelivered,hwire]
    exact ⟨[],rfl⟩
  have hdeliver := Downlink.deliver_run (m:=twoMessages) hfits hreceive
    (by rw [hdelivered]; exact Nat.zero_le _) hpieces
  have hreach := hsent.trans (Reaches.of_admitted _ (fun a ha x => by
    obtain ⟨bytes,-,rfl⟩ := List.mem_map.mp ha
    trivial) hdeliver)
  obtain ⟨pkts,sent,hpkts,-,hsentAll,-,hall⟩ :=
    client_dispatches_accepted_packets twoMessages handlers false _ hreach
  refine ⟨_,hreach,by rw [hexact.frames,hparse],pkts,sent,hpkts,hall hon ?_,hsentAll⟩
  rw [haccepted,hdelivered]
  rfl

end IocpServer.TestClient
