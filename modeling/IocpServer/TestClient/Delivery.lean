import IocpServer.TestClient.ClientPacketHandler
import IocpServer.TestClient.SendPipeline

namespace IocpServer.TestClient

open NetWork (SendBuffer Receiver streamOf packetFormat)
open Framing (WellFormed)
open Game (Codec Request)

variable {P : Type}

/-- A buffer that `MakeSendBuffer` made, with its packet. -/
structure Outgoing (pb : Protobuf P) where
  pkt : P
  sendBuffer : SendBuffer
  made : makeSendBuffer pb pkt=some sendBuffer

def makeOutgoing (pb : Protobuf P) (pkt : P) : Option (Outgoing pb) :=
  match h : makeSendBuffer pb pkt with
  | none => none
  | some b => some ⟨pkt,b,h⟩

/-- A client all of whose buffers come from `MakeSendBuffer`. -/
def outgoingEnv (pb : Protobuf P) (codec : Codec) (request : Request → P) (pong : Nat → P) :
    Env (Outgoing pb) :=
  ⟨codec,Outgoing.sendBuffer,fun r => makeOutgoing pb (request r),fun n => makeOutgoing pb (pong n)⟩

/-- A client, its connection and the receiving half of the server's session. `delivered` counts the
transmitted bytes that the server has received. -/
structure Link (T β : Type) where
  client : State T β
  delivered : Nat
  server : Receiver

namespace Link

variable {T β : Type}

/-- `deliver` is a receive completion of the server with the next bytes of the connection, with what
`is_connected()` answers meanwhile; `serverDisconnect` ends the session from another thread. -/
inductive Action (T β : Type) where
  | client (a : Pool.Action T Choice (Entry β))
  | deliver (n : Nat) (isConnected : Nat → Bool)
  | serverDisconnect

def init (botIndex : UInt32) : Link T β :=
  ⟨Pool.State.init (TestSession.init botIndex),0,Receiver.init⟩

def step [DecidableEq T] (e : Env β) (s : Link T β) : Action T β → Option (Link T β)
  | .client a => (TestClient.step e s.client a).map fun c => { s with client := c }
  | .deliver n isConnected =>
    if s.delivered+n ≤ s.client.core.wire.length ∧
        (s.server.isConnect=true → n ≤ s.server.recvBuffer.freeSize) then
      (s.server.processRecv isConnected ((s.client.core.wire.drop s.delivered).take n)).map fun r =>
        { s with server := r, delivered := s.delivered+n }
    else none
  | .serverDisconnect => some { s with server := s.server.disconnect }

end Link

theorem exec_wire {β : Type} {e : Env β} {c c' : TestSession β} {o : Choice} {f : Frame β}
    {fs : List (Frame β)} (h : exec e c o f=some (c',fs)) : c'.wire=c.wire := by
  cases exec_move h with
  | nothing | registerSend | sendFailed =>
    obtain ⟨queue,ev,hdrain⟩ := c.drain_eq e
    rw [hdrain]
  | disconnect =>
    unfold TestSession.disconnect
    split
    · rfl
    · split <;> rfl
  | completeLogin | completeEnterRoom | completeExitRoom => rw [(exec_other rfl h).1]
  | _ => rfl

theorem enter_wire {β : Type} {e : Env β} {c c' : TestSession β} {en : Entry β}
    {fs : List (Frame β)} (h : enter e c en=some (c',fs)) : c.wire<+:c'.wire := by
  cases en with
  | connect ok =>
    cases h
    unfold TestSession.connect
    split
    · exact List.prefix_rfl
    · split <;> exact List.prefix_rfl
  | recvCompleted n =>
    simp only [enter] at h
    split at h <;> cases h
    exact List.prefix_rfl
  | sendCompleted index n =>
    simp only [enter] at h
    split at h
    · cases h
    · split at h <;> cases h
      exact List.prefix_rfl
  | transmit index n =>
    simp only [enter] at h
    split at h
    · cases h
    · split at h <;> cases h
      exact List.prefix_append _ _
  | _ =>
    cases h
    exact List.prefix_rfl

/-- Transmitted bytes are never taken back. -/
theorem step_wire {T β : Type} [Fintype T] [DecidableEq T] {e : Env β} {s s' : State T β}
    {a : Pool.Action T Choice (Entry β)} (h : step e s a=some s') : s.core.wire<+:s'.core.wire := by
  rcases Pool.step_cases h with ⟨t,o,f,fs,m,-,-,hx,-⟩|⟨t,en,fs,-,hx,-⟩
  · rw [exec_wire hx]
  · exact enter_wire hx

namespace Link

variable {T β : Type} [Fintype T] [DecidableEq T]

/-- The client sends what it accepted, and the server has received the first bytes of that. -/
structure Inv (e : Env β) (s : Link T β) : Prop where
  client : Pipe.Inv e s.client.core.toPipe (Pool.pending s.client.calls)
  delivered : s.delivered ≤ s.client.core.wire.length
  server : s.server.Inv (s.client.core.wire.take s.delivered)

omit [DecidableEq T] in
theorem inv_init (e : Env β) (botIndex : UInt32) : Inv e (init botIndex : Link T β) where
  client := by
    rw [init,Pool.pending_init]
    exact Pipe.inv_init e botIndex
  delivered := Nat.le_refl 0
  server := Receiver.inv_init

theorem Inv.step {e : Env β} {s s' : Link T β} {a : Action T β} (hi : Inv e s)
    (h : step e s a=some s') : Inv e s' := by
  cases a with
  | client a =>
    obtain ⟨c,hc,rfl⟩ := Option.map_eq_some_iff.mp h
    obtain ⟨more,hmore⟩ := step_wire hc
    have hdelivered := hi.delivered
    refine ⟨?_,?_,?_⟩
    · rcases Pool.step_cases hc with ⟨t,o,f,fs,m,-,-,hx,hm,hm'⟩|⟨t,en,fs,-,hx,hm'⟩
      · rw [hm']
        exact exec_inv (hm ▸ hi.client) hx
      · rw [hm']
        exact enter_inv hi.client hx
    · rw [← hmore,List.length_append]
      exact Nat.le_add_right_of_le hdelivered
    · rw [← hmore,List.take_append_of_le_length hdelivered]
      exact hi.server
  | deliver n isConnected =>
    simp only [Link.step] at h
    split at h
    · rename_i hn
      obtain ⟨r,hr,rfl⟩ := Option.map_eq_some_iff.mp h
      have hlen : ((s.client.core.wire.drop s.delivered).take n).length=n := by
        rw [List.length_take,List.length_drop]
        omega
      have hfit : s.server.isConnect=true →
          ((s.client.core.wire.drop s.delivered).take n).length ≤ s.server.recvBuffer.freeSize :=
        fun hon => hlen.symm ▸ hn.2 hon
      obtain ⟨r',hr',hinv⟩ := hi.server.step isConnected hfit
      cases hr.symm.trans hr'
      refine ⟨hi.client,hn.1,?_⟩
      rw [List.take_add]
      exact hinv
    · cases h
  | serverDisconnect =>
    cases h
    have hoff := hi.server.disconnect []
    rw [List.append_nil] at hoff
    exact ⟨hi.client,hi.delivered,hoff⟩

omit [Fintype T] in
/-- A run of the client is one of the link. -/
theorem reaches_client {e : Env β} {s : Link T β} {c : State T β}
    (h : Reaches (TestClient.step e) Any s.client c) :
    Reaches (Link.step e) Any s { s with client := c } := by
  refine h.invariant (P:=fun c => Reaches (Link.step e) Any s { s with client := c }) Reaches.refl ?_
  intro c a c' hr _ hs
  refine hr.tail (a:=.client a) trivial ?_
  simp only [Link.step,hs]
  rfl

omit [Fintype T] in
/-- The network may deliver what is on the wire in any pieces for which the server has room. -/
theorem deliver_run {e : Env β} {s : Link T β} {chunks : List (List UInt8)} {r : Receiver}
    (hfit : s.server.Fits chunks) (hreceive : s.server.receive chunks=some r)
    (hdelivered : s.delivered ≤ s.client.core.wire.length)
    (hwire : chunks.flatten<+:s.client.core.wire.drop s.delivered) :
    runActions (Link.step e) s (chunks.map fun bytes => .deliver bytes.length fun _ => true)=
      some { s with server := r, delivered := s.delivered+chunks.flatten.length } := by
  induction chunks generalizing s with
  | nil =>
    cases hreceive
    rfl
  | cons bytes chunks ih =>
    obtain ⟨hroom,hrest⟩ := hfit
    rw [Receiver.receive,List.foldlM_cons] at hreceive
    obtain ⟨server,hserver,hreceive⟩ := Option.bind_eq_some_iff.mp hreceive
    rw [List.flatten_cons] at hwire
    obtain ⟨hle,hnext,hlater⟩ := Framing.take_piece hdelivered hwire
    have hstep : Link.step e s (.deliver bytes.length fun _ => true)=
        some { s with server := server, delivered := s.delivered+bytes.length } := by
      simp only [Link.step,hnext,hserver]
      exact if_pos ⟨hle,fun hon => (hroom hon).2⟩
    have hrun := ih (s:={ s with server := server, delivered := s.delivered+bytes.length })
      (hrest server hserver) hreceive hle hlater
    simp only [List.map_cons,runActions,hstep,Option.bind_some,hrun,List.flatten_cons,
      List.length_append,Nat.add_assoc]

end Link

/-- What the server dispatches are the first of the packets that the client accepted, each with its id
and payload. -/
theorem server_dispatches_accepted_packets {T : Type} [Fintype T] [DecidableEq T] (pb : Protobuf P)
    (codec : Codec) (request : Request → P) (pong : Nat → P) (botIndex : UInt32)
    (s : Link T (Outgoing pb))
    (h : Reaches (Link.step (outgoingEnv pb codec request pong)) Any (Link.init botIndex) s) :
    ∃ sent, sent<+:s.client.core.accepted ∧
      s.server.dispatched.map readPacket=
        sent.map (fun b => (pb.serializeToArray b.pkt).map fun bytes => (pb.packetId b.pkt,bytes)) ∧
      s.server.dispatched.map (parsePacket pb)=sent.map fun b => some b.pkt := by
  have hi : Link.Inv (outgoingEnv pb codec request pong) s :=
    h.invariant (Link.inv_init _ botIndex) fun _ _ _ hi _ hs => hi.step hs
  let bytes : Outgoing pb → List UInt8 := fun b => b.sendBuffer.bytes
  have hspec : ∀ b : Outgoing pb, WellFormed packetFormat (bytes b) ∧
      readPacket (bytes b)=(pb.serializeToArray b.pkt).map (fun p => (pb.packetId b.pkt,p)) ∧
      parsePacket pb (bytes b)=some b.pkt := fun b => makeSendBuffer_spec b.made
  have hstream : Pipe.stream (outgoingEnv pb codec request pong) s.client.core.accepted=
      (s.client.core.accepted.map bytes).flatten := by
    simp only [Pipe.stream,streamOf,List.map_map]
    rfl
  have hflat : s.server.dispatched.flatten<+:(s.client.core.accepted.map bytes).flatten := by
    have hsent := hi.client.sent
    rw [hstream] at hsent
    exact hi.server.sent.trans ((List.take_prefix _ _).trans hsent)
  have hframes : ∀ f∈s.client.core.accepted.map bytes, WellFormed packetFormat f := by
    intro f hf
    obtain ⟨b,-,rfl⟩ := List.mem_map.mp hf
    exact (hspec b).1
  have htake := Framing.frames_isPrefix hi.server.frames hframes hflat
  rw [List.prefix_iff_eq_take,← List.map_take] at htake
  refine ⟨s.client.core.accepted.take s.server.dispatched.length,List.take_prefix _ _,?_⟩
  generalize s.client.core.accepted.take s.server.dispatched.length=sent at htake
  rw [htake,List.map_map,List.map_map]
  exact ⟨List.map_congr_left fun b _ => (hspec b).2.1,List.map_congr_left fun b _ => (hspec b).2.2⟩

/-- A protocol of two packets. -/
def twoPackets : Protobuf Bool where
  packetId b := if b then 1000 else 1004
  byteSizeLong b := if b then 1 else 0
  serializeToArray b := some (if b then [7] else [])
  parseFromArray id bytes := if id=1000 ∧ bytes=[7] then some true else
    if id=1004 ∧ bytes=[] then some false else none
  packetId_lt := by decide
  byteSizeLong_eq := by
    intro b bytes h
    cases b <;> cases h <;> rfl
  parse_serialize := by
    intro b bytes h
    cases b <;> cases h <;> rfl

/-- The client sends two packets: the first in two pieces, the second behind it. -/
def uplinkTwo : List (Pool.Action Unit Choice (Entry (Outgoing twoPackets))) :=
  let ok : Choice := ⟨true,.wait⟩
  [.enter () (.connect true),.enter () (.send (makeOutgoing twoPackets true)),.run () ok,.run () ok,
    .enter () (.send (makeOutgoing twoPackets false)),.run () ok,
    .enter () (.transmit 0 3),.enter () (.sendCompleted 0 3),.run () ok,.run () ok,
    .enter () (.transmit 0 2),.enter () (.sendCompleted 0 2),.run () ok,.run () ok,
    .enter () (.transmit 0 4)]

theorem server_dispatches_accepted_packets_uplinkTwo :
    ∃ (codec : Codec) (request : Request → Bool) (pong : Nat → Bool)
      (s : Link Unit (Outgoing twoPackets)),
      Reaches (Link.step (outgoingEnv twoPackets codec request pong)) Any (Link.init 0) s ∧
      s.server.dispatched=[[5,0,232,3,7],[4,0,236,3]] ∧
      ∃ sent, sent<+:s.client.core.accepted ∧
        sent.map (fun b => some b.pkt)=[some true,some false] := by
  let codec : Codec := ⟨fun _ => [],fun _ => []⟩
  let e := outgoingEnv twoPackets codec (fun _ => true) (fun _ => false)
  have hrun : (runActions (step e)
      (Pool.State.init (TestSession.init 0) : State Unit (Outgoing twoPackets)) uplinkTwo).map
        (fun s => s.core.wire)=some [5,0,232,3,7,4,0,236,3] := by
    decide +kernel
  obtain ⟨c,hc,hwire⟩ := Option.map_eq_some_iff.mp hrun
  have hclient : Reaches (step e) Any (Link.init 0 : Link Unit (Outgoing twoPackets)).client c :=
    Reaches.of_runActions (fun _ _ => trivial) _ hc
  have hlink := Link.reaches_client hclient
  -- the network delivers three bytes first, then the others
  have hfits : Receiver.init.Fits [[5,0,232],[3,7,4,0,236,3]] :=
    Receiver.fits_of_small Receiver.inv_init (by simp [NetWork.bufferSize])
  obtain ⟨r,hr,hexact,-⟩ := Receiver.receive_exact Receiver.exact_init Receiver.inv_init hfits
  have hframes : r.dispatched=[[5,0,232,3,7],[4,0,236,3]] := by
    have hparse : Framing.parse packetFormat [5,0,232,3,7,4,0,236,3]=
        ⟨[[5,0,232,3,7],[4,0,236,3]],[],false⟩ := by
      simp [Framing.parse,packetFormat,NetWork.headerSize]
    exact hexact.frames.trans (congrArg Framing.Parsed.frames hparse)
  have hpieces : [[5,0,232],[3,7,4,0,236,3]].flatten<+:c.core.wire.drop 0 := by
    rw [hwire]
    exact ⟨[],rfl⟩
  have hdeliver := Link.deliver_run (e:=e) (s:=⟨c,0,Receiver.init⟩) hfits hr (Nat.zero_le _) hpieces
  have hreach := hlink.trans (Reaches.of_runActions (fun _ _ => trivial) _ hdeliver)
  obtain ⟨sent,hsent,-,hparsed⟩ :=
    server_dispatches_accepted_packets twoPackets codec _ _ 0 _ hreach
  refine ⟨codec,_,_,_,hreach,hframes,sent,hsent,?_⟩
  rw [← hparsed,hframes]
  decide +kernel

end IocpServer.TestClient
