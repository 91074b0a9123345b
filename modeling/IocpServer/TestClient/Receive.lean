import IocpServer.NetWork.Receive

namespace IocpServer.TestClient

open NetWork (RecvBuffer PacketHeader Received Receiver headerSize readHeader packetFormat onRecvLoop)
open Framing (Parsed parse WellFormed)

/-- `MAX_PACKET_SIZE`. -/
def maxPacketSize : Nat := 0x10000

/-- `GPacketHandler`: the handler of a packet id, if there is one, with what it returns. -/
abbrev Handlers := Nat → Option (List UInt8 → Bool)

/-- The handler that `HandlePacket` calls for an id; the table ends before the last id. -/
def Handlers.find (handlers : Handlers) (id : Nat) : Option (List UInt8 → Bool) :=
  if 0xffff ≤ id then none else handlers id

/-- `ClientPacketHandler::HandlePacket`; `none` is a read outside the packet. -/
def handlePacket (handlers : Handlers) (buffer : List UInt8) (len : Nat) : Option Bool :=
  if len<headerSize then some false
  else match readHeader buffer 0 with
    | none => none
    | some header =>
      if header.size≠len then some false
      else match handlers.find header.id with
        | none => some false
        | some handler => some (handler buffer)

/-- How the loop of `process_recv` ends: behind `processLen` bytes, or in a `return` after it closed
the connection. -/
structure Processed where
  processLen : Option Nat
  packets : List (List UInt8)

/-- The loop of `TestSession::process_recv` from `processLen` on, with the packets on which it called
`HandlePacket`. `isConnected n` is what `is_connected()` answers when `n` bytes are processed. -/
def processLoop (handlers : Handlers) (isConnected : Nat → Bool) (data : List UInt8)
    (processLen : Nat) : Option Processed :=
  if data.length-processLen<headerSize then some ⟨some processLen,[]⟩
  else match readHeader data processLen with
    | none => none
    | some header =>
      if header.size<headerSize then some ⟨none,[]⟩
      else if maxPacketSize<header.size then some ⟨none,[]⟩
      else if data.length-processLen<header.size then some ⟨some processLen,[]⟩
      else match NetWork.readPacket data processLen header.size with
        | none => none
        | some packet =>
          match handlePacket handlers packet header.size with
          | none => none
          | some false => some ⟨none,[packet]⟩
          | some true =>
            if isConnected (processLen+header.size) then
              (processLoop handlers isConnected data (processLen+header.size)).map fun r =>
                ⟨r.processLen,packet::r.packets⟩
            else some ⟨some (processLen+header.size),[packet]⟩
termination_by data.length-processLen
decreasing_by
  simp only [headerSize] at *
  omega

/-- `TestSession::process_recv` for a completion that stored `bytes`. The client's `RecvBuffer` has
the methods of the server's. -/
def processRecv (handlers : Handlers) (isConnected : Nat → Bool) (s : Receiver)
    (bytes : List UInt8) : Option Receiver :=
  if s.isConnect=false then some s
  else if bytes.length=0 then some s.disconnect
  else match (s.recvBuffer.fill bytes).onWrite bytes.length with
    | none => some s.disconnect
    | some recvBuffer => do
      let r ← processLoop handlers isConnected recvBuffer.data 0
      let s : Receiver := ⟨recvBuffer,true,s.dispatched++r.packets⟩
      match r.processLen with
      | none => return s.disconnect
      | some processLen =>
        if recvBuffer.dataSize<processLen then return s.disconnect
        else match recvBuffer.onRead processLen with
          | none => return s.disconnect
          | some recvBuffer =>
            return { s with
              recvBuffer := recvBuffer.clean
              isConnect := isConnected processLen }

/-- Completions of a client whose handlers do not disconnect. -/
def receive (handlers : Handlers) (s : Receiver) (chunks : List (List UInt8)) : Option Receiver :=
  chunks.foldlM (processRecv handlers fun _ => true) s

/-- The packet has a handler, and it returns true. -/
def Answered (handlers : Handlers) (packet : List UInt8) : Prop :=
  ∃ header handler, readHeader packet 0=some header ∧ handlers.find header.id=some handler ∧
    handler packet=true

/-- The header of a frame holds its length, which is what `HandlePacket` compares. -/
theorem readHeader_of_wellFormed {packet : List UInt8} (h : WellFormed packetFormat packet) :
    ∃ header, readHeader packet 0=some header ∧ header.size=packet.length := by
  obtain ⟨id,hread⟩ := NetWork.readHeader_of_le (show 0+headerSize ≤ packet.length by rw [Nat.zero_add]; exact h.1)
  exact ⟨_,hread,h.2⟩

theorem handlePacket_of_answered {handlers : Handlers} {packet : List UInt8}
    (h : WellFormed packetFormat packet) (ha : Answered handlers packet) :
    handlePacket handlers packet packet.length=some true := by
  obtain ⟨header,handler,hread,hfind,htrue⟩ := ha
  obtain ⟨header',hread',hsize⟩ := readHeader_of_wellFormed h
  cases hread.symm.trans hread'
  have hlen : ¬packet.length<headerSize := Nat.not_lt.mpr h.1
  simp only [handlePacket,if_neg hlen,hread,hsize,ne_eq,not_true_eq_false,if_false,hfind,htrue]

theorem readPacket_length {data packet : List UInt8} {pos size : Nat}
    (h : NetWork.readPacket data pos size=some packet) : packet.length=size := by
  unfold NetWork.readPacket at h
  split at h
  · cases h
    rw [List.length_take,List.length_drop]
    omega
  · cases h

/-- What the client's loop returns where the server's loop returns `r`. -/
def processed (r : Received) : Processed :=
  ⟨if r.processLen<0 then none else some r.processLen.toNat,r.packets⟩

/-- With handlers that return true the client's loop is the server's. -/
theorem processLoop_eq {handlers : Handlers} {isConnected : Nat → Bool} {data : List UInt8}
    {pos : Nat} {r : Received} (h : onRecvLoop isConnected data pos=some r)
    (hok : ∀ f∈r.packets, handlePacket handlers f f.length=some true) :
    processLoop handlers isConnected data pos=some (processed r) := by
  fun_induction onRecvLoop isConnected data pos generalizing r with
  | case1 pos hshort =>
    cases h
    rw [processLoop,if_pos hshort]
    rfl
  | case2 pos hshort hread => cases h
  | case3 pos hshort header hread hsmall =>
    cases h
    rw [processLoop,if_neg hshort,hread]
    exact if_pos hsmall
  | case4 pos hshort header hread hsmall hbig =>
    cases h
    rw [processLoop,if_neg hshort,hread]
    simp only [if_neg hsmall]
    exact if_pos hbig
  | case5 pos hshort header hread hsmall hbig hwait =>
    cases h
    rw [processLoop,if_neg hshort,hread]
    simp only [if_neg hsmall,if_neg (show ¬maxPacketSize<header.size from hbig),if_pos hwait]
    rfl
  | case6 pos hshort header hread hsmall hbig hwait hpacket => cases h
  | case7 pos hshort header hread hsmall hbig hwait packet hpacket hconnected ih =>
    obtain ⟨r',hr',hr⟩ := Option.map_eq_some_iff.mp h
    cases hr
    have hlen := readPacket_length hpacket
    have hhead := hok packet List.mem_cons_self
    rw [hlen] at hhead
    have htail := ih hr' fun f hf => hok f (List.mem_cons_of_mem packet hf)
    rw [processLoop,if_neg hshort,hread]
    simp only [if_neg hsmall,if_neg (show ¬maxPacketSize<header.size from hbig),if_neg hwait,hpacket,
      hhead,if_pos hconnected,htail]
    rfl
  | case8 pos hshort header hread hsmall hbig hwait packet hpacket hconnected =>
    cases h
    have hlen := readPacket_length hpacket
    have hhead := hok packet List.mem_cons_self
    rw [hlen] at hhead
    rw [processLoop,if_neg hshort,hread]
    simp only [if_neg hsmall,if_neg (show ¬maxPacketSize<header.size from hbig),if_neg hwait,hpacket,
      hhead,if_neg hconnected]
    rfl

/-- With handlers that return true a completion does to the client what it does to the server. -/
theorem processRecv_eq {handlers : Handlers} {isConnected : Nat → Bool} {s : Receiver}
    {bytes : List UInt8}
    (hok : ∀ b r, (s.recvBuffer.fill bytes).onWrite bytes.length=some b →
      NetWork.onRecv isConnected b.data=some r →
      ∀ f∈r.packets, handlePacket handlers f f.length=some true) :
    processRecv handlers isConnected s bytes=s.processRecv isConnected bytes := by
  unfold processRecv Receiver.processRecv
  split
  · rfl
  split
  · rfl
  cases hwrite : (s.recvBuffer.fill bytes).onWrite bytes.length with
  | none => rfl
  | some b =>
    obtain ⟨r,n,hr,hprogress⟩ :=
      NetWork.onRecvLoop_progress isConnected b.data 0 (Nat.zero_le _)
    have hloop := processLoop_eq hr (hok b r hwrite hr)
    simp only [NetWork.onRecv,hr,hloop,Option.bind_eq_bind,Option.bind_some,processed]
    by_cases hneg : r.processLen<0
    · rw [if_pos hneg,if_pos (Or.inl hneg)]
    rw [if_neg hneg]
    by_cases hle : b.dataSize < r.processLen.toNat
    · rw [if_pos (Or.inr (by omega))]
      exact if_pos hle
    · rw [if_neg (by omega)]
      exact if_neg hle

/-- Completions of a connected client are not empty and no larger than the free space that was
registered. -/
def Fits (handlers : Handlers) (s : Receiver) : List (List UInt8) → Prop
  | [] => True
  | bytes::chunks =>
    (s.isConnect=true → bytes≠[] ∧ bytes.length ≤ s.recvBuffer.freeSize) ∧
      ∀ s', processRecv handlers (fun _ => true) s bytes=some s' → Fits handlers s' chunks

theorem parse_frames_mono {stream packet : List UInt8} (bytes : List UInt8)
    (h : packet∈(parse packetFormat stream).frames) :
    packet∈(parse packetFormat (stream++bytes)).frames := by
  rw [Framing.parse_append]
  split
  · exact h
  · exact List.mem_append_left _ h

theorem processRecv_eq_of_answered {handlers : Handlers} {stream bytes : List UInt8} {s : Receiver}
    (hi : s.Inv stream)
    (hok : ∀ f∈(parse packetFormat (stream++bytes)).frames, Answered handlers f) :
    processRecv handlers (fun _ => true) s bytes=s.processRecv (fun _ => true) bytes := by
  by_cases hconnect : s.isConnect=true
  swap
  · have hoff : s.isConnect=false := Bool.eq_false_iff.mpr hconnect
    rw [processRecv,Receiver.processRecv,if_pos hoff,if_pos hoff]
  have hparse := (hi.live hconnect).parse_append hi.frames bytes
  apply processRecv_eq
  intro b r hwrite hr f hf
  obtain ⟨r',n,hr',hprogress⟩ :=
    NetWork.onRecvLoop_progress (fun _ => true) b.data 0 (Nat.zero_le _)
  cases hr'.symm.trans hr
  rw [hprogress.parse.1,RecvBuffer.data_of_onWrite hwrite] at hf
  have hframe := (Framing.parse_sound (F := packetFormat) (s.recvBuffer.data++bytes)).2 f hf
  apply handlePacket_of_answered hframe
  apply hok
  rw [hparse]
  exact List.mem_append_right _ hf

/-- The client and the server take the same completions to the same state. -/
theorem receive_eq {handlers : Handlers} {chunks : List (List UInt8)} {stream : List UInt8}
    {s : Receiver} (he : s.Exact stream) (hi : s.Inv stream)
    (hok : ∀ f∈(parse packetFormat (stream++chunks.flatten)).frames, Answered handlers f)
    (hfit : Fits handlers s chunks) :
    receive handlers s chunks=s.receive chunks ∧ s.Fits chunks := by
  induction chunks generalizing stream s with
  | nil => exact ⟨rfl,trivial⟩
  | cons bytes chunks ih =>
    obtain ⟨hbytes,hchunks⟩ := hfit
    rw [List.flatten_cons,← List.append_assoc] at hok
    have hstep := processRecv_eq_of_answered hi fun f hf => hok f (parse_frames_mono _ hf)
    obtain ⟨s₁,hrun,hi₁⟩ := hi.step (fun _ => true) fun hon => (hbytes hon).2
    have he₁ := he.step hi hbytes hrun
    obtain ⟨heq,hfits⟩ := ih he₁ hi₁ hok (hchunks s₁ (hstep.trans hrun))
    refine ⟨?_,hbytes,?_⟩
    · rw [receive,Receiver.receive,List.foldlM_cons,List.foldlM_cons,hstep,hrun]
      exact heq
    · intro s' hs'
      cases hrun.symm.trans hs'
      exact hfits

/-- The client, too, always offers room for one packet buffer. -/
theorem fits_of_small {handlers : Handlers} {chunks : List (List UInt8)} {stream : List UInt8}
    {s : Receiver} (hi : s.Inv stream)
    (hok : ∀ f∈(parse packetFormat (stream++chunks.flatten)).frames, Answered handlers f)
    (h : ∀ bytes∈chunks, bytes≠[] ∧ bytes.length ≤ NetWork.bufferSize) :
    Fits handlers s chunks := by
  induction chunks generalizing stream s with
  | nil => trivial
  | cons bytes chunks ih =>
    obtain ⟨hne,hle⟩ := h bytes List.mem_cons_self
    rw [List.flatten_cons,← List.append_assoc] at hok
    have hroom : s.isConnect=true → bytes.length ≤ s.recvBuffer.freeSize :=
      fun hon => Nat.le_trans hle (hi.live hon).room
    have hstep := processRecv_eq_of_answered hi fun f hf => hok f (parse_frames_mono _ hf)
    obtain ⟨s₁,hrun,hi₁⟩ := hi.step (fun _ => true) hroom
    refine ⟨fun hon => ⟨hne,hroom hon⟩,fun s' hs' => ?_⟩
    cases (hstep.trans hrun).symm.trans hs'
    exact ih hi₁ hok fun c hc => h c (List.mem_cons_of_mem bytes hc)

/-- A connected session holds what `parse` leaves of its stream. -/
theorem data_eq_rest {stream : List UInt8} {s : Receiver} (he : s.Exact stream)
    (hi : s.Inv stream) (hon : s.isConnect=true) :
    s.recvBuffer.data=(parse packetFormat stream).rest := by
  have hcut := (hi.live hon).cut
  rw [he.frames] at hcut
  have hsound := (Framing.parse_sound (F := packetFormat) stream).1
  exact List.append_cancel_left (hcut.trans hsound.symm)

/-- Whichever way a stream is cut for the client and for the server, both dispatch its frames, wait
with the same bytes, and disconnect exactly on a malformed header. -/
theorem client_frames_agree (handlers : Handlers) (stream : List UInt8)
    (clientChunks serverChunks : List (List UInt8)) (hclient : clientChunks.flatten=stream)
    (hserver : serverChunks.flatten=stream)
    (hok : ∀ f∈(parse packetFormat stream).frames, Answered handlers f)
    (hfitc : Fits handlers Receiver.init clientChunks) (hfits : Receiver.init.Fits serverChunks) :
    ∃ c s, receive handlers Receiver.init clientChunks=some c ∧
      Receiver.init.receive serverChunks=some s ∧
      c.dispatched=(parse packetFormat stream).frames ∧ c.dispatched=s.dispatched ∧
      (c.isConnect=true → c.recvBuffer.dataSize=s.recvBuffer.dataSize) ∧
      (c.isConnect=false ↔ (parse packetFormat stream).malformed=true) ∧
      (s.isConnect=false ↔ (parse packetFormat stream).malformed=true) ∧
      ∀ f∈c.dispatched, ∃ header, readHeader f 0=some header ∧ header.size=f.length := by
  have hframes := (Framing.parse_sound (F := packetFormat) stream).2
  obtain ⟨heq,hfits'⟩ := receive_eq Receiver.exact_init Receiver.inv_init
    (by rwa [List.nil_append,hclient]) hfitc
  obtain ⟨c,hc,hce,hci⟩ := Receiver.receive_exact Receiver.exact_init Receiver.inv_init hfits'
  obtain ⟨s,hs,hse,hsi⟩ := Receiver.receive_exact Receiver.exact_init Receiver.inv_init hfits
  rw [List.nil_append,hclient] at hce hci
  rw [List.nil_append,hserver] at hse hsi
  refine ⟨c,s,heq.trans hc,hs,hce.frames,hce.frames.trans hse.frames.symm,?_,hce.malformed,
    hse.malformed,?_⟩
  · intro hon
    have hson : s.isConnect=true := by
      by_contra hoff
      have hm := hse.malformed.mp (Bool.eq_false_iff.mpr hoff)
      have hcoff := hce.malformed.mpr hm
      rw [hon] at hcoff
      cases hcoff
    rw [← RecvBuffer.data_length,← RecvBuffer.data_length,data_eq_rest hce hci hon,
      data_eq_rest hse hsi hson]
  · intro f hf
    rw [hce.frames] at hf
    exact readHeader_of_wellFormed (hframes f hf)

/-- A packet that comes byte by byte to the client and at once to the server, with the beginning of
the next one. -/
theorem client_frames_agree_bytewise :
    ∃ c s, receive (fun _ => some fun _ => true) Receiver.init
        [[4],[0],[233],[3],[6],[0]]=some c ∧
      Receiver.init.receive [[4,0,233,3,6,0]]=some s ∧ c.dispatched=[[4,0,233,3]] ∧
      c.isConnect=true ∧ c.recvBuffer.dataSize=s.recvBuffer.dataSize := by
  have hparse : parse packetFormat [4,0,233,3,6,0]=⟨[[4,0,233,3]],[6,0],false⟩ := by
    simp [parse,packetFormat,headerSize]
  have hok : ∀ f∈(parse packetFormat [4,0,233,3,6,0]).frames,
      Answered (fun _ => some fun _ => true) f := by
    rw [hparse]
    intro f hf
    cases List.mem_singleton.mp hf
    exact ⟨⟨4,1001⟩,fun _ => true,rfl,rfl,rfl⟩
  have hfitc : Fits (fun _ => some fun _ => true) Receiver.init [[4],[0],[233],[3],[6],[0]] :=
    fits_of_small Receiver.inv_init hok (by simp [NetWork.bufferSize])
  have hfits : Receiver.init.Fits [[4,0,233,3,6,0]] :=
    Receiver.fits_of_small Receiver.inv_init (by simp [NetWork.bufferSize])
  obtain ⟨c,s,hc,hs,hframes,-,hsize,hoff,-,-⟩ :=
    client_frames_agree _ [4,0,233,3,6,0] _ _ rfl rfl hok hfitc hfits
  rw [hparse] at hframes hoff
  have hon : c.isConnect=true := by
    by_contra h
    cases hoff.mp (Bool.eq_false_iff.mpr h)
  exact ⟨c,s,hc,hs,hframes,hon,hsize hon⟩

end IocpServer.TestClient
