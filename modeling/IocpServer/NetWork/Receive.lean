import IocpServer.Framework.Framing
import IocpServer.NetWork.RecvBuffer

namespace IocpServer.NetWork

open Framing (Format Parsed parse WellFormed)

/-- `BUFFER_SIZE`. -/
def bufferSize : Nat := 0x10000

/-- `sizeof(PacketHeader)`. -/
def headerSize : Nat := 4

structure PacketHeader where
  size : Nat
  id : Nat

/-- A little-endian `uint16` of the received bytes; `none` is a read outside them. -/
def readUint16 (data : List UInt8) (pos : Nat) : Option Nat := do
  let lo ← data[pos]?
  let hi ← data[pos+1]?
  return lo.toNat+256*hi.toNat

def readHeader (data : List UInt8) (pos : Nat) : Option PacketHeader := do
  let size ← readUint16 data pos
  let id ← readUint16 data (pos+2)
  return ⟨size,id⟩

/-- The bytes that are handed to `on_recv_packet`; `none` if some lie outside the received bytes. -/
def readPacket (data : List UInt8) (pos size : Nat) : Option (List UInt8) :=
  if pos+size ≤ data.length then some ((data.drop pos).take size) else none

/-- What `on_recv` returns and the packets with which it called `on_recv_packet`. -/
structure Received where
  processLen : Int
  packets : List (List UInt8)

/-- The loop of `on_recv` from `processLen` on. `isConnected n` is what `is_connected()` answers when
`n` bytes are processed. -/
def onRecvLoop (isConnected : Nat → Bool) (data : List UInt8) (processLen : Nat) : Option Received :=
  if data.length-processLen<headerSize then some ⟨processLen,[]⟩
  else match readHeader data processLen with
    | none => none
    | some header =>
      if header.size<headerSize then some ⟨-1,[]⟩
      else if bufferSize<header.size then some ⟨-1,[]⟩
      else if data.length-processLen<header.size then some ⟨processLen,[]⟩
      else match readPacket data processLen header.size with
        | none => none
        | some packet =>
          if isConnected (processLen+header.size) then
            (onRecvLoop isConnected data (processLen+header.size)).map fun r =>
              ⟨r.processLen,packet::r.packets⟩
          else some ⟨(processLen+header.size : Nat),[packet]⟩
termination_by data.length-processLen
decreasing_by
  simp only [headerSize] at *
  omega

def onRecv (isConnected : Nat → Bool) (data : List UInt8) : Option Received :=
  onRecvLoop isConnected data 0

/-- The receiving half of a session, with the packets on which `on_recv_packet` was called. -/
structure Receiver where
  recvBuffer : RecvBuffer
  isConnect : Bool
  dispatched : List (List UInt8)

namespace Receiver

def init : Receiver := ⟨RecvBuffer.init bufferSize,true,[]⟩

def disconnect (s : Receiver) : Receiver := { s with isConnect := false }

/-- `process_recv` for a completion that stored `bytes`; `none` is a read outside the received
bytes. -/
def processRecv (isConnected : Nat → Bool) (s : Receiver) (bytes : List UInt8) : Option Receiver :=
  if s.isConnect=false then some s
  else if bytes.length=0 then some s.disconnect
  else match (s.recvBuffer.fill bytes).onWrite bytes.length with
    | none => some s.disconnect
    | some recvBuffer => do
      let r ← onRecv isConnected recvBuffer.data
      let s : Receiver := ⟨recvBuffer,true,s.dispatched++r.packets⟩
      if r.processLen<0 ∨ (recvBuffer.dataSize : Int) < r.processLen then return s.disconnect
      else match recvBuffer.onRead r.processLen.toNat with
        | none => return s.disconnect
        | some recvBuffer =>
          return { s with
            recvBuffer := recvBuffer.clean
            isConnect := isConnected r.processLen.toNat }

/-- Completions of a session that nobody else disconnects. -/
def receive (s : Receiver) (chunks : List (List UInt8)) : Option Receiver :=
  chunks.foldlM (processRecv fun _ => true) s

end Receiver

/-- The packets of the protocol: a header whose first field is the size of the packet. -/
def packetFormat : Format UInt8 where
  header := headerSize
  size
    | lo::hi::_ => lo.toNat+256*hi.toNat
    | _ => 0
  header_pos := by decide
  size_append := by
    intro s t h
    match s,h with
    | [],h => cases h
    | [_],h => exact absurd h (by simp [headerSize])
    | _::_::_,_ => rfl

theorem packetFormat_size_le (s : List UInt8) : packetFormat.size s ≤ 0xffff := by
  match s with
  | [] => exact Nat.zero_le _
  | [_] => exact Nat.zero_le _
  | lo::hi::_ =>
    have hlo := lo.toNat_lt
    have hhi := hi.toNat_lt
    simp only [packetFormat]
    omega

theorem readUint16_of_lt {data : List UInt8} {pos : Nat} (h : pos+1<data.length) :
    readUint16 data pos=some (packetFormat.size (data.drop pos)) := by
  have hlo : pos<data.length := by omega
  have hdrop : data.drop pos=data[pos]::data[pos+1]::data.drop (pos+2) := by
    rw [List.drop_eq_getElem_cons hlo,List.drop_eq_getElem_cons h]
  rw [hdrop]
  simp only [readUint16,List.getElem?_eq_getElem hlo,List.getElem?_eq_getElem h]
  rfl

theorem readHeader_of_le {data : List UInt8} {pos : Nat} (h : pos+headerSize ≤ data.length) :
    ∃ id, readHeader data pos=some ⟨packetFormat.size (data.drop pos),id⟩ := by
  simp only [headerSize] at h
  refine ⟨packetFormat.size (data.drop (pos+2)),?_⟩
  simp only [readHeader,readUint16_of_lt (show pos+1<data.length by omega),
    readUint16_of_lt (show pos+2+1<data.length by omega)]
  rfl

/-- Where `on_recv` stops: behind complete packets, and there the bytes wait for more, nobody is
connected any more, or the header is malformed. -/
structure Progress (isConnected : Nat → Bool) (data : List UInt8) (pos : Nat) (r : Received)
    (n : Nat) : Prop where
  le : n ≤ data.length
  cut : r.packets.flatten++data.drop n=data.drop pos
  frames : ∀ f∈r.packets, WellFormed packetFormat f
  stop : r.processLen=n ∧
      (isConnected n=false ∨ parse packetFormat (data.drop n)=⟨[],data.drop n,false⟩) ∨
    r.processLen= -1 ∧ parse packetFormat (data.drop n)=⟨[],data.drop n,true⟩

theorem Progress.stay {isConnected : Nat → Bool} {data : List UInt8} {pos : Nat}
    (hpos : pos ≤ data.length)
    (h : parse packetFormat (data.drop pos)=⟨[],data.drop pos,false⟩) :
    Progress isConnected data pos ⟨pos,[]⟩ pos :=
  ⟨hpos,rfl,nofun,Or.inl ⟨rfl,Or.inr h⟩⟩

theorem Progress.fail {isConnected : Nat → Bool} {data : List UInt8} {pos : Nat}
    (hpos : pos ≤ data.length)
    (h : parse packetFormat (data.drop pos)=⟨[],data.drop pos,true⟩) :
    Progress isConnected data pos ⟨-1,[]⟩ pos :=
  ⟨hpos,rfl,nofun,Or.inr ⟨rfl,h⟩⟩

/-- One packet is processed before the others. -/
theorem Progress.cons {isConnected : Nat → Bool} {data : List UInt8} {pos size n : Nat}
    {r : Received} (hf : WellFormed packetFormat ((data.drop pos).take size))
    (h : Progress isConnected data (pos+size) r n) :
    Progress isConnected data pos ⟨r.processLen,(data.drop pos).take size::r.packets⟩ n where
  le := h.le
  cut := by
    have hcut := h.cut
    rw [List.flatten_cons,List.append_assoc,hcut,← List.drop_drop,List.take_append_drop]
  frames := by
    intro f hf'
    rcases List.mem_cons.mp hf' with rfl|hf'
    · exact hf
    · exact h.frames f hf'
  stop := h.stop

theorem onRecvLoop_progress (isConnected : Nat → Bool) (data : List UInt8) (pos : Nat)
    (hpos : pos ≤ data.length) :
    ∃ r n, onRecvLoop isConnected data pos=some r ∧ Progress isConnected data pos r n := by
  have hlen : (data.drop pos).length=data.length-pos := List.length_drop
  by_cases hshort : data.length-pos<headerSize
  · refine ⟨_,pos,by rw [onRecvLoop,if_pos hshort],Progress.stay hpos ?_⟩
    exact Framing.parse_of_short (by rw [hlen]; exact hshort)
  have hheader : headerSize ≤ (data.drop pos).length := by omega
  obtain ⟨id,hread⟩ := readHeader_of_le (show pos+headerSize ≤ data.length by omega)
  have hmax := packetFormat_size_le (data.drop pos)
  have hmalformed := Framing.parse_of_malformed (F:=packetFormat) hheader
  have hincomplete := Framing.parse_of_incomplete (F:=packetFormat) (s:=data.drop pos)
  have htake := Framing.wellFormed_take (F:=packetFormat) (s:=data.drop pos)
  generalize packetFormat.size (data.drop pos)=size at *
  by_cases hsmall : size<headerSize
  · refine ⟨⟨-1,[]⟩,pos,?_,Progress.fail hpos (hmalformed hsmall)⟩
    rw [onRecvLoop,if_neg hshort,hread]
    exact if_pos hsmall
  have hge : headerSize ≤ size := Nat.not_lt.mp hsmall
  have hbig : ¬bufferSize<size := by
    simp only [bufferSize]
    omega
  by_cases hwait : data.length-pos<size
  · refine ⟨⟨pos,[]⟩,pos,?_,Progress.stay hpos (hincomplete hge (by omega))⟩
    rw [onRecvLoop,if_neg hshort,hread]
    simp only [if_neg hsmall,if_neg hbig,if_pos hwait]
  have hle : pos+size ≤ data.length := by omega
  have hpacket : readPacket data pos size=some ((data.drop pos).take size) := if_pos hle
  have hframe := htake hge (by omega)
  by_cases hconnected : isConnected (pos+size)
  · obtain ⟨r,n,hr,hprogress⟩ := onRecvLoop_progress isConnected data (pos+size) hle
    refine ⟨_,n,?_,hprogress.cons hframe⟩
    rw [onRecvLoop,if_neg hshort,hread]
    simp only [if_neg hsmall,if_neg hbig,if_neg hwait,hpacket,if_pos hconnected,hr,Option.map_some]
  · have hstop : Progress isConnected data (pos+size) ⟨(pos+size : Nat),[]⟩ (pos+size) :=
      ⟨hle,rfl,nofun,Or.inl ⟨rfl,Or.inl (Bool.eq_false_iff.mpr hconnected)⟩⟩
    refine ⟨_,pos+size,?_,hstop.cons hframe⟩
    rw [onRecvLoop,if_neg hshort,hread]
    simp only [if_neg hsmall,if_neg hbig,if_neg hwait,hpacket,if_neg hconnected]
termination_by data.length-pos
decreasing_by
  simp only [headerSize] at *
  omega

/-- On a connected session the bytes behind the last packet are all that `parse` leaves. -/
theorem Progress.parse {data : List UInt8} {r : Received} {n : Nat}
    (h : Progress (fun _ => true) data 0 r n) :
    r.packets=(parse packetFormat data).frames ∧
    ((parse packetFormat data).malformed=true ↔ r.processLen= -1) := by
  have hdata := h.cut
  have hpackets := Framing.parse_flatten h.frames
  rw [List.drop_zero] at hdata
  rw [← hdata,Framing.parse_append,hpackets]
  rcases h.stop with ⟨hlen,hstop⟩|⟨hlen,hstop⟩
  · rcases hstop with hstop|hstop
    · cases hstop
    · simp only [List.nil_append,hstop,hlen]
      simp
  · simp [hstop,hlen]

namespace Receiver

/-- A connected session: what it dispatched and what it holds is all it received, the bytes it holds
wait for more, and there is room for them. -/
structure Live (stream : List UInt8) (s : Receiver) : Prop where
  cut : s.dispatched.flatten++s.recvBuffer.data=stream
  waits : parse packetFormat s.recvBuffer.data=⟨[],s.recvBuffer.data,false⟩
  size : s.recvBuffer.bufferSize=bufferSize
  room : bufferSize ≤ s.recvBuffer.freeSize

/-- What holds of a session after it received `stream`, whoever disconnects it. -/
structure Inv (stream : List UInt8) (s : Receiver) : Prop where
  frames : ∀ f∈s.dispatched, WellFormed packetFormat f
  sent : s.dispatched.flatten<+:stream
  live : s.isConnect=true → Live stream s

theorem inv_init : Inv [] init where
  frames := nofun
  sent := List.nil_prefix
  live _ := by
    have hdata : init.recvBuffer.data=[] := RecvBuffer.data_init bufferSize
    refine ⟨hdata,?_,rfl,?_⟩
    · rw [hdata]
      exact Framing.parse_nil
    · have hfree : init.recvBuffer.freeSize=bufferSize*10 := RecvBuffer.freeSize_init bufferSize
      omega

theorem Inv.disconnect {stream : List UInt8} {s : Receiver} (h : Inv stream s)
    (bytes : List UInt8) : Inv (stream++bytes) s.disconnect :=
  ⟨h.frames,h.sent.trans (List.prefix_append _ _),nofun⟩

/-- A completion with bytes that fit: `on_recv` processes what was held and what came. -/
theorem processRecv_progress (isConnected : Nat → Bool) {stream : List UInt8} {s : Receiver}
    (h : Live stream s) (hconnect : s.isConnect=true) {bytes : List UInt8} (hne : bytes≠[])
    (hfit : bytes.length ≤ s.recvBuffer.freeSize) :
    ∃ r n s', processRecv isConnected s bytes=some s' ∧
      Progress isConnected (s.recvBuffer.data++bytes) 0 r n ∧
      s'.dispatched=s.dispatched++r.packets ∧
      (r.processLen= -1 → s'.isConnect=false) ∧
      (r.processLen=n → s'.isConnect=isConnected n ∧ s'.recvBuffer.bufferSize=bufferSize ∧
        s'.recvBuffer.data=(s.recvBuffer.data++bytes).drop n ∧
        (s'.recvBuffer.data.length ≤ 9*bufferSize → bufferSize ≤ s'.recvBuffer.freeSize)) := by
  obtain ⟨b,hwrite,hdata,hsize⟩ := RecvBuffer.fill_onWrite_data hfit
  obtain ⟨r,n,hr,hprogress⟩ := onRecvLoop_progress isConnected b.data 0 (Nat.zero_le _)
  have hlen : bytes.length≠0 := fun hzero => hne (List.eq_nil_of_length_eq_zero hzero)
  have hrun : processRecv isConnected s bytes=
      if r.processLen<0 ∨ (b.dataSize : Int) < r.processLen then
        some (disconnect ⟨b,true,s.dispatched++r.packets⟩)
      else match b.onRead r.processLen.toNat with
        | none => some (disconnect ⟨b,true,s.dispatched++r.packets⟩)
        | some b => some ⟨b.clean,isConnected r.processLen.toNat,s.dispatched++r.packets⟩ := by
    simp only [processRecv,hconnect,Bool.true_eq_false,if_false,if_neg hlen,hwrite,onRecv,hr]
    rfl
  have hle : n ≤ b.dataSize := by
    rw [← b.data_length]
    exact hprogress.le
  rw [hdata] at hprogress
  by_cases hfail : r.processLen= -1
  · have hneg : r.processLen<0 ∨ (b.dataSize : Int) < r.processLen := Or.inl (by omega)
    rw [if_pos hneg] at hrun
    exact ⟨r,n,_,hrun,hprogress,rfl,fun _ => rfl,fun hn => by omega⟩
  · have hn : r.processLen=n := by
      rcases hprogress.stop with hstop|hstop
      · exact hstop.1
      · exact absurd hstop.1 hfail
    have hpos : ¬(r.processLen<0 ∨ (b.dataSize : Int) < r.processLen) := by omega
    obtain ⟨b',hread,hdata',hsize'⟩ := RecvBuffer.onRead_data hle
    have htoNat : r.processLen.toNat=n := by omega
    rw [if_neg hpos,htoNat] at hrun
    simp only [hread] at hrun
    have hbuffer : b'.bufferSize=bufferSize := hsize'.trans (hsize.trans h.size)
    refine ⟨r,n,_,hrun,hprogress,rfl,fun hm => absurd hm hfail,fun _ => ⟨rfl,?_,?_,?_⟩⟩
    · rw [RecvBuffer.clean_bufferSize,hbuffer]
    · rw [RecvBuffer.data_clean,hdata',hdata]
    · intro hnine
      rw [RecvBuffer.data_clean,RecvBuffer.data_length] at hnine
      rw [← hbuffer]
      exact RecvBuffer.freeSize_clean (by omega)

/-- Bytes that wait for more are fewer than one packet can have. -/
theorem waiting_length_le {data : List UInt8}
    (h : parse packetFormat data=⟨[],data,false⟩) : data.length ≤ 9*bufferSize := by
  have hwaits := Framing.parse_waits (congrArg Parsed.malformed h)
  have hmax := packetFormat_size_le data
  have hheader : packetFormat.header=4 := rfl
  rw [h] at hwaits
  simp only [hheader,bufferSize] at hwaits ⊢
  omega

theorem Inv.step {stream : List UInt8} {s : Receiver} (h : Inv stream s)
    (isConnected : Nat → Bool) {bytes : List UInt8}
    (hfit : s.isConnect=true → bytes.length ≤ s.recvBuffer.freeSize) :
    ∃ s', processRecv isConnected s bytes=some s' ∧ Inv (stream++bytes) s' := by
  by_cases hconnect : s.isConnect=true
  swap
  · have hoff : s.isConnect=false := Bool.eq_false_iff.mpr hconnect
    exact ⟨s,if_pos hoff,h.frames,h.sent.trans (List.prefix_append _ _),fun hon => absurd hon hconnect⟩
  by_cases hne : bytes=[]
  · refine ⟨s.disconnect,?_,h.disconnect bytes⟩
    simp only [processRecv,hconnect,hne]
    rfl
  have hlive := h.live hconnect
  obtain ⟨r,n,s',hrun,hprogress,hdispatched,hfail,hstay⟩ :=
    processRecv_progress isConnected hlive hconnect hne (hfit hconnect)
  have hcut : s'.dispatched.flatten++(s.recvBuffer.data++bytes).drop n=stream++bytes := by
    have hstream := hlive.cut
    have hdata := hprogress.cut
    rw [List.drop_zero] at hdata
    rw [hdispatched,List.flatten_append,List.append_assoc,hdata,← List.append_assoc,hstream]
  refine ⟨s',hrun,?_,⟨_,hcut⟩,?_⟩
  · intro f hf
    rw [hdispatched,List.mem_append] at hf
    exact hf.elim (h.frames f) (hprogress.frames f)
  · intro hon
    rcases hprogress.stop with ⟨hlen,hstop⟩|⟨hlen,-⟩
    · obtain ⟨hanswer,hsize,hdata,hroom⟩ := hstay hlen
      rw [← hdata] at hcut hstop
      have hwaits := hstop.resolve_left (by rw [← hanswer,hon]; exact Bool.true_eq_false.mp)
      exact ⟨hcut,hwaits,hsize,hroom (waiting_length_le hwaits)⟩
    · exact absurd (hfail hlen) (by rw [hon]; exact Bool.true_eq_false.mp)

/-- A session that nobody else disconnected dispatched the frames of the stream, and it is
disconnected exactly if the stream has a malformed header. -/
structure Exact (stream : List UInt8) (s : Receiver) : Prop where
  frames : s.dispatched=(parse packetFormat stream).frames
  malformed : s.isConnect=false ↔ (parse packetFormat stream).malformed=true

/-- What comes next is parsed behind the bytes that the buffer holds. -/
theorem Live.parse_append {stream : List UInt8} {s : Receiver} (h : Live stream s)
    (hf : ∀ f∈s.dispatched, WellFormed packetFormat f) (bytes : List UInt8) :
    parse packetFormat (stream++bytes)=
      ⟨s.dispatched++(parse packetFormat (s.recvBuffer.data++bytes)).frames,
        (parse packetFormat (s.recvBuffer.data++bytes)).rest,
        (parse packetFormat (s.recvBuffer.data++bytes)).malformed⟩ := by
  have hparse := Framing.parse_append (F:=packetFormat) s.dispatched.flatten
    (s.recvBuffer.data++bytes)
  rw [← List.append_assoc,h.cut,Framing.parse_flatten hf] at hparse
  simpa only [Bool.false_eq_true,if_false,List.nil_append] using hparse

theorem exact_init : Exact [] init := by
  have hnil := Framing.parse_nil (F:=packetFormat)
  exact ⟨by rw [hnil]; rfl,by rw [hnil]; simp [init]⟩

theorem Exact.step {stream : List UInt8} {s s' : Receiver} (h : Exact stream s) (hi : Inv stream s)
    {bytes : List UInt8}
    (hfit : s.isConnect=true → bytes≠[] ∧ bytes.length ≤ s.recvBuffer.freeSize)
    (hrun : processRecv (fun _ => true) s bytes=some s') : Exact (stream++bytes) s' := by
  by_cases hconnect : s.isConnect=true
  · obtain ⟨hne,hle⟩ := hfit hconnect
    have hlive := hi.live hconnect
    obtain ⟨r,n,t,ht,hprogress,hdispatched,hfail,hstay⟩ :=
      processRecv_progress (fun _ => true) hlive hconnect hne hle
    cases ht.symm.trans hrun
    obtain ⟨hpackets,hmalformed⟩ := hprogress.parse
    have hparse := hlive.parse_append hi.frames bytes
    refine ⟨?_,?_⟩
    · rw [hparse,hdispatched,hpackets]
    · rw [hparse,hmalformed]
      refine ⟨fun hoff => ?_,hfail⟩
      rcases hprogress.stop with ⟨hlen,-⟩|⟨hlen,-⟩
      · obtain ⟨hanswer,-⟩ := hstay hlen
        rw [hoff] at hanswer
        cases hanswer
      · exact hlen
  · have hoff : s.isConnect=false := Bool.eq_false_iff.mpr hconnect
    have hm := h.malformed.mp hoff
    have hparse := Framing.parse_append (F:=packetFormat) stream bytes
    rw [if_pos hm] at hparse
    cases (show some s=some s' from (if_pos hoff).symm.trans hrun)
    exact ⟨by rw [hparse]; exact h.frames,by rw [hparse]; exact ⟨fun _ => rfl,fun _ => hoff⟩⟩

/-- Completions of a connected session are not empty and no larger than the free space that was
registered. -/
def Fits (s : Receiver) : List (List UInt8) → Prop
  | [] => True
  | bytes::chunks =>
    (s.isConnect=true → bytes≠[] ∧ bytes.length ≤ s.recvBuffer.freeSize) ∧
      ∀ s', processRecv (fun _ => true) s bytes=some s' → Fits s' chunks

theorem receive_exact {chunks : List (List UInt8)} {stream : List UInt8} {s : Receiver}
    (h : Exact stream s) (hi : Inv stream s) (hfit : s.Fits chunks) :
    ∃ s', s.receive chunks=some s' ∧ Exact (stream++chunks.flatten) s' ∧
      Inv (stream++chunks.flatten) s' := by
  induction chunks generalizing stream s with
  | nil =>
    rw [List.flatten_nil,List.append_nil]
    exact ⟨s,rfl,h,hi⟩
  | cons bytes chunks ih =>
    obtain ⟨hbytes,hchunks⟩ := hfit
    obtain ⟨s₁,hrun,hi₁⟩ := hi.step (fun _ => true) fun hon => (hbytes hon).2
    obtain ⟨s',hs',hfinal⟩ := ih (h.step hi hbytes hrun) hi₁ (hchunks s₁ hrun)
    refine ⟨s',?_,?_⟩
    · rw [receive,List.foldlM_cons,hrun]
      exact hs'
    · rw [List.flatten_cons,← List.append_assoc]
      exact hfinal

/-- `register_recv` always offers room for one packet buffer. -/
theorem fits_of_small {chunks : List (List UInt8)} {stream : List UInt8} {s : Receiver}
    (hi : Inv stream s) (h : ∀ bytes∈chunks, bytes≠[] ∧ bytes.length ≤ bufferSize) :
    s.Fits chunks := by
  induction chunks generalizing stream s with
  | nil => trivial
  | cons bytes chunks ih =>
    obtain ⟨hne,hle⟩ := h bytes List.mem_cons_self
    have hroom : s.isConnect=true → bytes.length ≤ s.recvBuffer.freeSize :=
      fun hon => Nat.le_trans hle (hi.live hon).room
    refine ⟨fun hon => ⟨hne,hroom hon⟩,fun s' hs' => ?_⟩
    obtain ⟨s₁,hrun,hi₁⟩ := hi.step (fun _ => true) hroom
    cases hrun.symm.trans hs'
    exact ih hi₁ fun c hc => h c (List.mem_cons_of_mem bytes hc)

/-- However the stream is cut into completions, the session dispatches the frames of the stream, each
once and in order, and disconnects exactly when a header is malformed. `some` means that the loop
ends and never reads outside the received bytes. -/
theorem receive_matches_parse (chunks : List (List UInt8)) (h : init.Fits chunks) :
    ∃ s, init.receive chunks=some s ∧
      s.dispatched=(parse packetFormat chunks.flatten).frames ∧
      (s.isConnect=false ↔ (parse packetFormat chunks.flatten).malformed=true) := by
  obtain ⟨s,hs,hexact,-⟩ := receive_exact exact_init inv_init h
  exact ⟨s,hs,hexact.frames,hexact.malformed⟩

/-- Two packets and a malformed header, cut in the middle of a header and of a packet. -/
theorem receive_matches_parse_fragments :
    init.Fits [[6],[0,1,0,9],[9,4,0],[2,0,3,0,0,0]] ∧
    ∃ s, init.receive [[6],[0,1,0,9],[9,4,0],[2,0,3,0,0,0]]=some s ∧
      s.dispatched=[[6,0,1,0,9,9],[4,0,2,0]] ∧ s.isConnect=false := by
  have hsmall : ∀ bytes∈[[6],[0,1,0,9],[9,4,0],[2,0,3,0,0,0]],
      bytes≠([] : List UInt8) ∧ bytes.length ≤ bufferSize := by
    simp [bufferSize]
  have hfits := fits_of_small inv_init hsmall
  obtain ⟨s,hs,hframes,hmalformed⟩ := receive_matches_parse _ hfits
  have hparse : parse packetFormat [6,0,1,0,9,9,4,0,2,0,3,0,0,0]=
      ⟨[[6,0,1,0,9,9],[4,0,2,0]],[3,0,0,0],true⟩ := by
    simp [parse,packetFormat,headerSize]
  exact ⟨hfits,s,hs,hframes.trans (congrArg Parsed.frames hparse),
    hmalformed.mpr (congrArg Parsed.malformed hparse)⟩

end Receiver

end IocpServer.NetWork
