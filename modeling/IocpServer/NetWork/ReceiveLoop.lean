import IocpServer.Framework.Machine
import IocpServer.NetWork.Receive

namespace IocpServer.NetWork.ReceiveLoop

open Framing (parse)

/-- Where the receive loop of a session stands: before `register_recv`, with a receive registered for
`len` bytes, in `process_recv` before each of its calls, in one of the branches that report an
overflow, or at its end. -/
inductive Point
  | registerRecv
  | posted (len : Nat)
  | processRecv (bytes : List UInt8)
  | onRecv
  | onRead (processLen : Int)
  | clean
  | onWriteOverflow
  | onReadOverflow
  | stopped

/-- `received` are the bytes that `on_write` has taken, `consumed` counts those that `on_read` has
given up. -/
structure State where
  point : Point
  recvBuffer : RecvBuffer
  isConnect : Bool
  received : List UInt8
  consumed : Nat

/-- A completion carries the bytes it stored; `isConnected` is what `is_connected()` answers in the
loop of `on_recv` when so many bytes are processed. `disconnect` comes from any thread. -/
inductive Action
  | advance
  | complete (bytes : List UInt8)
  | dispatch (isConnected : Nat → Bool)
  | disconnect

def init : State := ⟨.registerRecv,RecvBuffer.init bufferSize,true,[],0⟩

def stop (s : State) : State := { s with point := .stopped, isConnect := false }

def advance (s : State) : Option State :=
  match s.point with
  | .registerRecv =>
    if s.isConnect then some { s with point := .posted s.recvBuffer.freeSize }
    else some { s with point := .stopped }
  | .processRecv bytes =>
    if s.isConnect=false then some { s with point := .stopped }
    else if bytes.length=0 then some (stop s)
    else match s.recvBuffer.onWrite bytes.length with
      | none => some { s with point := .onWriteOverflow }
      | some b => some { s with point := .onRecv, recvBuffer := b, received := s.received++bytes }
  | .onRead processLen =>
    if processLen<0 then some (stop s)
    else if (s.recvBuffer.dataSize : Int)<processLen then some { s with point := .onReadOverflow }
    else match s.recvBuffer.onRead processLen.toNat with
      | none => some { s with point := .onReadOverflow }
      | some b =>
        some { s with point := .clean, recvBuffer := b, consumed := s.consumed+processLen.toNat }
  | .clean => some { s with point := .registerRecv, recvBuffer := s.recvBuffer.clean }
  | .onWriteOverflow | .onReadOverflow => some (stop s)
  | .posted _ | .onRecv | .stopped => none

def step (s : State) : Action → Option State
  | .advance => advance s
  | .complete bytes =>
    match s.point with
    | .posted len =>
      if bytes.length ≤ len then
        some { s with point := .processRecv bytes, recvBuffer := s.recvBuffer.fill bytes }
      else none
    | _ => none
  | .dispatch isConnected =>
    match s.point with
    | .onRecv =>
      match onRecv isConnected s.recvBuffer.data with
      | none => none
      | some r =>
        some { s with
          point := .onRead r.processLen
          isConnect := s.isConnect && isConnected r.processLen.toNat }
    | _ => none
  | .disconnect => some { s with isConnect := false }

/-- The bytes wait for more. -/
def Waits (data : List UInt8) : Prop := parse packetFormat data=⟨[],data,false⟩

/-- What is known at each point of the loop. -/
def At (s : State) : Point → Prop
  | .registerRecv =>
    s.isConnect=true → Waits s.recvBuffer.data ∧ bufferSize ≤ s.recvBuffer.freeSize
  | .posted len => len=s.recvBuffer.freeSize ∧ bufferSize ≤ len
  | .processRecv bytes => bytes.length ≤ s.recvBuffer.freeSize ∧
      (s.recvBuffer.buffer.drop s.recvBuffer.writePos).take bytes.length=bytes
  | .onRead processLen => 0 ≤ processLen → processLen.toNat ≤ s.recvBuffer.dataSize ∧
      (s.isConnect=true → Waits (s.recvBuffer.data.drop processLen.toNat))
  | .clean => s.isConnect=true → Waits s.recvBuffer.data
  | .onWriteOverflow | .onReadOverflow => False
  | .onRecv | .stopped => True

/-- The buffer holds the received bytes that are not consumed. -/
structure Holds (b : RecvBuffer) (received : List UInt8) (consumed : Nat) : Prop where
  size : b.bufferSize=bufferSize
  le : consumed ≤ received.length
  data : b.data=received.drop consumed

section Holds

variable {b : RecvBuffer} {received : List UInt8} {consumed : Nat}

theorem Holds.fill (h : Holds b received consumed) (bytes : List UInt8) :
    Holds (b.fill bytes) received consumed :=
  ⟨h.size,h.le,(RecvBuffer.data_fill b bytes).trans h.data⟩

theorem Holds.onWrite (h : Holds b received consumed) {bytes : List UInt8}
    (hfit : bytes.length ≤ b.freeSize)
    (hbytes : (b.buffer.drop b.writePos).take bytes.length=bytes) :
    ∃ b', b.onWrite bytes.length=some b' ∧ Holds b' (received++bytes) consumed := by
  obtain ⟨b',hb',hdata,hsize⟩ := RecvBuffer.onWrite_data hfit
  have hle := h.le
  refine ⟨b',hb',hsize.trans h.size,?_,?_⟩
  · rw [List.length_append]
    omega
  · rw [hdata,hbytes,h.data,List.drop_append_of_le_length hle]

theorem Holds.onRead (h : Holds b received consumed) {n : Nat} (hle : n ≤ b.dataSize) :
    ∃ b', b.onRead n=some b' ∧ b'.data=b.data.drop n ∧ Holds b' received (consumed+n) := by
  obtain ⟨b',hb',hdata,hsize⟩ := RecvBuffer.onRead_data hle
  have hlen := congrArg List.length h.data
  have hbound := h.le
  rw [RecvBuffer.data_length,List.length_drop] at hlen
  refine ⟨b',hb',hdata,hsize.trans h.size,by omega,?_⟩
  rw [hdata,h.data,List.drop_drop]

theorem Holds.clean (h : Holds b received consumed) : Holds b.clean received consumed :=
  ⟨(RecvBuffer.clean_bufferSize b).trans h.size,h.le,(RecvBuffer.data_clean b).trans h.data⟩

/-- What waits is less than one packet, so `clean` leaves room for one packet buffer. -/
theorem Holds.room (h : Holds b received consumed) (hwaits : Waits b.data) :
    bufferSize ≤ b.clean.freeSize := by
  have hnine := Receiver.waiting_length_le hwaits
  rw [RecvBuffer.data_length,← h.size] at hnine
  rw [← h.size]
  exact RecvBuffer.freeSize_clean (by omega)

end Holds

structure Inv (s : State) : Prop where
  holds : Holds s.recvBuffer s.received s.consumed
  point : At s s.point

theorem inv_init : Inv init := by
  have hdata : init.recvBuffer.data=[] := RecvBuffer.data_init bufferSize
  have hfree : init.recvBuffer.freeSize=bufferSize*10 := RecvBuffer.freeSize_init bufferSize
  refine ⟨⟨rfl,Nat.le_refl _,hdata⟩,fun _ => ⟨?_,?_⟩⟩
  · rw [hdata]
    exact Framing.parse_nil
  · omega

/-- A session that is disconnected knows less. -/
theorem At.disconnect {s : State} {p : Point} (h : At s p) :
    At { s with isConnect := false } p := by
  cases p with
  | registerRecv | clean => exact nofun
  | onRead processLen => exact fun hpos => ⟨(h hpos).1,nofun⟩
  | _ => exact h

theorem advance_inv {s s' : State} (h : Inv s) (hs : advance s=some s') : Inv s' := by
  have hpoint := h.point
  unfold advance at hs
  cases hp : s.point with
  | registerRecv =>
    simp only [hp] at hs hpoint
    split at hs
    · rename_i hon
      cases hs
      exact ⟨h.holds,rfl,(hpoint hon).2⟩
    · cases hs
      exact ⟨h.holds,trivial⟩
  | processRecv bytes =>
    simp only [hp] at hs hpoint
    split at hs
    · cases hs
      exact ⟨h.holds,trivial⟩
    split at hs
    · cases hs
      exact ⟨h.holds,trivial⟩
    -- the completion is no larger than what was registered, so `on_write` takes it
    obtain ⟨b,hb,hholds⟩ := h.holds.onWrite hpoint.1 hpoint.2
    rw [hb] at hs
    cases hs
    exact ⟨hholds,trivial⟩
  | onRead processLen =>
    simp only [hp] at hs hpoint
    split at hs
    · cases hs
      exact ⟨h.holds,trivial⟩
    rename_i hpos
    obtain ⟨hle,hwaits⟩ := hpoint (Int.not_lt.mp hpos)
    have hfit : ¬(s.recvBuffer.dataSize : Int)<processLen := by omega
    obtain ⟨b,hb,hdata,hholds⟩ := h.holds.onRead hle
    rw [if_neg hfit,hb] at hs
    cases hs
    refine ⟨hholds,fun hon => ?_⟩
    change Waits b.data
    rw [hdata]
    exact hwaits hon
  | clean =>
    simp only [hp] at hs hpoint
    cases hs
    refine ⟨h.holds.clean,fun hon => ⟨?_,h.holds.room (hpoint hon)⟩⟩
    change Waits s.recvBuffer.clean.data
    rw [RecvBuffer.data_clean]
    exact hpoint hon
  | onWriteOverflow | onReadOverflow =>
    rw [hp] at hpoint
    exact hpoint.elim
  | posted | onRecv | stopped =>
    simp only [hp] at hs
    cases hs

theorem step_inv {s s' : State} {a : Action} (h : Inv s) (hs : step s a=some s') : Inv s' := by
  have hpoint := h.point
  cases a with
  | advance => exact advance_inv h hs
  | complete bytes =>
    unfold step at hs
    cases hp : s.point with
    | posted len =>
      simp only [hp] at hs hpoint
      split at hs
      · rename_i hle
        cases hs
        have hfit : bytes.length ≤ s.recvBuffer.freeSize := hpoint.1 ▸ hle
        refine ⟨h.holds.fill bytes,?_,RecvBuffer.fill_stores hfit⟩
        change bytes.length ≤ (s.recvBuffer.fill bytes).freeSize
        rwa [RecvBuffer.freeSize_fill]
      · cases hs
    | _ =>
      simp only [hp] at hs
      cases hs
  | dispatch isConnected =>
    unfold step at hs
    cases hp : s.point with
    | onRecv =>
      obtain ⟨r,n,hr,hprogress⟩ :=
        onRecvLoop_progress isConnected s.recvBuffer.data 0 (Nat.zero_le _)
      simp only [hp,NetWork.onRecv,hr] at hs
      cases hs
      refine ⟨h.holds,fun hpos => ?_⟩
      rcases hprogress.stop with ⟨hn,hstop⟩|⟨hn,-⟩
      · have hnat : r.processLen.toNat=n := by omega
        have hle := hprogress.le
        rw [RecvBuffer.data_length] at hle
        rw [hnat]
        refine ⟨hle,fun hon => ?_⟩
        have hlast : isConnected n=true := by
          simp only [Bool.and_eq_true] at hon
          exact hon.2
        rw [hlast] at hstop
        exact hstop.resolve_left Bool.true_eq_false.mp
      · omega
    | _ =>
      simp only [hp] at hs
      cases hs
  | disconnect =>
    cases hs
    exact ⟨h.holds,hpoint.disconnect⟩

theorem reaches_inv {s : State} (h : Reaches step Any init s) : Inv s :=
  h.invariant inv_init fun _ _ _ hi _ hs => step_inv hi hs

/-- Whatever the peer sends and however it is cut: the positions stay in order, the buffer holds
exactly the received bytes that are not consumed, every receive is registered for at least one packet
buffer, and `process_recv` never reports an overflow. -/
theorem receive_buffer_law {s : State} (h : Reaches step Any init s) :
    s.recvBuffer.readPos ≤ s.recvBuffer.writePos ∧
    s.recvBuffer.writePos ≤ s.recvBuffer.capacity ∧ s.recvBuffer.capacity=655360 ∧
    s.recvBuffer.data=s.received.drop s.consumed ∧ s.consumed ≤ s.received.length ∧
    s.recvBuffer.clean.data=s.recvBuffer.data ∧
    (s.point=.registerRecv → s.isConnect=true →
      65536 ≤ s.recvBuffer.freeSize ∧ s.recvBuffer.writePos<s.recvBuffer.capacity) ∧
    (∀ len, s.point=.posted len → len=s.recvBuffer.freeSize ∧ 65536 ≤ len) ∧
    (∀ isConnected, s.point=.onRecv → (step s (.dispatch isConnected)).isSome=true) ∧
    s.point≠.onWriteOverflow ∧ s.point≠.onReadOverflow := by
  have hi := reaches_inv h
  have hpoint := hi.point
  have hcap : s.recvBuffer.capacity=655360 := by
    rw [RecvBuffer.capacity,s.recvBuffer.capacity_eq,hi.holds.size]
    rfl
  refine ⟨s.recvBuffer.read_le,s.recvBuffer.write_le,hcap,hi.holds.data,hi.holds.le,
    RecvBuffer.data_clean _,?_,?_,?_,?_,?_⟩
  · intro hp hon
    rw [hp] at hpoint
    have hroom : 65536 ≤ s.recvBuffer.freeSize := (hpoint hon).2
    refine ⟨hroom,?_⟩
    simp only [RecvBuffer.freeSize] at hroom
    omega
  · intro len hp
    rw [hp] at hpoint
    exact hpoint
  · intro isConnected hp
    obtain ⟨r,n,hr,-⟩ := onRecvLoop_progress isConnected s.recvBuffer.data 0 (Nat.zero_le _)
    simp only [step,hp,onRecv,hr]
    rfl
  · intro hp
    rw [hp] at hpoint
    exact hpoint
  · intro hp
    rw [hp] at hpoint
    exact hpoint

theorem step_complete {s : State} {len : Nat} {bytes : List UInt8} (hp : s.point=.posted len)
    (h : bytes.length ≤ len) :
    step s (.complete bytes)=
      some { s with point := .processRecv bytes, recvBuffer := s.recvBuffer.fill bytes } := by
  simp only [step,hp,if_pos h]

/-- One packet whose rest is less than a header. -/
theorem onRecv_packet {data : List UInt8} (header : PacketHeader)
    (hread : readHeader data 0=some header)
    (hge : headerSize ≤ header.size) (hmax : header.size ≤ bufferSize)
    (hle : header.size ≤ data.length) (hshort : data.length-header.size<headerSize) :
    onRecv (fun _ => true) data=some ⟨header.size,[data.take header.size]⟩ := by
  have hpacket : readPacket data 0 header.size=some (data.take header.size) :=
    if_pos (by omega)
  have hrest : onRecvLoop (fun _ => true) data (0+header.size)=some ⟨header.size,[]⟩ := by
    rw [Nat.zero_add,onRecvLoop,if_pos hshort]
  rw [onRecv,onRecvLoop,if_neg (by omega),hread]
  simp only [if_neg (Nat.not_lt.mpr hge),if_neg (Nat.not_lt.mpr hmax),Nat.sub_zero,
    if_neg (Nat.not_lt.mpr hle),hpacket,if_true,hrest,Option.map_some]

/-- A turn of the loop: a receive completes with `bytes`, `on_recv` processes `n` bytes of what is then
held, and the buffer is cleaned. -/
theorem turn_reaches {s : State} (h : Reaches step Any init s) (hp : s.point=.registerRecv)
    (hon : s.isConnect=true) (bytes : List UInt8) (hne : bytes≠[]) (hfit : bytes.length ≤ bufferSize)
    {n : Nat} {packets : List (List UInt8)}
    (hloop : onRecv (fun _ => true) (s.received.drop s.consumed++bytes)=some ⟨n,packets⟩) :
    ∃ s', Reaches step Any init s' ∧ s'.point=.registerRecv ∧ s'.isConnect=true ∧
      s'.received=s.received++bytes ∧ s'.consumed=s.consumed+n := by
  obtain ⟨point,b,connected,received,consumed⟩ := s
  cases hp
  cases hon
  have hposted : Reaches step Any init ⟨.posted b.freeSize,b,true,received,consumed⟩ :=
    h.tail (a:=.advance) trivial rfl
  have hcomplete := hposted.tail trivial
    (step_complete rfl (Nat.le_trans hfit (reaches_inv hposted).point.2))
  have hi := reaches_inv hcomplete
  obtain ⟨b₁,hb₁,hholds⟩ := hi.holds.onWrite hi.point.1 hi.point.2
  have hwritten := hcomplete.tail (a:=.advance)
    (u:=⟨.onRecv,b₁,true,received++bytes,consumed⟩) trivial (by
      simp only [step,advance,Bool.true_eq_false,if_false,List.length_eq_zero_iff,hne,hb₁])
  rw [← List.drop_append_of_le_length (reaches_inv h).holds.le,← hholds.data] at hloop
  have hdispatched := hwritten.tail (a:=.dispatch fun _ => true)
    (u:=⟨.onRead n,b₁,true,received++bytes,consumed⟩) trivial (by
      simp only [step,hloop,Bool.and_self])
  have hle := ((reaches_inv hdispatched).point (Int.natCast_nonneg n)).1
  obtain ⟨b₂,hb₂,-,-⟩ := hholds.onRead hle
  have hread := hdispatched.tail (a:=.advance)
    (u:=⟨.clean,b₂,true,received++bytes,consumed+n⟩) trivial (by
      have hpos : ¬(n : Int)<0 := by omega
      have hsize : ¬(b₁.dataSize : Int)<n := Int.not_lt.mpr (Int.ofNat_le.mpr hle)
      rw [Int.toNat_natCast] at hb₂
      simp only [step,advance,if_neg hpos,if_neg hsize,Int.toNat_natCast,hb₂])
  exact ⟨_,hread.tail (a:=.advance) trivial rfl,rfl,rfl,rfl,rfl⟩

/-- A packet of four bytes arrives with the first byte of a packet of six, whose other bytes come with
the next completion: `on_recv` consumes four bytes and then six, and each turn ends in `clean`. -/
theorem receive_buffer_law_twoTurns :
    ∃ s, Reaches step Any init s ∧ s.point=.registerRecv ∧
      s.received=[4,0,1,0,6,0,7,0,9,9] ∧ s.consumed=10 ∧ s.recvBuffer.data=[] ∧
      65536 ≤ s.recvBuffer.freeSize := by
  have hfirst : onRecv (fun _ => true) [4,0,1,0,6]=some ⟨(4 : Nat),[[4,0,1,0]]⟩ :=
    onRecv_packet ⟨4,1⟩ rfl (by decide) (by decide) (by decide) (by decide)
  have hsecond : onRecv (fun _ => true) [6,0,7,0,9,9]=some ⟨(6 : Nat),[[6,0,7,0,9,9]]⟩ :=
    onRecv_packet ⟨6,7⟩ rfl (by decide) (by decide) (by decide) (by decide)
  obtain ⟨s,hs,hp,hon,hreceived,hconsumed⟩ :=
    turn_reaches (s:=init) .refl rfl rfl [4,0,1,0,6] (by decide) (by decide) hfirst
  rw [show init.received=[] from rfl,List.nil_append] at hreceived
  rw [show init.consumed=0 from rfl,Nat.zero_add] at hconsumed
  obtain ⟨t,ht,hp',hon',hreceived',hconsumed'⟩ :=
    turn_reaches hs hp hon [0,7,0,9,9] (by decide) (by decide)
      (by rw [hreceived,hconsumed]; exact hsecond)
  rw [hreceived] at hreceived'
  rw [hconsumed] at hconsumed'
  have hlaw := receive_buffer_law ht
  refine ⟨t,ht,hp',hreceived',hconsumed',?_,(hlaw.2.2.2.2.2.2.1 hp' hon').1⟩
  rw [hlaw.2.2.2.1,hreceived',hconsumed']
  rfl

end IocpServer.NetWork.ReceiveLoop
