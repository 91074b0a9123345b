import IocpServer.Framework.Machine
import IocpServer.Framework.Word
import IocpServer.NetWork.SendEvent

namespace IocpServer.NetWork

open Word

/-- The fields of a `SendEvent` in the code's own words: the offset is an `int32`, and nothing keeps
the cursor within the buffers. -/
structure SendCursor where
  sendBuffers : List SendBuffer
  bufferIndex : Nat
  bufferOffset : Int

namespace SendCursor

def init : SendCursor := ⟨[],0,0⟩

def sendBuffersPush (c : SendCursor) (b : SendBuffer) : SendCursor :=
  { c with sendBuffers := c.sendBuffers++[b] }

def sendBuffersClear (_ : SendCursor) : SendCursor := ⟨[],0,0⟩

def hasPendingData (c : SendCursor) : Bool := c.bufferIndex<c.sendBuffers.length

/-- The range of one `WSABUF`; `none` is a range that leaves the buffer's storage. -/
def wsaBuf (b : SendBuffer) (offset : Int) : Option (List UInt8) :=
  let len := uint32 (int32 (b.writeSize-offset))
  if 0 ≤ offset ∧ offset+len ≤ b.buffer.length then
    some ((b.buffer.drop offset.toNat).take len.toNat)
  else none

/-- `build_wsabufs`; only the buffer at the cursor is entered at the offset. `none` also stands for
the reservation of a negative number of entries. -/
def buildWsabufs (c : SendCursor) : Option (List (List UInt8)) :=
  if c.sendBuffers.length<c.bufferIndex then none
  else
    match c.sendBuffers.drop c.bufferIndex with
    | [] => some []
    | b::bs => (wsaBuf b c.bufferOffset).bind fun v => (bs.mapM (wsaBuf · 0)).map (v::·)

def remaining (c : SendCursor) : Int :=
  uint64 ((c.sendBuffers.drop c.bufferIndex).foldl (fun r b => uint64 (r+b.writeSize)) 0
    -c.bufferOffset)

/-- The loop of `consume_sent_bytes` over the buffers from the cursor on. `count` stores a value in
the type of the byte count; `none` is the read of a buffer behind the last one. -/
def consumeLoop (count : Int → Int) : List SendBuffer → Nat → Int → Int → Option (Nat×Int)
  | [],index,offset,n => if 0<n then none else some (index,offset)
  | b::bs,index,offset,n =>
    if 0<n then
      let available := count (int32 (b.writeSize-offset))
      if n<available then some (index,int32 (offset+int32 n))
      else consumeLoop count bs (index+1) 0 (count (n-available))
    else some (index,offset)

/-- `consume_sent_bytes` with its result, for either type of the byte count. -/
def consume (count : Int → Int) (c : SendCursor) (n : Int) : Option (Bool×SendCursor) :=
  if n ≤ 0 then some (false,c)
  else if c.remaining<uint64 n then some (false,c)
  else
    (consumeLoop count (c.sendBuffers.drop c.bufferIndex) c.bufferIndex c.bufferOffset n).map
      fun p => (true,⟨c.sendBuffers,p.1,p.2⟩)

/-- The server's `consume_sent_bytes(int32)`. -/
def serverConsumeSentBytes (c : SendCursor) (numOfBytes : BitVec 32) : Option (Bool×SendCursor) :=
  c.consume int32 numOfBytes.toInt

/-- The client's `consume_sent_bytes(uint32)`. -/
def clientConsumeSentBytes (c : SendCursor) (numBytes : BitVec 32) : Option (Bool×SendCursor) :=
  c.consume uint32 numBytes.toNat

/-- The cursor of an event whose counts are natural numbers. -/
def ofEvent (e : SendEvent) : SendCursor := ⟨e.sendBuffers,e.bufferIndex,e.bufferOffset⟩

/-- Positive `int32` write sizes, whose total is a `uint64`. -/
structure Sized (bs : List SendBuffer) : Prop where
  pos : ∀ b∈bs, 0<b.writeSize
  int : ∀ b∈bs, b.writeSize<2^31
  total : (bs.map SendBuffer.writeSize).sum<2^64

theorem Sized.drop {bs : List SendBuffer} (h : Sized bs) (k : Nat) : Sized (bs.drop k) where
  pos b hb := h.pos b (List.mem_of_mem_drop hb)
  int b hb := h.int b (List.mem_of_mem_drop hb)
  total := by
    have hsplit : (bs.map SendBuffer.writeSize).sum=
        ((bs.take k).map SendBuffer.writeSize).sum+((bs.drop k).map SendBuffer.writeSize).sum := by
      rw [← List.sum_append,← List.map_append,List.take_append_drop]
    have := h.total
    omega

theorem Sized.tail {b : SendBuffer} {bs : List SendBuffer} (h : Sized (b::bs)) : Sized bs :=
  h.drop 1

theorem Sized.ne_nil {bs : List SendBuffer} (h : Sized bs) :
    ∀ c∈bs.map SendBuffer.bytes, c≠[] := by
  intro c hc
  obtain ⟨b,hb,rfl⟩ := List.mem_map.mp hc
  have hpos := h.pos b hb
  exact List.ne_nil_of_length_pos (by rwa [SendBuffer.bytes_length])

/-- Adding up the sizes never wraps. -/
theorem foldl_sizes {bs : List SendBuffer} (r : Nat)
    (h : r+(bs.map SendBuffer.writeSize).sum<2^64) :
    bs.foldl (fun r b => uint64 (r+b.writeSize)) (r : Int)=
      (r+(bs.map SendBuffer.writeSize).sum : Nat) := by
  induction bs generalizing r with
  | nil => rfl
  | cons b bs ih =>
    simp only [List.map_cons,List.sum_cons] at h ⊢
    have hstep : uint64 ((r : Int)+b.writeSize)=(r+b.writeSize : Nat) :=
      (uint64_of_fits (by omega) (by omega)).trans (by omega)
    rw [List.foldl_cons,hstep,ih (r+b.writeSize) (by omega)]
    congr 1
    omega

theorem remaining_ofEvent {e : SendEvent} (h : Sized e.sendBuffers)
    (hle : e.bufferOffset ≤ ((e.sendBuffers.drop e.bufferIndex).map SendBuffer.writeSize).sum) :
    (ofEvent e).remaining=e.remaining := by
  have htotal := (h.drop e.bufferIndex).total
  have hsum := foldl_sizes 0 (by rwa [Nat.zero_add])
  rw [Int.ofNat_zero,Nat.zero_add] at hsum
  simp only [remaining,ofEvent,hsum,SendEvent.remaining]
  rw [uint64_of_fits (by omega) (by omega)]
  omega

/-- Where `count` keeps every value up to the byte count, the loop does not wrap: it moves the
position as `skip` does. -/
theorem consumeLoop_eq {count : Int → Int} {M : Int} (hcount : ∀ x, 0 ≤ x → x<M → count x=x)
    (hM : 2^31 ≤ M) (bs : List SendBuffer) (hs : Sized bs) (index offset n : Nat)
    (ho : ∀ b, bs.head?=some b → offset<b.writeSize) (hn : (n : Int)<M) :
    consumeLoop count bs index offset n=
      (Batch.skip (bs.map SendBuffer.bytes) index offset n).map
        fun p => (p.1,(p.2 : Int)) := by
  induction bs generalizing index offset n with
  | nil =>
    cases n with
    | zero => rfl
    | succ n =>
      have hpos : 0<((n+1 : Nat) : Int) := by omega
      exact if_pos hpos
  | cons b bs ih =>
    cases n with
    | zero => rfl
    | succ n =>
      have hoff := ho b rfl
      have hint := hs.int b List.mem_cons_self
      have hav : count (int32 (b.writeSize-offset))=(b.writeSize-offset : Nat) := by
        rw [int32_of_fits (by omega) (by omega),hcount _ (by omega) (by omega)]
        omega
      have hpos : 0<((n+1 : Nat) : Int) := by omega
      simp only [consumeLoop,hav,if_pos hpos,List.map_cons,Batch.skip,SendBuffer.bytes_length]
      by_cases hlt : n+1<b.writeSize-offset
      · rw [if_pos hlt,if_pos (by omega),int32_of_fits (x := ((n+1 : Nat) : Int)) (by omega) (by omega),
          int32_of_fits (by omega) (by omega)]
        rfl
      · rw [if_neg hlt,if_neg (by omega),hcount _ (by omega) (by omega)]
        have hrest := ih hs.tail (index+1) 0 (n+1-(b.writeSize-offset))
          (fun b' hb' => hs.tail.pos b' (List.mem_of_mem_head? hb')) (by omega)
        rw [← hrest]
        congr 1
        omega

/-- The cursor is the one of an event, and it stands before an unsent byte or behind the last
buffer. -/
structure Follows (c : SendCursor) (e : SendEvent) : Prop where
  eq : c=ofEvent e
  sized : Sized e.sendBuffers
  inside : Batch.Inside (e.sendBuffers.map SendBuffer.bytes) e.bufferIndex e.bufferOffset

theorem Follows.head_lt {c : SendCursor} {e : SendEvent} (h : Follows c e) {b : SendBuffer}
    (hb : (e.sendBuffers.drop e.bufferIndex).head?=some b) : e.bufferOffset<b.writeSize := by
  rw [List.head?_drop] at hb
  have hlt := h.inside b.bytes (by rw [List.getElem?_map,hb,Option.map_some])
  rwa [SendBuffer.bytes_length] at hlt

theorem Follows.offset_le {c : SendCursor} {e : SendEvent} (h : Follows c e) :
    e.bufferOffset ≤ ((e.sendBuffers.drop e.bufferIndex).map SendBuffer.writeSize).sum := by
  cases hd : e.sendBuffers.drop e.bufferIndex with
  | nil =>
    have hge : e.sendBuffers.length ≤ e.bufferIndex := List.drop_eq_nil_iff.mp hd
    have hz := e.inBounds.2
    rw [List.getElem?_eq_none (by rwa [List.length_map])] at hz
    exact Nat.le_trans hz (Nat.zero_le _)
  | cons b bs =>
    have hlt := h.head_lt (b := b) (by rw [hd,List.head?_cons])
    rw [List.map_cons,List.sum_cons]
    omega

theorem wsaBuf_eq {b : SendBuffer} {o : Nat} (ho : o ≤ b.writeSize) (hb : b.writeSize<2^31) :
    wsaBuf b o=some (b.bytes.drop o) := by
  have hlen : uint32 (int32 (b.writeSize-o))=(b.writeSize-o : Nat) := by
    rw [int32_of_fits (by omega) (by omega),uint32_of_fits (by omega) (by omega)]
    omega
  have hle := b.le
  simp only [wsaBuf,hlen]
  rw [if_pos (by omega),SendBuffer.bytes,Int.toNat_natCast,Int.toNat_natCast,List.drop_take]

theorem mapM_wsaBuf {bs : List SendBuffer} (h : Sized bs) :
    bs.mapM (wsaBuf · 0)=some (bs.map SendBuffer.bytes) := by
  induction bs with
  | nil => rfl
  | cons b bs ih =>
    have hb := wsaBuf_eq (Nat.zero_le b.writeSize) (h.int b List.mem_cons_self)
    rw [Int.ofNat_zero,List.drop_zero] at hb
    rw [List.mapM_cons,hb,ih h.tail]
    rfl

/-- The ranges handed to `WSASend` are the unsent parts of the buffers. -/
theorem Follows.buildWsabufs_eq {c : SendCursor} {e : SendEvent} (h : Follows c e) :
    c.buildWsabufs=some e.buildWsabufs := by
  obtain rfl := h.eq
  have hidx : ¬(ofEvent e).sendBuffers.length<(ofEvent e).bufferIndex := by
    simpa [ofEvent] using e.inBounds.1
  rw [buildWsabufs,if_neg hidx]
  simp only [ofEvent,SendEvent.buildWsabufs,Batch.views,← List.map_drop]
  cases hd : e.sendBuffers.drop e.bufferIndex with
  | nil => rfl
  | cons b bs =>
    have hlt := h.head_lt (b := b) (by rw [hd,List.head?_cons])
    have hs : Sized (b::bs) := hd ▸ h.sized.drop e.bufferIndex
    simp only [wsaBuf_eq (Nat.le_of_lt hlt) (hs.int b List.mem_cons_self),mapM_wsaBuf hs.tail]
    rfl

/-- Neither conversion loses anything: the code does what the event does with natural numbers. -/
theorem Follows.consume_eq {c : SendCursor} {e : SendEvent} (h : Follows c e)
    {count : Int → Int} {M : Int} (hcount : ∀ x, 0 ≤ x → x<M → count x=x)
    (hlo : 2^31 ≤ M) (hhi : M ≤ 2^32) {n : Int} (hn : n<M) :
    c.consume count n=
      match e.consumeSentBytes n with
      | none => some (false,c)
      | some e' => some (true,ofEvent e') := by
  obtain rfl := h.eq
  unfold consume SendEvent.consumeSentBytes
  by_cases hpos : n ≤ 0
  · rw [if_pos hpos,if_pos hpos]
  rw [if_neg hpos,if_neg hpos,remaining_ofEvent h.sized h.offset_le,
    uint64_of_fits (x := n) (by omega) (by omega)]
  obtain ⟨m,rfl⟩ := Int.eq_ofNat_of_zero_le (a := n) (by omega)
  by_cases hle : m ≤ e.remaining
  · rw [if_neg (by omega),dif_pos (by rwa [Int.toNat_natCast])]
    have hloop := consumeLoop_eq hcount hlo _ (h.sized.drop e.bufferIndex) e.bufferIndex
      e.bufferOffset m (fun b hb => h.head_lt hb) hn
    obtain ⟨i,o,hskip,hin,-⟩ := Batch.skip_spec _ _ _ m e.inBounds (e.remaining_eq ▸ hle)
    rw [List.map_drop,hskip] at hloop
    have hmove := SendEvent.consume_of_skip hle hin hskip
    simp only [Int.toNat_natCast,hmove]
    exact congrArg (Option.map _) hloop
  · rw [if_pos (by omega),dif_neg (by rwa [Int.toNat_natCast])]

theorem Follows.server_eq {c : SendCursor} {e : SendEvent} (h : Follows c e) (n : BitVec 32) :
    c.serverConsumeSentBytes n=
      match e.consumeSentBytes n.toInt with
      | none => some (false,c)
      | some e' => some (true,ofEvent e') :=
  h.consume_eq (M := 2^31) (fun _ h0 hx => int32_of_fits (by omega) hx) (by decide) (by decide)
    n.toInt_lt

theorem Follows.client_eq {c : SendCursor} {e : SendEvent} (h : Follows c e) (n : BitVec 32) :
    c.clientConsumeSentBytes n=
      match e.consumeSentBytes n.toNat with
      | none => some (false,c)
      | some e' => some (true,ofEvent e') :=
  h.consume_eq (M := 2^32) (fun _ h0 hx => uint32_of_fits h0 hx) (by decide) (by decide)
    (by have := n.isLt; omega)

inductive Action
  | push (b : SendBuffer)
  | clear
  | serverConsume (n : BitVec 32)
  | clientConsume (n : BitVec 32)

/-- One call of a method; `none` is a call that leaves the buffers. -/
def step (c : SendCursor) : Action → Option SendCursor
  | .push b => some (c.sendBuffersPush b)
  | .clear => some c.sendBuffersClear
  | .serverConsume n => (c.serverConsumeSentBytes n).map Prod.snd
  | .clientConsume n => (c.clientConsumeSentBytes n).map Prod.snd

/-- The buffers pushed have a positive size, and all of them together are within a `uint64`. -/
def Fits (c : SendCursor) : Action → Prop
  | .push b => Sized (c.sendBuffers++[b])
  | _ => True

theorem Follows.consumed {c : SendCursor} {e e' : SendEvent} (h : Follows c e) {n : Int}
    (he : e.consumeSentBytes n=some e') :
    Follows (ofEvent e') e' ∧ e'.sendBuffers=e.sendBuffers ∧ n.toNat ≤ e.rest.length := by
  unfold SendEvent.consumeSentBytes at he
  split at he
  · cases he
  split at he
  · rename_i hle
    obtain ⟨i,o,hskip,hin,-⟩ := Batch.skip_spec _ _ _ n.toNat e.inBounds (e.remaining_eq ▸ hle)
    rw [SendEvent.consume_of_skip hle hin hskip] at he
    cases he
    exact ⟨⟨rfl,h.sized,Batch.skip_inside _ h.sized.ne_nil h.inside hskip⟩,rfl,
      e.remaining_eq ▸ hle⟩
  · cases he

/-- Every method keeps the cursor at an unsent byte or behind the last buffer. -/
theorem Follows.step {c c' : SendCursor} {e : SendEvent} (h : Follows c e) {a : Action}
    (ha : Fits c a) (hs : c.step a=some c') : ∃ e', Follows c' e' := by
  have hcount : ∀ n : Int, (match e.consumeSentBytes n with
      | none => some (false,c)
      | some e' => some (true,ofEvent e')).map Prod.snd=some c' → ∃ e', Follows c' e' := by
    intro n hn
    cases he : e.consumeSentBytes n with
    | none =>
      rw [he] at hn
      cases hn
      exact ⟨e,h⟩
    | some e' =>
      rw [he] at hn
      cases hn
      exact ⟨e',(h.consumed he).1⟩
  cases a with
  | push b =>
    cases hs
    obtain rfl := h.eq
    refine ⟨e.push [b],rfl,ha,?_⟩
    have hne : ∀ x∈[b].map SendBuffer.bytes, x≠[] := by
      intro x hx
      apply Sized.ne_nil ha x
      rw [List.map_append]
      exact List.mem_append_right _ hx
    have hin := h.inside.append e.inBounds hne
    rwa [← List.map_append] at hin
  | clear =>
    cases hs
    exact ⟨SendEvent.clear,rfl,⟨nofun,nofun,by decide⟩,nofun⟩
  | serverConsume n => exact hcount n.toInt (h.server_eq n ▸ hs)
  | clientConsume n => exact hcount n.toNat (h.client_eq n ▸ hs)

theorem reaches_follows {c : SendCursor} (h : Reaches step Fits init c) : ∃ e, Follows c e :=
  h.invariant (P := fun c => ∃ e, Follows c e)
    ⟨SendEvent.clear,rfl,⟨nofun,nofun,by decide⟩,nofun⟩
    (fun _ _ _ ⟨_,hf⟩ ha hs => hf.step ha hs)

/-- The bytes behind the cursor. -/
def unsent (c : SendCursor) : List UInt8 :=
  (streamOf (c.sendBuffers.drop c.bufferIndex)).drop c.bufferOffset.toNat

/-- What one call of `consume_sent_bytes` has to do with a byte count. -/
def Lawful (c : SendCursor) (n : Int) (result : Option (Bool×SendCursor)) : Prop :=
  if 0<n ∧ n ≤ c.unsent.length then
    ∃ c', result=some (true,c') ∧ c'.sendBuffers=c.sendBuffers ∧
      c'.buildWsabufs.map List.flatten=some (c.unsent.drop n.toNat)
  else result=some (false,c)

theorem Follows.unsent_eq {c : SendCursor} {e : SendEvent} (h : Follows c e) : c.unsent=e.rest := by
  obtain rfl := h.eq
  have hr := Batch.rest_eq_drop e.inBounds
  rw [← List.map_drop] at hr
  exact hr.symm

theorem Follows.lawful {c : SendCursor} {e : SendEvent} (h : Follows c e) (n : Int) :
    Lawful c n (match e.consumeSentBytes n with
      | none => some (false,c)
      | some e' => some (true,ofEvent e')) := by
  unfold Lawful
  rw [h.unsent_eq]
  cases he : e.consumeSentBytes n with
  | none =>
    have hno := SendEvent.consumeSentBytes_none he
    rw [if_neg (by omega)]
  | some e' =>
    obtain ⟨hpos,hrest⟩ := SendEvent.consumeSentBytes_some he
    obtain ⟨hf,hbs,hle⟩ := h.consumed he
    rw [if_pos ⟨hpos,by omega⟩]
    refine ⟨ofEvent e',rfl,?_,?_⟩
    · rw [h.eq]
      exact hbs
    · rw [hf.buildWsabufs_eq,← hrest]
      rfl

/-- In every reachable state the ranges of `build_wsabufs` are the unsent bytes, the cursor stands
before one of them or behind the last buffer, and both versions of `consume_sent_bytes` move it on by
exactly the count, refuse every other count, and agree. -/
theorem send_cursor_law {c : SendCursor} (h : Reaches step Fits init c) :
    c.buildWsabufs.map List.flatten=some c.unsent ∧
    (c.hasPendingData=true ↔ c.unsent≠[]) ∧
    c.bufferIndex ≤ c.sendBuffers.length ∧ 0 ≤ c.bufferOffset ∧
    (∀ b, c.sendBuffers[c.bufferIndex]?=some b → c.bufferOffset<b.writeSize) ∧
    (c.bufferIndex=c.sendBuffers.length → c.bufferOffset=0) ∧
    (∀ n, Lawful c n.toInt (c.serverConsumeSentBytes n)) ∧
    (∀ n, Lawful c n.toNat (c.clientConsumeSentBytes n)) ∧
    (∀ n, n.toNat<2^31 → c.serverConsumeSentBytes n=c.clientConsumeSentBytes n) := by
  obtain ⟨e,hf⟩ := reaches_follows h
  have hrest := hf.unsent_eq
  refine ⟨?_,?_,?_,?_,?_,?_,?_,?_,?_⟩
  · rw [hf.buildWsabufs_eq,hrest]
    rfl
  · have hnil := Batch.rest_eq_nil_iff hf.inside
    rw [hrest,hf.eq]
    change decide (e.bufferIndex<e.sendBuffers.length)=true ↔ ¬e.rest=[]
    rw [decide_eq_true_iff,show e.rest=[] ↔ _ from hnil,List.length_map,Nat.not_le]
  · rw [hf.eq]
    simpa [ofEvent] using e.inBounds.1
  · rw [hf.eq]
    exact Int.natCast_nonneg _
  · intro b hb
    rw [hf.eq] at hb ⊢
    have hlt := hf.head_lt (b := b) (by rwa [List.head?_drop])
    exact Int.ofNat_lt.mpr hlt
  · intro hend
    rw [hf.eq] at hend ⊢
    have hz := e.inBounds.2
    rw [List.getElem?_eq_none (by rw [List.length_map]; exact Nat.le_of_eq hend.symm)] at hz
    exact congrArg Nat.cast (Nat.le_zero.mp hz)
  · intro n
    rw [hf.server_eq]
    exact hf.lawful n.toInt
  · intro n
    rw [hf.client_eq]
    exact hf.lawful n.toNat
  · intro n hn
    have hcount : n.toInt=n.toNat := BitVec.toInt_eq_toNat_of_lt (by omega)
    rw [hf.server_eq,hf.client_eq,hcount]

theorem send_cursor_law_partial :
    ∃ c, Reaches step Fits init c ∧ c.bufferIndex=1 ∧ c.bufferOffset=1 ∧
      Lawful c 2 (c.serverConsumeSentBytes 2#32) := by
  have hfirst : Sized [SendBuffer.copyData [1,2]] := ⟨by decide,by decide,by decide⟩
  have hboth : Sized [SendBuffer.copyData [1,2],SendBuffer.copyData [3,4,5]] :=
    ⟨by decide,by decide,by decide⟩
  have hrun : Reaches step Fits init
      ⟨[SendBuffer.copyData [1,2],SendBuffer.copyData [3,4,5]],1,1⟩ :=
    ((Reaches.refl.tail (a := .push (SendBuffer.copyData [1,2])) hfirst rfl).tail
      (a := .push (SendBuffer.copyData [3,4,5])) hboth rfl).tail
      (a := .serverConsume 3#32) trivial rfl
  exact ⟨_,hrun,rfl,rfl,(send_cursor_law hrun).2.2.2.2.2.2.1 2#32⟩

end SendCursor

end IocpServer.NetWork
