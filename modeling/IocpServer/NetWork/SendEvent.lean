import IocpServer.Framework.Batch

namespace IocpServer.NetWork

/-- A `SendBuffer`: its storage and how much of it was written. -/
structure SendBuffer where
  buffer : List UInt8
  writeSize : Nat
  le : writeSize ≤ buffer.length

namespace SendBuffer

def bytes (b : SendBuffer) : List UInt8 := b.buffer.take b.writeSize

@[simp] theorem bytes_length (b : SendBuffer) : b.bytes.length=b.writeSize := by
  simp [bytes,b.le]

/-- A buffer that holds exactly the given bytes, as `copy_data` leaves it. -/
def copyData (data : List UInt8) : SendBuffer := ⟨data,data.length,Nat.le_refl _⟩

end SendBuffer

/-- The bytes of several buffers, one after the other. -/
def streamOf (bs : List SendBuffer) : List UInt8 := (bs.map SendBuffer.bytes).flatten

@[simp] theorem streamOf_nil : streamOf []=[] := rfl

@[simp] theorem streamOf_append (xs ys : List SendBuffer) :
    streamOf (xs++ys)=streamOf xs++streamOf ys := by
  simp [streamOf]

/-- A `SendEvent`: the buffers of the current send and the position up to which they are sent. -/
structure SendEvent where
  sendBuffers : List SendBuffer
  bufferIndex : Nat
  bufferOffset : Nat
  inBounds : Batch.InBounds (sendBuffers.map SendBuffer.bytes) bufferIndex bufferOffset

namespace SendEvent

def clear : SendEvent := ⟨[],0,0,Batch.inBounds_zero _⟩

def push (e : SendEvent) (bs : List SendBuffer) : SendEvent :=
  ⟨e.sendBuffers++bs,e.bufferIndex,e.bufferOffset,by
    rw [List.map_append]
    exact e.inBounds.append _⟩

def hasPendingData (e : SendEvent) : Bool := e.bufferIndex<e.sendBuffers.length

def buildWsabufs (e : SendEvent) : List (List UInt8) :=
  Batch.views (e.sendBuffers.map SendBuffer.bytes) e.bufferIndex e.bufferOffset

/-- The bytes of the buffers that are not sent. -/
def rest (e : SendEvent) : List UInt8 := e.buildWsabufs.flatten

def remaining (e : SendEvent) : Nat :=
  ((e.sendBuffers.drop e.bufferIndex).map SendBuffer.writeSize).sum-e.bufferOffset

theorem remaining_eq (e : SendEvent) : e.remaining=e.rest.length := by
  have h := Batch.rest_length e.inBounds
  rw [← List.map_drop,List.map_map] at h
  have hf : List.length ∘ SendBuffer.bytes=SendBuffer.writeSize := funext SendBuffer.bytes_length
  rw [hf] at h
  exact h.symm

/-- The loop of `consume_sent_bytes`, once the byte count is known to fit. -/
def consume (e : SendEvent) (n : Nat) (hn : n ≤ e.remaining) : Option SendEvent :=
  match hs : Batch.skip ((e.sendBuffers.map SendBuffer.bytes).drop e.bufferIndex) e.bufferIndex
      e.bufferOffset n with
  | none => none
  | some (index,offset) =>
    some ⟨e.sendBuffers,index,offset,
      Batch.skip_inBounds e.inBounds (e.remaining_eq ▸ hn) hs⟩

/-- `SendEvent::consume_sent_bytes`; `none` is the result `false`, which leaves the event as it is. -/
def consumeSentBytes (e : SendEvent) (numOfBytes : Int) : Option SendEvent :=
  if numOfBytes ≤ 0 then none
  else if hn : numOfBytes.toNat ≤ e.remaining then e.consume numOfBytes.toNat hn
  else none

@[simp] theorem rest_clear : clear.rest=[] := rfl

theorem rest_push {e : SendEvent} (h : e.hasPendingData=false) (bs : List SendBuffer) :
    (e.push bs).rest=streamOf bs := by
  have hd : ¬e.bufferIndex<(e.sendBuffers.map SendBuffer.bytes).length := by
    simpa [hasPendingData] using h
  have hr := Batch.rest_append_of_done e.inBounds hd (bs.map SendBuffer.bytes)
  simpa [rest,buildWsabufs,push,streamOf,Batch.rest] using hr

theorem rest_of_done {e : SendEvent} (h : e.hasPendingData=false) : e.rest=[] := by
  have hd : ¬e.bufferIndex<(e.sendBuffers.map SendBuffer.bytes).length := by
    simpa [hasPendingData] using h
  exact Batch.rest_of_done hd

theorem hasPendingData_of_buildWsabufs {e : SendEvent} (h : e.buildWsabufs=[]) :
    e.hasPendingData=false := by
  by_contra hpending
  have hlt : e.bufferIndex<(e.sendBuffers.map SendBuffer.bytes).length := by
    simpa [hasPendingData] using hpending
  unfold buildWsabufs Batch.views at h
  split at h
  · rename_i hdrop
    rw [List.drop_eq_nil_iff] at hdrop
    omega
  · cases h

/-- The loop changes the position and nothing else. -/
theorem consume_of_skip {e : SendEvent} {n : Nat} (hn : n ≤ e.remaining) {i o : Nat}
    (hin : Batch.InBounds (e.sendBuffers.map SendBuffer.bytes) i o)
    (hs : Batch.skip ((e.sendBuffers.map SendBuffer.bytes).drop e.bufferIndex) e.bufferIndex
      e.bufferOffset n=some (i,o)) :
    e.consume n hn=some ⟨e.sendBuffers,i,o,hin⟩ := by
  unfold consume
  split
  · rename_i hnone
    rw [hs] at hnone
    cases hnone
  · rename_i hsome
    rw [hs] at hsome
    cases hsome
    rfl

/-- The loop never reads behind the last buffer, and it drops exactly the sent bytes. -/
theorem consume_spec (e : SendEvent) (n : Nat) (hn : n ≤ e.remaining) :
    ∃ e', e.consume n hn=some e' ∧ e'.rest=e.rest.drop n := by
  obtain ⟨i,o,hs,hin,hr⟩ := Batch.skip_spec _ _ _ n e.inBounds (e.remaining_eq ▸ hn)
  exact ⟨⟨e.sendBuffers,i,o,hin⟩,consume_of_skip hn hin hs,hr⟩

theorem consumeSentBytes_some {e e' : SendEvent} {n : Int} (h : e.consumeSentBytes n=some e') :
    0<n ∧ e'.rest=e.rest.drop n.toNat := by
  unfold consumeSentBytes at h
  split at h
  · cases h
  · split at h
    · rename_i hpos hle
      obtain ⟨e'',hc,hr⟩ := e.consume_spec n.toNat hle
      rw [hc] at h
      cases h
      exact ⟨by omega,hr⟩
    · cases h

/-- The buffers of the event stay as they are. -/
theorem consumeSentBytes_sendBuffers {e e' : SendEvent} {n : Int}
    (h : e.consumeSentBytes n=some e') : e'.sendBuffers=e.sendBuffers := by
  unfold consumeSentBytes at h
  split at h
  · cases h
  · split at h
    · rename_i hle
      obtain ⟨i,o,hs,hin,-⟩ := Batch.skip_spec _ _ _ n.toNat e.inBounds (e.remaining_eq ▸ hle)
      rw [consume_of_skip hle hin hs] at h
      cases h
      rfl
    · cases h

/-- A completion is refused only for a byte count that is not positive or exceeds what is left. -/
theorem consumeSentBytes_none {e : SendEvent} {n : Int} (h : e.consumeSentBytes n=none) :
    n ≤ 0 ∨ e.rest.length<n.toNat := by
  unfold consumeSentBytes at h
  split at h
  · exact Or.inl ‹_›
  · split at h
    · rename_i hle
      obtain ⟨e'',hc,-⟩ := e.consume_spec n.toNat hle
      rw [hc] at h
      cases h
    · rename_i hgt
      rw [remaining_eq] at hgt
      exact Or.inr (by omega)

end SendEvent

end IocpServer.NetWork
