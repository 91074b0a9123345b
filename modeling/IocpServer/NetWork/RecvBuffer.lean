import Mathlib.Algebra.GroupWithZero.Nat
import Mathlib.Data.List.Basic

namespace IocpServer.NetWork

/-- A `RecvBuffer`: ten times the size of one packet buffer, with the received and not yet
processed bytes between the two positions. -/
structure RecvBuffer where
  bufferSize : Nat
  buffer : List UInt8
  readPos : Nat
  writePos : Nat
  capacity_eq : buffer.length=bufferSize*10
  read_le : readPos ≤ writePos
  write_le : writePos ≤ buffer.length

namespace RecvBuffer

def init (bufferSize : Nat) : RecvBuffer :=
  ⟨bufferSize,List.replicate (bufferSize*10) 0,0,0,List.length_replicate,Nat.le_refl 0,Nat.zero_le _⟩

def capacity (b : RecvBuffer) : Nat := b.buffer.length

def dataSize (b : RecvBuffer) : Nat := b.writePos-b.readPos

def freeSize (b : RecvBuffer) : Nat := b.capacity-b.writePos

/-- The received bytes, from `read_pos()` on. -/
def data (b : RecvBuffer) : List UInt8 := (b.buffer.drop b.readPos).take b.dataSize

/-- `memmove` of `n` bytes from position `src` to the front. -/
def memmove (buffer : List UInt8) (src n : Nat) : List UInt8 :=
  (buffer.drop src).take n++buffer.drop n

theorem memmove_length {buffer : List UInt8} {src n : Nat} (h : src+n ≤ buffer.length) :
    (memmove buffer src n).length=buffer.length := by
  simp only [memmove,List.length_append,List.length_take,List.length_drop]
  omega

theorem readPos_add_dataSize_le (b : RecvBuffer) : b.readPos+b.dataSize ≤ b.buffer.length := by
  have := b.read_le
  have := b.write_le
  simp only [dataSize]
  omega

theorem moved_length (b : RecvBuffer) :
    (memmove b.buffer b.readPos b.dataSize).length=b.buffer.length :=
  memmove_length b.readPos_add_dataSize_le

def clean (b : RecvBuffer) : RecvBuffer :=
  if b.dataSize=0 then
    { b with
      readPos := 0
      writePos := 0
      read_le := Nat.le_refl 0
      write_le := Nat.zero_le _ }
  else if b.freeSize<b.bufferSize then
    { b with
      buffer := memmove b.buffer b.readPos b.dataSize
      readPos := 0
      writePos := b.dataSize
      capacity_eq := b.moved_length.trans b.capacity_eq
      read_le := Nat.zero_le _
      write_le := by
        rw [b.moved_length]
        exact Nat.le_of_add_left_le b.readPos_add_dataSize_le }
  else b

def onRead (b : RecvBuffer) (numOfBytes : Nat) : Option RecvBuffer :=
  if h : b.dataSize<numOfBytes then none
  else some
    { b with
      readPos := b.readPos+numOfBytes
      read_le := by have := b.read_le; simp only [dataSize] at h; omega }

def onWrite (b : RecvBuffer) (numOfBytes : Nat) : Option RecvBuffer :=
  if h : b.freeSize<numOfBytes then none
  else some
    { b with
      writePos := b.writePos+numOfBytes
      read_le := by have := b.read_le; omega
      write_le := by have := b.write_le; simp only [freeSize,capacity] at h; omega }

/-- What `WSARecv` leaves in the buffer: it stores at `write_pos()` and never more than
`free_size()` bytes. -/
def stored (b : RecvBuffer) (bytes : List UInt8) : List UInt8 :=
  b.buffer.take b.writePos++bytes.take b.freeSize++b.buffer.drop (b.writePos+bytes.length)

theorem stored_length (b : RecvBuffer) (bytes : List UInt8) :
    (b.stored bytes).length=b.buffer.length := by
  have := b.write_le
  simp only [stored,freeSize,capacity,List.length_append,List.length_take,List.length_drop]
  omega

def fill (b : RecvBuffer) (bytes : List UInt8) : RecvBuffer :=
  { b with
    buffer := b.stored bytes
    capacity_eq := (b.stored_length bytes).trans b.capacity_eq
    write_le := by
      rw [b.stored_length]
      exact b.write_le }

@[simp] theorem data_length (b : RecvBuffer) : b.data.length=b.dataSize := by
  have := b.write_le
  simp only [data,dataSize,List.length_take,List.length_drop]
  omega

@[simp] theorem data_init (bufferSize : Nat) : (init bufferSize).data=[] := by
  simp [data,dataSize,init]

theorem freeSize_init (bufferSize : Nat) : (init bufferSize).freeSize=bufferSize*10 := by
  simp [freeSize,capacity,init]

@[simp] theorem data_clean (b : RecvBuffer) : b.clean.data=b.data := by
  have hlen := b.data_length
  unfold clean
  split
  · rename_i h
    rw [List.eq_nil_of_length_eq_zero (hlen.trans h)]
    simp [data,dataSize]
  · split
    · have htake : (memmove b.buffer b.readPos b.dataSize).take b.dataSize=b.data := by
        rw [memmove,← data,List.take_append_of_le_length (Nat.le_of_eq hlen.symm),
          List.take_of_length_le (Nat.le_of_eq hlen)]
      exact htake
    · rfl

@[simp] theorem clean_bufferSize (b : RecvBuffer) : b.clean.bufferSize=b.bufferSize := by
  unfold clean
  split
  · rfl
  · split <;> rfl

/-- After `clean` there is room for one packet buffer, if the data do not take more than nine. -/
theorem freeSize_clean {b : RecvBuffer} (h : b.dataSize ≤ b.bufferSize*9) :
    b.bufferSize ≤ b.clean.freeSize := by
  have hcap := b.capacity_eq
  unfold clean
  split
  · simp only [freeSize,capacity]
    omega
  · split
    · simp only [freeSize,capacity,b.moved_length]
      omega
    · omega

theorem onRead_data {b : RecvBuffer} {n : Nat} (h : n ≤ b.dataSize) :
    ∃ b', b.onRead n=some b' ∧ b'.data=b.data.drop n ∧ b'.bufferSize=b.bufferSize := by
  have hn : ¬b.dataSize<n := by omega
  refine ⟨_,dif_neg hn,?_,rfl⟩
  have hsize : b.writePos-(b.readPos+n)=b.dataSize-n := by
    simp only [dataSize]
    omega
  simp only [data,dataSize] at hsize ⊢
  rw [hsize,List.drop_take,List.drop_drop]

theorem data_eq_take (b : RecvBuffer) : b.data=(b.buffer.take b.writePos).drop b.readPos := by
  rw [List.drop_take]
  rfl

@[simp] theorem freeSize_fill (b : RecvBuffer) (bytes : List UInt8) :
    (b.fill bytes).freeSize=b.freeSize := by
  simp only [freeSize,capacity,fill,stored_length]

/-- `WSARecv` stores behind the data. -/
@[simp] theorem data_fill (b : RecvBuffer) (bytes : List UInt8) : (b.fill bytes).data=b.data := by
  have hwrite := b.write_le
  have htake : (b.stored bytes).take b.writePos=b.buffer.take b.writePos := by
    rw [stored,List.append_assoc,List.take_append_of_le_length,List.take_take,Nat.min_self]
    rw [List.length_take]
    omega
  rw [data_eq_take,data_eq_take]
  exact congrArg (List.drop b.readPos) htake

theorem fill_stores {b : RecvBuffer} {bytes : List UInt8} (h : bytes.length ≤ b.freeSize) :
    ((b.fill bytes).buffer.drop (b.fill bytes).writePos).take bytes.length=bytes := by
  have hwrite := b.write_le
  change ((b.stored bytes).drop b.writePos).take bytes.length=bytes
  rw [stored,List.append_assoc,List.drop_append_of_le_length,List.drop_take,Nat.sub_self,
    List.take_zero,List.nil_append,List.take_of_length_le h,List.take_left]
  rw [List.length_take]
  omega

/-- `on_write` adds what lies behind the data. -/
theorem onWrite_data {b : RecvBuffer} {n : Nat} (h : n ≤ b.freeSize) :
    ∃ b', b.onWrite n=some b' ∧ b'.data=b.data++(b.buffer.drop b.writePos).take n ∧
      b'.bufferSize=b.bufferSize := by
  have hread := b.read_le
  have hsize : b.writePos+n-b.readPos=b.dataSize+n := by
    simp only [dataSize]
    omega
  have hend : b.readPos+b.dataSize=b.writePos := by
    simp only [dataSize]
    omega
  refine ⟨_,dif_neg (Nat.not_lt.mpr h),?_,rfl⟩
  change (b.buffer.drop b.readPos).take (b.writePos+n-b.readPos)=_
  rw [hsize,List.take_add,List.drop_drop,hend]
  rfl

/-- Bytes that fit into the free space are appended to the data. -/
theorem fill_onWrite_data {b : RecvBuffer} {bytes : List UInt8} (h : bytes.length ≤ b.freeSize) :
    ∃ b', (b.fill bytes).onWrite bytes.length=some b' ∧ b'.data=b.data++bytes ∧
      b'.bufferSize=b.bufferSize := by
  have hfits : bytes.length ≤ (b.fill bytes).freeSize := by
    rw [freeSize_fill]
    exact h
  obtain ⟨b',hb',hdata,hsize⟩ := onWrite_data hfits
  rw [data_fill,fill_stores h] at hdata
  exact ⟨b',hb',hdata,hsize⟩

theorem data_of_onRead {b b' : RecvBuffer} {n : Nat} (h : b.onRead n=some b') :
    n ≤ b.dataSize ∧ b'.data=b.data.drop n := by
  by_cases hn : n ≤ b.dataSize
  · obtain ⟨b'',hb,hdata,-⟩ := onRead_data hn
    cases hb.symm.trans h
    exact ⟨hn,hdata⟩
  · rw [onRead,dif_pos (Nat.lt_of_not_le hn)] at h
    cases h

theorem data_of_onWrite {b b' : RecvBuffer} {bytes : List UInt8}
    (h : (b.fill bytes).onWrite bytes.length=some b') : b'.data=b.data++bytes := by
  by_cases hn : bytes.length ≤ b.freeSize
  · obtain ⟨b'',hb,hdata,-⟩ := fill_onWrite_data hn
    cases hb.symm.trans h
    exact hdata
  · have hfull : (b.fill bytes).freeSize<bytes.length := by
      simp only [freeSize,capacity,fill,stored_length] at hn ⊢
      omega
    rw [onWrite,dif_pos hfull] at h
    cases h

end RecvBuffer

end IocpServer.NetWork
