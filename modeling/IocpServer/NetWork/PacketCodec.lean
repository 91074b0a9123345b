import IocpServer.NetWork.Receive
import IocpServer.NetWork.SendEvent

namespace IocpServer.NetWork

open Framing (WellFormed)

/-- A `uint16` as it lies in memory; what does not fit is cut off. -/
def writeUint16 (n : Nat) : List UInt8 := [UInt8.ofNat n,UInt8.ofNat (n/256)]

/-- A packet: the two fields of its header and its payload. -/
def packetBytes (size id : Nat) (payload : List UInt8) : List UInt8 :=
  writeUint16 size++writeUint16 id++payload

theorem packetBytes_length (size id : Nat) (payload : List UInt8) :
    (packetBytes size id payload).length=payload.length+headerSize := by
  simp [packetBytes,writeUint16,headerSize]

theorem packetBytes_drop (size id : Nat) (payload : List UInt8) :
    (packetBytes size id payload).drop headerSize=payload := rfl

theorem uint16_bytes (n : Nat) :
    (UInt8.ofNat n).toNat+256*(UInt8.ofNat (n/256)).toNat=n%2^16 := by
  simp only [UInt8.toNat_ofNat']
  omega

theorem packetFormat_size_packetBytes (size id : Nat) (payload : List UInt8) :
    packetFormat.size (packetBytes size id payload)=size%2^16 :=
  uint16_bytes size

/-- The header is read back as it was written. -/
theorem readHeader_packetBytes (size id : Nat) (payload : List UInt8) :
    readHeader (packetBytes size id payload) 0=some ⟨size%2^16,id%2^16⟩ := by
  have hsize : readUint16 (packetBytes size id payload) 0=some (size%2^16) :=
    congrArg some (uint16_bytes size)
  have hid : readUint16 (packetBytes size id payload) (0+2)=some (id%2^16) :=
    congrArg some (uint16_bytes id)
  simp only [readHeader,hsize,hid]
  rfl

/-- A packet whose header holds its own length is one frame. -/
theorem wellFormed_packetBytes {size id : Nat} {payload : List UInt8} (hlt : size<2^16)
    (h : size=payload.length+headerSize) :
    WellFormed packetFormat (packetBytes size id payload) := by
  have hlen := packetBytes_length size id payload
  refine ⟨?_,?_⟩
  · rw [hlen]
    exact Nat.le_add_left _ _
  · rw [packetFormat_size_packetBytes,hlen,Nat.mod_eq_of_lt hlt,h]

end IocpServer.NetWork
