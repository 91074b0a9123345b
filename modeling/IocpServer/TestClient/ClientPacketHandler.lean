import IocpServer.NetWork.PacketCodec

namespace IocpServer.TestClient

open NetWork
open Framing (WellFormed)

/-- The generated messages: the packet id of each, its serialization, and parsing, which inverts
it. -/
structure Protobuf (P : Type) where
  packetId : P → Nat
  byteSizeLong : P → Nat
  serializeToArray : P → Option (List UInt8)
  parseFromArray : Nat → List UInt8 → Option P
  packetId_lt : ∀ pkt, packetId pkt<2^16
  byteSizeLong_eq : ∀ pkt bytes, serializeToArray pkt=some bytes → bytes.length=byteSizeLong pkt
  parse_serialize : ∀ pkt bytes, serializeToArray pkt=some bytes →
    parseFromArray (packetId pkt) bytes=some pkt

variable {P : Type} (pb : Protobuf P)

/-- `ClientPacketHandler::MakeSendBuffer`; `none` is `nullptr`. -/
def makeSendBuffer (pkt : P) : Option SendBuffer :=
  if 0xffff-headerSize<pb.byteSizeLong pkt then none
  else
    let packetSize := (pb.byteSizeLong pkt+headerSize)%2^16
    match h : pb.serializeToArray pkt with
    | none => none
    | some bytes =>
      some ⟨packetBytes packetSize (pb.packetId pkt) bytes,packetSize,by
        rw [packetBytes_length,pb.byteSizeLong_eq pkt bytes h]
        exact Nat.mod_le _ _⟩

/-- The id and the payload of a packet the server was given. -/
def readPacket (packet : List UInt8) : Option (Nat×List UInt8) :=
  (readHeader packet 0).map fun header => (header.id,packet.drop headerSize)

/-- What the server makes of the packet. -/
def parsePacket (packet : List UInt8) : Option P :=
  (readPacket packet).bind fun r => pb.parseFromArray r.1 r.2

variable {pb}

/-- A buffer of `MakeSendBuffer` holds the packet and nothing else. -/
theorem makeSendBuffer_bytes {pkt : P} {b : SendBuffer} (h : makeSendBuffer pb pkt=some b) :
    ∃ bytes, pb.serializeToArray pkt=some bytes ∧ bytes.length+headerSize<2^16 ∧
      b.bytes=packetBytes (bytes.length+headerSize) (pb.packetId pkt) bytes := by
  unfold makeSendBuffer at h
  split at h
  · cases h
  · rename_i hsize
    simp only at h
    split at h
    · cases h
    · rename_i bytes hbytes
      cases h
      have hlen := pb.byteSizeLong_eq pkt bytes hbytes
      have hfit : bytes.length+headerSize<2^16 := by
        simp only [headerSize] at hsize ⊢
        omega
      have hmod : (pb.byteSizeLong pkt+headerSize)%2^16=bytes.length+headerSize := by
        rw [← hlen,Nat.mod_eq_of_lt hfit]
      have hfull : (packetBytes ((pb.byteSizeLong pkt+headerSize)%2^16) (pb.packetId pkt)
          bytes).length ≤ (pb.byteSizeLong pkt+headerSize)%2^16 :=
        Nat.le_of_eq ((packetBytes_length _ _ _).trans hmod.symm)
      refine ⟨bytes,hbytes,hfit,(List.take_of_length_le hfull).trans ?_⟩
      rw [hmod]

/-- It is one frame, from which the server reads the packet. -/
theorem makeSendBuffer_spec {pkt : P} {b : SendBuffer} (h : makeSendBuffer pb pkt=some b) :
    WellFormed packetFormat b.bytes ∧
    readPacket b.bytes=(pb.serializeToArray pkt).map (fun bytes => (pb.packetId pkt,bytes)) ∧
    parsePacket pb b.bytes=some pkt := by
  obtain ⟨bytes,hbytes,hfit,heq⟩ := makeSendBuffer_bytes h
  have hread : readPacket b.bytes=some (pb.packetId pkt,bytes) := by
    rw [heq,readPacket,readHeader_packetBytes,packetBytes_drop,
      Nat.mod_eq_of_lt (pb.packetId_lt pkt)]
    rfl
  refine ⟨?_,?_,?_⟩
  · rw [heq]
    exact wellFormed_packetBytes hfit rfl
  · rw [hread,hbytes]
    rfl
  · rw [parsePacket,hread]
    exact pb.parse_serialize pkt bytes hbytes

end IocpServer.TestClient
