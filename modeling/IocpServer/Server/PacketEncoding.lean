import IocpServer.NetWork.PacketCodec
import IocpServer.TestClient.Receive

namespace IocpServer.Server

open NetWork (Receiver headerSize readHeader packetBytes packetFormat writeUint16)
open TestClient (Handlers handlePacket Answered)
open Framing (WellFormed parse)

/-- The generated messages: the packet id of each and its serialization. -/
structure Messages (P : Type) where
  packetId : P → Nat
  bytes : P → List UInt8
  packetId_lt : ∀ pkt, packetId pkt<2^16

namespace Messages

variable {P : Type} (m : Messages P)

def byteSizeLong (pkt : P) : Nat := (m.bytes pkt).length

/-- Fails without writing if the array is too small for the message. -/
def serializeToArray (pkt : P) (size : Nat) : Option (List UInt8) :=
  if size < m.byteSizeLong pkt then none else some (m.bytes pkt)

end Messages

/-- Overwrites the storage from `pos` on; `none` is a write outside it. -/
def write (storage : List UInt8) (pos : Nat) (bytes : List UInt8) : Option (List UInt8) :=
  if pos+bytes.length ≤ storage.length then
    some (storage.take pos++bytes++storage.drop (pos+bytes.length))
  else none

/-- What an encoder does: it writes outside the storage it allocated, it refuses the packet, or it
returns a buffer. -/
inductive Made
  | overrun
  | nullptr
  | sendBuffer (buffer : List UInt8) (writeSize : Nat)

variable {P : Type} (m : Messages P)

/-- `ServerPacketHandler::MakeSendBuffer`; the result of `SerializeToArray` is not looked at. -/
def makeSendBuffer (pkt : P) : Made :=
  let dataSize := m.byteSizeLong pkt%2^16
  let packetSize := (dataSize+headerSize)%2^16
  match write (List.replicate packetSize 0) 0
      (writeUint16 packetSize++writeUint16 (m.packetId pkt)) with
  | none => .overrun
  | some storage =>
    match m.serializeToArray pkt dataSize with
    | none => .sendBuffer storage packetSize
    | some bytes =>
      match write storage headerSize bytes with
      | none => .overrun
      | some storage => .sendBuffer storage packetSize

/-- The client gets the packet back: `process_recv` dispatches the frame alone, whichever way it is
cut, and `HandlePacket` gives it to the handler of its id with its payload. -/
structure Decodes (pkt : P) (frame : List UInt8) : Prop where
  dispatch : ∀ handlers chunks, chunks.flatten=frame → Answered handlers frame →
    TestClient.Fits handlers Receiver.init chunks →
    ∃ c, TestClient.receive handlers Receiver.init chunks=some c ∧ c.dispatched=[frame] ∧
      c.isConnect=true
  handle : ∀ handlers : Handlers, handlePacket handlers frame frame.length=
    some ((handlers.find (m.packetId pkt)).elim false fun handler => handler frame)
  payload : frame.drop headerSize=m.bytes pkt

/-- The packet is refused, or it becomes a frame of its own size that the client decodes. -/
def Faithful (pkt : P) : Made → Prop
  | .overrun => False
  | .nullptr => True
  | .sendBuffer buffer writeSize =>
    (readHeader buffer 0).map NetWork.PacketHeader.size=some (headerSize+m.byteSizeLong pkt) ∧
    buffer.length=headerSize+m.byteSizeLong pkt ∧ writeSize=headerSize+m.byteSizeLong pkt ∧
    Decodes m pkt buffer

variable {m}

theorem write_header {n size id : Nat} (h : headerSize ≤ n) :
    write (List.replicate n 0) 0 (writeUint16 size++writeUint16 id)=
      some (packetBytes size id (List.replicate (n-headerSize) 0)) := by
  have hlen : (writeUint16 size++writeUint16 id).length=headerSize := rfl
  rw [write,hlen,Nat.zero_add,if_pos (by rwa [List.length_replicate]),List.drop_replicate]
  rfl

theorem write_payload {size id : Nat} {old bytes : List UInt8} (h : bytes.length=old.length) :
    write (packetBytes size id old) headerSize bytes=some (packetBytes size id bytes) := by
  have hlen := NetWork.packetBytes_length size id old
  rw [write,if_pos (by omega),List.drop_of_length_le (by omega),List.append_nil]
  rfl

/-- A packet that fits becomes its header and its serialization. -/
theorem makeSendBuffer_of_fits {pkt : P} (h : headerSize+m.byteSizeLong pkt<2^16) :
    makeSendBuffer m pkt=
      .sendBuffer (packetBytes (headerSize+m.byteSizeLong pkt) (m.packetId pkt) (m.bytes pkt))
        (headerSize+m.byteSizeLong pkt) := by
  have hdata : m.byteSizeLong pkt%2^16=m.byteSizeLong pkt := Nat.mod_eq_of_lt (by omega)
  have hsize : (m.byteSizeLong pkt+headerSize)%2^16=headerSize+m.byteSizeLong pkt := by
    rw [Nat.mod_eq_of_lt (by omega),Nat.add_comm]
  have hserial : m.serializeToArray pkt (m.byteSizeLong pkt)=some (m.bytes pkt) :=
    if_neg (Nat.lt_irrefl _)
  simp only [makeSendBuffer,hdata,hsize,hserial,write_header (Nat.le_add_right _ _)]
  rw [write_payload]
  rw [List.length_replicate,Nat.add_sub_cancel_left]
  rfl

/-- A larger packet gets a wrapped size: the buffer is too small for the header, or it is a frame
without the serialization. -/
theorem makeSendBuffer_of_wraps {pkt : P} (h : 2^16 ≤ headerSize+m.byteSizeLong pkt) :
    makeSendBuffer m pkt=.overrun ∨
    ∃ packetSize payload, packetSize<2^16 ∧
      makeSendBuffer m pkt=
        .sendBuffer (packetBytes packetSize (m.packetId pkt) payload) packetSize := by
  by_cases hsmall : (m.byteSizeLong pkt%2^16+headerSize)%2^16<headerSize
  · have hout : write (List.replicate ((m.byteSizeLong pkt%2^16+headerSize)%2^16) 0) 0
        (writeUint16 ((m.byteSizeLong pkt%2^16+headerSize)%2^16)++
          writeUint16 (m.packetId pkt))=none := by
      apply if_neg
      rw [List.length_replicate]
      exact Nat.not_le.mpr hsmall
    left
    simp only [makeSendBuffer,hout]
  · have hlarge : 2^16 ≤ m.byteSizeLong pkt := by
      simp only [headerSize] at h hsmall
      omega
    have hserial : m.serializeToArray pkt (m.byteSizeLong pkt%2^16)=none :=
      if_pos (Nat.lt_of_lt_of_le (Nat.mod_lt _ (by decide)) hlarge)
    right
    refine ⟨(m.byteSizeLong pkt%2^16+headerSize)%2^16,
      List.replicate ((m.byteSizeLong pkt%2^16+headerSize)%2^16-headerSize) 0,
      Nat.mod_lt _ (by decide),?_⟩
    simp only [makeSendBuffer,write_header (Nat.not_lt.mp hsmall),hserial]

/-- A client that is sent one frame dispatches it, and nothing is left over. -/
theorem receive_frame {handlers : Handlers} {frame : List UInt8} {chunks : List (List UInt8)}
    (hframe : WellFormed packetFormat frame) (hchunks : chunks.flatten=frame)
    (hanswer : Answered handlers frame) (hfit : TestClient.Fits handlers Receiver.init chunks) :
    ∃ c, TestClient.receive handlers Receiver.init chunks=some c ∧ c.dispatched=[frame] ∧
      c.isConnect=true := by
  have hparse : parse packetFormat ([]++chunks.flatten)=⟨[frame],[],false⟩ := by
    have hone := Framing.parse_flatten (F := packetFormat) (List.forall_mem_singleton.mpr hframe)
    rw [List.flatten_singleton] at hone
    rwa [List.nil_append,hchunks]
  obtain ⟨heq,hfits⟩ := TestClient.receive_eq Receiver.exact_init Receiver.inv_init
    (by rw [hparse]; exact List.forall_mem_singleton.mpr hanswer) hfit
  obtain ⟨c,hc,hexact,-⟩ := Receiver.receive_exact Receiver.exact_init Receiver.inv_init hfits
  have hon := hexact.malformed
  rw [hparse] at hon
  refine ⟨c,heq.trans hc,by rw [hexact.frames,hparse],?_⟩
  by_contra hoff
  cases hon.mp (Bool.eq_false_iff.mpr hoff)

theorem decodes_packetBytes {pkt : P} (h : headerSize+m.byteSizeLong pkt<2^16) :
    Decodes m pkt
      (packetBytes (headerSize+m.byteSizeLong pkt) (m.packetId pkt) (m.bytes pkt)) := by
  have hframe : WellFormed packetFormat
      (packetBytes (headerSize+m.byteSizeLong pkt) (m.packetId pkt) (m.bytes pkt)) :=
    NetWork.wellFormed_packetBytes h (Nat.add_comm _ _)
  refine ⟨fun handlers chunks hchunks hanswer hfit => receive_frame hframe hchunks hanswer hfit,
    fun handlers => ?_,NetWork.packetBytes_drop _ _ _⟩
  have hread := NetWork.readHeader_packetBytes (headerSize+m.byteSizeLong pkt) (m.packetId pkt)
    (m.bytes pkt)
  have hlen := NetWork.packetBytes_length (headerSize+m.byteSizeLong pkt) (m.packetId pkt)
    (m.bytes pkt)
  have hsize : headerSize+m.byteSizeLong pkt=(m.bytes pkt).length+headerSize := Nat.add_comm _ _
  rw [Nat.mod_eq_of_lt h,Nat.mod_eq_of_lt (m.packetId_lt pkt)] at hread
  rw [hlen,handlePacket,if_neg (Nat.not_lt.mpr (Nat.le_add_left _ _)),hread]
  simp only [hsize,ne_eq,not_true_eq_false,if_false]
  cases handlers.find (m.packetId pkt) <;> rfl

/-- The encoder is faithful for exactly the packets whose frame has at most 65535 bytes. -/
theorem makeSendBuffer_faithful_iff (m : Messages P) (pkt : P) :
    Faithful m pkt (makeSendBuffer m pkt) ↔ m.byteSizeLong pkt ≤ 65531 := by
  constructor
  · intro hfaithful
    by_contra hlarge
    have hwraps : 2^16 ≤ headerSize+m.byteSizeLong pkt := by
      simp only [headerSize]
      omega
    rcases makeSendBuffer_of_wraps hwraps with hout|⟨packetSize,payload,hlt,hmade⟩
    · rw [hout] at hfaithful
      exact hfaithful
    · rw [hmade] at hfaithful
      have hsize : packetSize=headerSize+m.byteSizeLong pkt := hfaithful.2.2.1
      omega
  · intro hle
    have hfit : headerSize+m.byteSizeLong pkt<2^16 := by
      simp only [headerSize]
      omega
    have hlen := NetWork.packetBytes_length (headerSize+m.byteSizeLong pkt) (m.packetId pkt)
      (m.bytes pkt)
    rw [makeSendBuffer_of_fits hfit]
    refine ⟨?_,hlen.trans (Nat.add_comm _ _),rfl,decodes_packetBytes hfit⟩
    rw [NetWork.readHeader_packetBytes,Option.map_some,Nat.mod_eq_of_lt hfit]

/-- Messages of the chat id with as many zero bytes as the packet says. -/
def zeros : Messages Nat := ⟨fun _ => 1014,fun n => List.replicate n 0,fun _ => by decide⟩

/-- A packet of 65536 bytes becomes a frame whose size field is 4. -/
theorem makeSendBuffer_wraps_size :
    makeSendBuffer zeros 65536=.sendBuffer [4,0,246,3] 4 ∧
      ¬Faithful zeros 65536 (makeSendBuffer zeros 65536) := by
  have hsize : zeros.byteSizeLong 65536=65536 := List.length_replicate
  have hserial : zeros.serializeToArray 65536 0=none := if_pos (by rw [hsize]; decide)
  have hdata : 65536%2^16=0 := rfl
  have hpacket : (0+headerSize)%2^16=4 := rfl
  have hmade : makeSendBuffer zeros 65536=.sendBuffer [4,0,246,3] 4 := by
    simp only [makeSendBuffer,hsize,hdata,hpacket,hserial,write_header (show headerSize ≤ 4 by decide)]
    rfl
  rw [hmade,Faithful,hsize]
  refine ⟨rfl,?_⟩
  rintro ⟨-,-,hwrite,-⟩
  exact absurd hwrite (by decide)

end IocpServer.Server
