import IocpServer.NetWork.PacketCodec
import IocpServer.Tool.ProtoParser

namespace IocpServer.Tool

open NetWork (readHeader headerSize packetBytes packetBytes_length readHeader_packetBytes)

/-- The two programs for which packet handlers are generated. -/
inductive Target where
  | server
  | client
deriving DecidableEq

def Target.recvPrefix : Target → Str
  | .server => "REQ_".toList
  | .client => "ACK_".toList

def Target.sendPrefix : Target → Str
  | .server => "ACK_".toList
  | .client => "REQ_".toList

def Target.parser (t : Target) : ProtoParser := ProtoParser.init 1000 t.recvPrefix t.sendPrefix

/-- A generated header: the enumerators `PKT_name = id`, the messages for which `Init` registers
`Handle_name`, and those that have an overload of `MakeSendBuffer`. -/
structure PacketHandler where
  enumerators : List (Str×Nat)
  handlers : List Str
  senders : List Str

/-- The templates as far as they depend on the parser. -/
def render (p : ProtoParser) : PacketHandler :=
  ⟨p.totalPkt.map fun pkt => (pkt.name,pkt.id),p.recvPkt.map Packet.name,p.sendPkt.map Packet.name⟩

inductive GenerateError where
  | exception
  | noPackets

/-- `generate_packets`, from the bytes of `Protocol.proto`. -/
def generatePackets (py : Python) (t : Target) (data : List UInt8) :
    Except GenerateError PacketHandler :=
  match t.parser.parseProto py data with
  | none => .error .exception
  | some p => if p.totalPkt.isEmpty then .error .noPackets else .ok (render p)

namespace PacketHandler

variable (g : PacketHandler)

/-- The value of `PKT_name`; a header that defines it twice does not compile. -/
def pkt (name : Str) : Option Nat := g.enumerators.lookup name

/-- `GPacketHandler[PKT_name] = Handle_name`. -/
def register (table : Nat → Option Str) (name : Str) : Nat → Option Str :=
  match g.pkt name with
  | none => table
  | some id => Function.update table id (some name)

/-- `GPacketHandler` after `Init`. -/
def table : Nat → Option Str := g.handlers.foldl g.register fun _ => none

/-- The id that `MakeSendBuffer` writes for a message; `none` if there is no overload. -/
def sendId (name : Str) : Option Nat := if name∈g.senders then g.pkt name else none

/-- The handler that `HandlePacket` calls. The client also compares the size with the length. -/
def handlePacket (t : Target) (packet : List UInt8) : Option Str :=
  (readHeader packet 0).bind fun header =>
    if (t=.client ∧ header.size≠packet.length) ∨ 0xffff ≤ header.id then none else g.table header.id

/-- A packet with a right header gets to the handler that is registered under its id. -/
theorem handlePacket_packetBytes (t : Target) {id : Nat} (hid : id<0xffff) {payload : List UInt8}
    (hsize : payload.length+headerSize<2^16) :
    g.handlePacket t (packetBytes (payload.length+headerSize) id payload)=g.table id := by
  have hlen := packetBytes_length (payload.length+headerSize) id payload
  have hmod : id%2^16=id := Nat.mod_eq_of_lt (by omega)
  rw [handlePacket,readHeader_packetBytes,Option.bind_some,hlen,hmod,Nat.mod_eq_of_lt hsize]
  apply if_neg
  rintro (hne|hle)
  · exact hne.2 rfl
  · exact absurd hle (Nat.not_le.mpr hid)

end PacketHandler

/-- The packets of a protocol: the names with one of the prefixes, numbered from 1000. -/
def packets (names : List Str) : List Packet :=
  number 1000 (counted "REQ_".toList "ACK_".toList names)

theorem apart_prefixes (t : Target) : Apart t.recvPrefix t.sendPrefix := by
  intro name hrecv
  rw [← Bool.not_eq_true]
  intro hsend
  have hlen : t.recvPrefix.length ≤ t.sendPrefix.length := by cases t <;> decide
  have hboth := List.prefix_of_prefix_length_le (List.isPrefixOf_iff_prefix.mp hrecv)
    (List.isPrefixOf_iff_prefix.mp hsend) hlen
  revert hboth
  cases t <;> decide

theorem counted_target (t : Target) (names : List Str) :
    counted t.recvPrefix t.sendPrefix names=counted "REQ_".toList "ACK_".toList names := by
  cases t with
  | server => rfl
  | client =>
    apply List.filter_congr
    intro name _
    exact Bool.or_comm _ _

/-- What either side has parsed. -/
structure Parsed (t : Target) (names : List Str) (p : ProtoParser) : Prop where
  total : p.totalPkt=packets names
  recv : p.recvPkt=(packets names).filter fun pkt => startswith pkt.name t.recvPrefix
  send : p.sendPkt=(packets names).filter fun pkt => startswith pkt.name t.sendPrefix

theorem parsed_foldl (t : Target) (names : List Str) :
    Parsed t names (names.foldl ProtoParser.add t.parser) := by
  have hfold := ProtoParser.foldl_add (p:=t.parser) (apart_prefixes t) names
  have hcount : counted t.parser.recvPrefix t.parser.sendPrefix names=
      counted "REQ_".toList "ACK_".toList names := counted_target t names
  rw [hcount] at hfold
  rw [hfold]
  exact ⟨rfl,rfl,rfl⟩

theorem parsed_of_parseLines {py : Python} {t : Target} {lines : List Str} {p : ProtoParser}
    (h : t.parser.parseLines py lines=some p) :
    ∃ names, declared py lines=some names ∧ Parsed t names p := by
  rw [ProtoParser.parseLines_eq] at h
  obtain ⟨names,hnames,rfl⟩ := Option.map_eq_some_iff.mp h
  exact ⟨names,hnames,parsed_foldl t names⟩

theorem map_id_packets (names : List Str) :
    (packets names).map Packet.id=List.range' 1000 (packets names).length := by
  rw [packets,map_id_number,number_length]

theorem nodup_ids (names : List Str) : ((packets names).map Packet.id).Nodup := by
  rw [map_id_packets]
  exact List.nodup_range'

namespace Parsed

variable {t : Target} {names : List Str} {p : ProtoParser}

theorem mem_of_pkt (h : Parsed t names p) {name : Str} {id : Nat} (hpkt : (render p).pkt name=some id) :
    ⟨name,id⟩∈packets names := by
  obtain ⟨before,after,hsplit,-⟩ := List.lookup_eq_some_iff.mp hpkt
  have hmem : (name,id)∈(render p).enumerators := by
    rw [hsplit]
    exact List.mem_append_right _ List.mem_cons_self
  obtain ⟨pkt,hin,heq⟩ := List.mem_map.mp hmem
  cases heq
  rw [← h.total]
  exact hin

/-- Every packet has an enumerator. -/
theorem pkt_of_mem (h : Parsed t names p) {pkt : Packet} (hmem : pkt∈packets names) :
    ∃ id, (render p).pkt pkt.name=some id := by
  apply Option.isSome_iff_exists.mp
  apply List.lookup_isSome_iff.mpr
  rw [← h.total] at hmem
  exact ⟨(pkt.name,pkt.id),List.mem_map.mpr ⟨pkt,hmem,rfl⟩,beq_self_eq_true _⟩

/-- No two names have the same enumerator. -/
theorem pkt_inj (h : Parsed t names p) {name other : Str} {id : Nat}
    (hname : (render p).pkt name=some id) (hother : (render p).pkt other=some id) : other=name := by
  have heq := List.inj_on_of_nodup_map (nodup_ids names) (h.mem_of_pkt hother) (h.mem_of_pkt hname) rfl
  exact congrArg Packet.name heq

/-- A registration is not overwritten by another. -/
theorem foldl_register (h : Parsed t names p) {name : Str} {id : Nat}
    (hname : (render p).pkt name=some id) (regs : List Str) (table : Nat → Option Str)
    (hreg : table id=some name ∨ name∈regs) :
    regs.foldl (render p).register table id=some name := by
  induction regs generalizing table with
  | nil => exact hreg.resolve_right List.not_mem_nil
  | cons reg regs ih =>
    rw [List.foldl_cons]
    apply ih
    cases hpkt : (render p).pkt reg with
    | none =>
      have hkeep : (render p).register table reg=table := by
        simp only [PacketHandler.register,hpkt]
      rw [hkeep]
      refine hreg.imp_right fun hmem => (List.mem_cons.mp hmem).resolve_left ?_
      rintro rfl
      rw [hname] at hpkt
      cases hpkt
    | some other =>
      have hwrite : (render p).register table reg=Function.update table other (some reg) := by
        simp only [PacketHandler.register,hpkt]
      rw [hwrite]
      by_cases hid : id=other
      · subst hid
        rw [Function.update_self,h.pkt_inj hname hpkt]
        exact Or.inl rfl
      · rw [Function.update_of_ne hid]
        refine hreg.imp_right fun hmem => (List.mem_cons.mp hmem).resolve_left ?_
        rintro rfl
        rw [hname] at hpkt
        exact hid (Option.some.inj hpkt)

theorem table_of_mem (h : Parsed t names p) {pkt : Packet} {id : Nat} (hmem : pkt∈p.recvPkt)
    (hpkt : (render p).pkt pkt.name=some id) : (render p).table id=some pkt.name :=
  h.foldl_register hpkt _ _ (Or.inr (List.mem_map.mpr ⟨pkt,hmem,rfl⟩))

end Parsed

/-- What the two sides have to share. -/
structure Agree (s c : ProtoParser) : Prop where
  total : s.totalPkt=c.totalPkt
  consecutive : s.totalPkt.map Packet.id=List.range' 1000 s.totalPkt.length
  unique : (s.totalPkt.map Packet.id).Nodup
  requests : s.recvPkt=c.sendPkt
  acks : s.sendPkt=c.recvPkt
  requestId : ∀ pkt∈c.sendPkt, ∃ id, (render c).sendId pkt.name=some id ∧
    ⟨pkt.name,id⟩∈s.totalPkt ∧ (render s).table id=some pkt.name
  ackId : ∀ pkt∈s.sendPkt, ∃ id, (render s).sendId pkt.name=some id ∧
    ⟨pkt.name,id⟩∈c.totalPkt ∧ (render c).table id=some pkt.name

/-- A message is sent under the id under which the other side handles it. -/
theorem sendId_table {t u : Target} {names : List Str} {p q : ProtoParser} (hp : Parsed t names p)
    (hq : Parsed u names q) (hlists : p.sendPkt=q.recvPkt) {pkt : Packet} (hmem : pkt∈p.sendPkt) :
    ∃ id, (render p).sendId pkt.name=some id ∧ ⟨pkt.name,id⟩∈q.totalPkt ∧
      (render q).table id=some pkt.name := by
  have hpackets : pkt∈packets names := by
    rw [hp.send] at hmem
    exact (List.mem_filter.mp hmem).1
  obtain ⟨id,hid⟩ := hp.pkt_of_mem hpackets
  have hsend : (render p).sendId pkt.name=some id :=
    (if_pos (List.mem_map.mpr ⟨pkt,hmem,rfl⟩)).trans hid
  have hsame : (render q).pkt pkt.name=some id := by
    rw [← hid]
    simp only [PacketHandler.pkt,render,hp.total,hq.total]
  rw [hlists] at hmem
  refine ⟨id,hsend,?_,hq.table_of_mem hmem hsame⟩
  rw [hq.total]
  exact hp.mem_of_pkt hid

theorem agree_of_parsed {names : List Str} {s c : ProtoParser} (hs : Parsed .server names s)
    (hc : Parsed .client names c) : Agree s c := by
  have hrequests : s.recvPkt=c.sendPkt := hs.recv.trans hc.send.symm
  have hacks : s.sendPkt=c.recvPkt := hs.send.trans hc.recv.symm
  refine ⟨hs.total.trans hc.total.symm,?_,?_,hrequests,hacks,?_,?_⟩
  · rw [hs.total]
    exact map_id_packets names
  · rw [hs.total]
    exact nodup_ids names
  · intro pkt hmem
    exact sendId_table hc hs hrequests.symm hmem
  · intro pkt hmem
    exact sendId_table hs hc hacks hmem

/-- Further names never change the packets that are there. -/
theorem packets_isPrefix (names more : List Str) : packets names <+: packets (names++more) := by
  simp only [packets,counted,List.filter_append,number_append]
  exact List.prefix_append _ _

theorem Parsed.pkt_grows {t : Target} {names more : List Str} {p p' : ProtoParser}
    (h : Parsed t names p) (h' : Parsed t (names++more) p') :
    p.totalPkt <+: p'.totalPkt ∧
      ∀ name id, (render p).pkt name=some id → (render p').pkt name=some id := by
  have hgrows : p.totalPkt <+: p'.totalPkt := by
    rw [h.total,h'.total]
    exact packets_isPrefix names more
  refine ⟨hgrows,?_⟩
  obtain ⟨rest,hrest⟩ := hgrows
  intro name id hpkt
  simp only [PacketHandler.pkt,render] at hpkt ⊢
  rw [← hrest,List.map_append,List.lookup_append,hpkt]
  rfl

/-- Both sides number the packets of a protocol alike, and what is appended to it changes no id. -/
theorem packet_ids_agree (py : Python) {lines : List Str} {s : ProtoParser}
    (h : Target.server.parser.parseLines py lines=some s) :
    ∃ c, Target.client.parser.parseLines py lines=some c ∧ Agree s c ∧
      ∀ (t : Target) (more : List Str) (p p' : ProtoParser),
        t.parser.parseLines py lines=some p → t.parser.parseLines py (lines++more)=some p' →
        p.totalPkt <+: p'.totalPkt ∧
          ∀ name id, (render p).pkt name=some id → (render p').pkt name=some id := by
  obtain ⟨names,hnames,hs⟩ := parsed_of_parseLines h
  refine ⟨names.foldl ProtoParser.add Target.client.parser,?_,?_,?_⟩
  · rw [ProtoParser.parseLines_eq,hnames]
    rfl
  · exact agree_of_parsed hs (parsed_foldl .client names)
  · intro t more p p' hp hp'
    obtain ⟨names₀,hnames₀,hparsed⟩ := parsed_of_parseLines hp
    obtain ⟨all,hall,hparsed'⟩ := parsed_of_parseLines hp'
    rw [declared_append,hnames₀] at hall
    obtain ⟨new,-,rfl⟩ := Option.map_eq_some_iff.mp hall
    exact hparsed.pkt_grows hparsed'

/-- The upper case of ASCII, with decoders that read ASCII. -/
def asciiPython : Python :=
  ⟨fun data => some (data.map fun b => Char.ofNat b.toNat),fun _ => none,fun c => [c.toUpper]⟩

/-- A request, a message of neither side and an acknowledgement. -/
def loginProto : List Str :=
  ["message Req_Login \x7b".toList,"\tmessage ACK_NONE".toList,"message Account".toList,
    "message ACK_LOGIN".toList]

theorem packet_ids_agree_login : ∃ s c : ProtoParser,
    Target.server.parser.parseLines asciiPython loginProto=some s ∧
    Target.client.parser.parseLines asciiPython loginProto=some c ∧ Agree s c ∧
    s.totalPkt=[⟨"REQ_LOGIN".toList,1000⟩,⟨"ACK_LOGIN".toList,1001⟩] := by
  obtain ⟨s,hs,htotal⟩ : ∃ s, Target.server.parser.parseLines asciiPython loginProto=some s ∧
      s.totalPkt=[⟨"REQ_LOGIN".toList,1000⟩,⟨"ACK_LOGIN".toList,1001⟩] :=
    ⟨_,rfl,by decide⟩
  obtain ⟨c,hc,hagree,-⟩ := packet_ids_agree asciiPython hs
  exact ⟨s,c,hs,hc,hagree,htotal⟩

/-- Both sides read the same lines of the same file. -/
theorem parseProto_lines {py : Python} {t : Target} {data : List UInt8} {p : ProtoParser}
    (h : t.parser.parseProto py data=some p) :
    ∃ lines, ∀ u : Target, u.parser.parseProto py data=u.parser.parseLines py lines := by
  cases hutf : py.utf8Sig data with
  | some text =>
    refine ⟨splitlines text,fun u => ?_⟩
    simp only [ProtoParser.parseProto,hutf]
  | none =>
    simp only [ProtoParser.parseProto,hutf] at h
    obtain ⟨text,htext,-⟩ := Option.bind_eq_some_iff.mp h
    refine ⟨splitlines text,fun u => ?_⟩
    simp only [ProtoParser.parseProto,hutf,htext,Option.bind_some]

/-- What one side sends, the other gives to the handler of that message. -/
def Delivers (t : Target) (sender receiver : PacketHandler) : Prop :=
  ∀ name∈sender.senders, ∃ id, sender.sendId name=some id ∧
    (id<0xffff → ∀ payload : List UInt8, payload.length+headerSize<2^16 →
      receiver.handlePacket t (packetBytes (payload.length+headerSize) id payload)=some name)

theorem delivers_of_table {t : Target} {p q : ProtoParser}
    (h : ∀ pkt∈p.sendPkt, ∃ id, (render p).sendId pkt.name=some id ∧
      ⟨pkt.name,id⟩∈q.totalPkt ∧ (render q).table id=some pkt.name) :
    Delivers t (render p) (render q) := by
  intro name hname
  obtain ⟨pkt,hmem,rfl⟩ := List.mem_map.mp hname
  obtain ⟨id,hsend,-,htable⟩ := h pkt hmem
  refine ⟨id,hsend,fun hid payload hsize => ?_⟩
  rw [PacketHandler.handlePacket_packetBytes _ t hid hsize]
  exact htable

/-- If a file is accepted for the server it is accepted for the client, with the same ids, and every
message of either side is given to the other's handler of it. -/
theorem generatePackets_agree {py : Python} {data : List UInt8} {g : PacketHandler}
    (h : generatePackets py .server data=.ok g) :
    ∃ g', generatePackets py .client data=.ok g' ∧ g'.enumerators=g.enumerators ∧
      Delivers .server g' g ∧ Delivers .client g g' := by
  unfold generatePackets at h
  split at h
  · cases h
  · rename_i s hs
    split at h
    · cases h
    · rename_i hne
      cases h
      obtain ⟨lines,hlines⟩ := parseProto_lines hs
      obtain ⟨names,hnames,hparsed⟩ := parsed_of_parseLines ((hlines .server).symm.trans hs)
      have hclient : Target.client.parser.parseProto py data=
          some (names.foldl ProtoParser.add Target.client.parser) := by
        rw [hlines,ProtoParser.parseLines_eq,hnames]
        rfl
      have hagree := agree_of_parsed hparsed (parsed_foldl .client names)
      refine ⟨render (names.foldl ProtoParser.add Target.client.parser),?_,?_,?_,?_⟩
      · simp only [generatePackets,hclient,← hagree.total]
        exact if_neg hne
      · simp only [render,hagree.total]
      · exact delivers_of_table hagree.requestId
      · exact delivers_of_table hagree.ackId

end IocpServer.Tool
