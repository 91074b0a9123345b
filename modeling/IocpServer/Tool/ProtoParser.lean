import Mathlib.Data.List.Nodup

namespace IocpServer.Tool

/-- A Python `str`. -/
abbrev Str := List Char

/-- The line breaks of `str.splitlines`. -/
def isLineBreak (c : Char) : Bool :=
  [0x0a,0x0b,0x0c,0x0d,0x1c,0x1d,0x1e,0x85,0x2028,0x2029].contains c.toNat

/-- `str.splitlines`. -/
def splitlines : Str → List Str
  | [] => []
  | '\r' :: '\n' :: cs => []::splitlines cs
  | c::cs =>
    if isLineBreak c then []::splitlines cs
    else match splitlines cs with
      | [] => [[c]]
      | l::ls => (c::l)::ls

/-- The characters between which `str.split` cuts. -/
def isSpace (c : Char) : Bool :=
  let n := c.toNat
  (0x09 ≤ n && n ≤ 0x0d) || (0x1c ≤ n && n ≤ 0x20) || (0x2000 ≤ n && n ≤ 0x200a) ||
    [0x85,0xa0,0x1680,0x2028,0x2029,0x202f,0x205f,0x3000].contains n

/-- `str.split` without arguments. -/
def split (s : Str) : List Str := (s.splitOnP isSpace).filter fun word => !word.isEmpty

def startswith (s start : Str) : Bool := start.isPrefixOf s

/-- What the parser takes from the Python library: the two decoders, which may fail, and the upper
case of a character. -/
structure Python where
  utf8Sig : List UInt8 → Option Str
  cp949 : List UInt8 → Option Str
  upper : Char → Str

structure Packet where
  name : Str
  id : Nat
deriving DecidableEq

structure ProtoParser where
  recvPkt : List Packet
  sendPkt : List Packet
  totalPkt : List Packet
  startId : Nat
  id : Nat
  recvPrefix : Str
  sendPrefix : Str

/-- `ProtoParser.__init__`. -/
def ProtoParser.init (startId : Nat) (recvPrefix sendPrefix : Str) : ProtoParser :=
  ⟨[],[],[],startId,startId,recvPrefix,sendPrefix⟩

variable (py : Python)

/-- The name that a line declares, if it declares one; `none` is an `IndexError`. -/
def pktName (line : Str) : Option (Option Str) :=
  if startswith line "message".toList=false then some none
  else match (split line)[1]? with
    | none => none
    | some word => some (some (word.flatMap py.upper))

/-- The rest of the loop of `parse_proto` for a declared name. -/
def ProtoParser.add (p : ProtoParser) (pktName : Str) : ProtoParser :=
  if startswith pktName p.recvPrefix then
    { p with recvPkt := p.recvPkt++[⟨pktName,p.id⟩], totalPkt := p.totalPkt++[⟨pktName,p.id⟩],
             id := p.id+1 }
  else if startswith pktName p.sendPrefix then
    { p with sendPkt := p.sendPkt++[⟨pktName,p.id⟩], totalPkt := p.totalPkt++[⟨pktName,p.id⟩],
             id := p.id+1 }
  else p

/-- The loop of `parse_proto`; `none` is an `IndexError`. -/
def ProtoParser.parseLines (p : ProtoParser) : List Str → Option ProtoParser
  | [] => some p
  | line::lines =>
    match pktName py line with
    | none => none
    | some none => p.parseLines lines
    | some (some name) => (p.add name).parseLines lines

/-- `ProtoParser.parse_proto` on the bytes of the file; `none` is an exception. -/
def ProtoParser.parseProto (p : ProtoParser) (data : List UInt8) : Option ProtoParser :=
  match py.utf8Sig data with
  | some text => p.parseLines py (splitlines text)
  | none => (py.cp949 data).bind fun text => p.parseLines py (splitlines text)

/-- The names that the lines declare, whichever side reads them. -/
def declared : List Str → Option (List Str)
  | [] => some []
  | line::lines =>
    match pktName py line with
    | none => none
    | some none => declared lines
    | some (some name) => (declared lines).map fun names => name::names

/-- Names with consecutive ids. -/
def number : Nat → List Str → List Packet
  | _,[] => []
  | id,name::names => ⟨name,id⟩::number (id+1) names

/-- The names that get an id. -/
def counted (recvPrefix sendPrefix : Str) (names : List Str) : List Str :=
  names.filter fun name => startswith name recvPrefix || startswith name sendPrefix

/-- No name has both prefixes. -/
def Apart (recvPrefix sendPrefix : Str) : Prop :=
  ∀ name, startswith name recvPrefix=true → startswith name sendPrefix=false

theorem number_length (id : Nat) (names : List Str) : (number id names).length=names.length := by
  induction names generalizing id with
  | nil => rfl
  | cons name names ih => simp only [number,List.length_cons,ih]

/-- The ids count up from the first one. -/
theorem map_id_number (id : Nat) (names : List Str) :
    (number id names).map Packet.id=List.range' id names.length := by
  induction names generalizing id with
  | nil => rfl
  | cons name names ih =>
    rw [List.length_cons,List.range'_succ,number,List.map_cons,ih]

theorem number_append (id : Nat) (names more : List Str) :
    number id (names++more)=number id names++number (id+names.length) more := by
  induction names generalizing id with
  | nil => rfl
  | cons name names ih =>
    rw [List.cons_append,number,number,ih,List.cons_append,List.length_cons,Nat.add_comm names.length,
      Nat.add_assoc]

variable {py}

/-- Only the names matter, and all sides see the same ones. -/
theorem ProtoParser.parseLines_eq (p : ProtoParser) (lines : List Str) :
    p.parseLines py lines=(declared py lines).map fun names => names.foldl ProtoParser.add p := by
  induction lines generalizing p with
  | nil => rfl
  | cons line lines ih =>
    unfold ProtoParser.parseLines declared
    cases pktName py line with
    | none => rfl
    | some name =>
      cases name with
      | none => exact ih p
      | some name =>
        simp only [ih,Option.map_map]
        rfl

/-- Further lines declare further names. -/
theorem declared_append (lines more : List Str) :
    declared py (lines++more)=
      (declared py lines).bind fun names => (declared py more).map fun new => names++new := by
  induction lines with
  | nil => simp [declared]
  | cons line lines ih =>
    simp only [List.cons_append,declared]
    cases pktName py line with
    | none => rfl
    | some name =>
      cases name with
      | none => exact ih
      | some name =>
        simp only [ih]
        cases declared py lines with
        | none => rfl
        | some names =>
          cases declared py more with
          | none => rfl
          | some new => rfl

/-- What the parser holds after the names: they are numbered from its id on, and each is listed on
the side of its prefix. -/
theorem ProtoParser.foldl_add {p : ProtoParser} (h : Apart p.recvPrefix p.sendPrefix)
    (names : List Str) :
    names.foldl ProtoParser.add p=
      { p with
        recvPkt := p.recvPkt++(number p.id (counted p.recvPrefix p.sendPrefix names)).filter
          fun pkt => startswith pkt.name p.recvPrefix
        sendPkt := p.sendPkt++(number p.id (counted p.recvPrefix p.sendPrefix names)).filter
          fun pkt => startswith pkt.name p.sendPrefix
        totalPkt := p.totalPkt++number p.id (counted p.recvPrefix p.sendPrefix names)
        id := p.id+(counted p.recvPrefix p.sendPrefix names).length } := by
  induction names generalizing p with
  | nil => simp [counted,number]
  | cons name names ih =>
    rw [List.foldl_cons]
    by_cases hrecv : startswith name p.recvPrefix=true
    · have hsend := h name hrecv
      have hadd : p.add name={ p with
          recvPkt := p.recvPkt++[⟨name,p.id⟩], totalPkt := p.totalPkt++[⟨name,p.id⟩],
          id := p.id+1 } := if_pos hrecv
      have hcount : counted p.recvPrefix p.sendPrefix (name::names)=
          name::counted p.recvPrefix p.sendPrefix names := by
        simp [counted,hrecv]
      have hapart : Apart (p.add name).recvPrefix (p.add name).sendPrefix := by
        rw [hadd]
        exact h
      rw [ih hapart,hadd,hcount]
      simp [number,hrecv,hsend,Nat.add_comm 1,Nat.add_assoc]
    · by_cases hsend : startswith name p.sendPrefix=true
      · have hadd : p.add name={ p with
            sendPkt := p.sendPkt++[⟨name,p.id⟩], totalPkt := p.totalPkt++[⟨name,p.id⟩],
            id := p.id+1 } := (if_neg hrecv).trans (if_pos hsend)
        have hcount : counted p.recvPrefix p.sendPrefix (name::names)=
            name::counted p.recvPrefix p.sendPrefix names := by
          simp [counted,hsend]
        have hapart : Apart (p.add name).recvPrefix (p.add name).sendPrefix := by
          rw [hadd]
          exact h
        rw [ih hapart,hadd,hcount]
        simp [number,hrecv,hsend,Nat.add_comm 1,Nat.add_assoc]
      · have hadd : p.add name=p := (if_neg hrecv).trans (if_neg hsend)
        have hcount : counted p.recvPrefix p.sendPrefix (name::names)=
            counted p.recvPrefix p.sendPrefix names := by
          simp [counted,hrecv,hsend]
        rw [hadd,ih h,hcount]

end IocpServer.Tool
