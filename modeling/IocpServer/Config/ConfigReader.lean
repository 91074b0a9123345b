import Mathlib.Algebra.Group.Int.Defs
import Mathlib.Data.List.DropRight
import IocpServer.Framework.Map

namespace IocpServer.Config

/-- A `std::string`: bytes of any encoding. -/
abbrev Text := List UInt8

def ascii (c : Char) : UInt8 := c.toNat.toUInt8

/-- The bytes of an ASCII literal of the source. -/
def text (cs : List Char) : Text := cs.map ascii

/-- The whitespace of `trim`. -/
def isBlank (c : UInt8) : Bool :=
  c=ascii ' ' || c=ascii '\t' || c=ascii '\r' || c=ascii '\n'

/-- `ConfigReader::trim` of the server. -/
def trim (value : Text) : Text := (value.dropWhile isBlank).rdropWhile isBlank

/-- The lines that `getline` yields; a newline at the end of the file begins no further line. -/
def lines : Text → List Text
  | [] => []
  | c::cs =>
    if c=ascii '\n' then []::lines cs
    else match lines cs with
      | [] => [[c]]
      | l::ls => (c::l)::ls

abbrev Sections := Map Text (Map Text Text)

/-- `_sections[section][key] = value`. -/
def assign (sections : Sections) (sec key value : Text) : Sections :=
  sections.insert sec (((sections.lookup sec).getD ∅).insert key value)

/-- The state of the loop of `load`. -/
structure Loader where
  sections : Sections
  currentSection : Text

/-- One line, with the `trim` of the reader. -/
def Loader.line (trim : Text → Text) (s : Loader) (raw : Text) : Loader :=
  let line := trim raw
  match line with
  | [] => s
  | c::_ =>
    if c=ascii '#' || c=ascii ';' then s
    else if c=ascii '[' && line.getLast?=some (ascii ']') then
      { s with currentSection := trim ((line.drop 1).take (line.length-2)) }
    else match line.idxOf? (ascii '=') with
      | none => s
      | some equalPos =>
        let key := trim (line.take equalPos)
        let value := trim (line.drop (equalPos+1))
        if s.currentSection.isEmpty || key.isEmpty then s
        else { s with sections := assign s.sections s.currentSection key value }

/-- `ConfigReader::load` of a file with the given lines. -/
def loadLines (trim : Text → Text) (ls : List Text) : Sections :=
  (ls.foldl (Loader.line trim) ⟨∅,[]⟩).sections

/-- `ConfigReader::load` of the server on the content of a file. -/
def load (content : Text) : Sections := loadLines trim (lines content)

/-- The value of a key, if it was assigned. -/
def find (sections : Sections) (sec key : Text) : Option Text :=
  (sections.lookup sec).bind fun keys => keys.lookup key

def getString (sections : Sections) (sec key defaultValue : Text) : Text :=
  (find sections sec key).getD defaultValue

/-- The whitespace that `stoi` skips. -/
def isSpace (c : UInt8) : Bool := c=32 || (9 ≤ c && c ≤ 13)

def isDigit (c : UInt8) : Bool := 48 ≤ c && c ≤ 57

def decimal (digits : Text) : Nat := digits.foldl (fun n d => 10*n+(d.toNat-48)) 0

/-- The sign of a number and what follows it. -/
def sign : Text → Bool×Text
  | [] => (false,[])
  | c::cs => if c=ascii '-' then (true,cs) else if c=ascii '+' then (false,cs) else (false,c::cs)

/-- `std::stoi`: the number at the head of the text and the position behind it; `none` is one of its
exceptions. -/
def stoi (value : Text) : Option (Int×Nat) :=
  let (negative,body) := sign (value.dropWhile isSpace)
  let digits := body.takeWhile isDigit
  let number : Int := if negative then -decimal digits else decimal digits
  if digits.isEmpty then none
  else if number< -2^31 || 2^31 ≤ number then none
  else some (number,value.length-(body.length-digits.length))

/-- `ConfigReader::get_int` of the server. -/
def getInt (sections : Sections) (sec key : Text) (defaultValue : Int) : Int :=
  let value := getString sections sec key []
  if value.isEmpty then defaultValue
  else match stoi value with
    | none => defaultValue
    | some (number,_) => number

/-- `ConfigReader::get_int_checked` of the client; `none` is the result `false`. -/
def getIntChecked (sections : Sections) (sec key : Text) (defaultValue : Int) : Option Int :=
  match find sections sec key with
  | none => some defaultValue
  | some value =>
    match stoi value with
    | none => none
    | some (parsed,stop) => if stop≠value.length then none else some parsed

/-- Without a key the checked read gives the default, and every number it accepts is the one that
the server reads. -/
theorem getInt_of_checked {sections : Sections} {sec key : Text} {d n : Int}
    (h : getIntChecked sections sec key d=some n) : getInt sections sec key d=n := by
  unfold getIntChecked at h
  unfold getInt getString
  cases hfind : find sections sec key with
  | none =>
    rw [hfind] at h
    cases h
    rfl
  | some value =>
    rw [hfind] at h
    cases hstoi : stoi value with
    | none =>
      simp only [hstoi] at h
      cases h
    | some p =>
      obtain ⟨parsed,stop⟩ := p
      simp only [hstoi] at h
      split at h
      · cases h
      · cases h
        cases value with
        | nil => cases hstoi
        | cons c cs => simp [hstoi]

/-- An assignment is found under its section and key, and every other one as before. -/
theorem find_assign (sections : Sections) (sec key value sec' key' : Text) :
    find (assign sections sec key value) sec' key'=
      if sec'=sec ∧ key'=key then some value else find sections sec' key' := by
  unfold find assign
  by_cases hsec : sec'=sec
  · subst hsec
    rw [AList.lookup_insert,Option.bind_some]
    by_cases hkey : key'=key
    · subst hkey
      rw [AList.lookup_insert,if_pos ⟨rfl,rfl⟩]
    · rw [AList.lookup_insert_ne hkey,if_neg (fun h => hkey h.2)]
      cases sections.lookup sec' with
      | none => rfl
      | some keys => rfl
  · rw [AList.lookup_insert_ne hsec,if_neg (fun h => hsec h.1)]

namespace Loader

variable {trim : Text → Text} {s : Loader} {raw : Text}

/-- A line counts by what `trim` leaves of it. -/
theorem line_congr {raw' : Text} (h : trim raw=trim raw') : s.line trim raw=s.line trim raw' := by
  unfold line
  rw [h]

theorem line_nil (h : trim raw=[]) : s.line trim raw=s := by
  simp only [line,h]

theorem line_comment {c : UInt8} {rest : Text} (h : trim raw=c::rest)
    (hc : c=ascii '#' ∨ c=ascii ';') : s.line trim raw=s := by
  simp only [line,h]
  exact if_pos (by simpa using hc)

/-- A header opens the section between its brackets. -/
theorem line_header {inner : Text} (h : trim raw=ascii '['::(inner++[ascii ']'])) :
    s.line trim raw={ s with currentSection := trim inner } := by
  have hlast : (ascii '['::(inner++[ascii ']'])).getLast?=some (ascii ']') := by
    rw [← List.cons_append]
    exact List.getLast?_concat
  have hinner : ((ascii '['::(inner++[ascii ']'])).drop 1).take
      ((ascii '['::(inner++[ascii ']'])).length-2)=inner := by
    simp
  simp only [line,h,hlast,hinner]
  rfl

theorem idxOf?_equals {left : Text} (h : ascii '='∉left) (right : Text) :
    (left++ascii '='::right).idxOf? (ascii '=')=some left.length := by
  induction left with
  | nil => rfl
  | cons c left ih =>
    have hc : ascii '='≠c := fun heq => h (heq ▸ List.mem_cons_self)
    have hrest : ascii '='∉left := fun hmem => h (List.mem_cons_of_mem c hmem)
    rw [List.cons_append,List.idxOf?_cons,ih hrest,if_neg (by simpa using Ne.symm hc)]
    rfl

/-- Any other line is cut at its first `=`. -/
theorem line_entry {c : UInt8} {left right : Text} (h : trim raw=c::left++ascii '='::right)
    (hc : c≠ascii '#' ∧ c≠ascii ';' ∧ c≠ascii '[') (hequals : ascii '='∉c::left)
    (hsec : s.currentSection≠[]) (hkey : trim (c::left)≠[]) :
    s.line trim raw=
      { s with sections := assign s.sections s.currentSection (trim (c::left)) (trim right) } := by
  have htake : (c::left++ascii '='::right).take (c::left).length=c::left := List.take_left
  have hdrop : (c::left++ascii '='::right).drop ((c::left).length+1)=right := by
    rw [← List.drop_drop,List.drop_left]
    rfl
  have hpos := idxOf?_equals hequals right
  simp only [line,h]
  rw [List.cons_append] at hpos htake hdrop ⊢
  simp only [hpos,htake,hdrop]
  rw [if_neg (by simp [hc.1,hc.2.1]),if_neg (by simp [hc.2.2])]
  exact if_neg (by simp [hsec,hkey])

/-- Without a section only a header has an effect. -/
theorem line_idle {c : UInt8} {rest : Text} (hsec : s.currentSection=[]) (h : trim raw=c::rest)
    (hc : c≠ascii '[') : s.line trim raw=s := by
  simp only [line,h,hsec,hc,decide_false,Bool.false_and,List.isEmpty_nil,Bool.true_or,if_true]
  repeat' split
  all_goals first | rfl | contradiction

/-- Without a section nothing is assigned. -/
theorem line_sections (h : s.currentSection=[]) : (s.line trim raw).sections=s.sections := by
  unfold line
  simp only [h,List.isEmpty_nil,Bool.true_or,if_true]
  repeat' split
  all_goals rfl

end Loader

end IocpServer.Config
