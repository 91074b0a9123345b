import IocpServer.Config.ConfigReader
import IocpServer.Framework.Strip

namespace IocpServer.Config

open Strip (Bare strip_pad strip_of_all strip_cons)

/-- Spaces, tabs and carriage returns. -/
def Pad (l : Text) : Prop := ∀ c∈l, c=ascii ' ' ∨ c=ascii '\t' ∨ c=ascii '\r'

instance (l : Text) : Decidable (Pad l) := List.decidableBAll _ l

/-- A text on one line without blanks at its ends. -/
structure Plain (t : Text) : Prop where
  oneLine : ascii '\n'∉t
  bare : Bare isBlank t

instance (t : Text) : Decidable (Plain t) :=
  decidable_of_iff (ascii '\n'∉t ∧ Bare isBlank t) ⟨fun h => ⟨h.1,h.2⟩,fun h => ⟨h.1,h.2⟩⟩

/-- A value for a key of a section, as it can be written to a file. -/
structure Assignment where
  sec : Text
  key : Text
  value : Text
  sec_plain : Plain sec
  sec_ne : sec≠[]
  key_plain : Plain key
  key_ne : key≠[]
  key_head : ∀ c∈key.head?, c≠ascii '#' ∧ c≠ascii ';' ∧ c≠ascii '['
  key_equals : ascii '='∉key
  value_plain : Plain value

/-- Lines that say nothing. -/
inductive Noise : Text → Prop
  | blank {l : Text} : Pad l → Noise l
  | comment {l : Text} {c : UInt8} {rest : Text} :
    Pad l → c=ascii '#' ∨ c=ascii ';' → ascii '\n'∉rest → Noise (l++c::rest)

/-- `[section]` with blanks around its parts. -/
def headerLine (sec a b c d : Text) : Text := a++ascii '['::(b++sec++c++ascii ']'::d)

/-- `key=value` with blanks around its parts. -/
def entryLine (x : Assignment) (a b c d : Text) : Text :=
  a++x.key++b++ascii '='::(c++x.value++d)

/-- The lines write the assignments in their order, where `cur` is the section in force; a section
may be opened again. -/
inductive Written : Option Text → List Assignment → List Text → Prop
  | done {cur : Option Text} : Written cur [] []
  | noise {cur : Option Text} {as : List Assignment} {line : Text} {ls : List Text} :
    Noise line → Written cur as ls → Written cur as (line::ls)
  | header {cur : Option Text} {as : List Assignment} {ls : List Text} {sec a b c d : Text} :
    Plain sec → sec≠[] → Pad a → Pad b → Pad c → Pad d → Written (some sec) as ls →
    Written cur as (headerLine sec a b c d::ls)
  | entry {as : List Assignment} {ls : List Text} (x : Assignment) {a b c d : Text} :
    Pad a → Pad b → Pad c → Pad d → Written (some x.sec) as ls →
    Written (some x.sec) (x::as) (entryLine x a b c d::ls)

/-- The value of the last assignment to a key of a section. -/
def lastValue (as : List Assignment) (sec key : Text) : Option Text :=
  (as.reverse.find? fun x => x.sec=sec && x.key=key).map Assignment.value

/-- The file with these lines. -/
def unlines (ls : List Text) : Text := ls.flatMap fun l => l++[ascii '\n']

theorem Pad.blank {l : Text} (h : Pad l) : ∀ c∈l, isBlank c := by
  intro c hc
  rcases h c hc with rfl|rfl|rfl <;> decide

theorem Pad.oneLine {l : Text} (h : Pad l) : ascii '\n'∉l := by
  intro hmem
  have hno := h _ hmem
  revert hno
  decide

theorem Pad.equals {l : Text} (h : Pad l) : ascii '='∉l := by
  intro hmem
  have hno := h _ hmem
  revert hno
  decide

theorem pad_nil : Pad [] := fun _ h => absurd h List.not_mem_nil

theorem trim_pad {l t r : Text} (hl : Pad l) (ht : Plain t) (hr : Pad r) : trim (l++t++r)=t :=
  strip_pad hl.blank ht.bare hr.blank

theorem Noise.oneLine {l : Text} (h : Noise l) : ascii '\n'∉l := by
  cases h with
  | blank hl => exact hl.oneLine
  | @comment l c rest hl hc hrest =>
    intro hmem
    rcases List.mem_append.mp hmem with hmem|hmem
    · exact hl.oneLine hmem
    · rcases List.mem_cons.mp hmem with heq|hmem
      · rw [← heq] at hc
        revert hc
        decide
      · exact hrest hmem

/-- Nothing written breaks a line. -/
theorem Written.oneLine {cur : Option Text} {as : List Assignment} {ls : List Text}
    (h : Written cur as ls) : ∀ l∈ls, ascii '\n'∉l := by
  induction h with
  | done => exact fun l hl => absurd hl List.not_mem_nil
  | noise hnoise _ ih => exact List.forall_mem_cons.mpr ⟨hnoise.oneLine,ih⟩
  | header hsec _ ha hb hc hd _ ih =>
    refine List.forall_mem_cons.mpr ⟨?_,ih⟩
    simp only [headerLine,List.mem_append,List.mem_cons,not_or]
    exact ⟨ha.oneLine,by decide,⟨⟨hb.oneLine,hsec.oneLine⟩,hc.oneLine⟩,by decide,hd.oneLine⟩
  | entry x ha hb hc hd _ ih =>
    refine List.forall_mem_cons.mpr ⟨?_,ih⟩
    simp only [entryLine,List.mem_append,List.mem_cons,not_or]
    exact ⟨⟨⟨ha.oneLine,x.key_plain.oneLine⟩,hb.oneLine⟩,by decide,
      ⟨hc.oneLine,x.value_plain.oneLine⟩,hd.oneLine⟩

theorem lines_append {l : Text} (h : ascii '\n'∉l) (rest : Text) :
    lines (l++ascii '\n'::rest)=l::lines rest := by
  induction l with
  | nil => simp [lines]
  | cons c l ih =>
    have hc : c≠ascii '\n' := fun heq => h (heq ▸ List.mem_cons_self)
    have hrest : ascii '\n'∉l := fun hmem => h (List.mem_cons_of_mem c hmem)
    simp only [List.cons_append,lines,if_neg hc,ih hrest]

/-- `getline` yields the lines that were written. -/
theorem lines_unlines {ls : List Text} (h : ∀ l∈ls, ascii '\n'∉l) : lines (unlines ls)=ls := by
  induction ls with
  | nil => rfl
  | cons l ls ih =>
    obtain ⟨hl,hls⟩ := List.forall_mem_cons.mp h
    have hsplit : unlines (l::ls)=l++ascii '\n'::unlines ls := by
      simp [unlines]
    rw [hsplit,lines_append hl,ih hls]

/-- What `trim` leaves of an entry: the key, the first `=` and the value, with the blanks in between. -/
theorem trim_entry (x : Assignment) {a b c d : Text} (ha : Pad a) (hc : Pad c) (hd : Pad d) :
    ∃ w, trim (entryLine x a b c d)=x.key++b++ascii '='::w ∧ trim w=x.value := by
  obtain ⟨k,ks,hkey⟩ := List.exists_cons_of_ne_nil x.key_ne
  have hk : isBlank k=false := x.key_plain.bare.head k (by rw [hkey]; rfl)
  by_cases hvalue : x.value=[]
  · refine ⟨[],?_,hvalue.symm⟩
    have hbare : Bare isBlank (x.key++b++[ascii '=']) := by
      rw [hkey,List.cons_append,List.cons_append]
      exact Bare.of_cons hk (by decide)
    have hsplit : entryLine x a b c d=a++(x.key++b++[ascii '='])++(c++d) := by
      simp [entryLine,hvalue]
    rw [hsplit]
    apply strip_pad ha.blank hbare
    intro y hy
    exact (List.mem_append.mp hy).elim (hc.blank y) (hd.blank y)
  · refine ⟨c++x.value,?_,?_⟩
    · have hbare : Bare isBlank (x.key++b++ascii '='::(c++x.value)) := by
        constructor
        · intro y hy
          rw [hkey] at hy
          cases hy
          exact hk
        · intro y hy
          rw [← List.cons_append,← List.append_assoc,List.getLast?_append_of_ne_nil _ hvalue] at hy
          exact x.value_plain.bare.last y hy
      have hsplit : entryLine x a b c d=a++(x.key++b++ascii '='::(c++x.value))++d := by
        simp [entryLine]
      rw [hsplit]
      exact strip_pad ha.blank hbare hd.blank
    · have hpad := trim_pad hc x.value_plain pad_nil
      rwa [List.append_nil] at hpad

variable {s : Loader}

theorem line_of_noise {l : Text} (h : Noise l) : s.line trim l=s := by
  cases h with
  | blank hl => exact Loader.line_nil (strip_of_all hl.blank)
  | @comment l c rest hl hc _ =>
    have hblank : isBlank c=false := by
      rcases hc with rfl|rfl <;> decide
    obtain ⟨rest',htrim⟩ := strip_cons (t:=rest) hl.blank hblank
    exact Loader.line_comment htrim hc

theorem line_of_header {sec a b c d : Text} (hsec : Plain sec) (ha : Pad a) (hb : Pad b) (hc : Pad c)
    (hd : Pad d) :
    s.line trim (headerLine sec a b c d)={ s with currentSection := sec } := by
  have hbare : Bare isBlank (ascii '['::(b++sec++c++[ascii ']'])) :=
    Bare.of_cons (by decide) (by decide)
  have hsplit : headerLine sec a b c d=a++(ascii '['::(b++sec++c++[ascii ']']))++d := by
    simp [headerLine]
  have htrim : trim (headerLine sec a b c d)=ascii '['::(b++sec++c++[ascii ']']) := by
    rw [hsplit]
    exact strip_pad ha.blank hbare hd.blank
  rw [Loader.line_header htrim,trim_pad hb hsec hc]

theorem line_of_entry (x : Assignment) (hcur : s.currentSection=x.sec) {a b c d : Text} (ha : Pad a)
    (hb : Pad b) (hc : Pad c) (hd : Pad d) :
    s.line trim (entryLine x a b c d)=
      { s with sections := assign s.sections x.sec x.key x.value } := by
  obtain ⟨w,htrim,hw⟩ := trim_entry x (b:=b) ha hc hd
  obtain ⟨k,ks,hkey⟩ := List.exists_cons_of_ne_nil x.key_ne
  have hleft : trim (k::(ks++b))=x.key := by
    have hpad := trim_pad pad_nil x.key_plain hb
    rwa [List.nil_append,hkey,List.cons_append,← hkey] at hpad
  have hequals : ascii '='∉k::(ks++b) := by
    rw [← List.cons_append,← hkey]
    intro hmem
    exact (List.mem_append.mp hmem).elim x.key_equals hb.equals
  have hline : trim (entryLine x a b c d)=k::(ks++b)++ascii '='::w := by
    rw [htrim,hkey,List.cons_append]
  rw [Loader.line_entry hline (x.key_head k (by rw [hkey]; rfl)) hequals (hcur ▸ x.sec_ne)
    (hleft ▸ x.key_ne),hleft,hw,hcur]

theorem lastValue_cons (x : Assignment) (as : List Assignment) (sec key : Text) :
    lastValue (x::as) sec key=
      (lastValue as sec key).or (if sec=x.sec ∧ key=x.key then some x.value else none) := by
  unfold lastValue
  rw [List.reverse_cons,List.find?_append,Option.map_or]
  congr 1
  by_cases h : sec=x.sec ∧ key=x.key
  · rw [if_pos h]
    simp [h.1,h.2]
  · rw [if_neg h]
    have hno : ¬(x.sec=sec ∧ x.key=key) := fun heq => h ⟨heq.1.symm,heq.2.symm⟩
    simp only [List.find?_singleton]
    rw [if_neg (by simpa using hno)]
    rfl

/-- Reading what was written: every key has its last value, or the one it had before. -/
theorem find_of_written {cur : Option Text} {as : List Assignment} {ls : List Text}
    (h : Written cur as ls) (hcur : s.currentSection=cur.getD []) (sec key : Text) :
    find (ls.foldl (Loader.line trim) s).sections sec key=
      (lastValue as sec key).or (find s.sections sec key) := by
  induction h generalizing s with
  | done => rfl
  | noise hnoise _ ih =>
    rw [List.foldl_cons,line_of_noise hnoise]
    exact ih hcur
  | header hsec _ ha hb hc hd _ ih =>
    rw [List.foldl_cons,line_of_header hsec ha hb hc hd]
    exact ih rfl
  | entry x ha hb hc hd _ ih =>
    have hrest := ih (s:={ s with sections := assign s.sections x.sec x.key x.value }) hcur
    rw [List.foldl_cons,line_of_entry x hcur ha hb hc hd,hrest,lastValue_cons,find_assign,
      Option.or_assoc]
    congr 1
    split <;> rfl

/-- A file that writes assignments is read back: every key that was assigned has its last value, and
every other one the default. -/
theorem config_round_trip {as : List Assignment} {ls : List Text} (h : Written none as ls) :
    lines (unlines ls)=ls ∧
    ∀ content, lines content=ls → ∀ sec key defaultValue,
      getString (load content) sec key defaultValue=(lastValue as sec key).getD defaultValue := by
  refine ⟨lines_unlines h.oneLine,?_⟩
  intro content hcontent sec key defaultValue
  have hfind := find_of_written (s:=⟨∅,[]⟩) h rfl sec key
  have hempty : find ∅ sec key=none := rfl
  rw [hempty,Option.or_none] at hfind
  rw [getString,load,loadLines,hcontent,hfind]

theorem ip_head :
    ∀ c∈(text ['i','p']).head?, c≠ascii '#' ∧ c≠ascii ';' ∧ c≠ascii '[' := by
  intro c hc
  cases hc
  decide

def netIp : Assignment :=
  ⟨text ['n','e','t'],text ['i','p'],text ['a','=','[','b',']'],by decide,by decide,by decide,
    by decide,ip_head,by decide,by decide⟩

def botIp : Assignment :=
  ⟨text ['b','o','t'],text ['i','p'],text ['#','1'],by decide,by decide,by decide,by decide,
    ip_head,by decide,by decide⟩

/-- Empties what `netIp` has assigned. -/
def netIpAgain : Assignment :=
  ⟨text ['n','e','t'],text ['i','p'],[],by decide,by decide,by decide,by decide,ip_head,by decide,
    by decide⟩

/-- A file that opens a section twice. -/
def reopened : List Text :=
  [headerLine netIp.sec [] [] [] [],entryLine netIp (text [' ']) (text ['\t']) [] (text ['\r']),
    text [' ','#','='],headerLine botIp.sec [] (text [' ']) [] [],entryLine botIp [] [] [] [],[],
    headerLine netIpAgain.sec (text ['\t']) [] [] [],entryLine netIpAgain [] [] (text [' ']) []]

theorem written_reopened : Written none [netIp,botIp,netIpAgain] reopened := by
  have hcomment : Noise (text [' ','#','=']) :=
    Noise.comment (l:=text [' ']) (c:=ascii '#') (by decide) (Or.inl rfl) (by decide)
  apply Written.header netIp.sec_plain netIp.sec_ne pad_nil pad_nil pad_nil pad_nil
  apply Written.entry netIp (by decide) (by decide) pad_nil (by decide)
  apply Written.noise hcomment
  apply Written.header botIp.sec_plain botIp.sec_ne pad_nil (by decide) pad_nil pad_nil
  apply Written.entry botIp pad_nil pad_nil pad_nil pad_nil
  apply Written.noise (Noise.blank pad_nil)
  apply Written.header netIpAgain.sec_plain netIpAgain.sec_ne (by decide) pad_nil pad_nil pad_nil
  exact Written.entry netIpAgain pad_nil pad_nil (by decide) pad_nil Written.done

theorem config_round_trip_reopened :
    getString (load (unlines reopened)) netIp.sec netIp.key (text ['-'])=[] ∧
    getString (load (unlines reopened)) botIp.sec botIp.key (text ['-'])=botIp.value ∧
    getString (load (unlines reopened)) botIp.sec netIp.sec (text ['-'])=text ['-'] := by
  obtain ⟨hlines,hread⟩ := config_round_trip written_reopened
  refine ⟨?_,?_,?_⟩
  · rw [hread _ hlines]
    rfl
  · rw [hread _ hlines]
    rfl
  · rw [hread _ hlines]
    rfl

end IocpServer.Config
