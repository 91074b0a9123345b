import IocpServer.Config.Layout

namespace IocpServer.Config

/-- The UTF-8 byte-order mark. -/
def bom : Text := [0xef,0xbb,0xbf]

/-- `ConfigReader::trim` of the client: it skips a mark behind the leading blanks, but not the blanks
behind the mark. -/
def clientTrim (value : Text) : Text :=
  let rest := value.dropWhile isBlank
  let body := if bom.isPrefixOf rest then rest.drop 3 else rest
  body.rdropWhile isBlank

/-- `ConfigReader::load` of the client on the content of a file. -/
def clientLoad (content : Text) : Sections := loadLines clientTrim (lines content)

/-- The text up to the first newline. -/
def firstLine (content : Text) : Text := content.takeWhile fun c => c≠ascii '\n'

/-- The section that a first line opens. -/
def opens (first : Text) : Text := (Loader.line clientTrim ⟨∅,[]⟩ first).currentSection

/-- A mark before this line hides the header on it. -/
def HidesHeader (first : Text) : Prop := (∃ c∈first.head?, isBlank c) ∧ opens first≠[]

theorem clientTrim_eq_trim {value : Text} (h : ¬bom <+: value.dropWhile isBlank) :
    clientTrim value=trim value := by
  have hno : ¬bom.isPrefixOf (value.dropWhile isBlank) := by
    rw [List.isPrefixOf_iff_prefix]
    exact h
  simp only [clientTrim,if_neg hno]
  rfl

/-- Behind a mark only the end of the text is trimmed. -/
theorem clientTrim_bom (value : Text) : clientTrim (bom++value)=value.rdropWhile isBlank := by
  have hkeep : (bom++value).dropWhile isBlank=bom++value := Strip.dropWhile_cons (by decide) _
  have hmark : bom.isPrefixOf (bom++value) := List.isPrefixOf_iff_prefix.mpr (List.prefix_append _ _)
  simp only [clientTrim,hkeep,if_pos hmark]
  rfl

theorem firstLine_isPrefix (content : Text) : firstLine content <+: content :=
  List.takeWhile_prefix _

theorem firstLine_oneLine (content : Text) : ascii '\n'∉firstLine content := by
  intro hmem
  have hno := List.mem_takeWhile_imp hmem
  simp at hno

theorem firstLine_append {l : Text} (h : ascii '\n'∉l) (rest : Text) :
    firstLine (l++rest)=l++firstLine rest := by
  apply List.takeWhile_append_of_pos
  intro c hc
  simp only [ne_eq,decide_not,Bool.not_eq_true',decide_eq_false_iff_not]
  intro heq
  exact h (heq ▸ hc)

/-- A file that is not empty begins with its first line. -/
theorem lines_eq {content : Text} (h : content≠[]) :
    lines content=firstLine content::lines (content.drop ((firstLine content).length+1)) := by
  induction content with
  | nil => exact absurd rfl h
  | cons c content ih =>
    by_cases hc : c=ascii '\n'
    · simp [lines,firstLine,hc]
    · have hfirst : firstLine (c::content)=c::firstLine content := by
        simp [firstLine,hc]
      rw [hfirst,lines,if_neg hc]
      cases content with
      | nil => rfl
      | cons d content =>
        rw [ih (List.cons_ne_nil d content)]
        rfl

/-- Behind a mark a line that begins with a blank has no effect. -/
theorem line_bom_blank {first : Text} (h : ∃ c∈first.head?, isBlank c) :
    Loader.line clientTrim ⟨∅,[]⟩ (bom++first)=⟨∅,[]⟩ := by
  have htrim := clientTrim_bom first
  cases hcut : first.rdropWhile isBlank with
  | nil => exact Loader.line_nil (htrim.trans hcut)
  | cons d rest =>
    apply Loader.line_idle rfl (htrim.trans hcut)
    rintro rfl
    obtain ⟨c,hc,hblank⟩ := h
    obtain ⟨tail,htail⟩ := List.rdropWhile_prefix isBlank first
    rw [hcut] at htail
    rw [← htail] at hc
    cases hc
    revert hblank
    decide

/-- Unless it hides a header, a mark changes nothing on the first line. -/
theorem line_bom {first : Text} (h : ¬bom <+: first) (hhide : ¬HidesHeader first) :
    Loader.line clientTrim ⟨∅,[]⟩ (bom++first)=Loader.line clientTrim ⟨∅,[]⟩ first := by
  by_cases hblank : ∃ c∈first.head?, isBlank c
  · have hopens : opens first=[] := by
      by_contra hne
      exact hhide ⟨hblank,hne⟩
    have hsections : (Loader.line clientTrim ⟨∅,[]⟩ first).sections=∅ := Loader.line_sections rfl
    rw [line_bom_blank hblank]
    exact (congrArg₂ Loader.mk hsections hopens).symm
  · have hkeep : first.dropWhile isBlank=first := by
      cases first with
      | nil => rfl
      | cons c rest =>
        apply Strip.dropWhile_cons
        rw [← Bool.not_eq_true]
        exact fun hc => hblank ⟨c,rfl,hc⟩
    apply Loader.line_congr
    rw [clientTrim_bom,clientTrim_eq_trim (by rwa [hkeep]),trim,hkeep]

/-- A file whose first line hides a header loses what follows under it. -/
theorem find_hidden {first : Text} (hline : ascii '\n'∉first) (hhide : HidesHeader first) :
    find (clientLoad (bom++(first++text ['\n','k','=','v']))) (opens first) (text ['k'])=none ∧
    find (clientLoad (first++text ['\n','k','=','v'])) (opens first) (text ['k'])=
      some (text ['v']) := by
  have hmarked : ascii '\n'∉bom++first := by
    intro hmem
    rcases List.mem_append.mp hmem with hmem|hmem
    · revert hmem
      decide
    · exact hline hmem
  have hentry : clientTrim (text ['k','=','v'])=text ['k']++ascii '='::text ['v'] := by decide
  constructor
  · have hlines : lines (bom++(first++text ['\n','k','=','v']))=[bom++first,text ['k','=','v']] := by
      rw [← List.append_assoc]
      exact lines_append hmarked _
    have hsections : (Loader.line clientTrim ⟨∅,[]⟩ (text ['k','=','v'])).sections=∅ :=
      Loader.line_sections rfl
    rw [clientLoad,loadLines,hlines,List.foldl_cons,line_bom_blank hhide.1,List.foldl_cons,
      List.foldl_nil,hsections]
    rfl
  · have hlines : lines (first++text ['\n','k','=','v'])=[first,text ['k','=','v']] :=
      lines_append hline _
    rw [clientLoad,loadLines,hlines,List.foldl_cons,List.foldl_cons,List.foldl_nil,
      Loader.line_entry hentry (by decide) (by decide) hhide.2 (by decide),find_assign]
    exact if_pos ⟨rfl,rfl⟩

/-- The line opens a section. -/
def isHeader (raw : Text) : Bool :=
  match clientTrim raw with
  | [] => false
  | c::rest => c=ascii '[' && (c::rest).getLast?=some (ascii ']')

theorem line_isHeader {raw : Text} (h : isHeader raw) : ∃ name, ∀ s : Loader,
    s.line clientTrim raw={ s with currentSection := name } := by
  unfold isHeader at h
  cases hline : clientTrim raw with
  | nil =>
    rw [hline] at h
    cases h
  | cons c rest =>
    simp only [hline,Bool.and_eq_true,decide_eq_true_eq] at h
    obtain ⟨rfl,hlast⟩ := h
    refine ⟨clientTrim (((ascii '['::rest).drop 1).take ((ascii '['::rest).length-2)),fun s => ?_⟩
    simp only [Loader.line,hline,hlast]
    rfl

theorem line_currentSection {raw : Text} (h : isHeader raw=false) (s : Loader) :
    (s.line clientTrim raw).currentSection=s.currentSection := by
  unfold isHeader at h
  cases hline : clientTrim raw with
  | nil => rw [Loader.line_nil hline]
  | cons c rest =>
    simp only [hline] at h
    simp only [Loader.line,hline,h,Bool.false_eq_true,if_false]
    repeat' split
    all_goals rfl

/-- What a line assigns covers what was there, and does not depend on it. -/
theorem find_line (raw : Text) (sections : Sections) (current sec key : Text) :
    (Loader.line clientTrim ⟨sections,current⟩ raw).currentSection=
      (Loader.line clientTrim ⟨∅,current⟩ raw).currentSection ∧
    find (Loader.line clientTrim ⟨sections,current⟩ raw).sections sec key=
      (find (Loader.line clientTrim ⟨∅,current⟩ raw).sections sec key).or
        (find sections sec key) := by
  have hempty : find ∅ sec key=none := rfl
  simp only [Loader.line]
  repeat' split
  all_goals first
    | exact ⟨rfl,by rw [hempty,Option.none_or]⟩
    | refine ⟨rfl,?_⟩
      simp only [find_assign,hempty]
      split <;> rfl

theorem find_foldl (ls : List Text) (sections : Sections) (current sec key : Text) :
    find (ls.foldl (Loader.line clientTrim) ⟨sections,current⟩).sections sec key=
      (find (ls.foldl (Loader.line clientTrim) ⟨∅,current⟩).sections sec key).or
        (find sections sec key) := by
  induction ls generalizing sections current with
  | nil => rfl
  | cons l ls ih =>
    obtain ⟨hcurrent,hline⟩ := find_line l sections current sec key
    rw [List.foldl_cons,List.foldl_cons,ih,ih (Loader.line clientTrim ⟨∅,current⟩ l).sections,hline,
      hcurrent,Option.or_assoc]

/-- A line assigns nothing outside the section it is in. -/
theorem eq_of_find_line {raw current sec key : Text}
    (h : find (Loader.line clientTrim ⟨∅,current⟩ raw).sections sec key≠none) : sec=current := by
  by_contra hne
  apply h
  simp only [Loader.line]
  repeat' split
  all_goals first
    | rfl
    | rw [find_assign,if_neg fun heq => hne heq.1]
      rfl

/-- Lines without a header assign nothing outside their section. -/
theorem eq_of_find_foldl {ls : List Text} (h : ∀ l∈ls, isHeader l=false) {current sec key : Text}
    (hfind : find (ls.foldl (Loader.line clientTrim) ⟨∅,current⟩).sections sec key≠none) :
    sec=current := by
  induction ls with
  | nil => exact absurd rfl hfind
  | cons l ls ih =>
    obtain ⟨hl,hls⟩ := List.forall_mem_cons.mp h
    by_contra hne
    have hrest : find (ls.foldl (Loader.line clientTrim) ⟨∅,current⟩).sections sec key=none :=
      not_not.mp fun hsome => hne (ih hls hsome)
    have hline : find (Loader.line clientTrim ⟨∅,current⟩ l).sections sec key=none :=
      not_not.mp fun hsome => hne (eq_of_find_line hsome)
    apply hfind
    rw [List.foldl_cons,find_foldl,line_currentSection hl,hrest,hline]
    rfl

/-- The lines up to the second header of a file that begins with one. -/
def upToHeader (content : Text) : List Text :=
  firstLine content::(lines content).tail.takeWhile fun l => !isHeader l

/-- The lines from that header on. -/
def fromHeader (content : Text) : List Text := (lines content).tail.dropWhile fun l => !isHeader l

/-- The lines under the first header assign the key, and those of later sections do not assign it
again. -/
def Loses (content key : Text) : Prop :=
  find (loadLines clientTrim (upToHeader content)) (opens (firstLine content)) key≠none ∧
  find (loadLines clientTrim (fromHeader content)) (opens (firstLine content)) key=none

/-- Without a section, lines without a header have no effect. -/
theorem foldl_idle {ls : List Text} (h : ∀ l∈ls, isHeader l=false) :
    ls.foldl (Loader.line clientTrim) ⟨∅,[]⟩=⟨∅,[]⟩ := by
  induction ls with
  | nil => rfl
  | cons l ls ih =>
    obtain ⟨hl,hls⟩ := List.forall_mem_cons.mp h
    have hline : Loader.line clientTrim ⟨∅,[]⟩ l=⟨∅,[]⟩ :=
      congrArg₂ Loader.mk (Loader.line_sections rfl) (line_currentSection hl _)
    rw [List.foldl_cons,hline,ih hls]

/-- From a header on, the section before it does not matter. -/
theorem find_fromHeader {ls : List Text} (h : ∀ l∈ls.head?, isHeader l) (s : Loader)
    (sec key : Text) :
    find (ls.foldl (Loader.line clientTrim) s).sections sec key=
      (find (loadLines clientTrim ls) sec key).or (find s.sections sec key) := by
  cases ls with
  | nil => rfl
  | cons l ls =>
    obtain ⟨name,hname⟩ := line_isHeader (h l rfl)
    rw [loadLines,List.foldl_cons,List.foldl_cons,hname,hname,find_foldl]

theorem lines_tail (content : Text) :
    lines (bom++content)=(bom++firstLine content)::(lines content).tail := by
  have hmarked : firstLine (bom++content)=bom++firstLine content := firstLine_append (by decide) _
  have hdrop : (bom++content).drop ((bom++firstLine content).length+1)=
      content.drop ((firstLine content).length+1) := by
    rw [List.length_append,Nat.add_assoc,← List.drop_drop,List.drop_left]
  rw [lines_eq (List.append_ne_nil_of_left_ne_nil (by decide) _),hmarked,hdrop]
  by_cases hne : content=[]
  · subst hne
    rfl
  · rw [lines_eq hne,List.tail_cons]

theorem not_isHeader_of_mem_takeWhile {ls : List Text} :
    ∀ l∈ls.takeWhile fun l => !isHeader l, isHeader l=false := by
  intro l hl
  simpa using List.mem_takeWhile_imp hl

/-- The lines up to the next header assign nothing but keys of the first section. -/
theorem eq_of_find_upToHeader {content sec key : Text}
    (h : find (loadLines clientTrim (upToHeader content)) sec key≠none) :
    sec=opens (firstLine content) := by
  have hfirst : Loader.line clientTrim ⟨∅,[]⟩ (firstLine content)=⟨∅,opens (firstLine content)⟩ :=
    congrArg₂ Loader.mk (Loader.line_sections rfl) rfl
  rw [loadLines,upToHeader,List.foldl_cons,hfirst] at h
  exact eq_of_find_foldl not_isHeader_of_mem_takeWhile h

/-- What the reader finds in a file whose first line hides a header, with the mark and without it. -/
theorem find_hides {content : Text} (hhide : HidesHeader (firstLine content)) (sec key : Text) :
    find (clientLoad (bom++content)) sec key=
      find (loadLines clientTrim (fromHeader content)) sec key ∧
    find (clientLoad content) sec key=
      (find (loadLines clientTrim (fromHeader content)) sec key).or
        (find (loadLines clientTrim (upToHeader content)) sec key) := by
  have hhead : ∀ l∈(fromHeader content).head?, isHeader l := by
    intro l hl
    have hno := List.head?_dropWhile_not (fun l => !isHeader l) (lines content).tail
    rw [show (lines content).tail.dropWhile (fun l => !isHeader l)=fromHeader content from rfl,
      Option.mem_def.mp hl] at hno
    simpa using hno
  have hsplit : (lines content).tail=
      ((lines content).tail.takeWhile fun l => !isHeader l)++fromHeader content :=
    List.takeWhile_append_dropWhile.symm
  have hne : content≠[] := by
    rintro rfl
    exact hhide.2 rfl
  constructor
  · rw [clientLoad,loadLines,lines_tail,hsplit,List.foldl_cons,line_bom_blank hhide.1,
      List.foldl_append,foldl_idle not_isHeader_of_mem_takeWhile]
    rfl
  · have hlines : lines content=firstLine content::(lines content).tail := by
      rw [lines_eq hne,List.tail_cons]
    rw [clientLoad,loadLines,hlines,hsplit,← List.cons_append,List.foldl_append,
      find_fromHeader hhead]
    rfl

/-- A mark in front of a file without one changes nothing, unless the first line has a header behind
blanks; that header it hides. The reader finds the same exactly if no key is lost with it. -/
theorem byte_order_mark (content : Text) (h : ¬bom <+: content) :
    (¬HidesHeader (firstLine content) → clientLoad (bom++content)=clientLoad content) ∧
    (HidesHeader (firstLine content) → ∃ rest sec key,
      firstLine (firstLine content++rest)=firstLine content ∧
      find (clientLoad (bom++(firstLine content++rest))) sec key≠
        find (clientLoad (firstLine content++rest)) sec key) ∧
    ((∀ sec key, find (clientLoad (bom++content)) sec key=find (clientLoad content) sec key) ↔
      ¬(HidesHeader (firstLine content) ∧ ∃ key, Loses content key)) := by
  have hsame : ¬HidesHeader (firstLine content) → clientLoad (bom++content)=clientLoad content := by
    intro hhide
    have hfirst : ¬bom <+: firstLine content := fun hbom => h (hbom.trans (firstLine_isPrefix content))
    have hline := line_bom hfirst hhide
    by_cases hne : content=[]
    · subst hne
      rfl
    · rw [clientLoad,clientLoad,lines_tail,lines_eq hne]
      simp only [loadLines,List.foldl_cons,hline,List.tail_cons]
  refine ⟨hsame,?_,?_,?_⟩
  · intro hhide
    obtain ⟨hnone,hsome⟩ := find_hidden (firstLine_oneLine content) hhide
    refine ⟨text ['\n','k','=','v'],opens (firstLine content),text ['k'],?_,?_⟩
    · rw [firstLine_append (firstLine_oneLine content)]
      exact List.append_nil _
    · rw [hnone,hsome]
      exact (Option.some_ne_none _).symm
  · rintro hfind ⟨hhide,key,hkey,hlost⟩
    obtain ⟨hmarked,hplain⟩ := find_hides hhide (opens (firstLine content)) key
    rw [hfind,hplain,hlost,Option.none_or] at hmarked
    exact hkey hmarked
  · intro hkept sec key
    by_cases hhide : HidesHeader (firstLine content)
    · obtain ⟨hmarked,hplain⟩ := find_hides hhide sec key
      rw [hmarked,hplain]
      cases hlater : find (loadLines clientTrim (fromHeader content)) sec key with
      | some value => rfl
      | none =>
        rw [Option.none_or]
        symm
        by_contra hsome
        obtain rfl := eq_of_find_upToHeader hsome
        exact hkept ⟨hhide,key,hsome,hlater⟩
    · rw [hsame hhide]

/-- A file with a blank before its first header. -/
def indented : Text :=
  text [' ','[','s','e','r','v','e','r',']','\n','p','o','r','t','=','7','7','7','7','\n']

theorem byte_order_mark_unindented :
    clientLoad (bom++indented.drop 1)=clientLoad (indented.drop 1) := by
  apply (byte_order_mark (indented.drop 1) (by decide)).1
  rintro ⟨⟨c,hc,hblank⟩,-⟩
  cases hc
  revert hblank
  decide

/-- Behind a mark the server section of this file is gone. -/
theorem mark_hides_header :
    ¬bom <+: indented ∧
    find (clientLoad indented) (text ['s','e','r','v','e','r']) (text ['p','o','r','t'])=
      some (text ['7','7','7','7']) ∧
    find (clientLoad (bom++indented)) (text ['s','e','r','v','e','r']) (text ['p','o','r','t'])=
      none ∧
    clientLoad (bom++indented)≠clientLoad indented := by
  have hplain : find (clientLoad indented) (text ['s','e','r','v','e','r'])
      (text ['p','o','r','t'])=some (text ['7','7','7','7']) := by decide +kernel
  have hmarked : find (clientLoad (bom++indented)) (text ['s','e','r','v','e','r'])
      (text ['p','o','r','t'])=none := by decide +kernel
  refine ⟨by decide,hplain,hmarked,?_⟩
  intro heq
  rw [heq,hplain] at hmarked
  cases hmarked

/-- Without a mark anywhere both readers trim alike. -/
theorem clientTrim_of_clean {value : Text} (h : ¬bom <:+: value) : clientTrim value=trim value := by
  apply clientTrim_eq_trim
  intro hmark
  exact h (hmark.isInfix.trans (List.dropWhile_suffix isBlank).isInfix)

theorem line_of_clean (s : Loader) {raw : Text} (h : ¬bom <:+: raw) :
    s.line clientTrim raw=s.line trim raw := by
  have hline : trim raw <:+: raw :=
    (List.rdropWhile_prefix isBlank _).isInfix.trans (List.dropWhile_suffix isBlank).isInfix
  have hpart : ∀ part, part <:+: trim raw → clientTrim part=trim part := by
    intro part hpart
    exact clientTrim_of_clean fun hmark => h (hmark.trans (hpart.trans hline))
  have htake : ∀ n, clientTrim ((trim raw).take n)=trim ((trim raw).take n) :=
    fun n => hpart _ (List.take_prefix n _).isInfix
  have hdrop : ∀ n, clientTrim ((trim raw).drop n)=trim ((trim raw).drop n) :=
    fun n => hpart _ (List.drop_suffix n _).isInfix
  have hinner : ∀ m n, clientTrim (((trim raw).drop m).take n)=trim (((trim raw).drop m).take n) :=
    fun m n => hpart _ ((List.take_prefix n _).isInfix.trans (List.drop_suffix m _).isInfix)
  simp only [Loader.line,clientTrim_of_clean h,htake,hdrop,hinner]

theorem lines_isInfix (content : Text) {l : Text} (hl : l∈lines content) : l <:+: content := by
  by_cases hne : content=[]
  · subst hne
    exact absurd hl List.not_mem_nil
  · rw [lines_eq hne] at hl
    rcases List.mem_cons.mp hl with heq|hrest
    · rw [heq]
      exact (firstLine_isPrefix content).isInfix
    · exact (lines_isInfix _ hrest).trans (List.drop_suffix _ content).isInfix
termination_by content.length
decreasing_by
  have hpos := List.length_pos_iff.mpr hne
  rw [List.length_drop]
  omega

/-- The two readers build the same map from every file without a mark. -/
theorem clientLoad_eq_load {content : Text} (h : ¬bom <:+: content) :
    clientLoad content=load content := by
  rw [clientLoad,load,loadLines,loadLines]
  congr 1
  apply List.foldl_ext
  intro s l hl
  exact line_of_clean s fun hmark => h (hmark.trans (lines_isInfix content hl))

end IocpServer.Config
