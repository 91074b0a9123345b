import Mathlib.Data.List.DropRight

namespace IocpServer.Strip

variable {α : Type} {p : α → Bool}

/-- Cuts the elements with `p` off both ends. -/
def strip (p : α → Bool) (l : List α) : List α := (l.dropWhile p).rdropWhile p

/-- No element with `p` stands at either end. -/
structure Bare (p : α → Bool) (t : List α) : Prop where
  head : ∀ c∈t.head?, p c=false
  last : ∀ c∈t.getLast?, p c=false

instance (p : α → Bool) (t : List α) : Decidable (Bare p t) :=
  decidable_of_iff ((∀ c∈t.head?, p c=false) ∧ ∀ c∈t.getLast?, p c=false)
    ⟨fun h => ⟨h.1,h.2⟩,fun h => ⟨h.1,h.2⟩⟩

theorem Bare.of_cons {c d : α} {t : List α} (hc : p c=false) (hd : p d=false) :
    Bare p (c::(t++[d])) := by
  constructor
  · intro x hx
    cases hx
    exact hc
  · intro x hx
    rw [← List.cons_append,List.getLast?_concat] at hx
    cases hx
    exact hd

theorem dropWhile_cons {c : α} (hc : p c=false) (t : List α) : (c::t).dropWhile p=c::t := by
  apply List.dropWhile_cons_of_neg
  rw [hc]
  exact Bool.false_ne_true

theorem rdropWhile_eq_self {t : List α} (h : ∀ c∈t.getLast?, p c=false) : t.rdropWhile p=t := by
  apply List.rdropWhile_eq_self_iff.mpr
  intro hne
  rw [h _ (List.getLast?_eq_some_getLast hne)]
  exact Bool.false_ne_true

/-- A tail of elements with `p` does not matter to cutting the end. -/
theorem rdropWhile_append {t r : List α} (hr : ∀ c∈r, p c) :
    (t++r).rdropWhile p=t.rdropWhile p := by
  have hrev : ∀ c∈r.reverse, p c := by
    intro c hc
    exact hr c (List.mem_reverse.mp hc)
  rw [List.rdropWhile,List.reverse_append,List.dropWhile_append_of_pos hrev]
  rfl

theorem strip_of_all {l : List α} (h : ∀ c∈l, p c) : strip p l=[] := by
  rw [strip,List.dropWhile_eq_nil_iff.mpr h]
  exact List.rdropWhile_nil p

/-- Whatever surrounds a bare text is cut off. -/
theorem strip_pad {l t r : List α} (hl : ∀ c∈l, p c) (ht : Bare p t) (hr : ∀ c∈r, p c) :
    strip p (l++t++r)=t := by
  rw [List.append_assoc,strip,List.dropWhile_append_of_pos hl]
  cases t with
  | nil => exact strip_of_all hr
  | cons c t =>
    rw [List.cons_append,dropWhile_cons (ht.head c rfl),← List.cons_append,rdropWhile_append hr]
    exact rdropWhile_eq_self ht.last

/-- The first element without `p` comes first. -/
theorem strip_cons {l t : List α} {c : α} (hl : ∀ c∈l, p c) (hc : p c=false) :
    ∃ rest, strip p (l++c::t)=c::rest := by
  rw [strip,List.dropWhile_append_of_pos hl,dropWhile_cons hc]
  have hne : (c::t).rdropWhile p≠[] := by
    intro hnil
    have hall := List.rdropWhile_eq_nil_iff.mp hnil c List.mem_cons_self
    rw [hc] at hall
    cases hall
  obtain ⟨tail,htail⟩ := List.rdropWhile_prefix p (c::t)
  cases hcut : (c::t).rdropWhile p with
  | nil => exact absurd hcut hne
  | cons x rest =>
    rw [hcut] at htail
    cases htail
    exact ⟨rest,rfl⟩

end IocpServer.Strip
