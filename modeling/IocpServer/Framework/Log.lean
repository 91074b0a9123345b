import Mathlib.Data.List.Basic

namespace IocpServer

variable {α β : Type*}

/-- An entry of a longer log is the new one or was there before. -/
theorem snoc_split {l past future : List α} {x e : α} (h : l++[x]=past++e::future) :
    (past=l ∧ e=x ∧ future=[]) ∨ ∃ later, future=later++[x] ∧ l=past++e::later := by
  rcases List.eq_nil_or_concat future with rfl|⟨later,y,rfl⟩
  · obtain ⟨hl,hx⟩ := List.append_inj' h rfl
    cases hx
    exact Or.inl ⟨hl.symm,rfl,rfl⟩
  · have h' : l++[x]=(past++e::later)++[y] := by simpa using h
    obtain ⟨hl,hx⟩ := List.append_inj' h' rfl
    cases hx
    exact Or.inr ⟨later,List.concat_eq_append,hl⟩

/-- Every entry of the log is justified by the entries before it. -/
def Justified (P : List α → α → Prop) (l : List α) : Prop :=
  ∀ past e future, l=past++e::future → P past e

namespace Justified

variable {P : List α → α → Prop} {l : List α}

theorem nil : Justified P [] := by
  intro past e future h
  simp at h

theorem snoc (h : Justified P l) {x : α} (hx : P l x) : Justified P (l++[x]) := by
  intro past e future hsplit
  rcases snoc_split hsplit with ⟨rfl,rfl,-⟩|⟨later,-,hl⟩
  · exact hx
  · exact h past e later hl

end Justified

/-- Some entries promise what is to follow. Of what `sight` sees of a log, and of what is still to
do, the entries after a promise begin with what was promised, and go on with a fresh start. -/
def Kept (promise : List α → α → Option (List β)) (sight : α → Option β) (starts : β → Prop)
    (l : List α) (todo : List β) : Prop :=
  ∀ past e future p, l=past++e::future → promise past e=some p →
    ∃ rest, future.filterMap sight++todo=p++rest ∧ ∀ y, rest.head?=some y → starts y

namespace Kept

variable {promise : List α → α → Option (List β)} {sight : α → Option β} {starts : β → Prop}
  {l : List α} {todo : List β} {x : α} {y : β}

theorem nil : Kept promise sight starts [] [] := by
  intro past e future p h
  simp at h

theorem quiet (h : Kept promise sight starts l todo) (hx : sight x=none)
    (hp : promise l x=none) : Kept promise sight starts (l++[x]) todo := by
  intro past e future p hsplit hpromise
  rcases snoc_split hsplit with ⟨rfl,rfl,-⟩|⟨later,rfl,hl⟩
  · rw [hp] at hpromise
    cases hpromise
  · simpa [hx] using h past e later p hl hpromise

/-- The next thing to do is done. -/
theorem perform (h : Kept promise sight starts l (y::todo)) (hx : sight x=some y)
    (hp : promise l x=none) : Kept promise sight starts (l++[x]) todo := by
  intro past e future p hsplit hpromise
  rcases snoc_split hsplit with ⟨rfl,rfl,-⟩|⟨later,rfl,hl⟩
  · rw [hp] at hpromise
    cases hpromise
  · simpa [hx] using h past e later p hl hpromise

/-- With nothing left to do, something new is started. -/
theorem start (h : Kept promise sight starts l []) (hx : sight x=some y) (hy : starts y)
    (hp : ∀ p, promise l x=some p → p=todo) :
    Kept promise sight starts (l++[x]) todo := by
  intro past e future p hsplit hpromise
  rcases snoc_split hsplit with ⟨rfl,rfl,rfl⟩|⟨later,rfl,hl⟩
  · rw [hp p hpromise]
    exact ⟨[],by simp,by simp⟩
  · obtain ⟨rest,hrest,hstarts⟩ := h past e later p hl hpromise
    refine ⟨rest++y::todo,?_,?_⟩
    · rw [List.append_nil] at hrest
      simp [hx,hrest]
    · cases rest with
      | nil =>
        intro z hz
        cases hz
        exact hy
      | cons z rest => exact hstarts

end Kept

end IocpServer
