import Mathlib.Logic.Relation
import Mathlib.Data.Option.Basic

namespace IocpServer

/-- Runs of a machine whose steps are chosen by actions. Only actions that `ok` admits in the
state before the step are taken; an action that `step` refuses is not enabled there. -/
def Reaches {σ α : Type*} (step : σ → α → Option σ) (ok : σ → α → Prop) : σ → σ → Prop :=
  Relation.ReflTransGen fun s s' => ∃ a, ok s a ∧ step s a=some s'

/-- Every action is admitted. -/
def Any {σ α : Type*} (_ : σ) (_ : α) : Prop := True

/-- The states a list of actions leads to, for concrete runs. -/
def runActions {σ α : Type*} (step : σ → α → Option σ) : σ → List α → Option σ
  | s,[] => some s
  | s,a::as => (step s a).bind fun s' => runActions step s' as

/-- What holds at the start and survives every step, with the number of steps taken. -/
theorem runActions_invariant {σ α : Type*} {step : σ → α → Option σ} {P : Nat → σ → Prop}
    {ok : α → Prop} (hstep : ∀ n x a y, ok a → P n x → step x a=some y → P (n+1) y) {as : List α}
    (hok : ∀ a∈as, ok a) {n : Nat} {s t : σ} (h0 : P n s) (h : runActions step s as=some t) :
    P (n+as.length) t := by
  induction as generalizing n s with
  | nil =>
    cases h
    exact h0
  | cons a as ih =>
    simp only [runActions,Option.bind_eq_some_iff] at h
    obtain ⟨s',hs,ht⟩ := h
    obtain ⟨ha,has⟩ := List.forall_mem_cons.mp hok
    rw [List.length_cons,Nat.add_comm as.length,← Nat.add_assoc]
    exact ih has (hstep n s a s' ha h0 hs) ht

theorem runActions_append {σ α : Type*} (step : σ → α → Option σ) (s : σ) (as bs : List α) :
    runActions step s (as++bs)=(runActions step s as).bind fun t => runActions step t bs := by
  induction as generalizing s with
  | nil => rfl
  | cons a as ih =>
    simp only [List.cons_append,runActions,Option.bind_assoc]
    congr 1
    funext s'
    exact ih s'

/-- A machine whose runs are bounded stops, whatever it is fed. -/
theorem runActions_stops {σ α : Type*} {step : σ → α → Option σ} {s : σ} {bound : Nat}
    (h : ∀ as t, runActions step s as=some t → as.length ≤ bound) (feed : Nat → α) :
    ∃ n ≤ bound, ∃ t, runActions step s ((List.range n).map feed)=some t ∧
      step t (feed n)=none := by
  by_contra hnever
  have hruns : ∀ n ≤ bound+1, ∃ t, runActions step s ((List.range n).map feed)=some t := by
    intro n
    induction n with
    | zero => exact fun _ => ⟨s,rfl⟩
    | succ n ih =>
      intro hn
      obtain ⟨t,ht⟩ := ih (by omega)
      cases hnext : step t (feed n) with
      | none => exact absurd ⟨n,by omega,t,ht,hnext⟩ hnever
      | some u =>
        refine ⟨u,?_⟩
        rw [List.range_succ,List.map_append,runActions_append,ht]
        simp [runActions,hnext]
  obtain ⟨t,ht⟩ := hruns (bound+1) (Nat.le_refl _)
  have hlen := h _ t ht
  rw [List.length_map,List.length_range] at hlen
  omega

namespace Reaches

variable {σ α τ : Type*} {step : σ → α → Option σ} {ok : σ → α → Prop} {s t u : σ}

theorem refl : Reaches step ok s s := Relation.ReflTransGen.refl

theorem tail (h : Reaches step ok s t) {a : α} (ha : ok t a) (hs : step t a=some u) :
    Reaches step ok s u :=
  Relation.ReflTransGen.tail h ⟨a,ha,hs⟩

theorem trans (h : Reaches step ok s t) (k : Reaches step ok t u) : Reaches step ok s u :=
  Relation.ReflTransGen.trans h k

theorem mono {ok' : σ → α → Prop} (h : Reaches step ok s t) (hok : ∀ x a, ok x a → ok' x a) :
    Reaches step ok' s t := by
  induction h with
  | refl => exact refl
  | tail _ hst ih =>
    obtain ⟨a,ha,hs⟩ := hst
    exact ih.tail (hok _ a ha) hs

/-- What holds at the start and survives every admitted step holds at the end of the run. -/
theorem invariant {P : σ → Prop} (h : Reaches step ok s t) (h0 : P s)
    (hstep : ∀ x a y, P x → ok x a → step x a=some y → P y) : P t := by
  induction h with
  | refl => exact h0
  | tail _ hst ih =>
    obtain ⟨a,ha,hs⟩ := hst
    exact hstep _ a _ ih ha hs

/-- The same, using facts already known of every state of the run. -/
theorem invariant_of {P Q : σ → Prop} (h : Reaches step ok s t)
    (hQ : ∀ x, Reaches step ok s x → Q x) (h0 : P s)
    (hstep : ∀ x a y, Q x → P x → ok x a → step x a=some y → P y) : P t := by
  induction h with
  | refl => exact h0
  | tail hr hst ih =>
    obtain ⟨a,ha,hs⟩ := hst
    exact hstep _ a _ (hQ _ hr) ih ha hs

/-- If another machine can follow every step from a related state to a related one, it can follow
the run. -/
theorem simulates {next : τ → τ → Prop} {R : σ → τ → Prop} {x : τ} (h : Reaches step ok s t)
    (h0 : R s x) (hstep : ∀ y a z w, R y w → ok y a → step y a=some z →
      ∃ w', Relation.ReflTransGen next w w' ∧ R z w') :
    ∃ y, Relation.ReflTransGen next x y ∧ R t y := by
  induction h with
  | refl => exact ⟨x,.refl,h0⟩
  | tail _ hst ih =>
    obtain ⟨a,ha,hs⟩ := hst
    obtain ⟨y,hy,hR⟩ := ih
    obtain ⟨z,hz,hR'⟩ := hstep _ a _ y hR ha hs
    exact ⟨z,hy.trans hz,hR'⟩

/-- A concrete run whose actions are admitted wherever they are taken. -/
theorem of_admitted (as : List α) (hok : ∀ a∈as, ∀ x, ok x a) (h : runActions step s as=some t) :
    Reaches step ok s t := by
  induction as generalizing s with
  | nil =>
    have he : s=t := by simpa [runActions] using h
    subst he
    exact refl
  | cons a as ih =>
    simp only [runActions,Option.bind_eq_some_iff] at h
    obtain ⟨s',hs,ht⟩ := h
    have hrest := ih (fun b hb => hok b (List.mem_cons_of_mem a hb)) ht
    exact (refl.tail (hok a List.mem_cons_self s) hs).trans hrest

theorem of_runActions (hok : ∀ x a, ok x a) (as : List α) (h : runActions step s as=some t) :
    Reaches step ok s t :=
  of_admitted as (fun a _ x => hok x a) h

/-- A concrete run in which every action has passed a test that admits it. -/
theorem of_guarded {test : σ → α → Bool} (htest : ∀ x a, test x a → ok x a) (as : List α)
    (h : runActions (fun x a => if test x a then step x a else none) s as=some t) :
    Reaches step ok s t := by
  induction as generalizing s with
  | nil =>
    have he : s=t := by simpa [runActions] using h
    subst he
    exact refl
  | cons a as ih =>
    simp only [runActions,Option.bind_eq_some_iff] at h
    obtain ⟨s',hs,ht⟩ := h
    split at hs
    · rename_i hpass
      exact (refl.tail (htest s a hpass) hs).trans (ih ht)
    · cases hs

end Reaches

end IocpServer
