import IocpServer.Framework.Progress
import Mathlib.Data.Bool.Basic

namespace IocpServer.Monitor

/-- A machine one of whose threads may be asleep on a condition variable. -/
structure State (σ : Type*) where
  state : σ
  asleep : Bool

variable {σ : Type*}

section

variable (other : σ → Nat → Bool → σ → Prop) (own : σ → Option σ) (waits : σ → Prop)

/-- A step with its cost. The other threads take a step, which may notify the sleeper. The thread
itself takes its next step, which a wait does when its predicate holds; otherwise a wait puts it to
sleep. It may also wake up without a notification, which costs one. -/
inductive Step : State σ → Nat → State σ → Prop
  | other {s s' : σ} {c : Nat} {notified : Bool} (asleep : Bool) (h : other s c notified s') :
      Step ⟨s,asleep⟩ c ⟨s',asleep && !notified⟩
  | go {s s' : σ} (h : own s=some s') : Step ⟨s,false⟩ 0 ⟨s',false⟩
  | sleep {s : σ} (h : waits s) (hno : own s=none) : Step ⟨s,false⟩ 0 ⟨s,true⟩
  | spurious (s : σ) : Step ⟨s,true⟩ 1 ⟨s,false⟩

/-- The thread sleeps only while its predicate does not hold. -/
def Rightly (m : State σ) : Prop := m.asleep → waits m.state ∧ own m.state=none

end

variable {other : σ → Nat → Bool → σ → Prop} {own : σ → Option σ} {waits : σ → Prop}
  {m m' : State σ}

/-- Whoever makes the predicate true notifies, so no wake-up is lost. -/
theorem Rightly.step (h : Rightly own waits m)
    (hnotify : ∀ c s', waits m.state → own m.state=none → other m.state c false s' →
      waits s' ∧ own s'=none) {c : Nat} (hs : Step other own waits m c m') :
    Rightly own waits m' := by
  cases hs with
  | @other s s' c notified asleep hother =>
    intro hasleep
    cases notified with
    | true => simp at hasleep
    | false =>
      have hbefore := h (by simpa using hasleep)
      exact hnotify c s' hbefore.1 hbefore.2 hother
  | go hgo => exact fun hasleep => by cases hasleep
  | sleep hwaits hno => exact fun _ => ⟨hwaits,hno⟩
  | spurious s => exact fun hasleep => by cases hasleep

/-- If a machine whose thread never sleeps comes to its goal, so does one whose thread sleeps where
its predicate does not hold, with at most one sleep between two steps. -/
theorem ends_asleep {P : σ → Prop} (goal : σ → Prop) (weight : σ → Nat) {k : Nat} (hk : 0<k)
    (hother : ∀ s c b s', P s → other s c b s' → P s' ∧ weight s'<weight s+k*c)
    (hown : ∀ s s', P s → own s=some s' → P s' ∧ weight s'<weight s)
    (hnotify : ∀ s c s', P s → waits s → own s=none → other s c false s' → waits s' ∧ own s'=none)
    (hgo : ∀ s, P s → goal s ∨ (∃ b s', other s 0 b s') ∨ (own s).isSome)
    (hm : P m.state) (hr : Rightly own waits m) {n c : Nat}
    (hrun : Run (Step other own waits) m n c m') :
    n ≤ 2*weight m.state+(!m.asleep).toNat+2*k*c ∧
      (goal m'.state ∨ ∃ w, Step other own waits m' 0 w) := by
  refine hrun.ends (P:=fun m => P m.state ∧ Rightly own waits m) (fun m => goal m.state)
    (fun m => 2*weight m.state+(!m.asleep).toNat) (2*k) ?_ ?_ ⟨hm,hr⟩
  · intro m c m' h hs
    obtain ⟨hP,hr⟩ := h
    have hr' := hr.step (fun c s' => hnotify m.state c s' hP) hs
    cases hs with
    | @other s s' c notified asleep ho =>
      obtain ⟨hP',hlt⟩ := hother s c notified s' hP ho
      have hone := Bool.toNat_le (!(asleep && !notified))
      refine ⟨⟨hP',hr'⟩,?_⟩
      rw [Nat.mul_assoc]
      dsimp only
      omega
    | @go s s' hg =>
      obtain ⟨hP',hlt⟩ := hown s s' hP hg
      refine ⟨⟨hP',hr'⟩,?_⟩
      dsimp only
      omega
    | sleep hwaits hno => exact ⟨⟨hP,hr'⟩,Nat.lt_succ_self _⟩
    | spurious s =>
      refine ⟨⟨hP,hr'⟩,?_⟩
      simp only [Bool.not_false,Bool.not_true,Bool.toNat_true,Bool.toNat_false]
      omega
  · intro m h
    obtain ⟨hP,hr⟩ := h
    rcases hgo m.state hP with hgoal|⟨b,s',ho⟩|hsome
    · exact Or.inl hgoal
    · exact Or.inr ⟨_,.other m.asleep ho⟩
    · obtain ⟨s',hs'⟩ := Option.isSome_iff_exists.mp hsome
      cases m with
      | mk s asleep =>
        cases asleep with
        | false => exact Or.inr ⟨_,.go hs'⟩
        | true =>
          have hno := (hr rfl).2
          rw [hs'] at hno
          cases hno

end IocpServer.Monitor
