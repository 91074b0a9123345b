import IocpServer.Framework.Machine

namespace IocpServer

variable {σ : Type*} {R : σ → Nat → σ → Prop}

/-- A run of `n` steps with the cost `c`, where `R s c t` is a step from `s` to `t` with its cost. -/
inductive Run (R : σ → Nat → σ → Prop) : σ → Nat → Nat → σ → Prop
  | refl (s : σ) : Run R s 0 0 s
  | cons {s t u : σ} {n c d : Nat} (h : R s c t) (hrun : Run R t n d u) : Run R s (n+1) (c+d) u

/-- A run whose steps lower a weight, but for what their cost adds to it, has no more steps than the
weight and the cost allow, and it ends nowhere but at its goal if it can go on for free everywhere
else. -/
theorem Run.ends {P : σ → Prop} (goal : σ → Prop) (weight : σ → Nat) (k : Nat)
    (hstep : ∀ s c t, P s → R s c t → P t ∧ weight t<weight s+k*c)
    (hgo : ∀ s, P s → goal s ∨ ∃ t, R s 0 t) {s t : σ} {n c : Nat} (hs : P s)
    (hrun : Run R s n c t) : n ≤ weight s+k*c ∧ (goal t ∨ ∃ u, R t 0 u) := by
  induction hrun with
  | refl s => exact ⟨Nat.zero_le _,hgo s hs⟩
  | cons h _ ih =>
    obtain ⟨ht,hlt⟩ := hstep _ _ _ hs h
    obtain ⟨hlen,hend⟩ := ih ht
    rw [Nat.mul_add]
    exact ⟨by omega,hend⟩

section

variable {α : Type*} {step : σ → α → Option σ} {ok : σ → α → Prop} {cost : σ → α → Nat}

/-- What the actions of a run cost together, each in the state where it is taken. -/
def costs (step : σ → α → Option σ) (cost : σ → α → Nat) : σ → List α → Nat
  | _,[] => 0
  | s,a::as => cost s a+(step s a).elim 0 fun t => costs step cost t as

/-- A concrete run whose actions are admitted wherever they are taken. -/
theorem Run.of_runActions {s t : σ} (as : List α) (hok : ∀ a∈as, ∀ x, ok x a)
    (h : runActions step s as=some t) :
    Run (fun x c y => ∃ a, ok x a ∧ c=cost x a ∧ step x a=some y) s as.length
      (costs step cost s as) t := by
  induction as generalizing s with
  | nil =>
    cases h
    exact .refl _
  | cons a as ih =>
    simp only [runActions,Option.bind_eq_some_iff] at h
    obtain ⟨s',hs,ht⟩ := h
    obtain ⟨ha,has⟩ := List.forall_mem_cons.mp hok
    have hrun := Run.cons ⟨a,ha s,rfl,hs⟩ (ih has ht)
    simpa only [costs,hs,Option.elim_some,List.length_cons] using hrun

end

end IocpServer
