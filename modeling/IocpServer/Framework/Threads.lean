import Mathlib.Algebra.BigOperators.Group.Finset.Piecewise
import Mathlib.Algebra.Order.BigOperators.Group.Finset

namespace IocpServer

variable {T β : Type*} [Fintype T]

/-- One thread moves: the weight of the whole pool changes by what that thread changed. -/
theorem sum_update [DecidableEq T] {M : Type*} [AddCommMonoid M] (w : β → M) (f : T → β) (t : T)
    (x : β) : ∑ u, w (Function.update f t x u)+w (f t)=∑ u, w (f u)+w x := by
  have he : (fun u => w (Function.update f t x u))=Function.update (fun u => w (f u)) t (w x) := by
    funext u
    by_cases h : u=t
    · subst h; simp
    · simp [Function.update_of_ne h]
  rw [he,Finset.sum_update_of_mem (Finset.mem_univ t),
    ← Finset.add_sum_erase Finset.univ (fun u => w (f u)) (Finset.mem_univ t),
    Finset.sdiff_singleton_eq_erase]
  rw [add_right_comm,add_comm (w x)]
  exact add_right_comm _ _ _

theorem le_sum (w : β → Nat) (f : T → β) (t : T) : w (f t) ≤ ∑ u, w (f u) :=
  Finset.single_le_sum (f:=fun u => w (f u)) (fun _ _ => Nat.zero_le _) (Finset.mem_univ t)

/-- Two threads of positive weight in a pool of weight at most one are the same thread. -/
theorem eq_of_sum_le_one [DecidableEq T] (w : β → Nat) (f : T → β) (h : ∑ u, w (f u) ≤ 1) {t u : T}
    (ht : 0<w (f t)) (hu : 0<w (f u)) : t=u := by
  by_contra hne
  have hu' := Finset.single_le_sum (f:=fun v => w (f v)) (s:=Finset.univ.erase t)
    (fun _ _ => Nat.zero_le _) (Finset.mem_erase.mpr ⟨fun e => hne e.symm,Finset.mem_univ u⟩)
  rw [← Finset.add_sum_erase Finset.univ (fun v => w (f v)) (Finset.mem_univ t)] at h
  omega

theorem sum_eq_zero_iff (w : β → Nat) (f : T → β) :
    ∑ u, w (f u)=0 ↔ ∀ u, w (f u)=0 := by
  simp

end IocpServer
