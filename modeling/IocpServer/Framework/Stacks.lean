import Mathlib.Algebra.Order.Group.Multiset
import Mathlib.Algebra.BigOperators.Group.Multiset.Basic
import IocpServer.Framework.Threads

namespace IocpServer.Stacks

variable {T S F : Type*}

/-- The frames of object `x` in a stack of calls on several objects. -/
def framesOf [DecidableEq S] (x : S) (stack : List (S×F)) : List F :=
  (stack.filter fun c => c.1=x).map Prod.snd

/-- Calls on object `x`, innermost first. -/
def on (x : S) (fs : List F) : List (S×F) := fs.map fun f => (x,f)

variable [DecidableEq S]

@[simp] theorem framesOf_nil (x : S) : framesOf x ([] : List (S×F))=[] := rfl

@[simp] theorem framesOf_append (x : S) (xs ys : List (S×F)) :
    framesOf x (xs++ys)=framesOf x xs++framesOf x ys := by
  simp [framesOf]

@[simp] theorem framesOf_cons_self (x : S) (f : F) (stack : List (S×F)) :
    framesOf x ((x,f)::stack)=f::framesOf x stack := by
  simp [framesOf]

theorem framesOf_cons_of_ne {x y : S} (h : y≠x) (f : F) (stack : List (S×F)) :
    framesOf x ((y,f)::stack)=framesOf x stack := by
  simp [framesOf,h]

@[simp] theorem framesOf_on_self (x : S) (fs : List F) : framesOf x (on x fs)=fs := by
  induction fs with
  | nil => rfl
  | cons f fs ih => simpa [on] using ih

theorem framesOf_on_of_ne {x y : S} (h : y≠x) (fs : List F) : framesOf x (on y fs)=[] := by
  simp [framesOf,on,h]

theorem mem_framesOf {x : S} {f : F} {stack : List (S×F)} : f∈framesOf x stack ↔ (x,f)∈stack := by
  simp [framesOf]

variable [Fintype T]

/-- The frames of object `x` on all threads together. -/
def pending (calls : T → List (S×F)) (x : S) : Multiset F :=
  ∑ t, (framesOf x (calls t) : Multiset F)

theorem mem_pending {calls : T → List (S×F)} {x : S} {f : F} :
    f∈pending calls x ↔ ∃ t, (x,f)∈calls t := by
  simp [pending,Multiset.mem_sum,mem_framesOf]

variable [DecidableEq T]

theorem pending_update (calls : T → List (S×F)) (x : S) (t : T) (stack : List (S×F)) :
    pending (Function.update calls t stack) x+framesOf x (calls t)=
      pending calls x+framesOf x stack :=
  sum_update (fun l => (framesOf x l : Multiset F)) calls t stack

/-- New calls on top of a stack. -/
theorem pending_push (calls : T → List (S×F)) (x : S) (t : T) (fs : List F) :
    pending (Function.update calls t (on x fs++calls t)) x=fs+pending calls x := by
  have h := pending_update calls x t (on x fs++calls t)
  rw [framesOf_append,framesOf_on_self,← Multiset.coe_add,← add_assoc] at h
  rw [add_right_cancel h,add_comm]

/-- The innermost call is replaced by the calls it continues with. -/
theorem pending_replace {calls : T → List (S×F)} {x : S} {t : T} {f : F} {rest : List (S×F)}
    (ht : calls t=(x,f)::rest) (fs : List F) :
    ∃ others, pending calls x=f::ₘothers ∧
      pending (Function.update calls t (on x fs++rest)) x=fs+others := by
  have hmem : f∈pending calls x := mem_pending.mpr ⟨t,by simp [ht]⟩
  obtain ⟨others,hothers⟩ := Multiset.exists_cons_of_mem hmem
  refine ⟨others,hothers,?_⟩
  have h := pending_update calls x t (on x fs++rest)
  rw [ht,framesOf_append,framesOf_on_self,framesOf_cons_self,hothers,← Multiset.coe_add,
    ← Multiset.cons_coe,← Multiset.singleton_add f (framesOf x rest : Multiset F),← add_assoc,
    ← add_assoc] at h
  have h' := add_right_cancel h
  rw [← Multiset.singleton_add,add_right_comm,add_assoc,add_comm ({f} : Multiset F)] at h'
  exact add_right_cancel h'

theorem pending_same {calls : T → List (S×F)} {y : S} {t : T} {stack : List (S×F)}
    (h : framesOf y stack=framesOf y (calls t)) :
    pending (Function.update calls t stack) y=pending calls y := by
  have hu := pending_update calls y t stack
  rw [h] at hu
  exact add_right_cancel hu

end IocpServer.Stacks
