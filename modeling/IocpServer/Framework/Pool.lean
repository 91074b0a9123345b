import Mathlib.Algebra.GroupWithZero.Nat
import Mathlib.Algebra.Order.Group.Multiset
import Mathlib.Algebra.BigOperators.Group.Multiset.Basic
import Mathlib.Algebra.Order.BigOperators.Group.Multiset
import IocpServer.Framework.Machine
import IocpServer.Framework.Threads

namespace IocpServer.Pool

/-- An object whose methods run on several threads. A frame is a point of a method; `exec` is the
step from it, with what the environment decides, and gives the frames to continue with, innermost
first. `enter` is a call from outside, or a step of the environment if it starts no frame. -/
structure Object (C F O E : Type*) where
  exec : C → O → F → Option (C×List F)
  enter : C → E → Option (C×List F)

/-- The fields of the object and the calls of every thread. -/
structure State (T C F : Type*) where
  core : C
  calls : T → List F

inductive Action (T O E : Type*) where
  | run (t : T) (o : O)
  | enter (t : T) (e : E)

variable {T C F O E : Type*}

def State.init (core : C) : State T C F := ⟨core,fun _ => []⟩

/-- Calls from outside are made by threads that are in no method. -/
def step [DecidableEq T] (ob : Object C F O E) (s : State T C F) :
    Action T O E → Option (State T C F)
  | .run t o =>
    match s.calls t with
    | [] => none
    | f::rest => (ob.exec s.core o f).map fun r => ⟨r.1,Function.update s.calls t (r.2++rest)⟩
  | .enter t e =>
    match s.calls t with
    | [] => (ob.enter s.core e).map fun r => ⟨r.1,Function.update s.calls t r.2⟩
    | _ => none

variable [Fintype T]

/-- The frames of all threads together. -/
def pending (calls : T → List F) : Multiset F := ∑ t, (calls t : Multiset F)

theorem mem_pending {calls : T → List F} {f : F} : f∈pending calls ↔ ∃ t, f∈calls t := by
  simp [pending,Multiset.mem_sum]

theorem pending_init (core : C) : pending (State.init core : State T C F).calls=0 := by
  simp [pending,State.init]

/-- What the frames carry together. -/
def gather {M : Type*} [AddCommMonoid M] (w : F → M) (m : Multiset F) : M := (m.map w).sum

section Gather

variable {M : Type*} [AddCommMonoid M] (w : F → M)

@[simp] theorem gather_cons (f : F) (m : Multiset F) : gather w (f::ₘm)=w f+gather w m := by
  simp [gather]

@[simp] theorem gather_add (fs : List F) (m : Multiset F) :
    gather w (fs+m)=(fs.map w).sum+gather w m := by
  simp [gather]

end Gather

/-- How much the frames weigh together. -/
def weight (w : F → Nat) (m : Multiset F) : Nat := (m.map w).sum

@[simp] theorem weight_zero (w : F → Nat) : weight w 0=0 := rfl

@[simp] theorem weight_cons (w : F → Nat) (f : F) (m : Multiset F) :
    weight w (f::ₘm)=w f+weight w m := by
  simp [weight]

/-- How much the frames of a list weigh together. -/
def total (w : F → Nat) (fs : List F) : Nat := (fs.map w).sum

@[simp] theorem total_nil (w : F → Nat) : total w []=0 := rfl

@[simp] theorem total_cons (w : F → Nat) (f : F) (fs : List F) : total w (f::fs)=w f+total w fs := by
  simp [total]

@[simp] theorem total_append (w : F → Nat) (fs gs : List F) :
    total w (fs++gs)=total w fs+total w gs := by
  simp [total]

@[simp] theorem weight_add (w : F → Nat) (fs : List F) (m : Multiset F) :
    weight w (fs+m)=total w fs+weight w m := by
  simp [weight,total]

theorem le_weight {w : F → Nat} {f : F} {m : Multiset F} (h : f∈m) : w f ≤ weight w m := by
  obtain ⟨m',rfl⟩ := Multiset.exists_cons_of_mem h
  rw [weight_cons]
  exact Nat.le_add_right _ _

theorem weight_eq_zero {w : F → Nat} {m : Multiset F} (h : ∀ f∈m, w f=0) : weight w m=0 := by
  apply Multiset.sum_eq_zero
  intro n hn
  obtain ⟨f,hf,rfl⟩ := Multiset.mem_map.mp hn
  exact h f hf

theorem weight_mono {w w' : F → Nat} (h : ∀ f, w f ≤ w' f) (m : Multiset F) :
    weight w m ≤ weight w' m :=
  Multiset.sum_map_le_sum_map w w' fun f _ => h f

theorem weight_pending (w : F → Nat) (calls : T → List F) :
    weight w (pending calls)=∑ t, ((calls t).map w).sum := by
  simp only [weight,pending]
  rw [← Multiset.coe_mapAddMonoidHom,map_sum,← Multiset.coe_sumAddMonoidHom,map_sum]
  rfl

variable [DecidableEq T]

theorem pending_update (calls : T → List F) (t : T) (stack : List F) :
    pending (Function.update calls t stack)+calls t=pending calls+stack :=
  sum_update (fun l : List F => (l : Multiset F)) calls t stack

/-- The innermost frame of a thread is replaced. -/
theorem pending_run {calls : T → List F} {t : T} {f : F} {rest : List F} (h : calls t=f::rest) :
    ∃ m, pending calls=f::ₘm ∧ ∀ fs, pending (Function.update calls t (fs++rest))=fs+m := by
  have hmem : f∈pending calls := mem_pending.mpr ⟨t,by rw [h]; exact List.mem_cons_self⟩
  obtain ⟨m,hm⟩ := Multiset.exists_cons_of_mem hmem
  refine ⟨m,hm,fun fs => ?_⟩
  have hu := pending_update calls t (fs++rest)
  rw [h,hm,← Multiset.coe_add,← Multiset.cons_coe,Multiset.add_cons,Multiset.cons_add,
    Multiset.cons_inj_right,← add_assoc] at hu
  exact (add_right_cancel hu).trans (add_comm m fs)

/-- A thread gets further frames. -/
theorem pending_call (calls : T → List F) (t : T) (fs : List F) :
    pending (Function.update calls t (fs++calls t))=fs+pending calls := by
  have hu := pending_update calls t (fs++calls t)
  rw [← Multiset.coe_add,← add_assoc] at hu
  exact (add_right_cancel hu).trans (add_comm _ _)

/-- What one step of the pool means for the fields and the frames, whichever thread takes it. -/
theorem step_cases {ob : Object C F O E} {s s' : State T C F} {a : Action T O E}
    (h : step ob s a=some s') :
    (∃ t o f fs m, a=.run t o ∧ (s.calls t).head?=some f ∧ ob.exec s.core o f=some (s'.core,fs) ∧
      pending s.calls=f::ₘm ∧ pending s'.calls=fs+m) ∨
    ∃ t e fs, a=.enter t e ∧ ob.enter s.core e=some (s'.core,fs) ∧
      pending s'.calls=fs+pending s.calls := by
  cases a with
  | run t o =>
    left
    simp only [step] at h
    split at h
    · cases h
    · rename_i f rest hcalls
      obtain ⟨⟨c,fs⟩,hx,hs⟩ := Option.map_eq_some_iff.mp h
      cases hs
      obtain ⟨m,hm,hnext⟩ := pending_run hcalls
      exact ⟨t,o,f,fs,m,rfl,by rw [hcalls]; rfl,hx,hm,hnext fs⟩
  | enter t e =>
    right
    simp only [step] at h
    split at h
    · rename_i hcalls
      obtain ⟨⟨c,fs⟩,hx,hs⟩ := Option.map_eq_some_iff.mp h
      cases hs
      have hnext := pending_call s.calls t fs
      rw [hcalls,List.append_nil] at hnext
      exact ⟨t,e,fs,rfl,hx,hnext⟩
    · cases h

/-- What holds of the new object and is kept by every method step and every call holds of every
state of the pool. -/
theorem reaches_invariant {ob : Object C F O E} {ok : State T C F → Action T O E → Prop} {core : C}
    {s : State T C F} {I : C → Multiset F → Prop} (h : Reaches (step ob) ok (State.init core) s)
    (h0 : I core 0)
    (hexec : ∀ c o f m c' fs, I c (f::ₘm) → ob.exec c o f=some (c',fs) → I c' (fs+m))
    (henter : ∀ c e m c' fs, I c m → ob.enter c e=some (c',fs) → I c' (fs+m)) :
    I s.core (pending s.calls) := by
  refine h.invariant (P:=fun s => I s.core (pending s.calls)) ?_ ?_
  · rw [pending_init]
    exact h0
  · intro s a s' hI _ hs
    rcases step_cases hs with ⟨t,o,f,fs,m,-,-,hx,hm,hm'⟩|⟨t,e,fs,-,hx,hm'⟩
    · rw [hm] at hI
      rw [hm']
      exact hexec _ o f m _ fs hI hx
    · rw [hm']
      exact henter _ e _ _ fs hI hx

end IocpServer.Pool
