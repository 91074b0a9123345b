import Mathlib.Data.Multiset.ZeroCons

namespace IocpServer

/-- Items come to a gate one after the other and pass it or are dropped. While the gate is open, all
that came has passed or waits; a closed gate stays closed, so that what has passed begins what came. -/
structure Gated {α : Type*} (isOpen : Bool) (passed : List α) (waiting : Multiset α) (came : List α) :
    Prop where
  isPrefix : passed<+:came
  known : ∀ a∈waiting, a∈came
  all : isOpen=true → ∃ ws : List α, (ws : Multiset α)=waiting ∧ passed++ws=came

namespace Gated

variable {α : Type*} {isOpen : Bool} {passed came : List α} {waiting : Multiset α} {a : α}

theorem empty (isOpen : Bool) : Gated isOpen ([] : List α) 0 [] :=
  ⟨List.prefix_rfl,nofun,fun _ => ⟨[],rfl,rfl⟩⟩

theorem arrive (h : Gated isOpen passed 0 came) (a : α) : Gated isOpen passed {a} (came++[a]) := by
  refine ⟨h.isPrefix.trans (List.prefix_append _ _),?_,fun ho => ⟨[a],rfl,?_⟩⟩
  · intro b hb
    rw [Multiset.mem_singleton.mp hb]
    exact List.mem_append_right _ List.mem_cons_self
  · obtain ⟨ws,hws,hcame⟩ := h.all ho
    have hnil : ws=[] := Multiset.coe_eq_zero ws |>.mp hws
    rw [← hcame,hnil,List.append_nil]

theorem pass (h : Gated isOpen passed {a} came) (ho : isOpen=true) :
    Gated isOpen (passed++[a]) 0 came := by
  obtain ⟨ws,hws,hcame⟩ := h.all ho
  have hone : ws=[a] := Multiset.coe_eq_singleton.mp hws
  rw [← hcame,hone]
  exact ⟨List.prefix_rfl,nofun,fun _ => ⟨[],rfl,List.append_nil _⟩⟩

theorem close (h : Gated isOpen passed waiting came) : Gated false passed waiting came :=
  ⟨h.isPrefix,h.known,nofun⟩

/-- A closed gate lets what came go. -/
theorem drop (h : Gated isOpen passed waiting came) (ho : isOpen=false) :
    Gated isOpen passed 0 came :=
  ⟨h.isPrefix,nofun,fun h => absurd (ho.symm.trans h) nofun⟩

/-- Before anything has come the gate may be opened. -/
theorem reopen (h : Gated isOpen passed waiting []) (isOpen' : Bool) :
    Gated isOpen' passed waiting [] := by
  have hw : waiting=0 := Multiset.eq_zero_of_forall_notMem fun a ha => nomatch h.known a ha
  rw [List.prefix_nil.mp h.isPrefix,hw]
  exact empty isOpen'

end Gated

end IocpServer
