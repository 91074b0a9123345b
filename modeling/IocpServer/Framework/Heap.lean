import Mathlib.Algebra.Order.Group.Multiset
import Mathlib.Data.Multiset.Filter

namespace IocpServer.Heap

variable {α : Type*} {lt : α → α → Prop}

/-- What a max-heap for `lt` has on top: an element that is less than none. -/
def IsTop (lt : α → α → Prop) (items : Multiset α) (x : α) : Prop := x∈items ∧ ∀ y∈items, ¬lt x y

instance [DecidableEq α] [DecidableRel lt] (items : Multiset α) (x : α) :
    Decidable (IsTop lt items x) :=
  inferInstanceAs (Decidable (_ ∧ _))

/-- A loop that pops the top as long as it is due: it has popped `xs` of `before` and left `items`. -/
structure Draining (lt : α → α → Prop) (due : α → Prop) (before : Multiset α) (xs : List α)
    (items : Multiset α) : Prop where
  split : before=items+(xs : Multiset α)
  due : ∀ x∈xs, due x
  sorted : xs.Pairwise fun x y => ¬lt x y
  top : ∀ x∈xs, ∀ y∈items, ¬lt x y

variable {due : α → Prop} {before items : Multiset α} {xs : List α}

theorem Draining.start (items : Multiset α) : Draining lt due items [] items :=
  ⟨(add_zero items).symm,nofun,List.Pairwise.nil,nofun⟩

theorem Draining.pop [DecidableEq α] (h : Draining lt due before xs items) {x : α}
    (htop : IsTop lt items x) (hdue : due x) :
    Draining lt due before (xs++[x]) (items.erase x) := by
  refine ⟨?_,?_,?_,?_⟩
  · have hx : items=items.erase x+{x} := by
      rw [add_comm,Multiset.singleton_add,Multiset.cons_erase htop.1]
    rw [h.split,← Multiset.coe_add,Multiset.coe_singleton,add_comm (xs : Multiset α),← add_assoc,
      ← hx]
  · intro y hy
    rcases List.mem_append.mp hy with hy|hy
    · exact h.due y hy
    · exact List.mem_singleton.mp hy ▸ hdue
  · refine List.pairwise_append.mpr ⟨h.sorted,List.pairwise_singleton _ _,?_⟩
    intro y hy z hz
    exact List.mem_singleton.mp hz ▸ h.top y hy x htop.1
  · intro y hy z hz
    have hz' := Multiset.mem_of_mem_erase hz
    rcases List.mem_append.mp hy with hy|hy
    · exact h.top y hy z hz'
    · exact List.mem_singleton.mp hy ▸ htop.2 z hz'

/-- When nothing that is left is due, exactly what was due is popped. -/
theorem Draining.finish [DecidablePred due] (h : Draining lt due before xs items)
    (hrest : ∀ y∈items, ¬due y) :
    (xs : Multiset α)=before.filter due ∧ items=before.filter fun x => ¬due x := by
  have hxs : ∀ x∈(xs : Multiset α), due x := h.due
  have hno : items.filter due=0 := Multiset.filter_eq_nil.mpr hrest
  have hall : (xs : Multiset α).filter due=xs := Multiset.filter_eq_self.mpr hxs
  have hkeep : items.filter (fun x => ¬due x)=items := Multiset.filter_eq_self.mpr hrest
  have hnone : (xs : Multiset α).filter (fun x => ¬due x)=0 :=
    Multiset.filter_eq_nil.mpr fun x hx hnot => hnot (hxs x hx)
  rw [h.split,Multiset.filter_add,Multiset.filter_add,hno,hall,hkeep,hnone,zero_add,add_zero]
  exact ⟨rfl,rfl⟩

end IocpServer.Heap
