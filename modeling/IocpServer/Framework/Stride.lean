import Mathlib.Data.List.Nodup
import Mathlib.Data.List.Perm.Subperm
import Mathlib.Data.List.Range

namespace IocpServer.Stride

variable {k i n x : Nat} {l : List Nat}

/-- A worker that starts at `i` and goes on in steps of `k` has met exactly its numbers below `n` and
before `x`, each once. -/
structure Covers (k i n x : Nat) (l : List Nat) : Prop where
  nodup : l.Nodup
  mem : ∀ j, j∈l ↔ j<n ∧ j<x ∧ j%k=i

theorem Covers.start (hi : i<k) (n : Nat) : Covers k i n i [] := by
  refine ⟨List.nodup_nil,fun j => ⟨fun hj => absurd hj List.not_mem_nil,?_⟩⟩
  rintro ⟨-,hlt,hmod⟩
  rw [Nat.mod_eq_of_lt (hlt.trans hi)] at hmod
  omega

/-- The next number with the same residue is one stride away. -/
theorem eq_of_mod_eq {j : Nat} (hmod : j%k=x%k) (hle : x ≤ j) (hlt : j<x+k) : j=x := by
  have hzero : (j-x)%k=0 := Nat.sub_mod_eq_zero_of_mod_eq hmod
  rw [Nat.mod_eq_of_lt (by omega)] at hzero
  omega

theorem Covers.visit (h : Covers k i n x l) (hx : x%k=i) (hlt : x<n) (hk : 0<k) :
    Covers k i n (x+k) (l++[x]) := by
  constructor
  · apply List.nodup_append.mpr
    refine ⟨h.nodup,List.nodup_singleton x,?_⟩
    intro a ha b hb
    have hbefore := (h.mem a).mp ha
    rw [List.mem_singleton.mp hb]
    omega
  · intro j
    rw [List.mem_append,h.mem,List.mem_singleton]
    constructor
    · rintro (⟨hn,hj,hmod⟩|rfl)
      · exact ⟨hn,by omega,hmod⟩
      · exact ⟨hlt,by omega,hx⟩
    · rintro ⟨hn,hj,hmod⟩
      by_cases hlo : j<x
      · exact Or.inl ⟨hn,hlo,hmod⟩
      · exact Or.inr (eq_of_mod_eq (hmod.trans hx.symm) (by omega) hj)

theorem Covers.length_le (h : Covers k i n x l) : l.length ≤ n := by
  have hsub : l ⊆ List.range n := fun j hj => List.mem_range.mpr ((h.mem j).mp hj).1
  have hle := (List.subperm_of_subset h.nodup hsub).length_le
  rwa [List.length_range] at hle

/-- One worker for each residue: together they meet every number below `n` exactly once. -/
theorem perm_range (hk : 0<k) {met : Nat → List Nat}
    (h : ∀ i<k, ∃ x, n ≤ x ∧ Covers k i n x (met i)) :
    ((List.range k).flatMap met).Perm (List.range n) := by
  have hmem : ∀ i<k, ∀ j, j∈met i ↔ j<n ∧ j%k=i := by
    intro i hi j
    obtain ⟨x,hx,hcovers⟩ := h i hi
    rw [hcovers.mem]
    constructor
    · exact fun hj => ⟨hj.1,hj.2.2⟩
    · exact fun hj => ⟨hj.1,by omega,hj.2⟩
  have hnodup : ((List.range k).flatMap met).Nodup := by
    apply List.nodup_flatMap.mpr
    constructor
    · intro i hi
      obtain ⟨x,-,hcovers⟩ := h i (List.mem_range.mp hi)
      exact hcovers.nodup
    · refine List.nodup_range.imp_of_mem ?_
      intro a b ha hb hne j hja hjb
      have hra := ((hmem a (List.mem_range.mp ha) j).mp hja).2
      have hrb := ((hmem b (List.mem_range.mp hb) j).mp hjb).2
      exact hne (hra.symm.trans hrb)
  apply (List.perm_ext_iff_of_nodup hnodup List.nodup_range).mpr
  intro j
  rw [List.mem_flatMap,List.mem_range]
  constructor
  · rintro ⟨i,hi,hj⟩
    exact ((hmem i (List.mem_range.mp hi) j).mp hj).1
  · intro hj
    have hlt := Nat.mod_lt j hk
    exact ⟨j%k,List.mem_range.mpr hlt,(hmem _ hlt j).mpr ⟨hj,rfl⟩⟩

end IocpServer.Stride
