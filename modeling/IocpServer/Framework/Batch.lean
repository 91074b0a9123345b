import Mathlib.Algebra.GroupWithZero.Nat
import Mathlib.Data.List.Basic

namespace IocpServer.Batch

variable {α : Type*}

/-- A position in a list of chunks: `index` chunks and `offset` elements of the next are done. -/
def InBounds (chunks : List (List α)) (index offset : Nat) : Prop :=
  index ≤ chunks.length ∧ offset ≤ (chunks[index]?.getD []).length

/-- What is left of every chunk from the position on. -/
def views (chunks : List (List α)) (index offset : Nat) : List (List α) :=
  match chunks.drop index with
  | [] => []
  | c::cs => c.drop offset::cs

def rest (chunks : List (List α)) (index offset : Nat) : List α := (views chunks index offset).flatten

/-- Moves the position `n` elements on; the first argument is the list of chunks from `index` on.
`none` is the read of a chunk behind the last one. -/
def skip : List (List α) → Nat → Nat → Nat → Option (Nat×Nat)
  | _,index,offset,0 => some (index,offset)
  | [],_,_,_+1 => none
  | c::cs,index,offset,n+1 =>
    if n+1<c.length-offset then some (index,offset+(n+1))
    else skip cs (index+1) 0 (n+1-(c.length-offset))

theorem inBounds_zero (chunks : List (List α)) : InBounds chunks 0 0 := ⟨Nat.zero_le _,Nat.zero_le _⟩

theorem InBounds.append {chunks : List (List α)} {index offset : Nat}
    (h : InBounds chunks index offset) (new : List (List α)) :
    InBounds (chunks++new) index offset := by
  obtain ⟨hi,ho⟩ := h
  refine ⟨by simp; omega,?_⟩
  by_cases hlt : index<chunks.length
  · rwa [List.getElem?_append_left hlt]
  · have hz : offset=0 := by simpa [List.getElem?_eq_none (Nat.le_of_not_lt hlt)] using ho
    omega

/-- A position behind the last chunk has nothing left of the old chunks. -/
theorem rest_append_of_done {chunks : List (List α)} {index offset : Nat}
    (h : InBounds chunks index offset) (hd : ¬index<chunks.length) (new : List (List α)) :
    rest (chunks++new) index offset=new.flatten := by
  obtain ⟨hi,ho⟩ := h
  have he : index=chunks.length := by omega
  have hz : offset=0 := by simpa [List.getElem?_eq_none (Nat.le_of_not_lt hd)] using ho
  subst he hz
  cases new <;> simp [rest,views]

theorem rest_of_done {chunks : List (List α)} {index offset : Nat} (hd : ¬index<chunks.length) :
    rest chunks index offset=[] := by
  simp [rest,views,List.drop_eq_nil_of_le (Nat.le_of_not_lt hd)]

theorem rest_eq_drop {chunks : List (List α)} {index offset : Nat} (h : InBounds chunks index offset) :
    rest chunks index offset=(chunks.drop index).flatten.drop offset := by
  obtain ⟨hi,ho⟩ := h
  unfold rest views
  cases hd : chunks.drop index with
  | nil => simp
  | cons c cs =>
    have hc : chunks[index]?=some c := by
      rw [← List.head?_drop,hd,List.head?_cons]
    rw [hc,Option.getD_some] at ho
    simp [List.drop_append_of_le_length ho]

theorem rest_length {chunks : List (List α)} {index offset : Nat} (h : InBounds chunks index offset) :
    (rest chunks index offset).length=((chunks.drop index).map List.length).sum-offset := by
  rw [rest_eq_drop h,List.length_drop,List.length_flatten]

/-- Skipping at most what is left stays in bounds and drops exactly the skipped elements. -/
theorem skip_spec (chunks : List (List α)) (index offset n : Nat) (h : InBounds chunks index offset)
    (hn : n ≤ (rest chunks index offset).length) :
    ∃ i o, skip (chunks.drop index) index offset n=some (i,o) ∧ InBounds chunks i o ∧
      rest chunks i o=(rest chunks index offset).drop n := by
  generalize hd : chunks.drop index=cs
  induction cs generalizing index offset n with
  | nil =>
    have hr : rest chunks index offset=[] := by simp [rest,views,hd]
    have hz : n=0 := by simpa [hr] using hn
    subst hz
    exact ⟨index,offset,rfl,h,by simp⟩
  | cons c cs ih =>
    have hlt : index<chunks.length := by
      by_contra hge
      simp [List.drop_eq_nil_of_le (Nat.le_of_not_lt hge)] at hd
    have hc : chunks[index]?=some c := by rw [← List.head?_drop,hd,List.head?_cons]
    have ho : offset ≤ c.length := by simpa [hc] using h.2
    have hr : rest chunks index offset=c.drop offset++cs.flatten := by simp [rest,views,hd]
    cases n with
    | zero => exact ⟨index,offset,rfl,h,by simp⟩
    | succ n =>
      by_cases hs : n+1<c.length-offset
      · refine ⟨index,offset+(n+1),if_pos hs,⟨h.1,?_⟩,?_⟩
        · simp only [hc,Option.getD_some]
          omega
        · have hr' : rest chunks index (offset+(n+1))=c.drop (offset+(n+1))++cs.flatten := by
            simp [rest,views,hd]
          rw [hr',hr,List.drop_append_of_le_length (by simp; omega),List.drop_drop]
      · have hnext : chunks.drop (index+1)=cs := by
          rw [← List.tail_drop,hd,List.tail_cons]
        have hb : InBounds chunks (index+1) 0 := ⟨hlt,Nat.zero_le _⟩
        have hr0 : rest chunks (index+1) 0=cs.flatten := by
          rw [rest_eq_drop hb,hnext,List.drop_zero]
        have hle : n+1-(c.length-offset) ≤ (rest chunks (index+1) 0).length := by
          rw [hr,List.length_append,List.length_drop] at hn
          rw [hr0]
          omega
        obtain ⟨i,o,hskip,hin,hrest⟩ := ih (index+1) 0 _ hb hle hnext
        refine ⟨i,o,by rw [skip,if_neg hs,hskip],hin,?_⟩
        rw [hrest,hr0,hr,List.drop_append,List.length_drop]
        simp only [List.drop_drop,List.self_eq_append_left,List.drop_eq_nil_iff]
        omega

theorem skip_inBounds {chunks : List (List α)} {index offset n i o : Nat}
    (h : InBounds chunks index offset) (hn : n ≤ (rest chunks index offset).length)
    (hs : skip (chunks.drop index) index offset n=some (i,o)) : InBounds chunks i o := by
  obtain ⟨i',o',hs',hin,-⟩ := skip_spec chunks index offset n h hn
  rw [hs] at hs'
  cases hs'
  exact hin

/-- Within one chunk the position moves on, or behind the chunk when that is done. -/
theorem skip_singleton {c : List α} {offset n : Nat} (hpos : 0<n) (hn : n ≤ c.length-offset) :
    skip [c] 0 offset n=some (if n<c.length-offset then (0,offset+n) else (1,0)) := by
  obtain ⟨n,rfl⟩ := Nat.exists_eq_add_of_lt hpos
  simp only [Nat.zero_add] at hn ⊢
  unfold skip
  split
  · rfl
  · have hz : n+1-(c.length-offset)=0 := by omega
    rw [hz]
    rfl

/-- The position stands before an element of its chunk, or behind the last chunk. -/
def Inside (chunks : List (List α)) (index offset : Nat) : Prop :=
  ∀ c, chunks[index]?=some c → offset<c.length

theorem inside_start {chunks : List (List α)} (hne : ∀ c∈chunks, c≠[]) (index : Nat) :
    Inside chunks index 0 :=
  fun c hc => List.length_pos_iff.mpr (hne c (List.mem_of_getElem? hc))

/-- More chunks keep the position; one behind the last chunk now stands at the first new one. -/
theorem Inside.append {chunks : List (List α)} {index offset : Nat}
    (h : Inside chunks index offset) (hb : InBounds chunks index offset) {new : List (List α)}
    (hne : ∀ c∈new, c≠[]) : Inside (chunks++new) index offset := by
  intro c hc
  by_cases hlt : index<chunks.length
  · rw [List.getElem?_append_left hlt] at hc
    exact h c hc
  · have hz : offset=0 := by
      simpa [List.getElem?_eq_none (Nat.le_of_not_lt hlt)] using hb.2
    rw [List.getElem?_append_right (Nat.le_of_not_lt hlt)] at hc
    subst hz
    exact List.length_pos_iff.mpr (hne c (List.mem_of_getElem? hc))

/-- A position before an element has that element left. -/
theorem rest_eq_nil_iff {chunks : List (List α)} {index offset : Nat}
    (h : Inside chunks index offset) :
    rest chunks index offset=[] ↔ chunks.length ≤ index := by
  constructor
  · intro hr
    by_contra hlt
    have hc := List.getElem?_eq_getElem (Nat.lt_of_not_le hlt)
    have ho := h _ hc
    have hd : (chunks.drop index)=chunks[index]::chunks.drop (index+1) :=
      List.drop_eq_getElem_cons (Nat.lt_of_not_le hlt)
    simp only [rest,views,hd,List.flatten_cons,List.append_eq_nil_iff,List.drop_eq_nil_iff] at hr
    omega
  · intro hge
    exact rest_of_done (Nat.not_lt.mpr hge)

theorem skip_inside (chunks : List (List α)) (hne : ∀ c∈chunks, c≠[]) {index offset n i o : Nat}
    (h : Inside chunks index offset)
    (hs : skip (chunks.drop index) index offset n=some (i,o)) : Inside chunks i o := by
  generalize hd : chunks.drop index=cs at hs
  induction cs generalizing index offset n with
  | nil =>
    cases n with
    | zero =>
      cases hs
      exact h
    | succ n => cases hs
  | cons c cs ih =>
    cases n with
    | zero =>
      cases hs
      exact h
    | succ n =>
      have hc : chunks[index]?=some c := by rw [← List.head?_drop,hd,List.head?_cons]
      have hnext : chunks.drop (index+1)=cs := by rw [← List.tail_drop,hd,List.tail_cons]
      simp only [skip] at hs
      split at hs
      · rename_i hlt
        cases hs
        intro c' hc'
        rw [hc] at hc'
        cases hc'
        omega
      · exact ih (inside_start hne (index+1)) hnext hs

end IocpServer.Batch
