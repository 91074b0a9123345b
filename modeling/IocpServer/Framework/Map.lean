import Mathlib.Data.List.AList

namespace IocpServer

/-- A finite map with at most one entry per key. -/
abbrev Map (α β : Type) := AList fun _ : α => β

namespace Map

variable {α β : Type} [DecidableEq α]

def isEmpty (m : Map α β) : Bool := m.entries.isEmpty

def size (m : Map α β) : Nat := m.keys.length

omit [DecidableEq α] in
theorem not_mem_of_isEmpty {m : Map α β} (h : m.isEmpty) (a : α) : a∉m := by
  have he : m.entries=[] := List.isEmpty_iff.mp h
  simp [AList.mem_keys,AList.keys,he]

theorem size_insert {m : Map α β} {a : α} (h : a∉m) (b : β) : size (m.insert a b)=size m+1 := by
  rw [size,AList.keys_insert,List.erase_of_not_mem h,List.length_cons,size]

theorem size_erase {m : Map α β} {a : α} (h : a∈m) : size (m.erase a)+1=size m := by
  have hpos := List.length_pos_of_mem h
  rw [size,AList.keys_erase,List.length_erase_of_mem h,size]
  omega

theorem lookup_insert_iff {m : Map α β} {a k : α} {b v : β} :
    (m.insert a b).lookup k=some v ↔ (k=a ∧ v=b) ∨ (k≠a ∧ m.lookup k=some v) := by
  by_cases he : k=a
  · subst he
    simp [AList.lookup_insert,eq_comm]
  · simp [AList.lookup_insert_ne he,he]

theorem lookup_erase_iff {m : Map α β} {a k : α} {v : β} :
    (m.erase a).lookup k=some v ↔ k≠a ∧ m.lookup k=some v := by
  by_cases he : k=a
  · subst he
    simp
  · simp [AList.lookup_erase_ne he,he]

/-- Erases the entry of a key if it has this value. -/
def eraseIf [DecidableEq β] (m : Map α β) (a : α) (b : β) : Map α β :=
  if m.lookup a=some b then m.erase a else m

theorem lookup_eraseIf_iff [DecidableEq β] {m : Map α β} {a k : α} {b v : β} :
    (m.eraseIf a b).lookup k=some v ↔ m.lookup k=some v ∧ ¬(k=a ∧ v=b) := by
  unfold eraseIf
  split
  · rename_i hb
    rw [lookup_erase_iff]
    constructor
    · rintro ⟨hne,hv⟩
      exact ⟨hv,fun h => hne h.1⟩
    · rintro ⟨hv,hno⟩
      refine ⟨?_,hv⟩
      rintro rfl
      rw [hb] at hv
      exact hno ⟨rfl,(Option.some.inj hv).symm⟩
  · rename_i hb
    constructor
    · intro hv
      refine ⟨hv,?_⟩
      rintro ⟨rfl,rfl⟩
      exact hb hv
    · exact fun h => h.1

/-- The values in the order of their entries. -/
def values (m : Map α β) : List β := m.entries.map Sigma.snd

theorem mem_values {m : Map α β} {b : β} : b∈m.values ↔ ∃ a, m.lookup a=some b := by
  constructor
  · intro h
    obtain ⟨⟨a,v⟩,hmem,rfl⟩ := List.mem_map.mp h
    exact ⟨a,AList.mem_lookup_iff.mpr hmem⟩
  · rintro ⟨a,ha⟩
    exact List.mem_map.mpr ⟨⟨a,b⟩,AList.mem_lookup_iff.mp ha,rfl⟩

/-- A map with at most one key per value lists every value once. -/
theorem nodup_values {m : Map α β}
    (h : ∀ a a' b, m.lookup a=some b → m.lookup a'=some b → a=a') : m.values.Nodup := by
  apply List.Nodup.map_on
  · rintro ⟨a,b⟩ ha ⟨a',b'⟩ ha' heq
    cases heq
    cases h a a' b (AList.mem_lookup_iff.mpr ha) (AList.mem_lookup_iff.mpr ha')
    rfl
  · exact List.NodupKeys.nodup m.nodupKeys

end Map

end IocpServer
