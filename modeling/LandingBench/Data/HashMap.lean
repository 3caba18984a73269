import Mathlib.Data.List.AList
import Mathlib.Tactic.Common

/-!
# Hash maps

A hash map is an association list without repeated keys.  The order of the
list is no property of the map: whoever iterates over one is handed a
permutation of its entries.
-/

namespace Data

abbrev HashMap (κ ν : Type*) := AList fun _ : κ ↦ ν

namespace HashMap

variable {κ ν : Type*} [DecidableEq κ]

/-- The entry of a key, put in first if the key has none. -/
def orInsert (m : HashMap κ ν) (k : κ) (v : ν) : HashMap κ ν :=
  if k ∈ m then m else m.insert k v

/-- The value `orInsert` leaves under the key. -/
def valueOr (m : HashMap κ ν) (k : κ) (v : ν) : ν := (m.lookup k).getD v

/-- Change the entry of a key, from `v` if the key has none. -/
def upsert (m : HashMap κ ν) (k : κ) (v : ν) (f : ν → ν) : HashMap κ ν :=
  m.insert k (f (m.valueOr k v))

def items (m : HashMap κ ν) : List (κ × ν) := m.entries.map fun e ↦ (e.1, e.2)

theorem lookup_orInsert (m : HashMap κ ν) (k : κ) (v : ν) (k' : κ) :
    (m.orInsert k v).lookup k' = if k' = k then some (m.valueOr k v) else m.lookup k' := by
  unfold orInsert valueOr
  split_ifs with hmem heq heq
  · subst heq
    obtain ⟨w, hw⟩ := Option.isSome_iff_exists.mp (AList.lookup_isSome.mpr hmem)
    simp [hw]
  · rfl
  · subst heq
    simp [AList.lookup_eq_none.mpr hmem]
  · exact AList.lookup_insert_ne heq

/-- An entry is the one just inserted, or was there before under another key. -/
theorem eq_or_of_lookup_insert {m : HashMap κ ν} {k k' : κ} {v v' : ν}
    (h : (m.insert k v).lookup k' = some v') :
    (k' = k ∧ v = v') ∨ (k' ≠ k ∧ m.lookup k' = some v') := by
  rcases eq_or_ne k' k with rfl | hne
  · exact .inl ⟨rfl, by simpa using h⟩
  · exact .inr ⟨hne, (AList.lookup_insert_ne hne).symm.trans h⟩

theorem of_lookup_erase {m : HashMap κ ν} {k k' : κ} {v : ν} (h : (m.erase k).lookup k' = some v) :
    k' ≠ k ∧ m.lookup k' = some v := by
  rcases eq_or_ne k' k with rfl | hne
  · simp at h
  · exact ⟨hne, (AList.lookup_erase_ne hne).symm.trans h⟩

/-- No value stands under two keys. -/
def OneKey (m : HashMap κ ν) : Prop :=
  ∀ k k' v, m.lookup k = some v → m.lookup k' = some v → k = k'

theorem OneKey.insert {m : HashMap κ ν} (h : m.OneKey) (k : κ) {v : ν}
    (hnew : ∀ k', m.lookup k' ≠ some v) : OneKey (m.insert k v) := by
  intro k₁ k₂ v' h₁ h₂
  rcases eq_or_of_lookup_insert h₁ with ⟨rfl, rfl⟩ | ⟨-, h₁⟩
  · rcases eq_or_of_lookup_insert h₂ with ⟨rfl, -⟩ | ⟨-, h₂⟩
    · rfl
    · exact absurd h₂ (hnew k₂)
  · rcases eq_or_of_lookup_insert h₂ with ⟨-, rfl⟩ | ⟨-, h₂⟩
    · exact absurd h₁ (hnew k₁)
    · exact h k₁ k₂ v' h₁ h₂

theorem OneKey.erase {m : HashMap κ ν} (h : m.OneKey) (k : κ) : OneKey (m.erase k) :=
  fun k₁ k₂ v h₁ h₂ ↦ h k₁ k₂ v (of_lookup_erase h₁).2 (of_lookup_erase h₂).2

theorem lookup_upsert (m : HashMap κ ν) (k : κ) (v : ν) (f : ν → ν) (k' : κ) :
    (m.upsert k v f).lookup k' =
      if k' = k then some (f (m.valueOr k v)) else m.lookup k' := by
  unfold upsert
  split_ifs with heq
  · subst heq
    exact AList.lookup_insert m
  · exact AList.lookup_insert_ne heq

theorem mem_items {m : HashMap κ ν} {k : κ} {v : ν} :
    (k, v) ∈ m.items ↔ m.lookup k = some v := by
  rw [← Option.mem_def, AList.mem_lookup_iff]
  constructor
  · intro h
    obtain ⟨⟨k', v'⟩, hmem, heq⟩ := List.mem_map.mp h
    obtain ⟨rfl, rfl⟩ := Prod.mk.inj heq
    exact hmem
  · intro h
    exact List.mem_map.mpr ⟨⟨k, v⟩, h, rfl⟩

omit [DecidableEq κ] in
theorem map_fst_items (m : HashMap κ ν) : m.items.map Prod.fst = m.keys := by
  simp [items, AList.keys, List.keys, Function.comp_def]

omit [DecidableEq κ] in
theorem nodup_map_fst_items (m : HashMap κ ν) : (m.items.map Prod.fst).Nodup := by
  rw [map_fst_items]
  exact m.keys_nodup

end HashMap
end Data
