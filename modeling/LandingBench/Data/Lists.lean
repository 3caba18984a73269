import Mathlib.Data.List.Basic
import Mathlib.Data.List.Infix
import Mathlib.Algebra.BigOperators.Group.List.Basic
import Mathlib.Algebra.GroupWithZero.Nat
import Mathlib.Data.List.Nodup
import Mathlib.Tactic.Common

/-!
# Places in a list

Facts about where an element stands in a list that grows at its end.
-/

namespace Data.Lists

variable {α β : Type*}

/-- An element of a list with one more at its end is that last one, or stands
in the list as it was. -/
theorem snoc_eq_append_cons_iff {xs pre post : List α} {a b : α} :
    xs ++ [a] = pre ++ b :: post ↔
      (post = [] ∧ pre = xs ∧ a = b) ∨ ∃ post', post = post' ++ [a] ∧ xs = pre ++ b :: post' := by
  constructor
  · intro h
    rcases List.eq_nil_or_concat post with rfl | ⟨post, c, rfl⟩
    · obtain ⟨rfl, hlast⟩ := List.append_inj' h rfl
      exact .inl ⟨rfl, rfl, by simpa using hlast⟩
    · have hsplit : xs ++ [a] = (pre ++ b :: post) ++ [c] := by simpa using h
      obtain ⟨rfl, hlast⟩ := List.append_inj' hsplit rfl
      obtain rfl : a = c := by simpa using hlast
      exact .inr ⟨post, by simp, rfl⟩
  · rintro (⟨rfl, rfl, rfl⟩ | ⟨post, rfl, rfl⟩)
    · rfl
    · simp

/-- Where the images of the parts of a list are known, so is that of the list. -/
theorem nodup_filterMap_append_cons {f : α → Option β} {pre post : List α} {a : α} {b : β}
    (h : ((pre ++ a :: post).filterMap f).Nodup) (ha : f a = some b) :
    b ∉ pre.filterMap f ∧ b ∉ post.filterMap f := by
  rw [List.filterMap_append, List.filterMap_cons_some ha] at h
  obtain ⟨-, htail, hdisjoint⟩ := List.nodup_append.mp h
  exact ⟨fun hmem ↦ hdisjoint b hmem b List.mem_cons_self rfl,
    (List.nodup_cons.mp htail).1⟩

theorem sum_indicator [DecidableEq β] (keys : List β) (b : β) :
    (keys.map fun k ↦ if b = k then 1 else 0).sum = keys.count b := by
  induction keys with
  | nil => simp
  | cons k keys ih =>
      rw [List.map_cons, List.sum_cons, ih, List.count_cons]
      by_cases hk : b = k
      · simp [hk, Nat.add_comm]
      · simp [hk, Ne.symm hk]

/-- Counting a list key by key counts all of it, if no key is missing and none
comes twice. -/
theorem sum_length_filter_eq_length [DecidableEq β] {f : α → β} {keys : List β} {xs : List α}
    (hkeys : keys.Nodup) (hcover : ∀ x ∈ xs, f x ∈ keys) :
    (keys.map fun k ↦ (xs.filter (f · = k)).length).sum = xs.length := by
  induction xs with
  | nil => simp
  | cons x xs ih =>
      have hone : (keys.map fun k ↦ if f x = k then 1 else 0).sum = 1 := by
        rw [sum_indicator]
        exact List.count_eq_one_of_mem hkeys (hcover x List.mem_cons_self)
      have hsplit : ∀ k, ((x :: xs).filter (f · = k)).length =
          (if f x = k then 1 else 0) + (xs.filter (f · = k)).length := by
        intro k
        by_cases hk : f x = k
        · simp [hk, Nat.add_comm]
        · simp [hk]
      simp only [hsplit]
      rw [List.sum_map_add, hone, ih fun y hy ↦ hcover y (List.mem_cons_of_mem x hy)]
      simp [Nat.add_comm]

theorem mem_dropLast_or_getLast? {xs : List α} {x : α} (h : x ∈ xs) :
    x ∈ xs.dropLast ∨ xs.getLast? = some x := by
  rcases List.eq_nil_or_concat xs with rfl | ⟨front, last, rfl⟩
  · cases h
  · have hmem : x ∈ front ∨ x = last := by simpa using h
    rcases hmem with hfront | rfl
    · exact .inl (by simpa using hfront)
    · exact .inr (by simp)

/-- Exchanging one element exchanges its share of a sum. -/
theorem sum_map_set (f : α → ℕ) {xs : List α} {i : ℕ} {x : α} (hget : xs[i]? = some x) (y : α) :
    ((xs.set i y).map f).sum + f x = (xs.map f).sum + f y := by
  induction xs generalizing i with
  | nil => simp at hget
  | cons z zs ih =>
      cases i with
      | zero =>
          obtain rfl : z = x := by simpa using hget
          simp only [List.set_cons_zero, List.map_cons, List.sum_cons]
          omega
      | succ i =>
          have hrest := ih (by simpa using hget)
          simp only [List.set_cons_succ, List.map_cons, List.sum_cons]
          omega

theorem count_filterMap [DecidableEq β] (f : α → Option β) (xs : List α) (b : β) :
    (xs.filterMap f).count b = (xs.map fun x ↦ (f x).toList.count b).sum := by
  induction xs with
  | nil => rfl
  | cons x xs ih =>
      rw [List.map_cons, List.sum_cons, ← ih]
      cases hx : f x with
      | none => simp [List.filterMap_cons_none hx]
      | some c => simp [List.filterMap_cons_some hx, List.count_cons, Nat.add_comm]

theorem count_filterMap_set [DecidableEq β] (f : α → Option β) {xs : List α} {i : ℕ} {x : α}
    (hget : xs[i]? = some x) (y : α) (b : β) :
    ((xs.set i y).filterMap f).count b + (f x).toList.count b =
      (xs.filterMap f).count b + (f y).toList.count b := by
  rw [count_filterMap, count_filterMap]
  exact sum_map_set (fun x ↦ (f x).toList.count b) hget y

theorem getElem?_set_eq_some {xs : List α} {i k : ℕ} {x y : α} (h : (xs.set i y)[k]? = some x) :
    (k = i ∧ y = x) ∨ (k ≠ i ∧ xs[k]? = some x) := by
  rcases eq_or_ne k i with rfl | hne
  · rw [List.getElem?_set_self'] at h
    obtain ⟨_, -, rfl⟩ := Option.map_eq_some_iff.mp h
    exact .inl ⟨rfl, rfl⟩
  · rw [List.getElem?_set_ne hne.symm] at h
    exact .inr ⟨hne, h⟩

theorem getElem?_snoc_eq_some {xs : List α} {k : ℕ} {x y : α} (h : (xs ++ [y])[k]? = some x) :
    xs[k]? = some x ∨ (k = xs.length ∧ y = x) := by
  rcases lt_trichotomy k xs.length with hlt | rfl | hgt
  · rw [List.getElem?_append_left hlt] at h
    exact .inl h
  · exact .inr ⟨rfl, by simpa using h⟩
  · have hnone : (xs ++ [y])[k]? = none := by
      apply List.getElem?_eq_none
      rw [List.length_append, List.length_singleton]
      exact hgt
    rw [hnone] at h
    cases h

theorem filterMap_set_of_eq (f : α → Option β) {xs : List α} {i : ℕ} {x : α}
    (hget : xs[i]? = some x) {y : α} (h : f y = f x) :
    (xs.set i y).filterMap f = xs.filterMap f := by
  induction xs generalizing i with
  | nil => rfl
  | cons z zs ih =>
      cases i with
      | zero =>
          obtain rfl : z = x := by simpa using hget
          rw [List.set_cons_zero, List.filterMap_cons, List.filterMap_cons, h]
      | succ i =>
          rw [List.set_cons_succ, List.filterMap_cons, List.filterMap_cons,
            ih (by simpa using hget)]

/-- Exchanging one element exchanges its image. -/
theorem perm_filterMap_set [DecidableEq β] (f : α → Option β) {xs : List α} {i : ℕ} {x : α}
    (hget : xs[i]? = some x) (y : α) :
    ((f x).toList ++ (xs.set i y).filterMap f).Perm ((f y).toList ++ xs.filterMap f) := by
  rw [List.perm_iff_count]
  intro b
  have hcount := count_filterMap_set f hget y b
  rw [List.count_append, List.count_append]
  omega

end Data.Lists
