import Mathlib.Data.List.Destutter

/-!
# Readings of a value that changes

Whoever reads a value again and again, and takes note whenever it is not what it
was before, has the list of its readings without the repetitions.  No value is
noted twice exactly when none comes back after another one.
-/

namespace Data

variable {α : Type*}

/-- A value that has been read before is the one that was read last. -/
def NeverBack (xs : List α) : Prop :=
  ∀ pre x post, xs = pre ++ x :: post → x ∈ pre → pre.getLast? = some x

theorem neverBack_nil : NeverBack ([] : List α) := by
  intro pre x post h
  simp at h

theorem neverBack_snoc {xs : List α} {x : α} :
    NeverBack (xs ++ [x]) ↔ NeverBack xs ∧ (x ∈ xs → xs.getLast? = some x) := by
  constructor
  · intro h
    refine ⟨?_, h xs x [] rfl⟩
    rintro pre y post rfl
    exact h pre y (post ++ [x]) (by simp)
  · rintro ⟨hold, hlast⟩ pre y post heq
    rcases List.eq_nil_or_concat post with rfl | ⟨post, z, rfl⟩
    · obtain ⟨rfl, hx⟩ := List.append_inj' heq rfl
      obtain rfl := (List.cons.inj hx).1
      exact hlast
    · have hsplit : xs ++ [x] = (pre ++ y :: post) ++ [z] := by simpa using heq
      exact hold pre y post (List.append_inj' hsplit rfl).1

variable [DecidableEq α]

theorem destutter'_snoc (a x : α) (xs : List α) :
    (xs ++ [x]).destutter' (· ≠ ·) a =
      if (a :: xs).getLast? = some x then xs.destutter' (· ≠ ·) a
      else xs.destutter' (· ≠ ·) a ++ [x] := by
  induction xs generalizing a with
  | nil =>
      by_cases h : a = x
      · simp [h]
      · simp [h]
  | cons b xs ih =>
      rw [List.cons_append, List.getLast?_cons_cons]
      by_cases h : a = b
      · subst h
        rw [List.destutter'_cons_neg _ (not_not_intro rfl),
          List.destutter'_cons_neg _ (not_not_intro rfl)]
        exact ih a
      · rw [List.destutter'_cons_pos _ h, List.destutter'_cons_pos _ h, ih b]
        split_ifs <;> rfl

theorem destutter_snoc (xs : List α) (x : α) :
    (xs ++ [x]).destutter (· ≠ ·) =
      if xs.getLast? = some x then xs.destutter (· ≠ ·) else xs.destutter (· ≠ ·) ++ [x] := by
  cases xs with
  | nil => rfl
  | cons a xs => exact destutter'_snoc a x xs

theorem getLast?_destutter (xs : List α) : (xs.destutter (· ≠ ·)).getLast? = xs.getLast? := by
  induction xs using List.reverseRecOn with
  | nil => rfl
  | append_singleton xs x ih =>
      rw [destutter_snoc, List.getLast?_concat]
      split_ifs with hlast
      · rw [ih, hlast]
      · rw [List.getLast?_concat]

theorem mem_destutter {xs : List α} {x : α} : x ∈ xs.destutter (· ≠ ·) ↔ x ∈ xs := by
  induction xs using List.reverseRecOn with
  | nil => rfl
  | append_singleton xs y ih =>
      rw [destutter_snoc, List.mem_append, List.mem_singleton]
      split_ifs with hlast
      · rw [ih]
        refine ⟨.inl, fun h ↦ h.elim id ?_⟩
        rintro rfl
        exact List.mem_of_getLast? hlast
      · rw [List.mem_append, List.mem_singleton, ih]

/-- Nothing is noted twice exactly when nothing comes back. -/
theorem nodup_destutter_iff {xs : List α} : (xs.destutter (· ≠ ·)).Nodup ↔ NeverBack xs := by
  induction xs using List.reverseRecOn with
  | nil => simp [neverBack_nil]
  | append_singleton xs x ih =>
      rw [neverBack_snoc, destutter_snoc]
      split_ifs with hlast
      · rw [ih]
        exact (and_iff_left fun _ ↦ hlast).symm
      · rw [← List.concat_eq_append, List.nodup_concat, ih, mem_destutter, and_comm]
        apply and_congr_right
        intro _
        exact ⟨fun hnew hmem ↦ absurd hmem hnew, fun hback hmem ↦ hlast (hback hmem)⟩

end Data
