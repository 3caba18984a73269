import Mathlib.Data.List.DropRight
import Mathlib.Data.List.TakeDrop
import Mathlib.Data.List.TakeWhile
import Mathlib.Tactic.Common

/-!
# Text
-/

namespace Data.Text

def startsWith (s start : String) : Bool := start.toList.isPrefixOf s.toList

/-- Unicode `White_Space`. -/
def isWhitespace (c : Char) : Bool :=
  (9 ≤ c.toNat && c.toNat ≤ 13) || (8192 ≤ c.toNat && c.toNat ≤ 8202) ||
    [32, 133, 160, 5760, 8232, 8233, 8239, 8287, 12288].contains c.toNat

/-- `s.trim().is_empty()`. -/
def isBlank (s : String) : Bool := s.toList.all isWhitespace

def trim (s : String) : String :=
  String.ofList ((s.toList.dropWhile isWhitespace).rdropWhile isWhitespace)

/-- The text before and after the first separator, if there is one. -/
def splitOnce (sep : Char) (s : String) : Option (String × String) :=
  match s.toList.span (· ≠ sep) with
  | (_, []) => none
  | (before, _ :: after) => some (String.ofList before, String.ofList after)

/-! ## Cuts -/

section Cuts

variable {α : Type*} {p : α → Bool} {xs ys : List α}

/-- What follows a place where the cut stops does not matter. -/
theorem takeWhile_append_stop (hys : ∀ y ∈ ys.head?, p y = false) :
    (xs ++ ys).takeWhile p = xs.takeWhile p := by
  induction xs with
  | nil =>
      cases ys with
      | nil => rfl
      | cons y ys => exact List.takeWhile_cons_of_neg (by simp [hys y rfl])
  | cons x xs ih => rw [List.cons_append, List.takeWhile_cons, List.takeWhile_cons, ih]

theorem takeWhile_stop (hxs : ∀ x ∈ xs, p x = true) (hys : ∀ y ∈ ys.head?, p y = false) :
    (xs ++ ys).takeWhile p = xs :=
  (takeWhile_append_stop hys).trans (List.takeWhile_eq_self_iff.mpr hxs)

theorem dropWhile_stop (hxs : ∀ x ∈ xs, p x = true) (hys : ∀ y ∈ ys.head?, p y = false) :
    (xs ++ ys).dropWhile p = ys := by
  rw [List.dropWhile_append_of_pos hxs]
  cases ys with
  | nil => rfl
  | cons y ys => rw [List.dropWhile_cons_of_neg (by simp [hys y rfl])]

theorem rtakeWhile_stop (hxs : ∀ x ∈ xs.getLast?, p x = false) (hys : ∀ y ∈ ys, p y = true) :
    (xs ++ ys).rtakeWhile p = ys := by
  have hstop : ∀ x ∈ xs.reverse.head?, p x = false := by simpa using hxs
  rw [List.rtakeWhile, List.reverse_append, takeWhile_stop (by simpa using hys) hstop,
    List.reverse_reverse]

theorem rdropWhile_append (hxs : ∀ x ∈ xs.getLast?, p x = false) :
    (xs ++ ys).rdropWhile p = xs ++ ys.rdropWhile p := by
  induction ys using List.reverseRecOn with
  | nil =>
      rw [List.append_nil, List.rdropWhile_nil, List.append_nil, List.rdropWhile_eq_self_iff]
      intro hne
      simp [hxs _ (List.getLast?_eq_some_getLast hne)]
  | append_singleton ys y ih =>
      rw [← List.append_assoc]
      by_cases hy : p y = true
      · rw [List.rdropWhile_concat_pos _ _ _ hy, ih, List.rdropWhile_concat_pos _ _ _ hy]
      · rw [List.rdropWhile_concat_neg _ _ _ hy, List.rdropWhile_concat_neg _ _ _ hy,
          List.append_assoc]

/-- A separator that does not begin in the first part stands in the second. -/
theorem infix_of_infix_append {a b : α} {sep : List α} (hb : b ∉ xs)
    (ha : ∀ x ∈ xs.getLast?, x ≠ a) (h : a :: b :: sep <:+: xs ++ ys) : a :: b :: sep <:+: ys := by
  induction xs with
  | nil => exact h
  | cons x xs ih =>
      rw [List.mem_cons, not_or] at hb
      rcases List.infix_cons_iff.mp h with hstarts | hoccurs
      · obtain ⟨rfl, hnext⟩ := List.cons_prefix_cons.mp hstarts
        cases xs with
        | nil => exact absurd rfl (ha a rfl)
        | cons y xs =>
            obtain ⟨rfl, -⟩ := List.cons_prefix_cons.mp hnext
            exact absurd List.mem_cons_self hb.2
      · refine ih hb.2 (fun y hy ↦ ha y ?_) hoccurs
        cases xs with
        | nil => simp at hy
        | cons z xs => rwa [List.getLast?_cons_cons]

end Cuts

/-- The text before the first separator, all of it if there is none. -/
def beforeFirst (sep : Char) (s : String) : String :=
  String.ofList (s.toList.takeWhile (· ≠ sep))

@[simp] theorem toList_beforeFirst (sep : Char) (s : String) :
    (beforeFirst sep s).toList = s.toList.takeWhile (· ≠ sep) :=
  String.toList_ofList

theorem beforeFirst_of_notMem {sep : Char} {s : String} (h : sep ∉ s.toList) :
    beforeFirst sep s = s := by
  have hall : s.toList.takeWhile (· ≠ sep) = s.toList :=
    List.takeWhile_eq_self_iff.mpr fun c hc ↦ by
      simpa using fun hcs : c = sep ↦ h (hcs ▸ hc)
  rw [beforeFirst, hall, String.ofList_toList]

/-- Cutting once and keeping the whole text if there is nothing to cut is the
text before the first separator. -/
theorem splitOnce_getD (sep : Char) (s : String) :
    ((splitOnce sep s).map Prod.fst).getD s = beforeFirst sep s := by
  unfold splitOnce
  rw [List.span_eq_takeWhile_dropWhile]
  cases hdrop : s.toList.dropWhile (· ≠ sep) with
  | nil =>
      have hmem : sep ∉ s.toList := by
        intro h
        have := List.dropWhile_eq_nil_iff.mp hdrop sep h
        simp at this
      simp [beforeFirst_of_notMem hmem]
  | cons c after => simp [beforeFirst]

theorem notMem_beforeFirst (sep : Char) (s : String) :
    sep ∉ (beforeFirst sep s).toList := by
  intro h
  rw [beforeFirst, String.toList_ofList] at h
  have := List.mem_takeWhile_imp h
  simp at this

theorem beforeFirst_append {sep : Char} {s : String} (h : sep ∉ s.toList) (t : String) :
    beforeFirst sep (s ++ String.singleton sep ++ t) = s := by
  have htake : (s ++ String.singleton sep ++ t).toList.takeWhile (· ≠ sep) = s.toList := by
    simp only [String.toList_append, List.append_assoc]
    exact takeWhile_stop (fun c hc ↦ by simpa using fun hcs : c = sep ↦ h (hcs ▸ hc)) (by simp)
  simp only [beforeFirst]
  rw [htake, String.ofList_toList]

/-- The text after the last separator, all of it if there is none. -/
def afterLast (sep : Char) (s : String) : String :=
  String.ofList (s.toList.reverse.takeWhile (· ≠ sep)).reverse

@[simp] theorem toList_afterLast (sep : Char) (s : String) :
    (afterLast sep s).toList = s.toList.rtakeWhile (· ≠ sep) :=
  String.toList_ofList

theorem afterLast_append {sep : Char} {t : String} (h : sep ∉ t.toList) (s : String) :
    afterLast sep (s ++ String.singleton sep ++ t) = t := by
  have htake : (s ++ String.singleton sep ++ t).toList.rtakeWhile (· ≠ sep) = t.toList := by
    simp only [String.toList_append]
    exact rtakeWhile_stop (by simp) fun c hc ↦ by simpa using fun hcs : c = sep ↦ h (hcs ▸ hc)
  exact String.toList_inj.mp ((toList_afterLast sep _).trans htake)

/-- What follows the first occurrence of the separator. -/
def dropPast (sep : List Char) : List Char → Option (List Char)
  | [] => none
  | c :: cs =>
      if sep.isPrefixOf (c :: cs) then some ((c :: cs).drop sep.length) else dropPast sep cs

/-- The text after the first separator, all of it if there is none. -/
def afterFirst (sep s : String) : String :=
  String.ofList ((dropPast sep.toList s.toList).getD s.toList)

@[simp] theorem toList_afterFirst (sep s : String) :
    (afterFirst sep s).toList = (dropPast sep.toList s.toList).getD s.toList :=
  String.toList_ofList

theorem dropPast_append {first : Char} {cs : List Char} (h : first ∉ cs) (sep rest : List Char) :
    dropPast (first :: sep) (cs ++ first :: sep ++ rest) = some rest := by
  induction cs with
  | nil =>
      have hstarts : (first :: sep).isPrefixOf (first :: sep ++ rest) = true :=
        List.isPrefixOf_iff_prefix.mpr (List.prefix_append _ _)
      rw [List.nil_append, List.cons_append, dropPast, ← List.cons_append, if_pos hstarts,
        List.drop_left]
  | cons c cs ih =>
      rw [List.mem_cons, not_or] at h
      have hstarts : ¬(first :: sep).isPrefixOf (c :: (cs ++ first :: sep ++ rest)) = true := by
        simp [List.isPrefixOf, h.1]
      rw [List.cons_append, List.cons_append, dropPast, if_neg hstarts, ih h.2]

theorem dropPast_eq_none {sep cs : List Char} (hsep : sep ≠ []) :
    dropPast sep cs = none ↔ ¬sep <:+: cs := by
  induction cs with
  | nil => simp [dropPast, hsep]
  | cons c cs ih =>
      rw [dropPast, List.infix_cons_iff, not_or, ← ih, ← List.isPrefixOf_iff_prefix]
      by_cases hstarts : sep.isPrefixOf (c :: cs) = true
      · simp [hstarts]
      · simp [hstarts]

/-- Two texts that are joined the same way are the same, if what comes after
the separator has none in it; what comes before may have. -/
theorem append_sep_inj {sep : Char} {s s' t t' : String} (ht : sep ∉ t.toList)
    (ht' : sep ∉ t'.toList)
    (h : s ++ String.singleton sep ++ t = s' ++ String.singleton sep ++ t') : s = s' ∧ t = t' := by
  have htail : t = t' := by
    rw [← afterLast_append ht s, h, afterLast_append ht' s']
  subst htail
  have hlists := congrArg String.toList h
  simp only [String.toList_append, List.append_assoc] at hlists
  exact ⟨String.toList_inj.mp (List.append_cancel_right hlists), rfl⟩

/-! ## Texts with a hole -/

/-- The function puts its argument between two texts. -/
def Frames (frame : String → String) : Prop :=
  ∃ front back, ∀ s, frame s = front ++ s ++ back

theorem Frames.injective {frame : String → String} (h : Frames frame) :
    Function.Injective frame := by
  obtain ⟨front, back, hframe⟩ := h
  intro s t heq
  rw [hframe, hframe] at heq
  have hlists := congrArg String.toList heq
  simp only [String.toList_append, List.append_assoc] at hlists
  exact String.toList_inj.mp (List.append_cancel_right (List.append_cancel_left hlists))

theorem Frames.comp {outer inner : String → String} (houter : Frames outer)
    (hinner : Frames inner) : Frames (outer ∘ inner) := by
  obtain ⟨front, back, houter⟩ := houter
  obtain ⟨front', back', hinner⟩ := hinner
  refine ⟨front ++ front', back' ++ back, fun s ↦ ?_⟩
  simp only [Function.comp_apply, houter, hinner, String.append_assoc]

/-- Between parts that are joined, one of them stands as it is. -/
theorem frames_intercalate (sep : String) (pre post : List String) :
    Frames fun s ↦ String.intercalate sep (pre ++ s :: post) := by
  have hpost : ∃ back, ∀ s, String.intercalate sep (s :: post) = s ++ back := by
    cases post with
    | nil => exact ⟨"", fun s ↦ by simp⟩
    | cons t rest =>
        exact ⟨sep ++ String.intercalate sep (t :: rest), fun s ↦ by simp [String.append_assoc]⟩
  obtain ⟨back, hback⟩ := hpost
  cases pre with
  | nil => exact ⟨"", back, fun s ↦ by simpa using hback s⟩
  | cons t rest =>
      refine ⟨String.intercalate sep (t :: rest) ++ sep, back, fun s ↦ ?_⟩
      have hsplit := String.intercalate_append_of_ne_nil (s := sep) (List.cons_ne_nil t rest)
        (List.cons_ne_nil s post)
      rw [hback, ← String.append_assoc] at hsplit
      exact hsplit

end Data.Text
