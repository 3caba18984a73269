import Mathlib.Data.List.Basic
import Mathlib.Data.List.TakeWhile
import Mathlib.Data.Nat.Digits.Lemmas
import Mathlib.Tactic.Common
import Mathlib.Tactic.Ring

/-!
# Base 58

Bytes as a number in base 58.  Every leading zero byte is one leading `1`.
-/

namespace Data.Base58

/-- The symbols are `1`-`9`, `A`-`H`, `J`-`N`, `P`-`Z`, `a`-`k` and `m`-`z`:
the first code of each run, and how many follow on from it. -/
def runs : List (ℕ × ℕ) := [(49, 9), (65, 8), (74, 5), (80, 11), (97, 11), (109, 14)]

def codeOf : List (ℕ × ℕ) → ℕ → ℕ
  | [], _ => 49
  | (first, count) :: rest, digit =>
      if digit < count then first + digit else codeOf rest (digit - count)

def digitOf : List (ℕ × ℕ) → ℕ → Option ℕ
  | [], _ => none
  | (first, count) :: rest, code =>
      if first ≤ code ∧ code < first + count then some (code - first)
      else (digitOf rest code).map (count + ·)

def toNat (bytes : List UInt8) : ℕ := bytes.foldl (fun n b ↦ n * 256 + b.toNat) 0

/-- The codes of the symbols: a one for each leading zero, and then the digits. -/
def codes (bytes : List UInt8) : List ℕ :=
  (bytes.takeWhile (· = 0)).map (fun _ ↦ 49) ++
    ((Nat.digits 58 (toNat bytes)).map (codeOf runs)).reverse

def encode (bytes : List UInt8) : String := String.ofList ((codes bytes).map Char.ofNat)

/-- The number that the symbols denote, if all of them are symbols. -/
def value : List ℕ → ℕ → Option ℕ
  | [], n => some n
  | code :: rest, n => (digitOf runs code).bind fun digit ↦ value rest (n * 58 + digit)

def decode (s : String) : Option (List UInt8) :=
  let codes := s.toUTF8.data.toList.map UInt8.toNat
  (value codes 0).map fun n ↦
    (codes.takeWhile (· = 49)).map (fun _ ↦ 0) ++ ((Nat.digits 256 n).map UInt8.ofNat).reverse

example : encode [0, 1, 2] = "15T" ∧ decode "15T" = some [0, 1, 2] := by decide +kernel

theorem codeOf_lt (digit : ℕ) : codeOf runs digit < 123 := by
  simp only [runs, codeOf]
  split_ifs <;> omega

theorem codes_lt {bytes : List UInt8} {code : ℕ} (h : code ∈ codes bytes) : code < 123 := by
  rcases List.mem_append.mp h with hone | hdigit
  · obtain ⟨_, -, rfl⟩ := List.mem_map.mp hone
    omega
  · obtain ⟨digit, -, rfl⟩ := List.mem_map.mp (List.mem_reverse.mp hdigit)
    exact codeOf_lt digit

/-- Every symbol is an ASCII letter or a digit. -/
theorem toNat_lt_of_mem_encode {bytes : List UInt8} {c : Char}
    (h : c ∈ (encode bytes).toList) : c.toNat < 123 := by
  have hcode : ∀ code < 123, (Char.ofNat code).toNat < 123 := by decide
  rw [encode, String.toList_ofList] at h
  obtain ⟨code, hmem, rfl⟩ := List.mem_map.mp h
  exact hcode code (codes_lt hmem)

/-! ## Reading back -/

theorem digitOf_codeOf {digit : ℕ} (h : digit < 58) :
    digitOf runs (codeOf runs digit) = some digit := by
  have hall : ∀ digit < 58, digitOf runs (codeOf runs digit) = some digit := by decide
  exact hall digit h

theorem codeOf_ne {digit : ℕ} (h : digit < 58) (hne : digit ≠ 0) : codeOf runs digit ≠ 49 := by
  have hall : ∀ digit < 58, digit ≠ 0 → codeOf runs digit ≠ 49 := by decide
  exact hall digit h hne

theorem toNat_eq_ofDigits (bytes : List UInt8) :
    toNat bytes = Nat.ofDigits 256 (bytes.reverse.map UInt8.toNat) := by
  induction bytes using List.reverseRecOn with
  | nil => rfl
  | append_singleton bytes b ih =>
      rw [List.reverse_append, List.reverse_singleton, List.singleton_append, List.map_cons,
        Nat.ofDigits_cons, ← ih, toNat, List.foldl_append]
      simp only [toNat, List.foldl_cons, List.foldl_nil]
      ring

theorem toNat_dropWhile (bytes : List UInt8) :
    toNat (bytes.dropWhile (· = 0)) = toNat bytes := by
  induction bytes with
  | nil => rfl
  | cons b bytes ih =>
      by_cases hb : b = 0
      · subst hb
        rw [List.dropWhile_cons_of_pos (by simp), ih]
        rfl
      · rw [List.dropWhile_cons_of_neg (by simpa using hb)]

/-- Without its leading zeros a list of bytes is the digits of its number. -/
theorem digits_toNat (bytes : List UInt8) :
    ((Nat.digits 256 (toNat bytes)).map UInt8.ofNat).reverse = bytes.dropWhile (· = 0) := by
  rw [← toNat_dropWhile, toNat_eq_ofDigits, Nat.digits_ofDigits 256 (by norm_num)]
  · simp [Function.comp_def]
  · intro digit hdigit
    obtain ⟨b, -, rfl⟩ := List.mem_map.mp hdigit
    exact b.toNat_lt
  · intro hne
    have hrest : bytes.dropWhile (· = 0) ≠ [] := fun hnil ↦ hne (by rw [hnil]; rfl)
    have hfirst := List.head_dropWhile_not (fun b : UInt8 ↦ decide (b = 0)) hrest
    rw [List.getLast_map, List.getLast_reverse]
    intro hzero
    have heq : (bytes.dropWhile (· = 0)).head hrest = 0 := UInt8.toNat_inj.mp hzero
    simp [heq] at hfirst

theorem value_append (xs ys : List ℕ) (n : ℕ) :
    value (xs ++ ys) n = (value xs n).bind (value ys) := by
  induction xs generalizing n with
  | nil => rfl
  | cons code xs ih => simp only [List.cons_append, value, ih, Option.bind_assoc]

theorem value_ones (count : ℕ) : value (List.replicate count 49) 0 = some 0 := by
  induction count with
  | zero => rfl
  | succ count ih =>
      rw [List.replicate_succ, value]
      exact ih

theorem value_digits {digits : List ℕ} (h : ∀ digit ∈ digits, digit < 58) :
    value (digits.map (codeOf runs)).reverse 0 = some (Nat.ofDigits 58 digits) := by
  induction digits with
  | nil => rfl
  | cons digit digits ih =>
      rw [List.map_cons, List.reverse_cons, value_append,
        ih fun d hd ↦ h d (List.mem_cons_of_mem digit hd)]
      simp only [Option.bind_some, value, digitOf_codeOf (h digit List.mem_cons_self),
        Nat.ofDigits_cons, Option.some.injEq]
      ring

theorem flatMap_utf8EncodeChar {codes : List ℕ} (h : ∀ code ∈ codes, code < 128) :
    ((codes.map Char.ofNat).flatMap String.utf8EncodeChar).map UInt8.toNat = codes := by
  have hascii : ∀ code < 128,
      (String.utf8EncodeChar (Char.ofNat code)).map UInt8.toNat = [code] := by decide
  induction codes with
  | nil => rfl
  | cons code codes ih =>
      rw [List.map_cons, List.flatMap_cons, List.map_append,
        hascii code (h code List.mem_cons_self), ih fun c hc ↦ h c (List.mem_cons_of_mem code hc)]
      rfl

/-- ASCII text has one byte for each character. -/
theorem toUTF8_ofCodes {codes : List ℕ} (h : ∀ code ∈ codes, code < 128) :
    (String.ofList (codes.map Char.ofNat)).toUTF8.data.toList.map UInt8.toNat = codes := by
  have hbytes : (String.ofList (codes.map Char.ofNat)).toUTF8.data.toList =
      (codes.map Char.ofNat).flatMap String.utf8EncodeChar := by
    change (List.utf8Encode (codes.map Char.ofNat)).data.toList = _
    simp [List.utf8Encode]
  rw [hbytes]
  exact flatMap_utf8EncodeChar h

theorem value_codes (bytes : List UInt8) : value (codes bytes) 0 = some (toNat bytes) := by
  rw [codes, value_append, List.map_const', value_ones, Option.bind_some,
    value_digits fun digit hdigit ↦ Nat.digits_lt_base (by norm_num) hdigit, Nat.ofDigits_digits]

/-- The first digit of a number is no zero, so just the leading zeros become ones. -/
theorem takeWhile_codes (bytes : List UInt8) :
    (codes bytes).takeWhile (· = 49) = (bytes.takeWhile (· = 0)).map (fun _ ↦ 49) := by
  have hdigits : ((Nat.digits 58 (toNat bytes)).map (codeOf runs)).reverse.takeWhile (· = 49) =
      [] := by
    rcases List.eq_nil_or_concat (Nat.digits 58 (toNat bytes)) with hnil | ⟨front, digit, hdigit⟩
    · rw [hnil]
      rfl
    · have hne : Nat.digits 58 (toNat bytes) ≠ [] := by simp [hdigit]
      have hlast := Nat.getLast_digit_ne_zero 58 (Nat.digits_ne_nil_iff_ne_zero.mp hne)
      have hmem : digit ∈ Nat.digits 58 (toNat bytes) := by simp [hdigit]
      have hlt : digit < 58 := Nat.digits_lt_base (by norm_num) hmem
      simp only [hdigit, List.concat_eq_append, List.getLast_append_singleton] at hlast
      rw [hdigit, List.concat_eq_append, List.map_append, List.reverse_append, List.map_singleton,
        List.reverse_singleton, List.singleton_append]
      exact List.takeWhile_cons_of_neg (by simpa using codeOf_ne hlt hlast)
  rw [codes, List.takeWhile_append_of_pos (by simp), hdigits, List.append_nil]

/-- Every list of bytes is read back. -/
theorem decode_encode (bytes : List UInt8) : decode (encode bytes) = some bytes := by
  have htext : (encode bytes).toUTF8.data.toList.map UInt8.toNat = codes bytes :=
    toUTF8_ofCodes fun code h ↦ (codes_lt h).trans (by omega)
  have hzeros : (bytes.takeWhile (· = 0)).map (fun _ ↦ (0 : UInt8)) = bytes.takeWhile (· = 0) := by
    rw [List.map_const']
    refine (List.eq_replicate_iff.mpr ⟨rfl, fun b hb ↦ ?_⟩).symm
    simpa using List.mem_takeWhile_imp hb
  simp only [decode, htext, value_codes, takeWhile_codes, Option.map_some, List.map_map,
    Function.comp_def, hzeros, digits_toNat, List.takeWhile_append_dropWhile]

theorem encode_injective : Function.Injective encode := by
  intro bytes bytes' h
  have hread := congrArg decode h
  rw [decode_encode, decode_encode] at hread
  exact Option.some.inj hread

/-! ## Long texts denote many bytes -/

theorem pow_le_value {codes : List ℕ} {m n : ℕ} (h : value codes m = some n) :
    m * 58 ^ codes.length ≤ n := by
  induction codes generalizing m with
  | nil =>
      obtain rfl : m = n := by simpa [value] using h
      simp
  | cons code codes ih =>
      obtain ⟨digit, -, hrest⟩ := Option.bind_eq_some_iff.mp h
      have hle := ih hrest
      calc
        m * 58 ^ (codes.length + 1) = m * 58 * 58 ^ codes.length := by ring
        _ ≤ (m * 58 + digit) * 58 ^ codes.length :=
          Nat.mul_le_mul_right _ (Nat.le_add_right _ _)
        _ ≤ n := hle

theorem digitOf_pos {code digit : ℕ} (h : digitOf runs code = some digit) (hne : code ≠ 49) :
    0 < digit := by
  simp only [runs, digitOf] at h
  split_ifs at h <;> simp at h <;> omega

/-- Behind the leading ones, every further symbol makes the number 58 times as large. -/
theorem pow_lt_of_value {codes : List ℕ} {n : ℕ} (h : value codes 0 = some n) :
    codes.dropWhile (· = 49) = [] ∨ 58 ^ ((codes.dropWhile (· = 49)).length - 1) ≤ n := by
  have hones : codes.takeWhile (· = 49) =
      List.replicate (codes.takeWhile (· = 49)).length 49 := by
    refine List.eq_replicate_iff.mpr ⟨rfl, fun code hcode ↦ ?_⟩
    simpa using List.mem_takeWhile_imp hcode
  have hrest : value (codes.dropWhile (· = 49)) 0 = some n := by
    rw [← List.takeWhile_append_dropWhile (p := fun c ↦ decide (c = 49)) (l := codes),
      value_append, hones, value_ones] at h
    exact h
  rcases hcodes : codes.dropWhile (· = 49) with _ | ⟨code, rest⟩
  · exact .inl hcodes
  · rw [hcodes] at hrest
    obtain ⟨digit, hdigit, hvalue⟩ := Option.bind_eq_some_iff.mp hrest
    have hne : code ≠ 49 := by
      have hnil : codes.dropWhile (· = 49) ≠ [] := by simp [hcodes]
      have hhead := List.head_dropWhile_not (fun c ↦ decide (c = 49)) hnil
      simpa [hcodes] using hhead
    have hpos := digitOf_pos hdigit hne
    have hle := pow_le_value hvalue
    right
    rw [hcodes]
    calc
      58 ^ (rest.length + 1 - 1) = 1 * 58 ^ rest.length := by simp
      _ ≤ (0 * 58 + digit) * 58 ^ rest.length := Nat.mul_le_mul_right _ (by omega)
      _ ≤ n := hle

/-- A text of many symbols has leading ones or denotes many bytes. -/
theorem length_of_decode {s : String} {bytes : List UInt8} (h : decode s = some bytes) :
    ∃ ones rest, s.utf8ByteSize = ones + rest ∧ ones ≤ bytes.length ∧
      (rest = 0 ∨ 58 ^ (rest - 1) < 256 ^ (bytes.length - ones)) := by
  obtain ⟨n, hvalue, rfl⟩ := Option.map_eq_some_iff.mp h
  generalize hcodes : s.toUTF8.data.toList.map UInt8.toNat = codes at hvalue
  have hsize : s.utf8ByteSize = codes.length := by
    rw [← hcodes, List.length_map]
    rfl
  have hsplit := congrArg List.length
    (List.takeWhile_append_dropWhile (p := fun c ↦ decide (c = 49)) (l := codes))
  rw [List.length_append] at hsplit
  refine ⟨_, _, hsize.trans hsplit.symm, by simp, ?_⟩
  rcases pow_lt_of_value hvalue with hnil | hle
  · exact .inl (by rw [hnil]; rfl)
  · have hlt : n < 256 ^ (Nat.digits 256 n).length := Nat.lt_base_pow_length_digits (by norm_num)
    refine .inr (hle.trans_lt ?_)
    simpa using hlt

end Data.Base58
