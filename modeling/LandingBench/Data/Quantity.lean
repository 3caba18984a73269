import Mathlib.Algebra.Order.Floor.Div
import Mathlib.Data.Rat.Floor
import Mathlib.Tactic.Common

/-!
# Durations and floating point numbers

A duration is a whole number of nanoseconds.  A double is read as the exact
rational it stands for, with the three values that are no number kept apart;
products and sums are exact.
-/

namespace Data

abbrev Duration := ℕ

namespace Duration

def fromMillis (ms : ℕ) : Duration := ms * 1000000

/-- `as_secs_f64() * 1_000.0`. -/
def asMillis (d : Duration) : ℚ := (d : ℚ) / 1000000

theorem asMillis_injective : Function.Injective asMillis := by
  intro d e h
  have hne : (1000000 : ℚ) ≠ 0 := by norm_num
  exact_mod_cast (div_left_inj' hne).mp h

end Duration

inductive F64 where
  | nan
  | negInf
  | posInf
  | finite (q : ℚ)
  deriving DecidableEq

/-- Half goes away from zero. -/
def roundNat (q : ℚ) : ℕ := ⌊q + 1 / 2⌋₊

theorem roundNat_mono {p q : ℚ} (h : p ≤ q) : roundNat p ≤ roundNat q :=
  Nat.floor_mono (add_le_add_left h _)

theorem roundNat_le {q : ℚ} {n : ℕ} (h : q ≤ n) : roundNat q ≤ n := by
  have hhalf : (1 / 2 : ℚ) < 1 := by norm_num
  have hlt : ⌊q + 1 / 2⌋₊ < n + 1 := by
    apply (Nat.floor_lt' (Nat.succ_ne_zero n)).mpr
    push_cast
    exact add_lt_add_of_le_of_lt h hhalf
  exact Nat.lt_succ_iff.mp hlt

/-- Half goes to the even neighbour. -/
def roundHalfEven (q : ℚ) : ℕ :=
  let floor := ⌊q⌋₊
  if q - floor < 1 / 2 ∨ (q - floor = 1 / 2 ∧ floor % 2 = 0) then floor else floor + 1

/-- `{:.digits}` of a number. -/
def fixed (digits : ℕ) (q : ℚ) : String :=
  let scaled := roundHalfEven (|q| * 10 ^ digits)
  let fraction := toString (scaled % 10 ^ digits)
  (if q < 0 then "-" else "") ++ toString (scaled / 10 ^ digits) ++
    if digits = 0 then ""
    else "." ++ String.ofList (List.replicate (digits - fraction.length) '0') ++ fraction

example : fixed 1 (100 / 3) = "33.3" ∧ fixed 0 (5 / 2) = "2" ∧ fixed 6 (1 / 10) = "0.100000" := by
  decide +kernel

namespace F64

/-- `{:.digits}`. -/
def fixed (digits : ℕ) : F64 → String
  | nan => "NaN"
  | negInf => "-inf"
  | posInf => "inf"
  | finite q => Data.fixed digits q

/-- `x > 0.0`; every comparison with `nan` is false. -/
def isPos : F64 → Bool
  | finite q => 0 < q
  | posInf => true
  | nan => false
  | negInf => false

/-- `(x * 1_000_000.0).max(0.0).min(u64::MAX as f64).round() as u64`, where the
cast keeps to the range of the type.  The product is exact, as the numbers of this
type are, and there is no `-0.0`. -/
def toMicro : F64 → UInt64
  | nan => 0
  | negInf => 0
  | posInf => UInt64.ofNat (2 ^ 64 - 1)
  | finite q =>
      UInt64.ofNat (min (roundNat (min (max (q * 1000000) 0) (2 ^ 64))) (2 ^ 64 - 1))

end F64
end Data
