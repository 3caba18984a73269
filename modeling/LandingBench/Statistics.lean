import LandingBench.Data.OrderStatistics
import LandingBench.Summary
import Mathlib.Data.List.GetD

/-!
# The statistics of a summary

Sorting puts the latencies into their order, so an index into the sorted list
is a rank; rounding a share of the last index never leaves the list, and a
larger share never rounds to a smaller index.
-/

namespace LandingBench

open Data OrderStatistics

/-- The percentiles that are printed, with the share that each stands for. -/
def OverallLatency.percentiles (overall : OverallLatency) : List (ℚ × Option ℚ) :=
  [(50 / 100, overall.p50Ms), (90 / 100, overall.p90Ms), (95 / 100, overall.p95Ms),
    (99 / 100, overall.p99Ms)]

/-- The index that `percentile` computes for a list of `n` elements. -/
def percentileIndex (n : ℕ) (p : ℚ) : ℕ := roundNat (p * (n - 1 : ℕ))

theorem percentileIndex_lt {n : ℕ} (hn : 0 < n) {p : ℚ} (hp : p ≤ 1) :
    percentileIndex n p < n := by
  have hshare : p * (n - 1 : ℕ) ≤ (n - 1 : ℕ) :=
    mul_le_of_le_one_left (Nat.cast_nonneg _) hp
  have hle : percentileIndex n p ≤ n - 1 := roundNat_le hshare
  omega

theorem percentileIndex_mono (n : ℕ) {p q : ℚ} (h : p ≤ q) :
    percentileIndex n p ≤ percentileIndex n q :=
  roundNat_mono (mul_le_mul_of_nonneg_right h (Nat.cast_nonneg _))

theorem percentile_eq_getElem {sorted : List ℚ} {p : ℚ}
    (h : percentileIndex sorted.length p < sorted.length) :
    percentile sorted p = sorted[percentileIndex sorted.length p] := by
  have hne : sorted.isEmpty = false := by
    cases sorted with
    | nil => exact absurd h (Nat.not_lt_zero _)
    | cons x xs => rfl
  rw [percentile, hne]
  exact List.getD_eq_getElem _ _ h

theorem percentile_mono {sorted : List ℚ} (hsorted : sorted.Pairwise (· ≤ ·))
    (hne : 0 < sorted.length) {p q : ℚ} (hpq : p ≤ q) (hq : q ≤ 1) :
    percentile sorted p ≤ percentile sorted q := by
  rw [percentile_eq_getElem (percentileIndex_lt hne (hpq.trans hq)),
    percentile_eq_getElem (percentileIndex_lt hne hq)]
  exact getElem_le_getElem hsorted (percentileIndex_mono _ hpq) _

theorem percentile_mem {sorted : List ℚ} (hne : 0 < sorted.length) {p : ℚ} (hp : p ≤ 1) :
    percentile sorted p ∈ sorted := by
  rw [percentile_eq_getElem (percentileIndex_lt hne hp)]
  exact List.getElem_mem _

theorem percentile_isOrderStatistic {latencies : List ℚ} (hne : latencies ≠ []) {p : ℚ}
    (hp : p ≤ 1) :
    IsOrderStatistic latencies (percentileIndex latencies.length p)
      (percentile (latencies.insertionSort (· ≤ ·)) p) := by
  have hperm := List.perm_insertionSort (· ≤ ·) latencies
  have hlt := percentileIndex_lt (List.length_pos_iff.mpr hne) hp
  rw [← hperm.length_eq] at hlt ⊢
  rw [percentile_eq_getElem hlt]
  exact isOrderStatistic_of_sorted (List.pairwise_insertionSort (· ≤ ·) latencies) hperm hlt

/-- What `computeOverall` gives for a list with something in it. -/
theorem computeOverall_of_ne_nil {latencies : List ℚ} (hne : latencies ≠ []) :
    ∃ first ∈ latencies, ∃ last ∈ latencies,
      (∀ latency ∈ latencies, first ≤ latency ∧ latency ≤ last) ∧
        computeOverall latencies =
          { minMs := some first
            maxMs := some last
            avgMs := some (latencies.sum / latencies.length)
            p50Ms := some (percentile (latencies.insertionSort (· ≤ ·)) (50 / 100))
            p90Ms := some (percentile (latencies.insertionSort (· ≤ ·)) (90 / 100))
            p95Ms := some (percentile (latencies.insertionSort (· ≤ ·)) (95 / 100))
            p99Ms := some (percentile (latencies.insertionSort (· ≤ ·)) (99 / 100)) } := by
  have hperm := List.perm_insertionSort (· ≤ ·) latencies
  have hsorted := List.pairwise_insertionSort (· ≤ ·) latencies
  have hempty : latencies.isEmpty = false := List.isEmpty_eq_false_iff.mpr hne
  simp only [computeOverall, hempty, Bool.false_eq_true, if_false, hperm.sum_eq, hperm.length_eq]
  generalize latencies.insertionSort (· ≤ ·) = sorted at *
  have hpos : 0 < sorted.length := by
    rw [hperm.length_eq]
    exact List.length_pos_iff.mpr hne
  have hlast : sorted.length - 1 < sorted.length := Nat.sub_lt hpos Nat.one_pos
  refine ⟨sorted[0], hperm.mem_iff.mp (List.getElem_mem hpos), sorted[sorted.length - 1],
    hperm.mem_iff.mp (List.getElem_mem hlast), ?_, ?_⟩
  · intro latency hmem
    obtain ⟨i, hi, rfl⟩ := List.mem_iff_getElem.mp (hperm.mem_iff.mpr hmem)
    exact ⟨getElem_le_getElem hsorted (Nat.zero_le i) hi,
      getElem_le_getElem hsorted (Nat.le_sub_one_of_lt hi) hlast⟩
  · rw [List.head?_eq_getElem?, List.getElem?_eq_getElem hpos, List.getLast?_eq_getElem?,
      List.getElem?_eq_getElem hlast]

/-- The printed statistics are what their names say, for any list of latencies. -/
theorem computeOverall_genuine (latencies : List ℚ) (hne : latencies ≠ []) :
    (∀ share ∈ (computeOverall latencies).percentiles,
      percentileIndex latencies.length share.1 < latencies.length ∧
        ∃ value, share.2 = some value ∧
          IsOrderStatistic latencies (percentileIndex latencies.length share.1) value) ∧
    ∃ minMs p50Ms p90Ms p95Ms p99Ms maxMs avgMs,
      computeOverall latencies = ⟨some minMs, some maxMs, some avgMs, some p50Ms, some p90Ms,
        some p95Ms, some p99Ms⟩ ∧
      (minMs ≤ p50Ms ∧ p50Ms ≤ p90Ms ∧ p90Ms ≤ p95Ms ∧ p95Ms ≤ p99Ms ∧ p99Ms ≤ maxMs) ∧
      (minMs ∈ latencies ∧ maxMs ∈ latencies ∧
        ∀ latency ∈ latencies, minMs ≤ latency ∧ latency ≤ maxMs) ∧
      minMs ≤ avgMs ∧ avgMs ≤ maxMs ∧ avgMs * latencies.length = latencies.sum := by
  obtain ⟨first, hfirst, last, hlast, hbounds, heq⟩ := computeOverall_of_ne_nil hne
  have hpos : 0 < latencies.length := List.length_pos_iff.mpr hne
  have hperm := List.perm_insertionSort (· ≤ ·) latencies
  have hsorted := List.pairwise_insertionSort (· ≤ ·) latencies
  have hpos' : 0 < (latencies.insertionSort (· ≤ ·)).length := by
    rw [hperm.length_eq]
    exact hpos
  have hbetween : ∀ p : ℚ, p ≤ 1 →
      first ≤ percentile (latencies.insertionSort (· ≤ ·)) p ∧
        percentile (latencies.insertionSort (· ≤ ·)) p ≤ last := fun p hp ↦
    hbounds _ (hperm.mem_iff.mp (percentile_mem hpos' hp))
  have hmean := mean_mem_Icc hne (fun x hx ↦ (hbounds x hx).1) fun x hx ↦ (hbounds x hx).2
  constructor
  · intro share hshare
    have hle : share.1 ≤ 1 ∧
        share.2 = some (percentile (latencies.insertionSort (· ≤ ·)) share.1) := by
      rw [heq] at hshare
      simp only [OverallLatency.percentiles, List.mem_cons, List.not_mem_nil, or_false] at hshare
      rcases hshare with rfl | rfl | rfl | rfl <;> exact ⟨by norm_num, rfl⟩
    exact ⟨percentileIndex_lt hpos hle.1, _, hle.2, percentile_isOrderStatistic hne hle.1⟩
  · refine ⟨first, _, _, _, _, last, _, heq, ⟨?_, ?_, ?_, ?_, ?_⟩, ⟨hfirst, hlast, hbounds⟩,
      hmean.1, hmean.2, mean_mul_length hne⟩
    · exact (hbetween _ (by norm_num)).1
    · exact percentile_mono hsorted hpos' (by norm_num) (by norm_num)
    · exact percentile_mono hsorted hpos' (by norm_num) (by norm_num)
    · exact percentile_mono hsorted hpos' (by norm_num) (by norm_num)
    · exact (hbetween _ (by norm_num)).2

/-- Two equal latencies and a third. -/
theorem computeOverall_genuine_three : ∃ minMs p50Ms p90Ms p95Ms p99Ms maxMs avgMs,
    computeOverall [7, 5, 7] = ⟨some minMs, some maxMs, some avgMs, some p50Ms, some p90Ms,
      some p95Ms, some p99Ms⟩ ∧ avgMs * 3 = 19 := by
  obtain ⟨-, minMs, p50Ms, p90Ms, p95Ms, p99Ms, maxMs, avgMs, heq, -, -, -, -, hsum⟩ :=
    computeOverall_genuine [7, 5, 7] (by simp)
  refine ⟨minMs, p50Ms, p90Ms, p95Ms, p99Ms, maxMs, avgMs, heq, ?_⟩
  norm_num at hsum
  exact hsum

end LandingBench
