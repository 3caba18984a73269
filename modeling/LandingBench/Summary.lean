import LandingBench.Book
import Mathlib.Data.List.Sort
import Mathlib.Data.String.Basic

/-!
# The landing summary

`finalize` and the statistics it prints.  A hash map gives its entries in no
particular order, so `finalize` takes the order that `metrics.iter()` happened
to produce.
-/

namespace LandingBench

open Data

structure ProviderSummary where
  name : String
  landed : ℕ
  latenciesMs : List ℚ
  deriving DecidableEq

structure OverallLatency where
  minMs : Option ℚ
  maxMs : Option ℚ
  avgMs : Option ℚ
  p50Ms : Option ℚ
  p90Ms : Option ℚ
  p95Ms : Option ℚ
  p99Ms : Option ℚ
  deriving DecidableEq

instance : Inhabited OverallLatency := ⟨⟨none, none, none, none, none, none, none⟩⟩

structure LandingSummary where
  providers : List ProviderSummary
  totalLanded : ℕ
  overall : OverallLatency
  rounds : ℕ
  deriving DecidableEq

def ProviderSummary.fromMetrics (name : String) (metrics : ProviderMetrics) : ProviderSummary :=
  ⟨name, metrics.landed, metrics.latenciesMs.insertionSort (· ≤ ·)⟩

/-- `sorted_data[index]` of a nonempty list. -/
def percentile (sortedData : List ℚ) (p : ℚ) : ℚ :=
  if sortedData.isEmpty then 0
  else sortedData.getD (roundNat (p * (sortedData.length - 1 : ℕ))) 0

def computeOverall (latencies : List ℚ) : OverallLatency :=
  if latencies.isEmpty then default
  else
    let sorted := latencies.insertionSort (· ≤ ·)
    { minMs := sorted.head?
      maxMs := sorted.getLast?
      avgMs := some (sorted.sum / sorted.length)
      p50Ms := some (percentile sorted (50 / 100))
      p90Ms := some (percentile sorted (90 / 100))
      p95Ms := some (percentile sorted (95 / 100))
      p99Ms := some (percentile sorted (99 / 100)) }

def LandingBook.finalize (book : LandingBook) (iter : List (String × ProviderMetrics)) :
    LandingSummary :=
  let providers := iter.map fun (name, metrics) ↦ ProviderSummary.fromMetrics name metrics
  { providers := providers.insertionSort fun a b ↦ a.name ≤ b.name
    totalLanded := book.records.landedRounds.card
    overall := computeOverall (providers.flatMap ProviderSummary.latenciesMs)
    rounds := book.records.roundsAttempted }

/-- `provider.landed / summary.total_landed` in percent; the code divides `f64`s. -/
def LandingSummary.winPct (summary : LandingSummary) (provider : ProviderSummary) : ℚ :=
  if 0 < summary.totalLanded then
    (provider.landed : ℚ) / summary.totalLanded * 100
  else 0

theorem LandingBook.mem_finalize_providers {book : LandingBook}
    {iter : List (String × ProviderMetrics)} (hiter : iter.Perm book.records.metrics.items)
    (row : ProviderSummary) :
    row ∈ (book.finalize iter).providers ↔
      ∃ metrics, book.records.metrics.lookup row.name = some metrics ∧
        row = ProviderSummary.fromMetrics row.name metrics := by
  simp only [LandingBook.finalize, List.mem_insertionSort, List.mem_map, Prod.exists]
  constructor
  · rintro ⟨name, metrics, hmem, rfl⟩
    exact ⟨metrics, HashMap.mem_items.mp (hiter.mem_iff.mp hmem), rfl⟩
  · rintro ⟨metrics, hlookup, hrow⟩
    exact ⟨row.name, metrics, hiter.mem_iff.mpr (HashMap.mem_items.mpr hlookup), hrow.symm⟩

theorem LandingBook.finalize_congr {book book' : LandingBook} (h : book.accounts = book'.accounts)
    (iter : List (String × ProviderMetrics)) : book.finalize iter = book'.finalize iter := by
  have hattempted : book.records.roundsAttempted = book'.records.roundsAttempted :=
    congrArg Accounts.roundsAttempted h
  have hlanded : book.records.landedRounds = book'.records.landedRounds :=
    congrArg Accounts.landedRounds h
  simp only [finalize, hattempted, hlanded]

end LandingBench
