import LandingBench.Ledger
import LandingBench.System.Delivery

/-!
# What a run reports

The summary of a finished run against the calls that were made on the book.
-/

namespace LandingBench

open Async Data Ledger

/-- The landings that a row of a summary counts. -/
def ProviderSummary.counts (row : ProviderSummary) (log : List BookOp) : List Landing :=
  (LandingBook.accepted log).filter (·.record.provider = row.name)

/-- The summary counts the rounds that were started, and every accepted landing
in one row, with its latency. -/
structure LandingSummary.Reports (summary : LandingSummary) (log : List BookOp) : Prop where
  rounds : summary.rounds = (startedRounds log).length
  totalLanded : summary.totalLanded =
    ((LandingBook.accepted log).map (·.record.roundId)).toFinset.card
  names : (summary.providers.map ProviderSummary.name).Nodup
  rows : ∀ row ∈ summary.providers, row.landed = (row.counts log).length ∧
    row.latenciesMs.Perm ((row.counts log).map Landing.latencyMs)
  covered : ∀ landing ∈ LandingBook.accepted log, ∃ row ∈ summary.providers,
    landing ∈ row.counts log

theorem Ledger.reports_replay (log : List BookOp) {iter : List (String × ProviderMetrics)}
    (hiter : iter.Perm (LandingBook.replay log).records.metrics.items) :
    ((LandingBook.replay log).finalize iter).Reports log where
  rounds := (exact_replay log).roundsAttempted
  totalLanded := by rw [LandingBook.accepted_eq_landings, totalLanded_eq]
  names := by
    have hsort := List.perm_insertionSort (fun a b : ProviderSummary ↦ a.name ≤ b.name)
      (iter.map fun item ↦ ProviderSummary.fromMetrics item.1 item.2)
    have hnames := (hsort.map ProviderSummary.name).nodup_iff
    have hkeys : ((iter.map fun item ↦ ProviderSummary.fromMetrics item.1 item.2).map
        ProviderSummary.name).Nodup := by
      rw [List.map_map]
      exact (hiter.map Prod.fst).nodup_iff.mpr (HashMap.nodup_map_fst_items _)
    exact hnames.mpr hkeys
  rows row hrow := by
    obtain ⟨metrics, hlookup, hrow⟩ := (LandingBook.mem_finalize_providers hiter row).mp hrow
    obtain ⟨-, rfl⟩ := lookup_metrics hlookup
    rw [ProviderSummary.counts, LandingBook.accepted_eq_landings]
    constructor
    · rw [hrow]
      rfl
    · rw [hrow]
      exact List.perm_insertionSort _ _
  covered landing hlanding := by
    rw [LandingBook.accepted_eq_landings] at hlanding
    have hprovider := mem_sentProviders_of_landing hlanding
    obtain ⟨metrics, hlookup⟩ := Option.isSome_iff_exists.mp
      (AList.lookup_isSome.mpr ((mem_metrics_iff log _).mpr hprovider))
    refine ⟨ProviderSummary.fromMetrics landing.record.provider metrics,
      (LandingBook.mem_finalize_providers hiter _).mpr ⟨metrics, hlookup, rfl⟩, ?_⟩
    rw [ProviderSummary.counts, LandingBook.accepted_eq_landings]
    exact List.mem_filter.mpr ⟨hlanding, by simp [ProviderSummary.fromMetrics]⟩

namespace World

variable {env : Env} {w : World}

theorem reports {as : List Act} (hrun : env.machine.run as = some w) {summary : LandingSummary}
    (hdone : w.main.pc = .done summary) : summary.Reports w.log := by
  obtain ⟨iter, hiter, rfl⟩ := summary_eq hrun hdone
  have hmetrics : w.book.records.metrics = (LandingBook.replay w.log).records.metrics :=
    congrArg Accounts.metrics (replayed hrun)
  rw [LandingBook.finalize_congr (replayed hrun) iter]
  exact reports_replay w.log (hmetrics ▸ hiter)

end World
end LandingBench
