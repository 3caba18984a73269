import LandingBench.Ledger

/-!
# Wins and landed rounds

`record_landing` counts a win for every signature it accepts, and a landed
round once however many of its signatures are accepted.  The two totals of a
summary agree exactly when no round has two landings.
-/

namespace LandingBench

open Data

/-- The wins add up to the landed rounds, so the printed percentages to 100. -/
def LandingSummary.OneWinnerPerRound (summary : LandingSummary) : Prop :=
  (summary.providers.map ProviderSummary.landed).sum = summary.totalLanded ∧
    (0 < summary.totalLanded → (summary.providers.map summary.winPct).sum = 100)

theorem LandingSummary.sum_winPct {summary : LandingSummary} (h : 0 < summary.totalLanded)
    (rows : List ProviderSummary) :
    (rows.map summary.winPct).sum =
      ((rows.map ProviderSummary.landed).sum : ℕ) * (100 / (summary.totalLanded : ℚ)) := by
  induction rows with
  | nil => simp
  | cons row rows ih =>
      rw [List.map_cons, List.sum_cons, List.map_cons, List.sum_cons, ih, winPct, if_pos h]
      push_cast
      ring

namespace Ledger

theorem wins_eq_landings (history : List BookOp) {iter : List (String × ProviderMetrics)}
    (hiter : iter.Perm (LandingBook.replay history).records.metrics.items) :
    (((LandingBook.replay history).finalize iter).providers.map ProviderSummary.landed).sum =
      (landings history).length := by
  let items := (LandingBook.replay history).records.metrics.items
  have hrows : (((LandingBook.replay history).finalize iter).providers.map
      ProviderSummary.landed).Perm (items.map fun item ↦ item.2.landed) := by
    have hsort := List.perm_insertionSort (fun a b : ProviderSummary ↦ a.name ≤ b.name)
      (iter.map fun item ↦ ProviderSummary.fromMetrics item.1 item.2)
    have hmap := (hsort.trans (hiter.map _)).map ProviderSummary.landed
    simpa [LandingBook.finalize, ProviderSummary.fromMetrics, Function.comp_def] using hmap
  have hitems : items.map (fun item ↦ item.2.landed) =
      (items.map Prod.fst).map fun provider ↦ (landingsOf provider history).length := by
    rw [List.map_map]
    apply List.map_congr_left
    rintro ⟨provider, metrics⟩ hmem
    obtain ⟨-, rfl⟩ := lookup_metrics (HashMap.mem_items.mp hmem)
    rfl
  calc
    _ = (items.map fun item ↦ item.2.landed).sum := hrows.sum_eq
    _ = ((items.map Prod.fst).map fun provider ↦
          (landingsOf provider history).length).sum := by rw [hitems]
    _ = (landings history).length := by
      apply Data.Lists.sum_length_filter_eq_length (HashMap.nodup_map_fst_items _)
      intro landing hlanding
      rw [HashMap.map_fst_items]
      exact (mem_metrics_iff history _).mpr (mem_sentProviders_of_landing hlanding)

/-- The wins of all providers are the landed rounds, and the printed
percentages make 100, exactly when no two landings are of one round. -/
theorem wins_eq_totalLanded_iff (history : List BookOp)
    (iter : List (String × ProviderMetrics))
    (hiter : iter.Perm (LandingBook.replay history).records.metrics.items) :
    ((LandingBook.replay history).finalize iter).OneWinnerPerRound ↔
      ((landings history).map (·.record.roundId)).Nodup := by
  let summary := (LandingBook.replay history).finalize iter
  have hwins := wins_eq_landings history hiter
  have htotal := totalLanded_eq history iter
  constructor
  · rintro ⟨hsum, -⟩
    have hcard : ((landings history).map (·.record.roundId)).toFinset.card =
        ((landings history).map (·.record.roundId)).length := by
      rw [← htotal, List.length_map, ← hwins]
      exact hsum.symm
    exact Multiset.toFinset_card_eq_card_iff_nodup.mp hcard
  · intro hnodup
    have hsum : (summary.providers.map ProviderSummary.landed).sum = summary.totalLanded := by
      rw [hwins, htotal, List.toFinset_card_of_nodup hnodup, List.length_map]
    refine ⟨hsum, fun hpos ↦ ?_⟩
    have hne : (summary.totalLanded : ℚ) ≠ 0 := by exact_mod_cast hpos.ne'
    calc
      (summary.providers.map summary.winPct).sum
          = summary.totalLanded * (100 / (summary.totalLanded : ℚ)) := by
            rw [LandingSummary.sum_winPct hpos, hsum]
      _ = 100 := by field_simp

/-- Two endpoints land in one round, as on two forks that are both observed. -/
def forkedRound : List BookOp :=
  [.startRound "r", .recordSend "s" "rpc" 2000000 "r", .recordSend "t" "jito" 2000000 "r",
    .recordLanding ⟨"s", "rpc|7", 5000000⟩, .recordLanding ⟨"t", "jito|8", 6000000⟩]

theorem wins_eq_totalLanded_iff_forkless :
    ((LandingBook.replay (forkedRound.take 4)).finalize
      (LandingBook.replay (forkedRound.take 4)).records.metrics.items).OneWinnerPerRound :=
  (wins_eq_totalLanded_iff (forkedRound.take 4) _ (.refl _)).mpr (by decide)

/-- Both landings of a forked round are wins, the round is counted once. -/
theorem forkedRound_two_wins :
    ¬ ∀ history, (recordedSignatures history).Nodup → StartedBeforeSends history →
      ∀ iter : List (String × ProviderMetrics),
        iter.Perm (LandingBook.replay history).records.metrics.items →
          ((LandingBook.replay history).finalize iter).OneWinnerPerRound := by
  intro h
  have hstarted : StartedBeforeSends forkedRound := by
    change StartedBeforeSends ([] ++ [_] ++ [_] ++ [_] ++ [_] ++ [_])
    simp only [startedBeforeSends_snoc]
    simp [startedBeforeSends_nil]
  have hsum := (h forkedRound (by decide) hstarted _ (.refl _)).1
  rw [wins_eq_landings forkedRound (.refl _), totalLanded_eq] at hsum
  exact absurd hsum (by decide)

end Ledger
end LandingBench
