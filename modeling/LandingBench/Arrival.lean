import LandingBench.Summary
import Mathlib.Algebra.Order.Group.Multiset
import Mathlib.Data.Multiset.Sort

/-!
# Arrival order and hash order

A tally is what a book says when neither the order of its maps nor that of the
latencies counts.  Observations of different signatures settle in any order to
the same tally, and a summary is a function of the tally alone.
-/

namespace LandingBench

open Data

structure Tally where
  sent : String → Option SendRecord
  metrics : String → Option (ℕ × Multiset ℚ)
  roundsAttempted : ℕ
  landedRounds : Finset String

namespace Tally

variable {t : Tally} {signature signature' : String} {send send' : SendRecord}
  {obs obs' : MemoObservation}

/-- One more win with its latency, for a provider that may have no row yet. -/
def bump (latencyMs : ℚ) (row : Option (ℕ × Multiset ℚ)) : Option (ℕ × Multiset ℚ) :=
  some ((row.getD (0, 0)).1 + 1, latencyMs ::ₘ (row.getD (0, 0)).2)

theorem bump_comm (a b : ℚ) (row : Option (ℕ × Multiset ℚ)) :
    bump a (bump b row) = bump b (bump a row) := by
  simp [bump, Multiset.cons_swap a b]

/-- What an observation does to a send that is open. -/
def close (t : Tally) (send : SendRecord) (obs : MemoObservation) : Tally :=
  if observedProvider obs.memo = send.provider then
    { t with
      sent := Function.update t.sent obs.signature none
      metrics := Function.update t.metrics send.provider
        (bump (send.latencyMs obs) (t.metrics send.provider))
      landedRounds := insert send.roundId t.landedRounds }
  else { t with sent := Function.update t.sent obs.signature none }

def settle (t : Tally) (obs : MemoObservation) : Tally :=
  match t.sent obs.signature with
  | none => t
  | some send => t.close send obs

theorem sent_close : (t.close send obs).sent = Function.update t.sent obs.signature none := by
  unfold close
  split_ifs <;> rfl

theorem sent_settle (h : obs.signature ≠ signature) :
    (t.settle obs).sent signature = t.sent signature := by
  unfold settle
  cases t.sent obs.signature with
  | none => rfl
  | some send => rw [sent_close, Function.update_of_ne h.symm]

/-- The rows of two providers are apart, and in one row the order is forgotten. -/
theorem metrics_bump_comm (m : String → Option (ℕ × Multiset ℚ)) (p q : String) (a b : ℚ) :
    Function.update (Function.update m p (bump a (m p))) q
        (bump b (Function.update m p (bump a (m p)) q)) =
      Function.update (Function.update m q (bump b (m q))) p
        (bump a (Function.update m q (bump b (m q)) p)) := by
  rcases eq_or_ne p q with rfl | hne
  · simp only [Function.update_self, Function.update_idem, bump_comm a b]
  · rw [Function.update_of_ne hne.symm, Function.update_of_ne hne, Function.update_comm hne]

theorem close_comm (h : obs.signature ≠ obs'.signature) :
    (t.close send obs).close send' obs' = (t.close send' obs').close send obs := by
  have hsent : Function.update (Function.update t.sent obs.signature none) obs'.signature none =
      Function.update (Function.update t.sent obs'.signature none) obs.signature none :=
    Function.update_comm h _ _ _
  unfold close
  split_ifs
  · rw [Tally.mk.injEq]
    exact ⟨hsent, metrics_bump_comm _ _ _ _ _, rfl, Finset.insert_comm _ _ _⟩
  · rw [Tally.mk.injEq]
    exact ⟨hsent, rfl, rfl, rfl⟩
  · rw [Tally.mk.injEq]
    exact ⟨hsent, rfl, rfl, rfl⟩
  · rw [Tally.mk.injEq]
    exact ⟨hsent, rfl, rfl, rfl⟩

theorem settle_of_none (h : t.sent obs.signature = none) : t.settle obs = t := by
  simp [settle, h]

theorem settle_of_some (h : t.sent obs.signature = some send) :
    t.settle obs = t.close send obs := by
  simp [settle, h]

/-- Observations of different signatures commute. -/
theorem settle_comm (h : obs.signature ≠ obs'.signature) :
    (t.settle obs).settle obs' = (t.settle obs').settle obs := by
  have hobs := sent_settle (t := t) h
  have hobs' := sent_settle (t := t) h.symm
  cases hsend : t.sent obs.signature with
  | none =>
      rw [settle_of_none hsend, settle_of_none (hobs'.trans hsend)]
  | some send =>
      cases hsend' : t.sent obs'.signature with
      | none => rw [settle_of_none hsend', settle_of_none (hobs.trans hsend')]
      | some send' =>
          rw [settle_of_some (hobs.trans hsend'), settle_of_some (hobs'.trans hsend),
            settle_of_some hsend, settle_of_some hsend']
          exact close_comm h

end Tally

namespace ProviderMetrics

def tally (metrics : ProviderMetrics) : ℕ × Multiset ℚ :=
  (metrics.landed, metrics.latenciesMs)

/-- A row of the summary sees no order of the latencies. -/
theorem fromMetrics_congr {metrics metrics' : ProviderMetrics} (h : metrics.tally = metrics'.tally)
    (name : String) :
    ProviderSummary.fromMetrics name metrics = ProviderSummary.fromMetrics name metrics' := by
  obtain ⟨hlanded, hlatencies⟩ := Prod.mk.inj h
  have hperm := Multiset.coe_eq_coe.mp hlatencies
  have hsorted : metrics.latenciesMs.insertionSort (· ≤ ·) =
      metrics'.latenciesMs.insertionSort (· ≤ ·) :=
    List.Perm.eq_of_pairwise' (List.pairwise_insertionSort _ _) (List.pairwise_insertionSort _ _)
      (((List.perm_insertionSort _ _).trans hperm).trans (List.perm_insertionSort _ _).symm)
  rw [ProviderSummary.fromMetrics, ProviderSummary.fromMetrics, hlanded, hsorted]

end ProviderMetrics

def Accounts.tally (accounts : Accounts) : Tally where
  sent := accounts.sent.lookup
  metrics provider := (accounts.metrics.lookup provider).map ProviderMetrics.tally
  roundsAttempted := accounts.roundsAttempted
  landedRounds := accounts.landedRounds

theorem ProviderMetrics.tally_push (metrics : ProviderMetrics) (latencyMs : ℚ) :
    (metrics.push latencyMs).tally = (metrics.tally.1 + 1, latencyMs ::ₘ metrics.tally.2) := by
  have hperm := List.perm_append_singleton latencyMs metrics.latenciesMs
  exact Prod.ext rfl (Multiset.coe_eq_coe.mpr hperm)

theorem lookup_erase_eq_update (sent : HashMap String SendRecord) (signature : String) :
    (sent.erase signature).lookup = Function.update sent.lookup signature none := by
  funext other
  rcases eq_or_ne other signature with rfl | hne
  · rw [AList.lookup_erase, Function.update_self]
  · rw [AList.lookup_erase_ne hne, Function.update_of_ne hne]

theorem lookup_push_eq_update (metrics : HashMap String ProviderMetrics) (provider : String)
    (latencyMs : ℚ) :
    (fun other ↦ ((metrics.upsert provider default (·.push latencyMs)).lookup other).map
        ProviderMetrics.tally) =
      Function.update (fun other ↦ (metrics.lookup other).map ProviderMetrics.tally) provider
        (Tally.bump latencyMs ((metrics.lookup provider).map ProviderMetrics.tally)) := by
  funext other
  rcases eq_or_ne other provider with rfl | hne
  · rw [HashMap.lookup_upsert, if_pos rfl, Function.update_self, Option.map_some,
      ProviderMetrics.tally_push, Tally.bump, HashMap.valueOr]
    cases metrics.lookup other <;> rfl
  · rw [HashMap.lookup_upsert, if_neg hne, Function.update_of_ne hne]

namespace LandingBook

def tally (book : LandingBook) : Tally := book.accounts.tally

/-- `record_landing` settles the observation in the tally. -/
theorem tally_recordLanding (book : LandingBook) (obs : MemoObservation) :
    (book.recordLanding obs).1.tally = book.tally.settle obs := by
  cases hsent : book.records.sent.lookup obs.signature with
  | none =>
      rw [recordLanding_of_none hsent, Tally.settle_of_none hsent]
  | some send =>
      rw [Tally.settle_of_some hsent, Tally.close]
      by_cases htag : observedProvider obs.memo = send.provider
      · rw [if_pos htag, tally, (recordLanding_of_eq hsent htag).2, Accounts.tally,
          Tally.mk.injEq]
        exact ⟨lookup_erase_eq_update _ _, lookup_push_eq_update _ _ _, rfl, rfl⟩
      · rw [if_neg htag, recordLanding_of_ne hsent htag, Tally.mk.injEq]
        exact ⟨lookup_erase_eq_update _ _, rfl, rfl, rfl⟩

/-- The observations are processed one after the other. -/
def observe (book : LandingBook) (arrivals : List MemoObservation) : LandingBook :=
  arrivals.foldl (fun book obs ↦ (book.recordLanding obs).1) book

theorem tally_observe (book : LandingBook) (arrivals : List MemoObservation) :
    (book.observe arrivals).tally = arrivals.foldl Tally.settle book.tally := by
  induction arrivals generalizing book with
  | nil => rfl
  | cons obs arrivals ih =>
      rw [List.foldl_cons, ← tally_recordLanding, ← ih]
      rfl

theorem tally_observe_perm (book : LandingBook) {arrivals arrivals' : List MemoObservation}
    (hperm : arrivals.Perm arrivals')
    (hdistinct : (arrivals.map MemoObservation.signature).Nodup) :
    (book.observe arrivals).tally = (book.observe arrivals').tally := by
  rw [tally_observe, tally_observe]
  apply hperm.foldl_eq'
  intro obs hobs obs' hobs' t
  rcases eq_or_ne obs obs' with rfl | hne
  · rfl
  · exact Tally.settle_comm fun hsame ↦ hne (List.inj_on_of_nodup_map hdistinct hobs hobs' hsame)

/-! ## The summary of a tally -/

/-- The rows that `finalize` sorts. -/
def rows (iter : List (String × ProviderMetrics)) : List ProviderSummary :=
  iter.map fun item ↦ ProviderSummary.fromMetrics item.1 item.2

theorem nodup_rows {book : LandingBook} {iter : List (String × ProviderMetrics)}
    (hiter : iter.Perm book.records.metrics.items) :
    ((rows iter).map ProviderSummary.name).Nodup := by
  rw [rows, List.map_map]
  exact (hiter.map Prod.fst).nodup_iff.mpr (HashMap.nodup_map_fst_items _)

theorem mem_rows_of_tally_eq {book book' : LandingBook} (h : book.tally = book'.tally)
    {iter iter' : List (String × ProviderMetrics)} (hiter : iter.Perm book.records.metrics.items)
    (hiter' : iter'.Perm book'.records.metrics.items) {row : ProviderSummary}
    (hrow : row ∈ rows iter) : row ∈ rows iter' := by
  obtain ⟨⟨name, metrics⟩, hmem, rfl⟩ := List.mem_map.mp hrow
  have hlookup : book.records.metrics.lookup name = some metrics :=
    HashMap.mem_items.mp (hiter.mem_iff.mp hmem)
  have htally : (book'.records.metrics.lookup name).map ProviderMetrics.tally =
      some metrics.tally := by
    have hsame := congrFun (congrArg Tally.metrics h) name
    change (book.records.metrics.lookup name).map ProviderMetrics.tally = _ at hsame
    rw [hlookup] at hsame
    exact hsame.symm
  obtain ⟨metrics', hlookup', heq⟩ := Option.map_eq_some_iff.mp htally
  refine List.mem_map.mpr ⟨(name, metrics'), ?_, ProviderMetrics.fromMetrics_congr heq name⟩
  exact hiter'.mem_iff.mpr (HashMap.mem_items.mpr hlookup')

theorem rows_perm_of_tally_eq {book book' : LandingBook} (h : book.tally = book'.tally)
    {iter iter' : List (String × ProviderMetrics)} (hiter : iter.Perm book.records.metrics.items)
    (hiter' : iter'.Perm book'.records.metrics.items) : (rows iter).Perm (rows iter') := by
  apply (List.perm_ext_iff_of_nodup (nodup_rows hiter).of_map (nodup_rows hiter').of_map).mpr
  exact fun row ↦ ⟨mem_rows_of_tally_eq h hiter hiter', mem_rows_of_tally_eq h.symm hiter' hiter⟩

theorem computeOverall_perm {latencies latencies' : List ℚ} (h : latencies.Perm latencies') :
    computeOverall latencies = computeOverall latencies' := by
  have hsorted : latencies.insertionSort (· ≤ ·) = latencies'.insertionSort (· ≤ ·) :=
    List.Perm.eq_of_pairwise' (List.pairwise_insertionSort _ _) (List.pairwise_insertionSort _ _)
      (((List.perm_insertionSort _ _).trans h).trans (List.perm_insertionSort _ _).symm)
  rw [computeOverall, computeOverall, hsorted, h.isEmpty_eq]

/-- Sorting by name leaves no freedom, for no two rows have one name. -/
theorem sortedRows_eq {rows rows' : List ProviderSummary} (hperm : rows.Perm rows')
    (hnames : (rows.map ProviderSummary.name).Nodup) :
    rows.insertionSort (fun a b ↦ a.name ≤ b.name) =
      rows'.insertionSort fun a b ↦ a.name ≤ b.name := by
  have htotal : Std.Total fun a b : ProviderSummary ↦ a.name ≤ b.name :=
    ⟨fun a b ↦ le_total a.name b.name⟩
  have htrans : IsTrans ProviderSummary fun a b ↦ a.name ≤ b.name :=
    ⟨fun a b c hab hbc ↦ le_trans hab hbc⟩
  have hsort := List.perm_insertionSort (fun a b : ProviderSummary ↦ a.name ≤ b.name) rows
  have hsort' := List.perm_insertionSort (fun a b : ProviderSummary ↦ a.name ≤ b.name) rows'
  refine List.Perm.eq_of_pairwise ?_ (List.pairwise_insertionSort _ rows)
    (List.pairwise_insertionSort _ rows') ((hsort.trans hperm).trans hsort'.symm)
  intro a b ha hb hab hba
  exact List.inj_on_of_nodup_map hnames (hsort.mem_iff.mp ha)
    (hperm.mem_iff.mpr (hsort'.mem_iff.mp hb)) (le_antisymm hab hba)

theorem finalize_of_tally_eq {book book' : LandingBook} (h : book.tally = book'.tally)
    {iter iter' : List (String × ProviderMetrics)} (hiter : iter.Perm book.records.metrics.items)
    (hiter' : iter'.Perm book'.records.metrics.items) :
    book.finalize iter = book'.finalize iter' := by
  have hrows := rows_perm_of_tally_eq h hiter hiter'
  have hlanded : book.records.landedRounds = book'.records.landedRounds :=
    congrArg Tally.landedRounds h
  have hrounds : book.records.roundsAttempted = book'.records.roundsAttempted :=
    congrArg Tally.roundsAttempted h
  have hsorted := sortedRows_eq hrows (nodup_rows hiter)
  have hoverall := computeOverall_perm (hrows.flatMap_right ProviderSummary.latenciesMs)
  rw [LandingSummary.mk.injEq]
  exact ⟨hsorted, congrArg Finset.card hlanded, hoverall, hrounds⟩

/-- The order in which the observations arrive, and the orders that the maps
happen to have, leave no trace in the summary. -/
theorem finalize_observe_perm (book : LandingBook) (arrivals arrivals' : List MemoObservation)
    (hdistinct : (arrivals.map MemoObservation.signature).Nodup)
    (hperm : arrivals.Perm arrivals') (iter iter' : List (String × ProviderMetrics))
    (hiter : iter.Perm (book.observe arrivals).records.metrics.items)
    (hiter' : iter'.Perm (book.observe arrivals').records.metrics.items) :
    (book.observe arrivals).finalize iter = (book.observe arrivals').finalize iter' :=
  finalize_of_tally_eq (tally_observe_perm book hperm hdistinct) hiter hiter'

/-- Two endpoints of one name have sent in one round. -/
def twoOpen : LandingBook :=
  replay [.startRound "r", .recordSend "s" "rpc" 2000000 "r", .recordSend "t" "rpc" 2000000 "r"]

theorem finalize_observe_perm_twoOpen :
    (twoOpen.observe [⟨"s", "rpc|7", 5000000⟩, ⟨"t", "rpc|8", 4000000⟩]).finalize
        [("rpc", ⟨2, [3, 2]⟩)] =
      (twoOpen.observe [⟨"t", "rpc|8", 4000000⟩, ⟨"s", "rpc|7", 5000000⟩]).finalize
        [("rpc", ⟨2, [2, 3]⟩)] :=
  finalize_observe_perm twoOpen _ _ (by decide) (.swap _ _ _) _ _ (by decide +kernel)
    (by decide +kernel)

end LandingBook
end LandingBench
