import LandingBench.History
import LandingBench.Summary

/-!
# The ledger that the book keeps

`Exact` ties the four accounts of a book to the history of calls that made it.
Every operation keeps it, so every replayed book is exact, and what the code
accepts is what the history calls a landing.
-/

namespace LandingBench

open Data

namespace Ledger

/-! ## The book agrees with its history -/

/-- The accounts of a book are the ones its history calls for. -/
structure Exact (book : LandingBook) (history : List BookOp) : Prop where
  sent : ∀ signature, book.accounts.sent.lookup signature = openSend history signature
  metrics : ∀ provider, book.accounts.metrics.lookup provider =
    if provider ∈ sentProviders history then some (metricsOf provider history) else none
  roundsAttempted : book.accounts.roundsAttempted = (startedRounds history).length
  landedRounds : book.accounts.landedRounds =
    ((landings history).map (·.record.roundId)).toFinset

theorem exact_empty : Exact LandingBook.empty [] where
  sent _ := rfl
  metrics _ := rfl
  roundsAttempted := rfl
  landedRounds := rfl

theorem Exact.startRound {book : LandingBook} {history : List BookOp}
    (h : Exact book history) (roundId : String) :
    Exact (book.startRound roundId) (history ++ [.startRound roundId]) where
  sent signature := by
    simpa [LandingBook.accounts_startRound, openStep] using h.sent signature
  metrics provider := by
    rw [metricsOf_snoc_of_none rfl]
    simpa [LandingBook.accounts_startRound]
      using h.metrics provider
  roundsAttempted := by
    simp [LandingBook.accounts_startRound, h.roundsAttempted]
  landedRounds := by
    simpa [LandingBook.accounts_startRound, landingOf] using h.landedRounds

theorem Exact.recordSend {book : LandingBook} {history : List BookOp}
    (h : Exact book history) (signature provider : String) (sentElapsed : Duration)
    (roundId : String) :
    Exact (book.recordSend signature provider sentElapsed roundId).1
      (history ++ [.recordSend signature provider sentElapsed roundId]) where
  sent s := by
    rw [LandingBook.accounts_recordSend, openSend_snoc]
    by_cases hs : signature = s
    · subst hs
      simp [openStep]
    · simpa [openStep, hs, AList.lookup_insert_ne (Ne.symm hs)] using h.sent s
  metrics p := by
    rw [metricsOf_snoc_of_none rfl, LandingBook.accounts_recordSend, sentProviders_snoc]
    simp only [HashMap.lookup_orInsert, h.metrics, HashMap.valueOr]
    by_cases hp : p = provider
    · subst hp
      by_cases hmem : p ∈ sentProviders history
      · simp [hmem]
      · have hnone := metricsOf_of_notMem hmem
        simp [hmem, hnone]
    · simp [hp]
  roundsAttempted := by
    simpa [LandingBook.accounts_recordSend]
      using h.roundsAttempted
  landedRounds := by
    simpa [LandingBook.accounts_recordSend, landingOf] using h.landedRounds

/-- A look up after an observation has taken the send of its signature away. -/
theorem Exact.lookup_erase {book : LandingBook} {history : List BookOp}
    (h : Exact book history) (obs : MemoObservation) (signature : String) :
    (book.accounts.sent.erase obs.signature).lookup signature =
      openSend (history ++ [.recordLanding obs]) signature := by
  rw [openSend_snoc]
  by_cases hs : obs.signature = signature
  · subst hs
    simp [openStep]
  · simpa [openStep, hs, AList.lookup_erase_ne (Ne.symm hs)] using h.sent signature

/-- An observation that settles nothing at most takes its send away. -/
theorem Exact.unsettled {book book' : LandingBook} {history : List BookOp} {obs : MemoObservation}
    (h : Exact book history) (hlanding : landingOf history (.recordLanding obs) = none)
    {sent : HashMap String SendRecord}
    (haccounts : book'.accounts = { book.accounts with sent := sent })
    (hsent : ∀ signature, sent.lookup signature =
      openSend (history ++ [.recordLanding obs]) signature) :
    Exact book' (history ++ [.recordLanding obs]) where
  sent := by
    rw [haccounts]
    exact hsent
  metrics provider := by
    rw [haccounts, metricsOf_snoc_of_none hlanding]
    simpa using h.metrics provider
  roundsAttempted := by
    rw [haccounts]
    simpa using h.roundsAttempted
  landedRounds := by
    rw [haccounts]
    simpa [hlanding] using h.landedRounds

/-- An observation that settles its send is one more landing. -/
theorem Exact.landed {book : LandingBook} {history : List BookOp} {obs : MemoObservation}
    {send : SendRecord} (h : Exact book history)
    (hopen : openSend history obs.signature = some send)
    (htag : observedProvider obs.memo = send.provider) :
    Exact (book.recordLanding obs).1 (history ++ [.recordLanding obs]) := by
  have hsent := h.sent obs.signature
  rw [hopen] at hsent
  have hlanding : landingOf history (.recordLanding obs) = some ⟨send, obs⟩ := by
    simp [landingOf, hopen, ← observedProvider_eq, htag]
  have haccounts := (LandingBook.recordLanding_of_eq hsent htag).2
  refine ⟨?_, fun p ↦ ?_, ?_, ?_⟩
  · rw [haccounts]
    exact h.lookup_erase obs
  · rw [haccounts, metricsOf_snoc_of_some hlanding, sentProviders_snoc]
    have hmem := mem_sentProviders_of_openSend hopen
    simp only [HashMap.lookup_upsert, h.metrics, HashMap.valueOr]
    by_cases hp : p = send.provider
    · subst hp
      simp [hmem, Landing.latencyMs]
    · simp [hp, Ne.symm hp]
  · rw [haccounts]
    simpa using h.roundsAttempted
  · rw [haccounts]
    ext roundId
    simp [hlanding, h.landedRounds]

theorem Exact.recordLanding {book : LandingBook} {history : List BookOp}
    (h : Exact book history) (obs : MemoObservation) :
    Exact (book.recordLanding obs).1 (history ++ [.recordLanding obs]) := by
  have hsent := h.sent obs.signature
  cases hopen : openSend history obs.signature with
  | none =>
      rw [hopen] at hsent
      have hlanding : landingOf history (.recordLanding obs) = none := by
        simp [landingOf, hopen]
      rw [LandingBook.recordLanding_of_none hsent]
      have hsame : book.accounts = { book.accounts with sent := book.accounts.sent } := rfl
      apply h.unsettled hlanding hsame
      intro signature
      rw [← h.lookup_erase obs]
      by_cases hs : obs.signature = signature
      · subst hs
        simp [hsent]
      · rw [AList.lookup_erase_ne (Ne.symm hs)]
  | some send =>
      rw [hopen] at hsent
      by_cases htag : observedProvider obs.memo = send.provider
      · exact h.landed hopen htag
      · have hlanding : landingOf history (.recordLanding obs) = none := by
          simp [landingOf, hopen, ← observedProvider_eq, htag]
        apply h.unsettled hlanding _ (h.lookup_erase obs)
        rw [LandingBook.recordLanding_of_ne hsent htag]
        rfl

theorem Exact.apply {book : LandingBook} {history : List BookOp}
    (h : Exact book history) (op : BookOp) : Exact (book.apply op) (history ++ [op]) := by
  cases op with
  | startRound roundId => exact h.startRound roundId
  | recordSend signature provider sentElapsed roundId =>
      exact h.recordSend signature provider sentElapsed roundId
  | recordLanding obs => exact h.recordLanding obs

/-- Every book is exact for the calls that made it. -/
theorem exact_replay (history : List BookOp) : Exact (LandingBook.replay history) history := by
  induction history using List.reverseRecOn with
  | nil => exact exact_empty
  | append_singleton history op ih =>
      rw [LandingBook.replay_snoc]
      exact ih.apply op

theorem lookup_metrics {history : List BookOp} {provider : String} {metrics : ProviderMetrics}
    (h : (LandingBook.replay history).records.metrics.lookup provider = some metrics) :
    provider ∈ sentProviders history ∧ metrics = metricsOf provider history := by
  have hexact := (exact_replay history).metrics provider
  have hlookup : (LandingBook.replay history).accounts.metrics.lookup provider = some metrics := h
  rw [hexact] at hlookup
  split_ifs at hlookup with hmem
  exact ⟨hmem, (Option.some.inj hlookup).symm⟩

theorem mem_metrics_iff (history : List BookOp) (provider : String) :
    provider ∈ (LandingBook.replay history).records.metrics ↔
      provider ∈ sentProviders history := by
  have hexact := (exact_replay history).metrics provider
  rw [← AList.lookup_isSome]
  change ((LandingBook.replay history).accounts.metrics.lookup provider).isSome = true ↔ _
  rw [hexact]
  split_ifs with hmem <;> simp [hmem]

theorem mem_landedRounds_iff (history : List BookOp) (roundId : String) :
    roundId ∈ (LandingBook.replay history).records.landedRounds ↔
      ∃ landing ∈ landings history, landing.record.roundId = roundId := by
  change roundId ∈ (LandingBook.replay history).accounts.landedRounds ↔ _
  simp [(exact_replay history).landedRounds]

/-- The landing rule, read off the history alone. -/
theorem recordLanding_replay_iff (history : List BookOp) (obs : MemoObservation) :
    ((LandingBook.replay history).recordLanding obs).2 = true ↔
      ∃ send, openSend history obs.signature = some send ∧
        Text.beforeFirst '|' obs.memo = send.provider := by
  rw [LandingBook.recordLanding_eq_true_iff, ← observedProvider_eq,
    ← (exact_replay history).sent]
  rfl

end Ledger

/-! ## The ledger of the code -/

namespace LandingBook

/-- The send record that an observation settles, if `record_landing` accepts it. -/
def acceptance (book : LandingBook) (obs : MemoObservation) : Option Landing :=
  if (book.recordLanding obs).2 then
    (book.records.sent.lookup obs.signature).map fun send ↦ ⟨send, obs⟩
  else none

def acceptedFrom (book : LandingBook) : List BookOp → List Landing
  | [] => []
  | .recordLanding obs :: rest =>
      (book.acceptance obs).toList ++ (book.apply (.recordLanding obs)).acceptedFrom rest
  | op :: rest => (book.apply op).acceptedFrom rest

/-- The observations for which `record_landing` returns true, in that order. -/
def accepted (history : List BookOp) : List Landing := empty.acceptedFrom history

theorem acceptance_replay (history : List BookOp) (obs : MemoObservation) :
    (replay history).acceptance obs = Ledger.landingOf history (.recordLanding obs) := by
  have hsent : (replay history).records.sent.lookup obs.signature =
      Ledger.openSend history obs.signature := (Ledger.exact_replay history).sent _
  have haccept := Ledger.recordLanding_replay_iff history obs
  unfold acceptance
  cases hopen : Ledger.openSend history obs.signature with
  | none => simp [hsent, hopen, Ledger.landingOf]
  | some send =>
      by_cases htag : Text.beforeFirst '|' obs.memo = send.provider
      · have htrue := haccept.mpr ⟨send, hopen, htag⟩
        simp [htrue, hsent, hopen, Ledger.landingOf, htag]
      · have hfalse : ((replay history).recordLanding obs).2 = false := by
          rw [Bool.eq_false_iff]
          intro htrue
          obtain ⟨send', hopen', htag'⟩ := haccept.mp htrue
          rw [hopen] at hopen'
          exact htag (by rw [htag', ← Option.some.inj hopen'])
        simp [hfalse, Ledger.landingOf, hopen, htag]

theorem acceptedFrom_replay (before history : List BookOp) :
    (replay before).acceptedFrom history = Ledger.landingsFrom before history := by
  induction history generalizing before with
  | nil => rfl
  | cons op rest ih =>
      have hrest := ih (before ++ [op])
      rw [replay_snoc] at hrest
      cases op with
      | startRound roundId =>
          simpa [acceptedFrom, Ledger.landingsFrom, Ledger.landingOf] using hrest
      | recordSend signature provider sentElapsed roundId =>
          simpa [acceptedFrom, Ledger.landingsFrom, Ledger.landingOf] using hrest
      | recordLanding obs =>
          simp only [acceptedFrom, Ledger.landingsFrom, acceptance_replay, hrest]

/-- What the code accepts is what the history calls a landing. -/
theorem accepted_eq_landings (history : List BookOp) :
    accepted history = Ledger.landings history := acceptedFrom_replay [] history

end LandingBook

namespace Ledger

theorem totalLanded_le_rounds {history : List BookOp}
    (hstarted : StartedBeforeSends history) (iter : List (String × ProviderMetrics)) :
    ((LandingBook.replay history).finalize iter).totalLanded ≤
      ((LandingBook.replay history).finalize iter).rounds := by
  have hexact := exact_replay history
  have hsubset : (LandingBook.replay history).accounts.landedRounds ⊆
      (startedRounds history).toFinset := by
    intro roundId hmem
    rw [hexact.landedRounds, List.mem_toFinset, List.mem_map] at hmem
    obtain ⟨landing, hlanding, rfl⟩ := hmem
    obtain ⟨pre, post, rfl, hopen, -⟩ := mem_landings_iff.mp hlanding
    obtain ⟨earlier, since, rfl, -⟩ := openSend_eq_some_iff.mp hopen
    have hsend : earlier ++ .recordSend landing.obs.signature landing.record.provider
          landing.record.sentElapsed landing.record.roundId :: since ++
            .recordLanding landing.obs :: post =
        earlier ++ .recordSend landing.obs.signature landing.record.provider
          landing.record.sentElapsed landing.record.roundId ::
            (since ++ .recordLanding landing.obs :: post) := by simp
    have hstart := hstarted earlier _ _ landing.record.roundId hsend rfl
    rw [List.mem_toFinset, startedRounds, List.mem_filterMap]
    exact ⟨.startRound landing.record.roundId, by simp [hstart], rfl⟩
  calc
    ((LandingBook.replay history).finalize iter).totalLanded
        ≤ (startedRounds history).toFinset.card := Finset.card_le_card hsubset
    _ ≤ (startedRounds history).length := List.toFinset_card_le _
    _ = ((LandingBook.replay history).finalize iter).rounds := hexact.roundsAttempted.symm

theorem totalLanded_eq (history : List BookOp) (iter : List (String × ProviderMetrics)) :
    ((LandingBook.replay history).finalize iter).totalLanded =
      ((landings history).map (·.record.roundId)).toFinset.card := by
  change (LandingBook.replay history).accounts.landedRounds.card = _
  rw [(exact_replay history).landedRounds]

/-- The book is an exact ledger of its history. -/
theorem book_is_exact_ledger (history : List BookOp)
    (hdistinct : (recordedSignatures history).Nodup) :
    (∀ pre obs post, history = pre ++ .recordLanding obs :: post →
      (((LandingBook.replay pre).recordLanding obs).2 = true ↔
        ∃ earlier since provider sentElapsed roundId,
          pre = earlier ++ .recordSend obs.signature provider sentElapsed roundId :: since ∧
            (∀ other, .recordLanding other ∈ since → other.signature ≠ obs.signature) ∧
              Text.beforeFirst '|' obs.memo = provider)) ∧
    (∀ pre, pre <+: history →
      (∀ provider, provider ∈ (LandingBook.replay pre).records.metrics ↔
        ∃ signature sentElapsed roundId,
          .recordSend signature provider sentElapsed roundId ∈ pre) ∧
      (∀ provider metrics,
        (LandingBook.replay pre).records.metrics.lookup provider = some metrics →
          metrics.landed = metrics.latenciesMs.length ∧
          metrics.landed =
            ((LandingBook.accepted pre).filter (·.record.provider = provider)).length ∧
          metrics.latenciesMs =
            ((LandingBook.accepted pre).filter (·.record.provider = provider)).map
              fun landing ↦ Duration.asMillis
                (landing.obs.elapsedSinceStart - landing.record.sentElapsed)) ∧
      (∀ roundId, roundId ∈ (LandingBook.replay pre).records.landedRounds ↔
        ∃ landing ∈ LandingBook.accepted pre, landing.record.roundId = roundId) ∧
      ((LandingBook.accepted pre).map (·.obs.signature)).Nodup) ∧
    (StartedBeforeSends history →
      ∀ iter : List (String × ProviderMetrics),
        iter.Perm (LandingBook.replay history).records.metrics.items →
          ((LandingBook.replay history).finalize iter).totalLanded ≤
            ((LandingBook.replay history).finalize iter).rounds) := by
  refine ⟨?_, ?_, fun hstarted iter _ ↦ totalLanded_le_rounds hstarted iter⟩
  · rintro pre obs post rfl
    have hpre : (recordedSignatures pre).Nodup := nodup_recorded_left hdistinct
    rw [recordLanding_replay_iff]
    constructor
    · rintro ⟨send, hopen, htag⟩
      obtain ⟨earlier, since, rfl, hsince⟩ := (openSend_iff_of_distinct hpre).mp hopen
      exact ⟨earlier, since, _, _, _, rfl, hsince, htag⟩
    · rintro ⟨earlier, since, provider, sentElapsed, roundId, rfl, hsince, htag⟩
      exact ⟨⟨provider, sentElapsed, roundId⟩,
        (openSend_iff_of_distinct hpre).mpr ⟨earlier, since, rfl, hsince⟩, htag⟩
  · rintro pre ⟨post, rfl⟩
    have hpre : (recordedSignatures pre).Nodup := nodup_recorded_left hdistinct
    refine ⟨fun provider ↦ ?_, fun provider metrics hlookup ↦ ?_, fun roundId ↦ ?_, ?_⟩
    · rw [mem_metrics_iff, mem_sentProviders]
    · obtain ⟨-, rfl⟩ := lookup_metrics hlookup
      rw [LandingBook.accepted_eq_landings]
      exact ⟨by simp [metricsOf], rfl, rfl⟩
    · rw [LandingBook.accepted_eq_landings, mem_landedRounds_iff]
    · rw [LandingBook.accepted_eq_landings]
      exact nodup_landed_signatures hpre

/-- A landing, its repetition, and an observation that nobody waits for. -/
def observedTwice : List BookOp :=
  [.startRound "r", .recordSend "s" "rpc" 2000000 "r", .recordLanding ⟨"s", "rpc|7", 5000000⟩,
    .recordLanding ⟨"s", "rpc|7", 9000000⟩, .recordLanding ⟨"t", "rpc|8", 9000000⟩]

theorem book_is_exact_ledger_observedTwice :
    ((LandingBook.replay (observedTwice.take 2)).recordLanding ⟨"s", "rpc|7", 5000000⟩).2 = true ∧
      "r" ∈ (LandingBook.replay observedTwice).records.landedRounds ∧
        ((LandingBook.replay observedTwice).finalize
          (LandingBook.replay observedTwice).records.metrics.items).totalLanded ≤ 1 := by
  obtain ⟨haccept, hstate, htotal⟩ := book_is_exact_ledger observedTwice (by decide)
  have hstarted : StartedBeforeSends observedTwice := by
    change StartedBeforeSends ([] ++ [_] ++ [_] ++ [_] ++ [_] ++ [_])
    simp only [startedBeforeSends_snoc]
    simp [startedBeforeSends_nil]
  refine ⟨(haccept _ _ _ rfl).mpr ⟨[.startRound "r"], [], "rpc", 2000000, "r", rfl, by simp,
    by decide⟩, ?_, htotal hstarted _ (.refl _)⟩
  exact ((hstate observedTwice (List.prefix_refl _)).2.2.1 "r").mpr
    ⟨⟨⟨"rpc", 2000000, "r"⟩, ⟨"s", "rpc|7", 5000000⟩⟩, by decide, rfl⟩

end Ledger
end LandingBench
