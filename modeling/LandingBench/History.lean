import LandingBench.Book
import LandingBench.Data.Lists

/-!
# Histories of calls

What a list of calls on the book says by itself, without any map: which sends
are still open, and which observations settle one.
-/

namespace LandingBench

open Data

/-- An observation that settles an open send. -/
structure Landing where
  record : SendRecord
  obs : MemoObservation
  deriving DecidableEq, Repr

namespace Landing

def latencyMs (landing : Landing) : ℚ := landing.record.latencyMs landing.obs

end Landing

namespace BookOp

/-- The signature that a call is about. -/
@[simp] def signature? : BookOp → Option String
  | startRound _ => none
  | recordSend signature _ _ _ => some signature
  | recordLanding obs => some obs.signature

@[simp] def started? : BookOp → Option String
  | startRound roundId => some roundId
  | recordSend _ _ _ _ => none
  | recordLanding _ => none

@[simp] def recorded? : BookOp → Option String
  | startRound _ => none
  | recordSend signature _ _ _ => some signature
  | recordLanding _ => none

@[simp] def sendRound? : BookOp → Option String
  | startRound _ => none
  | recordSend _ _ _ roundId => some roundId
  | recordLanding _ => none

@[simp] def provider? : BookOp → Option String
  | startRound _ => none
  | recordSend _ provider _ _ => some provider
  | recordLanding _ => none

@[simp] def observation? : BookOp → Option MemoObservation
  | startRound _ => none
  | recordSend _ _ _ _ => none
  | recordLanding obs => some obs

end BookOp

namespace Ledger

/-! ## Reading a history -/

def openStep (signature : String) (current : Option SendRecord) : BookOp → Option SendRecord
  | .startRound _ => current
  | .recordSend s provider sentElapsed roundId =>
      if s = signature then some ⟨provider, sentElapsed, roundId⟩ else current
  | .recordLanding obs => if obs.signature = signature then none else current

/-- The last send of the signature, unless an observation of it came after. -/
def openSend (history : List BookOp) (signature : String) : Option SendRecord :=
  history.foldl (openStep signature) none

def landingOf (before : List BookOp) : BookOp → Option Landing
  | .recordLanding obs =>
      (openSend before obs.signature).bind fun send ↦
        if Text.beforeFirst '|' obs.memo = send.provider then some ⟨send, obs⟩ else none
  | _ => none

def landingsFrom (before : List BookOp) : List BookOp → List Landing
  | [] => []
  | op :: rest => (landingOf before op).toList ++ landingsFrom (before ++ [op]) rest

/-- The observations that settle an open send with its own tag, in order. -/
def landings (history : List BookOp) : List Landing := landingsFrom [] history

def startedRounds (history : List BookOp) : List String :=
  history.filterMap BookOp.started?

/-- What has been passed to `record_landing`, in order. -/
def observations (history : List BookOp) : List MemoObservation :=
  history.filterMap BookOp.observation?

def sentProviders (history : List BookOp) : List String :=
  history.filterMap BookOp.provider?

def recordedSignatures (history : List BookOp) : List String :=
  history.filterMap BookOp.recorded?

def landingsOf (provider : String) (history : List BookOp) : List Landing :=
  (landings history).filter (·.record.provider = provider)

def metricsOf (provider : String) (history : List BookOp) : ProviderMetrics :=
  ⟨(landingsOf provider history).length, (landingsOf provider history).map Landing.latencyMs⟩

@[simp] theorem openSend_snoc (history : List BookOp) (op : BookOp) (signature : String) :
    openSend (history ++ [op]) signature =
      openStep signature (openSend history signature) op := by
  simp [openSend]

@[simp] theorem startedRounds_snoc (history : List BookOp) (op : BookOp) :
    startedRounds (history ++ [op]) = startedRounds history ++ op.started?.toList := by
  cases op <;> simp [startedRounds]

@[simp] theorem sentProviders_snoc (history : List BookOp) (op : BookOp) :
    sentProviders (history ++ [op]) = sentProviders history ++ op.provider?.toList := by
  cases op <;> simp [sentProviders]

theorem mem_sentProviders {history : List BookOp} {provider : String} :
    provider ∈ sentProviders history ↔ ∃ signature sentElapsed roundId,
      BookOp.recordSend signature provider sentElapsed roundId ∈ history := by
  simp only [sentProviders, List.mem_filterMap]
  constructor
  · rintro ⟨op, hop, hprovider⟩
    cases op with
    | startRound roundId => simp at hprovider
    | recordSend signature p sentElapsed roundId =>
        obtain rfl : p = provider := by simpa using hprovider
        exact ⟨signature, sentElapsed, roundId, hop⟩
    | recordLanding obs => simp at hprovider
  · rintro ⟨signature, sentElapsed, roundId, hop⟩
    exact ⟨_, hop, rfl⟩

theorem landingsFrom_append (before xs ys : List BookOp) :
    landingsFrom before (xs ++ ys) =
      landingsFrom before xs ++ landingsFrom (before ++ xs) ys := by
  induction xs generalizing before with
  | nil => simp [landingsFrom]
  | cons x xs ih => simp [landingsFrom, ih]

theorem landings_append (xs ys : List BookOp) :
    landings (xs ++ ys) = landings xs ++ landingsFrom xs ys := by
  simp [landings, landingsFrom_append]

@[simp] theorem landings_nil : landings [] = [] := rfl

@[simp] theorem landings_snoc (history : List BookOp) (op : BookOp) :
    landings (history ++ [op]) = landings history ++ (landingOf history op).toList := by
  simp [landings_append, landingsFrom]

/-- A send is open exactly when the history has it with nothing about its
signature behind it. -/
theorem openSend_eq_some_iff {history : List BookOp} {signature : String}
    {send : SendRecord} :
    openSend history signature = some send ↔
      ∃ pre post, history =
          pre ++ .recordSend signature send.provider send.sentElapsed send.roundId :: post ∧
        ∀ op ∈ post, op.signature? ≠ some signature := by
  induction history using List.reverseRecOn with
  | nil => simp [openSend]
  | append_singleton history op ih =>
      rw [openSend_snoc]
      constructor
      · intro h
        by_cases hop : op.signature? = some signature
        · cases op with
          | startRound roundId => simp at hop
          | recordSend s provider sentElapsed roundId =>
              obtain rfl : s = signature := by simpa using hop
              obtain rfl : SendRecord.mk provider sentElapsed roundId = send := by
                simpa [openStep] using h
              exact ⟨history, [], rfl, by simp⟩
          | recordLanding obs =>
              obtain rfl : obs.signature = signature := by simpa using hop
              simp [openStep] at h
        · have hkeep : openStep signature (openSend history signature) op =
              openSend history signature := by
            cases op <;> simp_all [openStep]
          obtain ⟨pre, post, rfl, hpost⟩ := ih.mp (hkeep ▸ h)
          refine ⟨pre, post ++ [op], by simp, ?_⟩
          intro op' hmem
          rcases List.mem_append.mp hmem with hmem | hmem
          · exact hpost op' hmem
          · obtain rfl : op' = op := by simpa using hmem
            exact hop
      · rintro ⟨pre, post, heq, hpost⟩
        rcases Data.Lists.snoc_eq_append_cons_iff.mp heq with
          ⟨rfl, rfl, rfl⟩ | ⟨post, rfl, hhistory⟩
        · simp [openStep]
        · have hopen := ih.mpr ⟨pre, post, hhistory, fun o ho ↦ hpost o (by simp [ho])⟩
          have hop : op.signature? ≠ some signature := hpost op (by simp)
          rw [hopen]
          cases op <;> simp_all [openStep]

theorem landingOf_eq_some_iff {before : List BookOp} {op : BookOp} {landing : Landing} :
    landingOf before op = some landing ↔
      op = .recordLanding landing.obs ∧
        openSend before landing.obs.signature = some landing.record ∧
          Text.beforeFirst '|' landing.obs.memo = landing.record.provider := by
  cases op with
  | startRound roundId => simp [landingOf]
  | recordSend s provider sentElapsed roundId => simp [landingOf]
  | recordLanding obs =>
      constructor
      · intro h
        obtain ⟨send, hopen, htag⟩ := Option.bind_eq_some_iff.mp h
        split_ifs at htag with heq
        obtain rfl : (⟨send, obs⟩ : Landing) = landing := by simpa using htag
        exact ⟨rfl, hopen, heq⟩
      · rintro ⟨hop, hopen, htag⟩
        obtain rfl : obs = landing.obs := by simpa using hop
        simp [landingOf, hopen, htag]

/-- Every landing has its own place in the history. -/
theorem mem_landings_iff {history : List BookOp} {landing : Landing} :
    landing ∈ landings history ↔
      ∃ pre post, history = pre ++ .recordLanding landing.obs :: post ∧
        openSend pre landing.obs.signature = some landing.record ∧
          Text.beforeFirst '|' landing.obs.memo = landing.record.provider := by
  induction history using List.reverseRecOn with
  | nil => simp
  | append_singleton history op ih =>
      rw [landings_snoc, List.mem_append, ih, Option.mem_toList, landingOf_eq_some_iff]
      constructor
      · rintro (⟨pre, post, rfl, hopen, htag⟩ | ⟨rfl, hopen, htag⟩)
        · exact ⟨pre, post ++ [op], by simp, hopen, htag⟩
        · exact ⟨history, [], rfl, hopen, htag⟩
      · rintro ⟨pre, post, heq, hopen, htag⟩
        rcases Data.Lists.snoc_eq_append_cons_iff.mp heq with
          ⟨rfl, rfl, hop⟩ | ⟨post, rfl, hhistory⟩
        · exact .inr ⟨hop, hopen, htag⟩
        · exact .inl ⟨pre, post, hhistory, hopen, htag⟩

theorem mem_sentProviders_of_openSend {history : List BookOp} {signature : String}
    {send : SendRecord} (h : openSend history signature = some send) :
    send.provider ∈ sentProviders history := by
  obtain ⟨pre, post, rfl, -⟩ := openSend_eq_some_iff.mp h
  exact mem_sentProviders.mpr ⟨signature, send.sentElapsed, send.roundId, by simp⟩

/-- A landing is of somebody who has sent. -/
theorem mem_sentProviders_of_landing {history : List BookOp} {landing : Landing}
    (h : landing ∈ landings history) : landing.record.provider ∈ sentProviders history := by
  obtain ⟨pre, post, rfl, hopen, -⟩ := mem_landings_iff.mp h
  obtain ⟨signature, sentElapsed, roundId, hsend⟩ :=
    mem_sentProviders.mp (mem_sentProviders_of_openSend hopen)
  exact mem_sentProviders.mpr ⟨signature, sentElapsed, roundId, by simp [hsend]⟩

theorem metricsOf_of_notMem {history : List BookOp} {provider : String}
    (h : provider ∉ sentProviders history) : metricsOf provider history = default := by
  have hnone : landingsOf provider history = [] := by
    apply List.filter_eq_nil_iff.mpr
    intro landing hlanding hprovider
    have heq : landing.record.provider = provider := by simpa using hprovider
    exact h (heq ▸ mem_sentProviders_of_landing hlanding)
  rw [metricsOf, hnone]
  rfl

theorem metricsOf_snoc_of_none {history : List BookOp} {op : BookOp}
    (h : landingOf history op = none) (provider : String) :
    metricsOf provider (history ++ [op]) = metricsOf provider history := by
  simp [metricsOf, landingsOf, h]

theorem metricsOf_snoc_of_some {history : List BookOp} {op : BookOp} {landing : Landing}
    (h : landingOf history op = some landing) (provider : String) :
    metricsOf provider (history ++ [op]) =
      if landing.record.provider = provider then
        (metricsOf provider history).push landing.latencyMs
      else metricsOf provider history := by
  split_ifs with heq <;> simp [metricsOf, landingsOf, h, heq, ProviderMetrics.push]

/-! ## The order of calls in `main` -/

/-- Every send belongs to a round that was started before. -/
def StartedBeforeSends (history : List BookOp) : Prop :=
  ∀ pre op post roundId, history = pre ++ op :: post → op.sendRound? = some roundId →
    .startRound roundId ∈ pre

theorem startedBeforeSends_nil : StartedBeforeSends [] := by
  intro pre op post roundId h
  simp at h

theorem startedBeforeSends_snoc {history : List BookOp} {op : BookOp} :
    StartedBeforeSends (history ++ [op]) ↔ StartedBeforeSends history ∧
      ∀ roundId, op.sendRound? = some roundId → .startRound roundId ∈ history := by
  constructor
  · intro h
    refine ⟨?_, fun roundId hround ↦ h history op [] roundId rfl hround⟩
    rintro pre op' post roundId rfl hround
    exact h pre op' (post ++ [op]) roundId (by simp) hround
  · rintro ⟨hhistory, hop⟩ pre op' post roundId heq hround
    rcases Data.Lists.snoc_eq_append_cons_iff.mp heq with ⟨-, rfl, rfl⟩ | ⟨post, -, rfl⟩
    · exact hop roundId hround
    · exact hhistory pre op' post roundId rfl hround

/-! ## Signatures that are recorded once -/

theorem openSend_recorded {history : List BookOp} {signature : String} {send : SendRecord}
    (h : openSend history signature = some send) :
    signature ∈ recordedSignatures history := by
  obtain ⟨pre, post, rfl, -⟩ := openSend_eq_some_iff.mp h
  simp [recordedSignatures]

theorem landing_recorded {history : List BookOp} {landing : Landing}
    (h : landing ∈ landings history) :
    landing.obs.signature ∈ recordedSignatures history := by
  obtain ⟨pre, post, rfl, hopen, -⟩ := mem_landings_iff.mp h
  have hpre := openSend_recorded hopen
  rw [recordedSignatures, List.filterMap_append, List.mem_append]
  exact .inl hpre

theorem recordedSignatures_snoc (history : List BookOp) (op : BookOp) :
    recordedSignatures (history ++ [op]) =
      recordedSignatures history ++ op.recorded?.toList := by
  cases op <;> simp [recordedSignatures]

theorem nodup_recorded_left {history later : List BookOp}
    (h : (recordedSignatures (history ++ later)).Nodup) : (recordedSignatures history).Nodup := by
  rw [recordedSignatures, List.filterMap_append] at h
  exact (List.nodup_append.mp h).1

/-- If no signature is recorded twice, the last one recorded is new. -/
theorem notMem_recorded_of_nodup {history : List BookOp} {signature provider roundId : String}
    {sentElapsed : Duration}
    (h : (recordedSignatures
      (history ++ [.recordSend signature provider sentElapsed roundId])).Nodup) :
    signature ∉ recordedSignatures history := by
  rw [recordedSignatures_snoc] at h
  exact fun hmem ↦ (List.nodup_append.mp h).2.2 signature hmem signature (by simp) rfl

/-- A signature that has landed is settled for good. -/
theorem openSend_of_landed {history : List BookOp}
    (hdistinct : (recordedSignatures history).Nodup) {landing : Landing}
    (h : landing ∈ landings history) : openSend history landing.obs.signature = none := by
  induction history using List.reverseRecOn with
  | nil => simp at h
  | append_singleton history op ih =>
      rw [recordedSignatures_snoc] at hdistinct
      obtain ⟨hhistory, -, hfresh⟩ := List.nodup_append.mp hdistinct
      rw [landings_snoc, List.mem_append, Option.mem_toList] at h
      rw [openSend_snoc]
      rcases h with hold | hnew
      · have hclosed := ih hhistory hold
        cases op with
        | startRound roundId => simpa [openStep] using hclosed
        | recordSend signature provider sentElapsed roundId =>
            have hne : signature ≠ landing.obs.signature := fun heq ↦
              hfresh _ (landing_recorded hold) signature (by simp) heq.symm
            simpa [openStep, hne] using hclosed
        | recordLanding obs => simp [openStep, hclosed]
      · obtain ⟨rfl, -, -⟩ := landingOf_eq_some_iff.mp hnew
        simp [openStep]

theorem nodup_landed_signatures {history : List BookOp}
    (hdistinct : (recordedSignatures history).Nodup) :
    ((landings history).map (·.obs.signature)).Nodup := by
  induction history using List.reverseRecOn with
  | nil => simp
  | append_singleton history op ih =>
      have hhistory := nodup_recorded_left hdistinct
      rw [landings_snoc, List.map_append]
      cases hlanding : landingOf history op with
      | none => simpa using ih hhistory
      | some landing =>
          refine List.nodup_append.mpr ⟨ih hhistory, by simp, ?_⟩
          intro signature hold signature' hnew heq
          obtain ⟨earlier, hmem, rfl⟩ := List.mem_map.mp hold
          obtain rfl : signature' = landing.obs.signature := by simpa using hnew
          have hclosed := openSend_of_landed hhistory hmem
          have hopen := (landingOf_eq_some_iff.mp hlanding).2.1
          rw [← heq, hclosed] at hopen
          cases hopen

/-- With distinct signatures, a send is open unless it was observed. -/
theorem openSend_iff_of_distinct {history : List BookOp}
    (hdistinct : (recordedSignatures history).Nodup) {signature : String} {send : SendRecord} :
    openSend history signature = some send ↔
      ∃ earlier since, history = earlier ++
          .recordSend signature send.provider send.sentElapsed send.roundId :: since ∧
        ∀ other, .recordLanding other ∈ since → other.signature ≠ signature := by
  rw [openSend_eq_some_iff]
  constructor
  · rintro ⟨pre, post, heq, hpost⟩
    exact ⟨pre, post, heq, fun other hmem hsame ↦ hpost _ hmem (by simp [hsame])⟩
  · rintro ⟨pre, post, rfl, hpost⟩
    refine ⟨pre, post, rfl, ?_⟩
    have hnot := (Data.Lists.nodup_filterMap_append_cons hdistinct rfl).2
    intro op hmem hsame
    cases op with
    | startRound roundId => simp at hsame
    | recordSend s provider sentElapsed roundId =>
        obtain rfl : s = signature := by simpa using hsame
        exact hnot (List.mem_filterMap.mpr ⟨_, hmem, rfl⟩)
    | recordLanding obs => exact hpost obs hmem (by simpa using hsame)

/-! ## One signature at a time -/

def observationsOf (signature : String) (history : List BookOp) : List MemoObservation :=
  (observations history).filter (·.signature = signature)

/-- The landing that an observation makes of an open send, unless its tag is foreign. -/
def settled (send : SendRecord) (obs : MemoObservation) : Option Landing :=
  if Text.beforeFirst '|' obs.memo = send.provider then some ⟨send, obs⟩ else none

/-- Without a further send of a signature, the first observation of it decides:
it settles the open send, or takes it away. -/
theorem filter_landingsFrom {before history : List BookOp} {signature : String}
    (hfresh : signature ∉ recordedSignatures history) :
    (landingsFrom before history).filter (·.obs.signature = signature) =
      ((openSend before signature).bind fun send ↦
        (observationsOf signature history).head?.bind (settled send)).toList := by
  induction history generalizing before with
  | nil => cases openSend before signature <;> rfl
  | cons op rest ih =>
      have hrest : signature ∉ recordedSignatures rest := fun hmem ↦
        hfresh (List.mem_filterMap.mpr (by
          obtain ⟨op', hop', hrecorded⟩ := List.mem_filterMap.mp hmem
          exact ⟨op', List.mem_cons_of_mem op hop', hrecorded⟩))
      have hih := @ih (before ++ [op]) hrest
      rw [landingsFrom, List.filter_append, hih, openSend_snoc]
      cases op with
      | startRound roundId => simp [landingOf, openStep, observationsOf, observations]
      | recordSend s provider sentElapsed roundId =>
          have hne : s ≠ signature := by
            rintro rfl
            exact hfresh (by simp [recordedSignatures])
          simp [landingOf, openStep, hne, observationsOf, observations]
      | recordLanding obs =>
          by_cases hsame : obs.signature = signature
          · have hhead : (observationsOf signature (.recordLanding obs :: rest)).head? =
                some obs := by
              simp [observationsOf, observations, hsame]
            have hstep : openStep signature (openSend before signature) (.recordLanding obs) =
                none := by
              simp [openStep, hsame]
            rw [hhead, hstep, Option.bind_none, Option.toList_none, List.append_nil, landingOf,
              hsame]
            cases hopen : openSend before signature with
            | none => rfl
            | some send =>
                by_cases htag : Text.beforeFirst '|' obs.memo = send.provider <;>
                  simp [settled, htag, hsame]
          · have hfilter : (landingOf before (.recordLanding obs)).toList.filter
                (·.obs.signature = signature) = [] := by
              rw [List.filter_eq_nil_iff]
              intro landing hmem
              obtain ⟨hobs, -⟩ := landingOf_eq_some_iff.mp (Option.mem_toList.mp hmem)
              obtain rfl : obs = landing.obs := by simpa using hobs
              simpa using hsame
            rw [hfilter, List.nil_append]
            simp [openStep, hsame, observationsOf, observations]

/-- The only send of a signature is settled by the first observation that comes
after it, or never. -/
theorem filter_landings_of_recorded_once {pre post : List BookOp} {signature : String}
    {send : SendRecord} (hpre : signature ∉ recordedSignatures pre)
    (hpost : signature ∉ recordedSignatures post) :
    (landings (pre ++ .recordSend signature send.provider send.sentElapsed send.roundId ::
        post)).filter (·.obs.signature = signature) =
      ((observationsOf signature post).head?.bind (settled send)).toList := by
  have hsplit : pre ++ .recordSend signature send.provider send.sentElapsed send.roundId :: post =
      (pre ++ [.recordSend signature send.provider send.sentElapsed send.roundId]) ++ post := by
    simp
  have hbefore : (landings pre).filter (·.obs.signature = signature) = [] := by
    have hnone : openSend [] signature = none := rfl
    rw [landings, filter_landingsFrom hpre, hnone]
    rfl
  have hopen : openSend (pre ++ [.recordSend signature send.provider send.sentElapsed
      send.roundId]) signature = some send := by
    simp [openStep]
  rw [hsplit, landings_append, List.filter_append, filter_landingsFrom hpost, hopen, landings_snoc,
    List.filter_append, hbefore]
  simp [landingOf]

end Ledger
end LandingBench
