import LandingBench.System.Provenance
import LandingBench.System.Report

/-!
# The race between sending and observing

A transaction is on the wire before its send is recorded, and the listener may
see it in between.  The book takes the first observation after the record as
the landing; one that was processed before the record is lost.
-/

namespace LandingBench

open Async Data Ledger

/-- The first observation of the signature that carries the tag. -/
def firstSighting (provider signature : String) (log : List BookOp) : Option MemoObservation :=
  (observationsOf signature log).find? fun obs ↦ observedProvider obs.memo = provider

/-- The accepted landings of all other transactions. -/
def otherLandings (signature : String) (log : List BookOp) : List Landing :=
  (LandingBook.accepted log).filter (·.obs.signature ≠ signature)

namespace ProviderSummary

/-- What the row has to show for the other transactions. -/
def otherLatencies (row : ProviderSummary) (signature : String) (log : List BookOp) : List ℚ :=
  ((otherLandings signature log).filter (·.record.provider = row.name)).map Landing.latencyMs

/-- The row has these latencies, and a landing for each. -/
def Shows (row : ProviderSummary) (latencies : List ℚ) : Prop :=
  row.landed = latencies.length ∧ row.latenciesMs.Perm latencies

end ProviderSummary

/-- The transaction makes one landing of the summary: its provider has a row, with
the latency of its first sighting besides those of the other transactions, no
other row has more than theirs, and its round is one of those that landed. -/
def LandingSummary.CountsOnce (summary : LandingSummary) (log : List BookOp) (signature : String)
    (send : SendRecord) : Prop :=
  ∃ first, firstSighting send.provider signature log = some first ∧
    (∃ row ∈ summary.providers, row.name = send.provider) ∧
    (∀ row ∈ summary.providers,
      row.Shows ((if row.name = send.provider then [send.latencyMs first] else []) ++
        row.otherLatencies signature log)) ∧
    summary.totalLanded =
      (send.roundId :: (otherLandings signature log).map (·.record.roundId)).toFinset.card

/-- What comes first after the send was recorded is a sighting with its own
tag, and no later than its first sighting of all. -/
def SeenInTime (log after : List BookOp) (signature : String) (send : SendRecord) : Prop :=
  ∃ first obs, firstSighting send.provider signature log = some first ∧
    (observationsOf signature after).head? = some obs ∧
    observedProvider obs.memo = send.provider ∧
    obs.elapsedSinceStart - send.sentElapsed = first.elapsedSinceStart - send.sentElapsed

namespace World

variable {env : Env} {w : World}

/-- Every recorded transaction that is seen with its own tag is counted. -/
def LandingsKept (env : Env) (as : List Act) : Prop :=
  ∀ w summary, env.machine.run as = some w → w.main.pc = .done summary →
    (w.handedSignatures env).Nodup → summary.Reports w.log ∧
      ∀ pre post signature send,
        w.log = pre ++
          .recordSend signature send.provider send.sentElapsed send.roundId :: post →
        (firstSighting send.provider signature w.log).isSome = true →
          summary.CountsOnce w.log signature send

theorem settled_eq_some_iff {send : SendRecord} {obs : MemoObservation} {landing : Landing} :
    settled send obs = some landing ↔
      observedProvider obs.memo = send.provider ∧ landing = ⟨send, obs⟩ := by
  rw [observedProvider_eq, settled]
  split_ifs with htag
  · simp [htag, eq_comm]
  · simp [htag]

theorem accepted_perm (signature : String) (log : List BookOp) :
    (LandingBook.accepted log).Perm
      ((LandingBook.accepted log).filter (·.obs.signature = signature) ++
        otherLandings signature log) := by
  have hsplit := List.filter_append_perm (fun landing : Landing ↦
    decide (landing.obs.signature = signature)) (LandingBook.accepted log)
  simpa [otherLandings] using hsplit.symm

/-- A row of the report shows the transaction's own landings, where these are of
its name, and those of the others. -/
theorem shows_iff {summary : LandingSummary} {log : List BookOp} (hreports : summary.Reports log)
    {row : ProviderSummary} (hrow : row ∈ summary.providers) {signature : String}
    {own : List Landing}
    (hown : (LandingBook.accepted log).filter (·.obs.signature = signature) = own)
    (latencies : List ℚ) :
    row.Shows (latencies ++ row.otherLatencies signature log) ↔
      ((own.filter (·.record.provider = row.name)).map Landing.latencyMs).Perm latencies := by
  obtain ⟨hlanded, hlatencies⟩ := hreports.rows row hrow
  have hcounts : ((row.counts log).map Landing.latencyMs).Perm
      ((own.filter (·.record.provider = row.name)).map Landing.latencyMs ++
        row.otherLatencies signature log) := by
    have hperm := accepted_perm signature log
    rw [hown] at hperm
    have hfilter := (hperm.filter fun landing ↦
      decide (landing.record.provider = row.name)).map Landing.latencyMs
    rwa [List.filter_append, List.map_append] at hfilter
  rw [← List.perm_append_right_iff (row.otherLatencies signature log)]
  constructor
  · rintro ⟨-, hshown⟩
    exact hcounts.symm.trans (hlatencies.symm.trans hshown)
  · intro hsame
    have hshown := hcounts.trans hsame
    refine ⟨?_, hlatencies.trans hshown⟩
    rw [hlanded, ← hshown.length_eq, List.length_map]

/-- A transaction that is seen is counted exactly when it is seen in time. -/
theorem landing_counted_iff (env : Env) (as : List Act) (w : World) (summary : LandingSummary)
    (hrun : env.machine.run as = some w) (hdone : w.main.pc = .done summary)
    (hdistinct : (w.handedSignatures env).Nodup) (pre post : List BookOp) (signature : String)
    (send : SendRecord)
    (hlog : w.log = pre ++
      .recordSend signature send.provider send.sentElapsed send.roundId :: post) :
    summary.CountsOnce w.log signature send ↔ SeenInTime w.log post signature send := by
  have hreports := reports hrun hdone
  have hrecorded := (traced hrun).nodup_recorded hdistinct
  rw [hlog] at hrecorded
  obtain ⟨hpre, hpost⟩ := Data.Lists.nodup_filterMap_append_cons hrecorded rfl
  have hfilter : (LandingBook.accepted w.log).filter (·.obs.signature = signature) =
      ((observationsOf signature post).head?.bind (settled send)).toList := by
    rw [LandingBook.accepted_eq_landings, hlog]
    exact filter_landings_of_recorded_once hpre hpost
  constructor
  · rintro ⟨first, hfirst, ⟨row, hrow, hname⟩, hshows, -⟩
    have hown := (shows_iff hreports hrow hfilter _).mp (hshows row hrow)
    rw [if_pos hname] at hown
    -- what the row shows of the transaction is its only landing
    obtain ⟨landing, hlanding, hlatency⟩ := List.mem_map.mp
      (hown.symm.subset (List.mem_singleton.mpr rfl))
    have hsettled := Option.mem_toList.mp (List.mem_filter.mp hlanding).1
    obtain ⟨obs, hobs, hlands⟩ := Option.bind_eq_some_iff.mp hsettled
    obtain ⟨htag, rfl⟩ := settled_eq_some_iff.mp hlands
    exact ⟨first, obs, hfirst, hobs, htag, Duration.asMillis_injective hlatency⟩
  · rintro ⟨first, obs, hfirst, hobs, htag, helapsed⟩
    have hlatency : send.latencyMs obs = send.latencyMs first := congrArg Duration.asMillis helapsed
    have honly : (LandingBook.accepted w.log).filter (·.obs.signature = signature) =
        [⟨send, obs⟩] := by
      rw [hfilter, hobs, Option.bind_some, settled_eq_some_iff.mpr ⟨htag, rfl⟩]
      rfl
    have hperm := accepted_perm signature w.log
    rw [honly] at hperm
    refine ⟨first, hfirst, ?_, fun row hrow ↦ (shows_iff hreports hrow honly _).mpr ?_, ?_⟩
    · obtain ⟨row, hrow, hcounts⟩ := hreports.covered ⟨send, obs⟩
        (hperm.symm.subset (List.mem_append_left _ (List.mem_singleton.mpr rfl)))
      have hname : send.provider = row.name := of_decide_eq_true (List.mem_filter.mp hcounts).2
      exact ⟨row, hrow, hname.symm⟩
    · by_cases hname : row.name = send.provider
      · simp [hname, Landing.latencyMs, hlatency]
      · simp [hname, Ne.symm hname]
    · have hrounds := List.toFinset_eq_of_perm _ _ (hperm.map (·.record.roundId))
      rw [hreports.totalLanded, hrounds]
      rfl

/-- The signature of the sample transaction. -/
def sampleSignature : String :=
  "4ceu6ioaVnZhQSnQ8zuQQLfUj2HDeU7shm9PTemAgsSxqahi4q2G6LB2qZ7htoG86cYRRmWwBU5eyLCS4QhQuXqg"

def sampleSighting : MemoObservation :=
  ⟨sampleSignature, "rpc|4zryUFoGCKPPqjxDzAF2bpov4wN9EquKocH95XT7PaNQ", 5000000⟩

def sampleSend : SendRecord := ⟨"rpc", 0, "9VwmX1m1JSq1ySn5tVTuJTX3c5xFLJTjci6pojfz13FX"⟩

/-- What is read off a finished run of one endpoint. -/
theorem finished_run (acts : List Act) (log : List BookOp)
    (hrun : ((Sample.rpcEnv 1).machine.run acts).map (fun w ↦
      (w.main.pc.isDone, decide (w.handedSignatures (Sample.rpcEnv 1)).Nodup, w.log)) =
      some (true, true, log)) :
    ∃ w summary, (Sample.rpcEnv 1).machine.run acts = some w ∧ w.main.pc = .done summary ∧
      (w.handedSignatures (Sample.rpcEnv 1)).Nodup ∧ w.log = log := by
  obtain ⟨w, hw, hread⟩ := Option.map_eq_some_iff.mp hrun
  simp only [Prod.mk.injEq, decide_eq_true_eq] at hread
  obtain ⟨hdone, hdistinct, hlog⟩ := hread
  obtain ⟨summary, hpc⟩ := MainPc.isDone_iff.mp hdone
  exact ⟨w, summary, hw, hpc, hdistinct, hlog⟩

theorem landing_counted_iff_landedRun :
    ∃ summary : LandingSummary, summary.CountsOnce
      [.startRound sampleSend.roundId,
        .recordSend sampleSignature sampleSend.provider sampleSend.sentElapsed sampleSend.roundId,
        .recordLanding sampleSighting] sampleSignature sampleSend := by
  obtain ⟨w, summary, hw, hdone, hdistinct, hlog⟩ := finished_run
    (Sample.landedRun ++ [.main (.finalize [("rpc", ⟨1, [5]⟩)])])
    ([.startRound sampleSend.roundId,
        .recordSend sampleSignature sampleSend.provider sampleSend.sentElapsed sampleSend.roundId,
        .recordLanding sampleSighting]) (by decide +kernel)
  refine ⟨summary, ?_⟩
  rw [← hlog]
  refine (landing_counted_iff _ _ w summary hw hdone hdistinct [.startRound sampleSend.roundId]
    [.recordLanding sampleSighting] sampleSignature sampleSend hlog).mpr ?_
  rw [hlog]
  exact ⟨sampleSighting, sampleSighting, by decide +kernel, by decide +kernel, by decide +kernel,
    rfl⟩

/-- The observation overtakes the answer of the sender. -/
def overtakenRun : List Act :=
  Sample.startup ++ [.main .go, .main .go] ++ Sample.openRound Sample.nonce₀ ++
    [.send 0 (.poll Sample.wallClock)] ++ Sample.observeOne (Sample.report "rpc" 0) ++
    [.send 0 (.returned true), .send 0 .record, .tick 10000000000, .send 0 (.wait .timedOut)] ++
    Sample.closeRound ++ Sample.shutDown ++ [.main (.finalize [("rpc", ⟨0, []⟩)])]

/-- A landing that is seen before its send is recorded is lost. -/
theorem overtaken_landing_lost : ¬ ∀ env as, LandingsKept env as := by
  intro h
  obtain ⟨w, summary, hw, hdone, hdistinct, hlog⟩ := finished_run overtakenRun
    ([.startRound sampleSend.roundId, .recordLanding sampleSighting,
      .recordSend sampleSignature sampleSend.provider sampleSend.sentElapsed
        sampleSend.roundId]) (by decide +kernel)
  obtain ⟨hreports, hkept⟩ := h (Sample.rpcEnv 1) overtakenRun w summary hw hdone hdistinct
  obtain ⟨first, -, ⟨row, hrow, hname⟩, hshows, -⟩ := hkept
    [.startRound sampleSend.roundId, .recordLanding sampleSighting] [] sampleSignature sampleSend
    hlog (by rw [hlog]; decide +kernel)
  have hnone : LandingBook.accepted w.log = [] := by
    rw [hlog]
    decide +kernel
  have hlanded := (hshows row hrow).1
  rw [(hreports.rows row hrow).1, ProviderSummary.counts, hnone, if_pos hname] at hlanded
  cases hlanded

end World
end LandingBench
