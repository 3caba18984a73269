import LandingBench.Arrival
import LandingBench.System.Provenance
import LandingBench.System.Report

/-!
# What strangers send

Anybody may mention the nonce account and write a memo, also one with the name
of an endpoint in it.  The stream reports such transactions too, and the book is
told of them; they leave no trace in it.
-/

namespace LandingBench

open Async Data Ledger

/-- An observation of none of these transactions. -/
def BookOp.isForeign (signatures : List String) : BookOp → Bool
  | recordLanding obs => obs.signature ∉ signatures
  | startRound _ | recordSend _ _ _ _ => false

/-- Nothing that was recorded is foreign, and what is foreign does nothing. -/
theorem LandingBook.replay_filter_isForeign {signatures : List String} {log : List BookOp}
    (hours : ∀ signature ∈ recordedSignatures log, signature ∈ signatures) :
    replay (log.filter fun op ↦ !op.isForeign signatures) = replay log := by
  induction log using List.reverseRecOn with
  | nil => rfl
  | append_singleton log op ih =>
      have hlog : ∀ signature ∈ recordedSignatures log, signature ∈ signatures := by
        intro signature hmem
        apply hours
        rw [recordedSignatures_snoc]
        exact List.mem_append_left _ hmem
      rw [List.filter_append, replay_snoc]
      cases hforeign : op.isForeign signatures with
      | false => simp [hforeign, ih hlog]
      | true =>
          cases op with
          | startRound roundId => cases hforeign
          | recordSend signature provider sentElapsed roundId => cases hforeign
          | recordLanding obs =>
              -- nobody has recorded a send of it
              have hunknown : openSend log obs.signature = none := by
                cases hopen : openSend log obs.signature with
                | none => rfl
                | some send =>
                    exact absurd (hlog _ (openSend_recorded hopen)) (of_decide_eq_true hforeign)
              have hnone := (exact_replay log).sent obs.signature
              rw [hunknown] at hnone
              simp [hforeign, ih hlog, apply, recordLanding_of_none hnone]

namespace World

variable {env : Env} {w w' : World}

/-- The calls on the book without the observations of other people's transactions. -/
def ownLog (env : Env) (w : World) : List BookOp :=
  w.log.filter fun op ↦ !op.isForeign (w.handedSignatures env)

theorem Traced.mem_handedSignatures (h : w.Traced env) {signature : String}
    (hmem : signature ∈ recordedSignatures w.log) : signature ∈ w.handedSignatures env := by
  obtain ⟨op, hop, hrecorded⟩ := List.mem_filterMap.mp hmem
  cases op with
  | startRound roundId => cases hrecorded
  | recordLanding obs => cases hrecorded
  | recordSend s provider sentElapsed roundId =>
      obtain rfl : s = signature := Option.some.inj hrecorded
      obtain ⟨given, hgiven, hsignature, -⟩ := h.recorded _ _ _ _ hop
      exact hsignature ▸ List.mem_map_of_mem hgiven

theorem tally_eq_ownLog {as : List Act} (hrun : env.machine.run as = some w) :
    w.book.tally = (LandingBook.replay (w.ownLog env)).tally := by
  have hown : LandingBook.replay (w.ownLog env) = LandingBook.replay w.log :=
    LandingBook.replay_filter_isForeign fun _ hmem ↦ (traced hrun).mem_handedSignatures hmem
  rw [hown]
  exact congrArg Accounts.tally (replayed hrun)

/-- Two runs with the same calls on the book, but for observations of transactions
that the program did not send, end with the same report. -/
theorem strangers_leave_no_trace (env : Env) (as as' : List Act) (w w' : World)
    (summary summary' : LandingSummary) (hrun : env.machine.run as = some w)
    (hrun' : env.machine.run as' = some w') (hdone : w.main.pc = .done summary)
    (hdone' : w'.main.pc = .done summary') (hown : w.ownLog env = w'.ownLog env) :
    summary = summary' := by
  obtain ⟨iter, hiter, rfl⟩ := summary_eq hrun hdone
  obtain ⟨iter', hiter', rfl⟩ := summary_eq hrun' hdone'
  have htally : w.book.tally = w'.book.tally := by
    rw [tally_eq_ownLog hrun, tally_eq_ownLog hrun', hown]
  exact LandingBook.finalize_of_tally_eq htally hiter hiter'

/-- Somebody else's transaction with the tag of an endpoint. -/
def stranger : StreamItem :=
  .update (some (.transaction ⟨some ⟨some ⟨[⟨#[1]⟩],
    some ⟨[Sample.memoProgram.bytes], [⟨0, "rpc|1".toUTF8⟩]⟩⟩⟩⟩))

/-- A round that lands, behind whatever `before` has done. -/
def landedBehind (before : List Act) : List Act :=
  Sample.startup ++ [.main .go, .main .go] ++ before ++ Sample.openRound Sample.nonce₀ ++
    Sample.sendOne ++ Sample.observeOne (Sample.report "rpc" 0) ++
    [.send 0 (.wait .selfLanded)] ++ Sample.closeRound ++ Sample.shutDown ++
    [.main (.finalize [("rpc", ⟨1, [5]⟩)])]

theorem strangers_leave_no_trace_stranger : ∃ w w' summary summary',
    (Sample.rpcEnv 1).machine.run (landedBehind []) = some w ∧
      (Sample.rpcEnv 1).machine.run (landedBehind
        [.listener (.next stranger), .listener .deliver, .memo, .memo]) = some w' ∧
      w.main.pc = .done summary ∧ w'.main.pc = .done summary' ∧ w.log ≠ w'.log ∧
      summary = summary' := by
  have hrun : (((Sample.rpcEnv 1).machine.run (landedBehind [])).bind fun w ↦
      ((Sample.rpcEnv 1).machine.run (landedBehind
        [.listener (.next stranger), .listener .deliver, .memo, .memo])).map fun w' ↦
          (w.main.pc.isDone, w'.main.pc.isDone, decide (w.log ≠ w'.log),
            decide (w.ownLog (Sample.rpcEnv 1) = w'.ownLog (Sample.rpcEnv 1)))) =
      some (true, true, true, true) := by decide +kernel
  obtain ⟨w, hw, hrest⟩ := Option.bind_eq_some_iff.mp hrun
  obtain ⟨w', hw', hread⟩ := Option.map_eq_some_iff.mp hrest
  simp only [Prod.mk.injEq, decide_eq_true_eq] at hread
  obtain ⟨hdone, hdone', hlog, hown⟩ := hread
  obtain ⟨summary, hpc⟩ := MainPc.isDone_iff.mp hdone
  obtain ⟨summary', hpc'⟩ := MainPc.isDone_iff.mp hdone'
  exact ⟨w, w', summary, summary', hw, hw', hpc, hpc', hlog,
    strangers_leave_no_trace _ _ _ w w' _ _ hw hw' hpc hpc' hown⟩

end World
end LandingBench
