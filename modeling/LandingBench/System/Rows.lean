import LandingBench.System.Provenance
import LandingBench.System.Report

/-!
# Which endpoints have a row

A row comes from the first `record_send` of its name, which is only reached
when the sender has returned a signature.
-/

namespace LandingBench

open Async Data Ledger

/-- The name under which the send is going to be recorded. -/
def SendTask.toRecord? (task : SendTask) : Option String :=
  match task.stage with
  | .recording _ _ => some task.endpoint.name
  | .created | .sending _ _ | .waiting _ _ | .finished _ => none

theorem SendTask.toRecord?_eq_none {task : SendTask}
    (h : ∀ signature sendElapsed, task.stage ≠ .recording signature sendElapsed) :
    task.toRecord? = none := by
  unfold SendTask.toRecord?
  split
  · rename_i signature sendElapsed hrecording
    exact absurd hrecording (h signature sendElapsed)
  all_goals rfl

/-- One row for every configured name, in order, which is empty where nothing
of that name has landed. -/
structure LandingSummary.ListsEndpoints (summary : LandingSummary) (endpoints : List Endpoint)
    (log : List BookOp) : Prop where
  names : ∀ name, name ∈ summary.providers.map ProviderSummary.name ↔
    name ∈ endpoints.map Endpoint.name
  sorted : (summary.providers.map ProviderSummary.name).Pairwise (· ≤ ·)
  nodup : (summary.providers.map ProviderSummary.name).Nodup
  unlanded : ∀ row ∈ summary.providers, row.counts log = [] →
    row.landed = 0 ∧ row.latenciesMs = []

theorem LandingBook.sorted_finalize (book : LandingBook)
    (iter : List (String × ProviderMetrics)) :
    ((book.finalize iter).providers.map ProviderSummary.name).Pairwise (· ≤ ·) := by
  rw [List.pairwise_map]
  exact List.pairwise_insertionSort (fun a b : ProviderSummary ↦ a.name ≤ b.name) _

namespace World

variable {env : Env} {w w' : World}

/-- The name of the endpoint whose sender returns a signature in this step. -/
def returned? (w : World) : Act → Option String
  | .send i (.returned true) => (w.sends[i]?).map fun task ↦ task.endpoint.name
  | _ => none

def returnedNames (env : Env) (as : List Act) : List String := env.machine.outputs returned? as

def toRecord (w : World) : List String := w.sends.filterMap SendTask.toRecord?

/-- Every send that a sender has taken is recorded, or about to be. -/
def Accounted (returned : List String) (w : World) : Prop :=
  returned.Perm (sentProviders w.log ++ w.toRecord)

section Step

variable {returned : List String}

theorem Accounted.congr (h : Accounted returned w)
    (hlog : sentProviders w'.log = sentProviders w.log) (hsends : w'.toRecord = w.toRecord) :
    Accounted returned w' := by
  rw [Accounted, hlog, hsends]
  exact h

theorem toRecord_setSend {i : ℕ} {task : SendTask} (hget : w.sends[i]? = some task)
    (stage : SendStage) :
    (task.toRecord?.toList ++ (w.setSend i task stage).toRecord).Perm
      ((SendTask.toRecord? { task with stage := stage }).toList ++ w.toRecord) :=
  Lists.perm_filterMap_set SendTask.toRecord? hget _

/-- A future that has nothing to record goes on to a stage with nothing either. -/
theorem Accounted.settle {i : ℕ} {task : SendTask} (h : Accounted returned w)
    (hget : w.sends[i]? = some task) (hidle : task.toRecord? = none) {stage : SendStage}
    (hstage : SendTask.toRecord? { task with stage := stage } = none) :
    Accounted (returned ++ []) (w.setSend i task stage) := by
  have hperm := toRecord_setSend hget stage
  rw [hidle, hstage] at hperm
  rw [List.append_nil]
  exact List.Perm.trans h (hperm.symm.append_left _)

theorem Accounted.sendMove {i : ℕ} {act : SendAct} (h : Accounted returned w)
    (hmove : SendMove env w i act w') :
    Accounted (returned ++ (w.returned? (.send i act)).toList) w' := by
  cases hmove with
  | declined task clock pc get stage signal =>
      exact h.settle get (SendTask.toRecord?_eq_none (by simp [stage])) rfl
  | unbuilt task clock err pc get stage signal build =>
      exact h.settle get (SendTask.toRecord?_eq_none (by simp [stage])) rfl
  | clientless task clock tx pc get stage signal build sender =>
      exact h.settle get (SendTask.toRecord?_eq_none (by simp [stage])) rfl
  | handed task clock tx client pc get stage signal build sender =>
      exact h.settle get (SendTask.toRecord?_eq_none (by simp [stage])) rfl
  | sent task tx sendElapsed pc get stage =>
      have hname : w.returned? (.send i (.returned true)) = some task.endpoint.name := by
        rw [returned?, get]
        rfl
      have hperm := toRecord_setSend get (.recording (env.host.base58 tx.signature) sendElapsed)
      rw [SendTask.toRecord?_eq_none (by simp [stage])] at hperm
      rw [hname, Option.toList_some]
      have hlast : (sentProviders w.log ++ w.toRecord ++ [task.endpoint.name]).Perm
          (sentProviders w.log ++ ([task.endpoint.name] ++ w.toRecord)) := by
        rw [List.append_assoc]
        exact List.perm_append_comm.append_left _
      exact ((h.append_right _).trans hlast).trans (hperm.symm.append_left _)
  | unsent task tx sendElapsed pc get stage =>
      exact h.settle get (SendTask.toRecord?_eq_none (by simp [stage])) rfl
  | recorded task signature sendElapsed pc get stage =>
      have hrecord : task.toRecord? = some task.endpoint.name := by
        rw [SendTask.toRecord?, stage]
      have hperm := toRecord_setSend get (.waiting
        (w.book.recordSend signature task.endpoint.name sendElapsed task.roundId).2
        (w.now + Duration.fromMillis env.config.config.landingGraceMs))
      rw [hrecord] at hperm
      have hnone : (w.returned? (.send i .record)).toList = [] := rfl
      rw [hnone, List.append_nil, Accounted, sentProviders_snoc, List.append_assoc]
      exact List.Perm.trans h (hperm.symm.append_left _)
  | waited task pair deadline outcome pc get stage ready =>
      exact h.settle get (SendTask.toRecord?_eq_none (by simp [stage])) rfl

theorem Accounted.mainMove {act : MainAct} (h : Accounted returned w)
    (hmove : MainMove env w act w') : Accounted returned w' := by
  cases hmove with
  | began nonceHash pc => exact h.congr (by simp [beginRound]) rfl
  | dispatched nonceHash ep index rest pc =>
      refine h.congr rfl ?_
      change (w.sends ++ [w.newSend env nonceHash ep index]).filterMap _ = _
      rw [List.filterMap_append]
      exact List.append_nil _
  | collected pc finished =>
      have hnone : w.toRecord = [] := by
        apply List.filterMap_eq_nil_iff.mpr
        intro task hmem
        have hfinished := List.all_eq_true.mp finished task hmem
        apply SendTask.toRecord?_eq_none
        intro signature sendElapsed hstage
        rw [hstage] at hfinished
        cases hfinished
      exact h.congr rfl hnone.symm
  | _ => exact h

theorem Accounted.move {act : Act} (h : Accounted returned w) (hmove : Move env w act w') :
    Accounted (returned ++ (w.returned? act).toList) w' := by
  have hsame : ∀ {w'}, Accounted returned w' → Accounted (returned ++ []) w' := by
    intro w' hw'
    rw [List.append_nil]
    exact hw'
  cases hmove with
  | tick d => exact hsame h
  | listener move =>
      rw [move.frame]
      exact hsame h
  | memo move =>
      cases move with
      | received obs rest pc buffer => exact hsame h
      | ended pc buffer senders => exact hsame h
      | recorded obs pc => exact hsame (h.congr (by simp) rfl)
  | ctrlC move =>
      rw [move.frame]
      exact hsame h
  | main move => exact hsame (h.mainMove move)
  | send move => exact h.sendMove move

end Step

theorem accounted {as : List Act} (hrun : env.machine.run as = some w) :
    Accounted (returnedNames env as) w := by
  refine env.machine.run_induction
    (motive := fun as w ↦ Accounted (returnedNames env as) w) (List.Perm.refl []) ?_ hrun
  intro as act w w' hw ih hstep
  rw [returnedNames, env.machine.outputs_snoc _ hw]
  exact ih.move (move hstep)

/-- The rows of a finished run are those of the names that were sent for. -/
theorem mem_rows_iff {as : List Act} (hrun : env.machine.run as = some w)
    {summary : LandingSummary} (hdone : w.main.pc = .done summary) (name : String) :
    name ∈ summary.providers.map ProviderSummary.name ↔ name ∈ returnedNames env as := by
  obtain ⟨iter, hiter, rfl⟩ := summary_eq hrun hdone
  have hmetrics : w.book.records.metrics = (LandingBook.replay w.log).records.metrics :=
    congrArg Accounts.metrics (replayed hrun)
  have hidle : w.sends = [] := (phased hrun).sends (by rw [hdone]; exact id)
  have hnone : w.toRecord = [] := by
    rw [toRecord, hidle]
    rfl
  have haccounted := accounted hrun
  rw [Accounted, hnone, List.append_nil] at haccounted
  rw [haccounted.mem_iff, ← mem_metrics_iff, ← hmetrics, ← AList.lookup_isSome,
    Option.isSome_iff_exists, List.mem_map]
  constructor
  · rintro ⟨row, hrow, rfl⟩
    obtain ⟨metrics, hlookup, -⟩ := (LandingBook.mem_finalize_providers hiter row).mp hrow
    exact ⟨metrics, hlookup⟩
  · rintro ⟨metrics, hlookup⟩
    exact ⟨ProviderSummary.fromMetrics name metrics,
      (LandingBook.mem_finalize_providers hiter _).mpr ⟨metrics, hlookup, rfl⟩, rfl⟩

/-- Only configured endpoints are sent for. -/
theorem returnedNames_subset {as : List Act} (hrun : env.machine.run as = some w) :
    returnedNames env as ⊆ env.config.endpoint.map Endpoint.name := by
  intro name hmem
  have htraced := traced hrun
  have haccounted := accounted hrun
  rcases List.mem_append.mp (haccounted.mem_iff.mp hmem) with hsent | hsending
  · obtain ⟨signature, sentElapsed, roundId, hlog⟩ := mem_sentProviders.mp hsent
    obtain ⟨handed, hhanded, -, hname, -⟩ := htraced.recorded _ _ _ _ hlog
    have hentry := (htraced.handed handed hhanded).1
    exact List.mem_map.mpr ⟨handed.endpoint, List.mem_of_getElem? hentry, hname⟩
  · obtain ⟨task, htask, hname⟩ := List.mem_filterMap.mp hsending
    have hentry := (htraced.sends task htask).entry
    unfold SendTask.toRecord? at hname
    split at hname
    · exact List.mem_map.mpr ⟨task.endpoint, List.mem_of_getElem? hentry,
        Option.some.inj hname⟩
    all_goals cases hname

/-- A finished run reports every endpoint exactly when the sender of each has
taken a transaction at least once. -/
theorem endpoints_listed_iff (env : Env) (as : List Act) (w : World) (summary : LandingSummary)
    (hrun : env.machine.run as = some w) (hdone : w.main.pc = .done summary) :
    summary.ListsEndpoints env.config.endpoint w.log ↔
      ∀ ep ∈ env.config.endpoint, ep.name ∈ returnedNames env as := by
  have hrows := mem_rows_iff hrun hdone
  have hreports := reports hrun hdone
  constructor
  · intro h ep hep
    exact (hrows ep.name).mp ((h.names ep.name).mpr (List.mem_map.mpr ⟨ep, hep, rfl⟩))
  · intro h
    refine ⟨fun name ↦ ?_, ?_, hreports.names, fun row hrow hnone ↦ ?_⟩
    · rw [hrows]
      refine ⟨fun hmem ↦ returnedNames_subset hrun hmem, fun hmem ↦ ?_⟩
      obtain ⟨ep, hep, rfl⟩ := List.mem_map.mp hmem
      exact h ep hep
    · obtain ⟨iter, -, rfl⟩ := summary_eq hrun hdone
      exact w.book.sorted_finalize iter
    · obtain ⟨hlanded, hlatencies⟩ := hreports.rows row hrow
      rw [hnone] at hlanded hlatencies
      exact ⟨hlanded, List.perm_nil.mp hlatencies⟩

theorem endpoints_listed_iff_landedRun :
    ∃ (w : World) (summary : LandingSummary), (Sample.rpcEnv 1).machine.run
        (Sample.landedRun ++ [.main (.finalize [("rpc", ⟨1, [5]⟩)])]) = some w ∧
      summary.ListsEndpoints (Sample.rpcEnv 1).config.endpoint w.log := by
  have hrun : ((Sample.rpcEnv 1).machine.run
      (Sample.landedRun ++ [.main (.finalize [("rpc", ⟨1, [5]⟩)])])).map
        (·.main.pc.isDone) = some true := by decide +kernel
  obtain ⟨w, hw, hdone⟩ := Option.map_eq_some_iff.mp hrun
  obtain ⟨summary, hpc⟩ := MainPc.isDone_iff.mp hdone
  refine ⟨w, summary, hw, (endpoints_listed_iff _ _ w summary hw hpc).mpr ?_⟩
  decide +kernel

/-- The only sender fails in the only round. -/
def unsentRun : List Act :=
  Sample.startup ++ [.main .go, .main .go] ++ Sample.failedRound Sample.nonce₀ ++
    Sample.shutDown ++ [.main (.finalize [])]

/-- Its endpoint is not in the summary. -/
theorem unsentRun_not_listed :
    ¬ ∀ env as w summary, (Env.machine env).run as = some w → w.main.pc = .done summary →
      startedRounds w.log ≠ [] → (∀ ok, .ctrlC (.signal ok) ∉ as) →
        summary.ListsEndpoints env.config.endpoint w.log := by
  intro h
  have hrun : ((Sample.rpcEnv 1).machine.run unsentRun).map (fun w ↦
      (w.main.pc.isDone, decide (startedRounds w.log ≠ []))) = some (true, true) := by
    decide +kernel
  obtain ⟨w, hw, hpair⟩ := Option.map_eq_some_iff.mp hrun
  obtain ⟨hdone, hstarted⟩ := Prod.mk.inj hpair
  obtain ⟨summary, hpc⟩ := MainPc.isDone_iff.mp hdone
  have hlists := h _ _ w summary hw hpc (of_decide_eq_true hstarted)
    (by simp [unsentRun, Sample.startup, Sample.failedRound, Sample.openRound, Sample.closeRound,
      Sample.shutDown])
  have hrow := (hlists.names "rpc").mpr (List.mem_map.mpr ⟨_, List.mem_cons_self, rfl⟩)
  exact absurd ((mem_rows_iff hw hpc "rpc").mp hrow) (by decide +kernel)

end World
end LandingBench
