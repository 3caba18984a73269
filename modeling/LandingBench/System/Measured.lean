import LandingBench.System.Pipeline
import LandingBench.System.Provenance
import LandingBench.System.Report

/-!
# What a latency measures

A latency of the report is the time between two steps of the run: the poll that
gave the transaction away, and the message in which the listener found it.
-/

namespace LandingBench

open Async Data Ledger

/-- What the future is going to record, with the clock of its poll. -/
def SendTask.clocked? (host : Host) (task : SendTask) : Option (String × Duration) :=
  match task.stage with
  | .sending tx sendElapsed => some (host.base58 tx.signature, sendElapsed)
  | .recording signature sendElapsed => some (signature, sendElapsed)
  | .created | .waiting _ _ | .finished _ => none

theorem Ledger.obs_landings_sublist (history : List BookOp) :
    ((landings history).map Landing.obs).Sublist (observations history) := by
  induction history using List.reverseRecOn with
  | nil => exact List.Sublist.refl _
  | append_singleton history op ih =>
      rw [landings_snoc, List.map_append, observations, List.filterMap_append]
      refine ih.append ?_
      cases hlanding : landingOf history op with
      | none => exact List.nil_sublist _
      | some landing =>
          obtain ⟨rfl, -⟩ := landingOf_eq_some_iff.mp hlanding
          exact List.Sublist.refl _

namespace World

variable {env : Env} {w w' : World} {given : List (Handed × Duration)}

/-- What a step adds to a list, and what the clock shows then. -/
def added? {α : Type} (env : Env) (list : World → List α) (w : World) (act : Act) :
    Option (α × Duration) :=
  (env.machine.step w act).bind fun w' ↦
    ((list w').drop (list w).length).head?.map fun x ↦ (x, w.now)

section Added

variable {α : Type} {list : World → List α} {act : Act}

theorem added?_eq_none (hstep : env.machine.step w act = some w') (hlist : list w' = list w) :
    w.added? env list act = none := by
  rw [added?, hstep, Option.bind_some, hlist, List.drop_length]
  rfl

theorem added?_eq_some {x : α} (hstep : env.machine.step w act = some w')
    (hlist : list w' = list w ++ [x]) : w.added? env list act = some (x, w.now) := by
  rw [added?, hstep, Option.bind_some, hlist, List.drop_left]
  rfl

end Added

/-- The transactions that a run gives to the senders, and when. -/
def givenFrom (env : Env) (as : List Act) : List (Handed × Duration) :=
  env.machine.outputs (added? env World.handed) as

/-- A transaction of this signature was given away at this time. -/
def GivenAt (env : Env) (given : List (Handed × Duration)) (signature provider : String)
    (sentElapsed : Duration) (roundId : String) : Prop :=
  ∃ h, (h, sentElapsed) ∈ given ∧ h.signature env.host = signature ∧
    h.endpoint.name = provider ∧ h.roundId = roundId

theorem GivenAt.append {signature provider roundId : String} {sentElapsed : Duration}
    (h : GivenAt env given signature provider sentElapsed roundId)
    (later : List (Handed × Duration)) :
    GivenAt env (given ++ later) signature provider sentElapsed roundId := by
  obtain ⟨handed, hmem, hrest⟩ := h
  exact ⟨handed, List.mem_append_left _ hmem, hrest⟩

/-- The clocks in the futures and in the log are those of the polls. -/
structure Clocked (env : Env) (given : List (Handed × Duration)) (w : World) : Prop where
  handed : given.map Prod.fst = w.handed
  pending : ∀ task ∈ w.sends, ∀ signature sendElapsed,
    task.clocked? env.host = some (signature, sendElapsed) →
      GivenAt env given signature task.endpoint.name sendElapsed task.roundId
  recorded : ∀ signature provider sentElapsed roundId,
    .recordSend signature provider sentElapsed roundId ∈ w.log →
      GivenAt env given signature provider sentElapsed roundId

theorem Clocked.congr (h : Clocked env given w) (hhanded : w'.handed = w.handed)
    (hsends : ∀ task ∈ w'.sends, task.clocked? env.host = none ∨ task ∈ w.sends)
    (hlog : ∀ signature provider sentElapsed roundId,
      .recordSend signature provider sentElapsed roundId ∈ w'.log →
        .recordSend signature provider sentElapsed roundId ∈ w.log) : Clocked env given w' where
  handed := h.handed.trans hhanded.symm
  pending task hmem signature sendElapsed hclocked := by
    rcases hsends task hmem with hnone | hold
    · rw [hnone] at hclocked
      cases hclocked
    · exact h.pending task hold signature sendElapsed hclocked
  recorded signature provider sentElapsed roundId hmem :=
    h.recorded _ _ _ _ (hlog _ _ _ _ hmem)

/-- A future that keeps its clock, or has none any more. -/
theorem Clocked.setSend (h : Clocked env given w) {i : ℕ} {task : SendTask} {stage : SendStage}
    (hget : w.sends[i]? = some task)
    (hclocked : SendTask.clocked? env.host { task with stage := stage } = none ∨
      SendTask.clocked? env.host { task with stage := stage } = task.clocked? env.host)
    (hhanded : w'.handed = w.handed)
    (hsends : w'.sends = w.sends.set i { task with stage := stage }) (hlog : w'.log = w.log) :
    Clocked env given w' where
  handed := h.handed.trans hhanded.symm
  pending task' hmem signature sendElapsed hsome := by
    rw [hsends] at hmem
    rcases List.mem_or_eq_of_mem_set hmem with hold | rfl
    · exact h.pending task' hold signature sendElapsed hsome
    · rcases hclocked with hnone | hsame
      · rw [hnone] at hsome
        cases hsome
      · rw [hsame] at hsome
        exact h.pending task (List.mem_of_getElem? hget) signature sendElapsed hsome
  recorded := hlog ▸ h.recorded

theorem Clocked.sendMove {i : ℕ} {act : SendAct} (h : Clocked env given w)
    (hstep : env.machine.step w (.send i act) = some w') (hmove : SendMove env w i act w') :
    Clocked env (given ++ (w.added? env World.handed (.send i act)).toList) w' := by
  have hquiet : w'.handed = w.handed → Clocked env given w' →
      Clocked env (given ++ (w.added? env World.handed (.send i act)).toList) w' := by
    intro hhanded hclocked
    rwa [added?_eq_none hstep hhanded, Option.toList_none, List.append_nil]
  cases hmove with
  | declined task clock pc get stage signal =>
      exact hquiet rfl (h.setSend get (.inl rfl) rfl rfl rfl)
  | unbuilt task clock err pc get stage signal build =>
      exact hquiet rfl (h.setSend get (.inl rfl) rfl rfl rfl)
  | clientless task clock tx pc get stage signal build sender =>
      exact hquiet rfl (h.setSend get (.inl rfl) rfl rfl rfl)
  | handed task clock tx client pc get stage signal build sender =>
      rw [added?_eq_some hstep rfl, Option.toList_some]
      refine ⟨?_, fun task' hmem signature sendElapsed hsome ↦ ?_, fun _ _ _ _ hmem ↦ ?_⟩
      · rw [List.map_append, h.handed]
        rfl
      · rcases List.mem_or_eq_of_mem_set hmem with hold | rfl
        · exact (h.pending task' hold signature sendElapsed hsome).append _
        · obtain ⟨rfl, rfl⟩ := Prod.mk.inj (Option.some.inj hsome)
          exact ⟨_, List.mem_append_right _ (List.mem_singleton.mpr rfl), rfl, rfl, rfl⟩
      · exact (h.recorded _ _ _ _ hmem).append _
  | sent task tx sendElapsed pc get stage =>
      refine hquiet rfl (h.setSend get (.inr ?_) rfl rfl rfl)
      rw [SendTask.clocked?, SendTask.clocked?, stage]
  | unsent task tx sendElapsed pc get stage =>
      exact hquiet rfl (h.setSend get (.inl rfl) rfl rfl rfl)
  | recorded task signature sendElapsed pc get stage =>
      have hset : Clocked env given (w.setSend i task (.waiting (w.book.recordSend signature
          task.endpoint.name sendElapsed task.roundId).2
            (w.now + Duration.fromMillis env.config.config.landingGraceMs))) :=
        h.setSend get (.inl rfl) rfl rfl rfl
      refine hquiet rfl ⟨hset.handed, hset.pending, fun _ _ _ _ hmem ↦ ?_⟩
      rcases List.mem_append.mp hmem with hold | hnew
      · exact h.recorded _ _ _ _ hold
      · obtain ⟨rfl, rfl, rfl, rfl⟩ := BookOp.recordSend.inj (List.mem_singleton.mp hnew)
        apply h.pending task (List.mem_of_getElem? get)
        rw [SendTask.clocked?, stage]
  | waited task pair deadline outcome pc get stage ready =>
      exact hquiet rfl (h.setSend get (.inl rfl) rfl rfl rfl)

theorem Clocked.mainMove {act : MainAct} (h : Clocked env given w)
    (hmove : MainMove env w act w') : Clocked env given w' := by
  have hsame : ∀ task ∈ w.sends, task.clocked? env.host = none ∨ task ∈ w.sends :=
    fun _ hmem ↦ .inr hmem
  cases hmove with
  | began nonceHash pc =>
      refine h.congr rfl hsame fun _ _ _ _ hmem ↦ ?_
      rcases List.mem_append.mp hmem with hold | hnew
      · exact hold
      · cases List.mem_singleton.mp hnew
  | dispatched nonceHash ep index rest pc =>
      refine h.congr rfl (fun task hmem ↦ ?_) fun _ _ _ _ ↦ id
      rcases List.mem_append.mp hmem with hold | hnew
      · exact .inr hold
      · obtain rfl := List.mem_singleton.mp hnew
        exact .inl rfl
  | collected pc finished => exact h.congr rfl (fun task hmem ↦ by cases hmem) fun _ _ _ _ ↦ id
  | _ => exact h.congr rfl hsame fun _ _ _ _ ↦ id

theorem Clocked.step {act : Act} (h : Clocked env given w)
    (hstep : env.machine.step w act = some w') :
    Clocked env (given ++ (w.added? env World.handed act).toList) w' := by
  have hquiet : w'.handed = w.handed → Clocked env given w' →
      Clocked env (given ++ (w.added? env World.handed act).toList) w' := by
    intro hhanded hclocked
    rwa [added?_eq_none hstep hhanded, Option.toList_none, List.append_nil]
  have hsame : ∀ task ∈ w.sends, task.clocked? env.host = none ∨ task ∈ w.sends :=
    fun _ hmem ↦ .inr hmem
  cases World.move hstep with
  | send move => exact h.sendMove hstep move
  | tick d => exact hquiet rfl (h.congr rfl hsame fun _ _ _ _ ↦ id)
  | listener move =>
      refine hquiet (by rw [move.frame]) ?_
      rw [move.frame]
      exact h.congr rfl hsame fun _ _ _ _ ↦ id
  | ctrlC move =>
      refine hquiet (by rw [move.frame]) ?_
      rw [move.frame]
      exact h.congr rfl hsame fun _ _ _ _ ↦ id
  | main move => exact hquiet (by rw [move.frame]) (h.mainMove move)
  | memo move =>
      refine hquiet (by rw [move.frame]) ?_
      cases move with
      | received obs rest pc buffer => exact h.congr rfl hsame fun _ _ _ _ ↦ id
      | ended pc buffer senders => exact h.congr rfl hsame fun _ _ _ _ ↦ id
      | recorded obs pc =>
          refine h.congr rfl hsame fun _ _ _ _ hmem ↦ ?_
          rcases List.mem_append.mp hmem with hold | hnew
          · exact hold
          · cases List.mem_singleton.mp hnew

theorem clocked {as : List Act} (hrun : env.machine.run as = some w) :
    Clocked env (givenFrom env as) w := by
  refine env.machine.run_induction (motive := fun as w ↦ Clocked env (givenFrom env as) w)
    ⟨rfl, fun _ hmem ↦ (by cases hmem), fun _ _ _ _ hmem ↦ by cases hmem⟩ ?_ hrun
  intro as act s t hs ih hstep
  rw [givenFrom, env.machine.outputs_snoc _ hs]
  exact ih.step hstep

/-- What the book has been told was observed, in the same order. -/
theorem observations_sublist {as : List Act} (hrun : env.machine.run as = some w) :
    (observations w.log).Sublist (observedFrom env as) := by
  obtain ⟨lost, hseen, -⟩ := (piped hrun).pieces
  rw [hseen, (conserved hrun).pieces, List.append_assoc, List.append_assoc, List.append_assoc]
  exact List.sublist_append_left _ _

/-- The latencies of a row are the times from the polls that gave its transactions
away to the messages that showed them, and no two of them are of one message. -/
theorem latencies_are_measured (env : Env) (as : List Act) (w : World) (summary : LandingSummary)
    (hrun : env.machine.run as = some w) (hdone : w.main.pc = .done summary) :
    ∀ row ∈ summary.providers, ∃ shots : List (Duration × MemoObservation),
      row.landed = shots.length ∧
      row.latenciesMs.Perm (shots.map fun shot ↦
        Duration.asMillis (shot.2.elapsedSinceStart - shot.1)) ∧
      (shots.map Prod.snd).Sublist (observedFrom env as) ∧
      ∀ shot ∈ shots, ∃ h, (h, shot.1) ∈ givenFrom env as ∧
        h.signature env.host = shot.2.signature ∧ h.endpoint.name = row.name := by
  intro row hrow
  obtain ⟨hlanded, hlatencies⟩ := (reports hrun hdone).rows row hrow
  refine ⟨(row.counts w.log).map fun landing ↦ (landing.record.sentElapsed, landing.obs), ?_, ?_,
    ?_, ?_⟩
  · rw [List.length_map, hlanded]
  · rw [List.map_map]
    exact hlatencies
  · have hcounted : ((row.counts w.log).map Landing.obs).Sublist
        ((landings w.log).map Landing.obs) := by
      rw [ProviderSummary.counts, LandingBook.accepted_eq_landings]
      exact List.filter_sublist.map _
    rw [List.map_map]
    exact hcounted.trans ((obs_landings_sublist w.log).trans (observations_sublist hrun))
  · intro shot hmem
    obtain ⟨landing, hlanding, rfl⟩ := List.mem_map.mp hmem
    obtain ⟨haccepted, hname⟩ := List.mem_filter.mp hlanding
    rw [LandingBook.accepted_eq_landings] at haccepted
    obtain ⟨pre, post, hlog, hopen, -⟩ := mem_landings_iff.mp haccepted
    obtain ⟨earlier, since, hpre, -⟩ := openSend_eq_some_iff.mp hopen
    obtain ⟨h, hgiven, hsignature, hprovider, -⟩ := (clocked hrun).recorded landing.obs.signature
      landing.record.provider landing.record.sentElapsed landing.record.roundId
      (by simp [hlog, hpre])
    exact ⟨h, hgiven, hsignature, hprovider.trans (of_decide_eq_true hname)⟩

/-- The message comes five milliseconds after the poll. -/
theorem latencies_are_measured_landedRun : ∃ w summary,
    (Sample.rpcEnv 1).machine.run
        (Sample.landedRun ++ [.main (.finalize [("rpc", ⟨1, [5]⟩)])]) = some w ∧
      w.main.pc = .done summary ∧ ∀ row ∈ summary.providers,
        ∃ shots : List (Duration × MemoObservation), row.landed = shots.length ∧
          row.latenciesMs.Perm (shots.map fun shot ↦
            Duration.asMillis (shot.2.elapsedSinceStart - shot.1)) := by
  have hrun : ((Sample.rpcEnv 1).machine.run
      (Sample.landedRun ++ [.main (.finalize [("rpc", ⟨1, [5]⟩)])])).map (·.main.pc.isDone) =
        some true := by decide +kernel
  obtain ⟨w, hw, hdone⟩ := Option.map_eq_some_iff.mp hrun
  obtain ⟨summary, hpc⟩ := MainPc.isDone_iff.mp hdone
  refine ⟨w, summary, hw, hpc, fun row hrow ↦ ?_⟩
  obtain ⟨shots, hlanded, hlatencies, -⟩ := latencies_are_measured _ _ w summary hw hpc row hrow
  exact ⟨shots, hlanded, hlatencies⟩

end World
end LandingBench
