import LandingBench.System.Facts
import LandingBench.Wakers

/-!
# How the wait of a send ends

The futures that wait are the pairs of the book, so in every run each of them
is woken by its own landing or by one of its round.
-/

namespace LandingBench

open Async Data Ledger

/-- The pair that a future holds while it waits. -/
def SendTask.waiting? (task : SendTask) : Option Waiting :=
  match task.stage with
  | .waiting pair _ => some ⟨task.roundId, pair⟩
  | .created | .sending _ _ | .recording _ _ | .finished _ => none

theorem SendTask.waiting?_eq_none {task : SendTask}
    (h : ∀ pair deadline, task.stage ≠ .waiting pair deadline) : task.waiting? = none := by
  unfold SendTask.waiting?
  split
  · rename_i pair deadline hwaiting
    exact absurd hwaiting (h pair deadline)
  all_goals rfl

/-- What a wait may end with once these calls have been made. -/
def WaitOutcome.Justified (log : List BookOp) (signature roundId : String) : WaitOutcome → Prop
  | selfLanded => ∃ landing ∈ LandingBook.accepted log, landing.obs.signature = signature
  | otherLanded => ∃ landing ∈ LandingBook.accepted log, landing.record.roundId = roundId
  | waiterDropped => False
  | timedOut => True

namespace World

variable {env : Env} {w w' : World}

def waiting (w : World) : List Waiting := w.sends.filterMap SendTask.waiting?

def SoundWaits (w : World) : Prop := Sound w.book w.waiting w.log

theorem SoundWaits.congr (h : w.SoundWaits) (hbook : w'.book = w.book)
    (hsends : w'.sends = w.sends) (hlog : w'.log = w.log) : w'.SoundWaits := by
  rw [SoundWaits, waiting, hbook, hsends, hlog]
  exact h

/-- A future that does not wait goes on to a stage in which it does not wait either. -/
theorem SoundWaits.settle {i : ℕ} {task : SendTask} (h : w.SoundWaits)
    (hget : w.sends[i]? = some task) (hidle : task.waiting? = none) {stage : SendStage}
    (hstage : SendTask.waiting? { task with stage := stage } = none) :
    (w.setSend i task stage).SoundWaits := by
  have hperm := Lists.perm_filterMap_set SendTask.waiting? hget { task with stage := stage }
  rw [hidle, hstage] at hperm
  exact Sound.perm h hperm.symm

/-- A future that starts to wait brings the pair that the book has given it. -/
theorem SoundWaits.record {i : ℕ} {task : SendTask} (h : w.SoundWaits)
    (hget : w.sends[i]? = some task) (hidle : task.waiting? = none) {signature : String}
    (sendElapsed deadline : Duration) (hfresh : signature ∉ recordedSignatures w.log) :
    Sound (w.book.recordSend signature task.endpoint.name sendElapsed task.roundId).1
      (w.setSend i task (.waiting
        (w.book.recordSend signature task.endpoint.name sendElapsed task.roundId).2
          deadline)).waiting
      (w.log ++ [.recordSend signature task.endpoint.name sendElapsed task.roundId]) := by
  have hrecorded := Sound.recordSend h task.endpoint.name sendElapsed task.roundId hfresh
  generalize (w.book.recordSend signature task.endpoint.name sendElapsed task.roundId).2 = pair
    at hrecorded ⊢
  have hperm := Lists.perm_filterMap_set SendTask.waiting? hget
    { task with stage := .waiting pair deadline }
  rw [hidle] at hperm
  exact hrecorded.perm (List.perm_append_comm.trans hperm.symm)

theorem SoundWaits.sendMove {i : ℕ} {act : SendAct} (h : w.SoundWaits)
    (hdistinct : (recordedSignatures w'.log).Nodup) (hmove : SendMove env w i act w') :
    w'.SoundWaits := by
  cases hmove with
  | declined task clock pc get stage signal =>
      exact h.settle get (SendTask.waiting?_eq_none (by simp [stage])) rfl
  | unbuilt task clock err pc get stage signal build =>
      exact (h.settle get (SendTask.waiting?_eq_none (by simp [stage])) rfl).congr rfl rfl rfl
  | clientless task clock tx pc get stage signal build sender =>
      exact (h.settle get (SendTask.waiting?_eq_none (by simp [stage])) rfl).congr rfl rfl rfl
  | handed task clock tx client pc get stage signal build sender =>
      exact (h.settle get (SendTask.waiting?_eq_none (by simp [stage])) rfl).congr rfl rfl rfl
  | sent task tx sendElapsed pc get stage =>
      exact h.settle get (SendTask.waiting?_eq_none (by simp [stage])) rfl
  | unsent task tx sendElapsed pc get stage =>
      exact h.settle get (SendTask.waiting?_eq_none (by simp [stage])) rfl
  | recorded task signature sendElapsed pc get stage =>
      have hfresh : signature ∉ recordedSignatures w.log := notMem_recorded_of_nodup hdistinct
      exact h.record get (SendTask.waiting?_eq_none (by simp [stage])) sendElapsed _ hfresh
  | waited task pair deadline outcome pc get stage ready =>
      have hperm := Lists.perm_filterMap_set SendTask.waiting? get
        { task with stage := .finished (.ok ()) }
      have hwaiting : task.waiting? = some ⟨task.roundId, pair⟩ := by
        rw [SendTask.waiting?, stage]
      rw [hwaiting] at hperm
      exact (Sound.perm h hperm.symm).dropPair

theorem SoundWaits.mainMove {act : MainAct} (h : w.SoundWaits) (hmove : MainMove env w act w') :
    w'.SoundWaits := by
  cases hmove with
  | began nonceHash pc => exact Sound.startRound h (env.host.base58 nonceHash.bytes)
  | dispatched nonceHash ep index rest pc =>
      have hsame : (w.sends ++ [w.newSend env nonceHash ep index]).filterMap SendTask.waiting? =
          w.waiting := by
        rw [List.filterMap_append]
        exact List.append_nil _
      change Sound w.book ((w.sends ++ [w.newSend env nonceHash ep index]).filterMap _) w.log
      rw [hsame]
      exact h
  | collected pc finished =>
      have hnone : w.waiting = [] := by
        apply List.filterMap_eq_nil_iff.mpr
        intro task hmem
        have hfinished := List.all_eq_true.mp finished task hmem
        apply SendTask.waiting?_eq_none
        intro pair deadline hstage
        rw [hstage] at hfinished
        cases hfinished
      rw [SoundWaits, hnone] at h
      exact h
  | _ => exact h

theorem SoundWaits.move {act : Act} (h : w.SoundWaits)
    (hdistinct : (recordedSignatures w'.log).Nodup) (hmove : Move env w act w') :
    w'.SoundWaits := by
  cases hmove with
  | tick d => exact h
  | listener move =>
      rw [move.frame]
      exact h
  | memo move =>
      cases move with
      | received obs rest pc buffer => exact h
      | ended pc buffer senders => exact h
      | recorded obs pc => exact Sound.recordLanding h obs
  | ctrlC move =>
      rw [move.frame]
      exact h
  | main move => exact h.mainMove move
  | send move => exact h.sendMove hdistinct move

theorem Move.log_grows {act : Act} (hmove : Move env w act w') : w.log <+: w'.log := by
  cases hmove with
  | tick d => exact List.prefix_refl _
  | listener move =>
      rw [move.frame]
  | memo move => cases move <;> simp
  | ctrlC move =>
      rw [move.frame]
  | main move => cases move <;> simp [setMain, failEarly, enterLoop, beginRound]
  | send move => cases move <;> simp [setSend]

theorem nodup_recorded_mono {log log' : List BookOp} (hgrows : log <+: log')
    (h : (recordedSignatures log').Nodup) : (recordedSignatures log).Nodup := by
  obtain ⟨later, rfl⟩ := hgrows
  exact nodup_recorded_left h

theorem soundWaits {as : List Act} (hrun : env.machine.run as = some w)
    (hdistinct : (recordedSignatures w.log).Nodup) : w.SoundWaits := by
  refine env.machine.run_induction
    (motive := fun _ w ↦ (recordedSignatures w.log).Nodup → w.SoundWaits)
    (fun _ ↦ sound_empty) ?_ hrun hdistinct
  intro as act w w' _ ih hstep hdistinct
  have hmove := move hstep
  exact (ih (nodup_recorded_mono hmove.log_grows hdistinct)).move hdistinct hmove

/-! ## From the record to the end of the wait -/

/-- A future comes to wait by the step of its own record only. -/
theorem Move.waited_before {act : Act} {i : ℕ} (hmove : Move env w act w')
    (hother : act ≠ .send i .record) {task : SendTask} {pair : WaitPair} {deadline : Duration}
    (hget : w'.sends[i]? = some task) (hstage : task.stage = .waiting pair deadline) :
    w.sends[i]? = some task := by
  cases hmove with
  | tick d => exact hget
  | listener move =>
      rw [move.frame] at hget
      exact hget
  | memo move =>
      rw [move.frame] at hget
      exact hget
  | ctrlC move =>
      rw [move.frame] at hget
      exact hget
  | main move =>
      cases move with
      | dispatched nonceHash ep index rest pc =>
          rcases Nat.lt_or_ge i w.sends.length with hlt | hge
          · exact (List.getElem?_append_left hlt).symm.trans hget
          · have hnew := (List.getElem?_append_right hge).symm.trans hget
            obtain rfl := List.mem_singleton.mp (List.mem_of_getElem? hnew)
            cases hstage
      | collected pc finished => cases hget
      | _ => exact hget
  | @send j act _ move =>
      rcases eq_or_ne j i with rfl | hne
      · obtain ⟨old, stage, hold, hsends⟩ := move.sends_eq
        have hlt := (List.getElem?_eq_some_iff.mp hold).1
        rw [hsends, List.getElem?_set_self hlt, Option.some.injEq] at hget
        subst hget
        have hnew : w'.sends[j]? = some { old with stage := stage } := by
          rw [hsends, List.getElem?_set_self hlt]
        cases move with
        | recorded => exact absurd rfl hother
        | _ =>
          simp only [setSend, List.getElem?_set_self hlt, Option.some.injEq] at hnew
          rw [← hnew] at hstage
          cases hstage
      · obtain ⟨old, stage, -, hsends⟩ := move.sends_eq
        rw [hsends, List.getElem?_set_ne hne] at hget
        exact hget

/-- If the future at `i` waits, then for the landing of this signature, or of this round. -/
def WaitsFor (w : World) (i : ℕ) (signature roundId : String) : Prop :=
  ∀ task pair deadline, w.sends[i]? = some task → task.stage = .waiting pair deadline →
    (recordedSignatures w.log)[pair.ack]? = some signature ∧ task.roundId = roundId

theorem WaitsFor.move {act : Act} {i : ℕ} {signature roundId : String}
    (h : w.WaitsFor i signature roundId) (hother : act ≠ .send i .record)
    (hmove : Move env w act w') : w'.WaitsFor i signature roundId := by
  intro task pair deadline hget hstage
  have hbefore := hmove.waited_before hother hget hstage
  obtain ⟨hack, hround⟩ := h task pair deadline hbefore hstage
  obtain ⟨later, hlog⟩ := hmove.log_grows
  refine ⟨?_, hround⟩
  rw [← hlog, recordedSignatures, List.filterMap_append]
  exact (List.getElem?_append_left (List.getElem?_eq_some_iff.mp hack).1).trans hack

theorem WaitsFor.runFrom {acts : List Act} {i : ℕ} {signature roundId : String}
    (h : w.WaitsFor i signature roundId) (hnot : .send i .record ∉ acts)
    (hrun : env.machine.runFrom w acts = some w') : w'.WaitsFor i signature roundId := by
  induction acts generalizing w with
  | nil =>
      obtain rfl : w = w' := by simpa using hrun
      exact h
  | cons act acts ih =>
      obtain ⟨u, hstep, hrest⟩ := Option.bind_eq_some_iff.mp hrun
      rw [List.mem_cons, not_or] at hnot
      exact ih (h.move (Ne.symm hnot.1) (World.move hstep)) hnot.2 hrest

theorem log_grows_of_runFrom {acts : List Act} (hrun : env.machine.runFrom w acts = some w') :
    w.log <+: w'.log :=
  env.machine.invariant_from (P := fun u ↦ w.log <+: u.log)
    (fun _ _ _ h hstep ↦ h.trans (move hstep).log_grows) (List.prefix_refl _) hrun

/-- The pair that a future gets from its record is the one of its own signature. -/
theorem waitsFor_recorded {pre : List Act} {i : ℕ} {v : World} {history : List BookOp}
    {signature provider roundId : String} {sentElapsed : Duration}
    (hrun : env.machine.run (pre ++ [.send i .record]) = some v)
    (hdistinct : (recordedSignatures v.log).Nodup)
    (hlog : v.log = history ++ [.recordSend signature provider sentElapsed roundId]) :
    v.WaitsFor i signature roundId := by
  obtain ⟨u, hu, hstep⟩ := env.machine.run_snoc_eq_some.mp hrun
  have hmove := move hstep
  have hsound := soundWaits hu (nodup_recorded_mono hmove.log_grows hdistinct)
  cases hmove with
  | send hmove =>
      cases hmove with
      | recorded old signature' sendElapsed pc get stage =>
          obtain ⟨-, hlast⟩ := List.append_inj' hlog rfl
          obtain ⟨rfl, -, -, rfl⟩ := BookOp.recordSend.inj (List.cons.inj hlast).1
          intro task pair deadline hget hstage
          have hlt := (List.getElem?_eq_some_iff.mp get).1
          simp only [setSend, List.getElem?_set_self hlt, Option.some.injEq] at hget
          subst hget
          obtain ⟨rfl, -⟩ := SendStage.waiting.inj hstage
          exact ⟨Sound.getElem?_ack hsound _ _ _ _, rfl⟩

/-- A wait that is over was ended by its own landing, by one of its round, or by the clock. -/
theorem SoundWaits.justified (h : w.SoundWaits) {i : ℕ} {signature roundId : String}
    (hfor : w.WaitsFor i signature roundId) {outcome : WaitOutcome}
    (hmove : SendMove env w i (.wait outcome) w') :
    outcome.Justified w.log signature roundId := by
  cases hmove with
  | waited task pair deadline outcome pc get stage ready =>
      obtain ⟨hack, rfl⟩ := hfor task pair deadline get stage
      have hmem : (⟨task.roundId, pair⟩ : Waiting) ∈ w.waiting := by
        apply List.mem_filterMap.mpr
        exact ⟨task, List.mem_of_getElem? get, by rw [SendTask.waiting?, stage]⟩
      cases outcome with
      | selfLanded => exact Sound.landed_of_completed h hack ready
      | otherLanded =>
          exact Sound.mem_landedRounds h ((h.subscribed.alerts _ hmem).landed ready)
      | waiterDropped =>
          have hopen := h.subscribed.not_hungUp hmem
          rw [waitReady, hopen] at ready
          cases ready
      | timedOut => trivial

/-- A wait never ends on a false landing: neither of a pair that `record_send`
has handed out, nor of a future of the program. -/
theorem waits_end_on_landings :
    (∀ ops room, WaitRoom.machine.run ops = some room →
      (recordedSignatures (WaitRoom.calls ops)).Nodup →
        ∀ pre before signature provider sentElapsed roundId post,
          ops = pre ++ .call (.recordSend signature provider sentElapsed roundId) :: post →
          WaitRoom.machine.run pre = some before →
          ∀ pair, pair = (before.book.recordSend signature provider sentElapsed roundId).2 →
            (room.book.acks[pair.ack]?.any Oneshot.completed = true →
              ∃ landing ∈ LandingBook.accepted (WaitRoom.calls ops),
                landing.obs.signature = signature) ∧
            (⟨roundId, pair⟩ ∈ room.pairs →
              (room.book.rounds[pair.round]?.any (Watch.changed · pair.seen) = true →
                ∃ landing ∈ LandingBook.accepted (WaitRoom.calls ops),
                  landing.record.roundId = roundId) ∧
              room.book.rounds[pair.round]?.any (Watch.hungUp · pair.seen) = false)) ∧
    (∀ env pre i v history signature provider sentElapsed roundId mid outcome w,
      (Env.machine env).run (pre ++ [.send i .record]) = some v →
      v.log = history ++ [.recordSend signature provider sentElapsed roundId] →
      (Env.machine env).run (pre ++ .send i .record :: mid ++ [.send i (.wait outcome)]) =
        some w →
      .send i .record ∉ mid → (recordedSignatures w.log).Nodup →
        outcome.Justified w.log signature roundId) := by
  constructor
  · rintro ops room hrun hdistinct pre before signature provider sentElapsed roundId post rfl
      hbefore pair rfl
    have hsound := WaitRoom.sound hrun hdistinct
    have hsound' := WaitRoom.sound hbefore (WaitRoom.nodup_recorded_of_append hdistinct)
    refine ⟨fun hcompleted ↦ ?_, fun hmem ↦ ⟨fun hchanged ↦ ?_, ?_⟩⟩
    · apply hsound.landed_of_completed _ hcompleted
      have hack := hsound'.getElem?_ack signature provider sentElapsed roundId
      have hsplit : WaitRoom.calls
          (pre ++ .call (.recordSend signature provider sentElapsed roundId) :: post) =
        WaitRoom.calls pre ++ [.recordSend signature provider sentElapsed roundId] ++
          WaitRoom.calls post := by
        simp [WaitRoom.calls]
      rw [hsplit, recordedSignatures, List.filterMap_append]
      exact (List.getElem?_append_left (List.getElem?_eq_some_iff.mp hack).1).trans hack
    · exact hsound.mem_landedRounds ((hsound.subscribed.alerts _ hmem).landed hchanged)
    · exact hsound.subscribed.not_hungUp hmem
  · intro env pre i v history signature provider sentElapsed roundId mid outcome w hv hlog hrun
      hnot hdistinct
    obtain ⟨u, hu, hstep⟩ := env.machine.run_snoc_eq_some.mp hrun
    rw [← List.singleton_append, ← List.append_assoc] at hu
    obtain ⟨v', hv', hmid⟩ := env.machine.run_append_eq_some.mp hu
    obtain rfl := Option.some.inj (hv.symm.trans hv')
    have hmove := move hstep
    have hdistinct' := nodup_recorded_mono hmove.log_grows hdistinct
    have hdistinct'' := nodup_recorded_mono (log_grows_of_runFrom hmid) hdistinct'
    have hfor := (waitsFor_recorded hv hdistinct'' hlog).runFrom hnot hmid
    cases hmove with
    | send hmove =>
        have hlog' : w.log = u.log := by
          cases hmove with
          | waited => rfl
        rw [hlog']
        exact (soundWaits hu hdistinct').justified hfor hmove

/-- The sample run up to its record. -/
def recordedRun : List Act :=
  Sample.startup ++ [.main .go, .main .go] ++ Sample.openRound Sample.nonce₀ ++
    [.send 0 (.poll Sample.wallClock), .send 0 (.returned true)]

theorem waits_end_on_landings_recordedRun :
    ((WaitRoom.machine.run [.call (.recordSend "s" "rpc" 0 "r"),
      .call (.recordLanding ⟨"s", "rpc|7", 5000000⟩)]).map fun room ↦
        room.book.acks.map Oneshot.completed) = some [true] ∧
    (∃ landing ∈ LandingBook.accepted [.recordSend "s" "rpc" 0 "r",
      .recordLanding ⟨"s", "rpc|7", 5000000⟩], landing.obs.signature = "s") ∧
    ∃ w signature roundId, (Sample.rpcEnv 1).machine.run (recordedRun ++ .send 0 .record ::
      Sample.observeOne (Sample.report "rpc" 0) ++ [.send 0 (.wait .selfLanded)]) = some w ∧
        WaitOutcome.selfLanded.Justified w.log signature roundId := by
  obtain ⟨hroom, hrun⟩ := waits_end_on_landings
  refine ⟨by decide, ?_, ?_⟩
  · have hops : WaitRoom.machine.run [.call (.recordSend "s" "rpc" 0 "r"),
        .call (.recordLanding ⟨"s", "rpc|7", 5000000⟩)] = some _ := rfl
    exact (hroom _ _ hops (by decide) [] _ "s" "rpc" 0 "r" _ rfl rfl _ rfl).1 (by decide)
  · have hended : ((Sample.rpcEnv 1).machine.run (recordedRun ++ .send 0 .record ::
        Sample.observeOne (Sample.report "rpc" 0) ++ [.send 0 (.wait .selfLanded)])).map
          (fun w ↦ decide (recordedSignatures w.log).Nodup) = some true := by decide +kernel
    obtain ⟨w, hw, hdistinct⟩ := Option.map_eq_some_iff.mp hended
    obtain ⟨u, hu, -⟩ := (Sample.rpcEnv 1).machine.run_snoc_eq_some.mp hw
    rw [← List.singleton_append, ← List.append_assoc] at hu
    obtain ⟨v, hv, -⟩ := (Sample.rpcEnv 1).machine.run_append_eq_some.mp hu
    obtain ⟨t, -, hstep⟩ := (Sample.rpcEnv 1).machine.run_snoc_eq_some.mp hv
    cases move hstep with
    | send hmove =>
        cases hmove with
        | recorded task signature sendElapsed pc get stage =>
            exact ⟨w, signature, task.roundId, hw, hrun _ _ _ _ t.log _ _ _ _ _ _ w hv rfl hw
              (by simp [Sample.observeOne]) (of_decide_eq_true hdistinct)⟩

end World
end LandingBench
