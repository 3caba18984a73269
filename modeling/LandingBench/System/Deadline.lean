import LandingBench.System.Cutoff
import LandingBench.System.Pacing
import LandingBench.System.Rounds

/-!
# How long a shutdown takes

A clock that runs as it likes bounds nothing from above.  In a timely run it
does not run past a step that the program can take by itself, and a call of a
sender is over within a given time.  Then the time from a Ctrl-C to the summary
is bounded, whatever the stream does.
-/

namespace LandingBench

open Async Data Ledger

/-- What the program does by itself, as soon as it can. -/
def Act.own : Act → Bool
  | memo | listener .cancel | main .go | main .timeout => true
  | send _ (.poll _) | send _ .record | send _ (.wait _) => true
  | _ => false

namespace Env

/-- When the last round is over, and the sleep behind it or the grace. -/
def lastBy (env : Env) (ρ start : ℕ) : ℕ := start + ρ + env.grace + env.delay

/-- When the listener and the memo task are over too. -/
def closedBy (env : Env) (ρ start : ℕ) : ℕ := env.lastBy ρ start + Duration.fromMillis 2000

theorem le_lastBy (env : Env) {ρ start now : ℕ} (h : now ≤ start + ρ + env.grace) :
    now ≤ env.lastBy ρ start := Nat.le_add_right_of_le h

theorem add_delay_le (env : Env) {ρ start now : ℕ} (h : now ≤ start + ρ + env.grace) :
    now + env.delay ≤ env.lastBy ρ start := Nat.add_le_add_right h _

theorem le_closedBy (env : Env) {ρ start now : ℕ} (h : now ≤ env.lastBy ρ start) :
    now ≤ env.closedBy ρ start := Nat.le_add_right_of_le h

theorem add_select_le (env : Env) {ρ start now : ℕ} (h : now ≤ env.lastBy ρ start) :
    now + Duration.fromMillis 2000 ≤ env.closedBy ρ start := Nat.add_le_add_right h _

end Env

namespace MainPc

/-- The RPC is being asked for the nonce. -/
def Asking : MainPc → Prop
  | fetching _ | nonceSleep _ _ => True
  | _ => False

/-- When the sleep between two rounds is over. -/
def delayUntil : MainPc → Option Duration
  | delaying wake => some wake
  | _ => none

theorem delayUntil_eq_some {pc : MainPc} {wake : Duration} :
    pc.delayUntil = some wake ↔ pc = .delaying wake := by
  cases pc <;> simp [delayUntil]

/-- A timer is set to no more than its length from now on. -/
def SetWithin (env : Env) (now : ℕ) : MainPc → Prop
  | delaying wake => wake ≤ now + env.delay
  | graceSleep wake => wake ≤ now + env.grace
  | selecting wake => wake ≤ now + Duration.fromMillis 2000
  | _ => True

/-- Where `main` is at which time, when the shutdown was at `start`. -/
def ClosesBy (env : Env) (ρ start now : ℕ) : MainPc → Prop
  | awaitReady | connecting _ | fetching _ | nonceSleep _ _ | failed _ => False
  | starting _ | dispatching _ _ => now ≤ start
  | collecting => now ≤ start + ρ + env.grace
  | loopTop | graceCheck | signalling => now ≤ env.lastBy ρ start
  | delaying wake | graceSleep wake => now ≤ env.lastBy ρ start ∧ wake ≤ env.lastBy ρ start
  | selecting wake => now ≤ env.closedBy ρ start ∧ wake ≤ env.closedBy ρ start
  | aborting | awaitingMemo => now ≤ env.closedBy ρ start
  | finalizing | done _ => True

theorem ClosesBy.not_failed {env : Env} {ρ start now : ℕ} {pc : MainPc}
    (h : pc.ClosesBy env ρ start now) (err : String) : pc ≠ .failed err := by
  rintro rfl
  exact h

theorem ClosesBy.le {env : Env} {ρ start now : ℕ} {pc : MainPc}
    (h : pc.ClosesBy env ρ start now) : pc.AtFinalize ∨ now ≤ env.closedBy ρ start := by
  cases pc with
  | awaitReady | connecting rest | fetching deadline | nonceSleep deadline wake | failed err =>
      exact h.elim
  | finalizing | done summary => exact .inl trivial
  | starting nonceHash | dispatching nonceHash rest =>
      have hnow : now ≤ start + ρ + env.grace :=
        Nat.le_add_right_of_le (Nat.le_add_right_of_le h)
      exact .inr (env.le_closedBy (env.le_lastBy hnow))
  | collecting => exact .inr (env.le_closedBy (env.le_lastBy h))
  | loopTop | graceCheck | signalling => exact .inr (env.le_closedBy h)
  | delaying wake | graceSleep wake => exact .inr (env.le_closedBy h.1)
  | selecting wake => exact .inr h.1
  | aborting | awaitingMemo => exact .inr h

end MainPc

namespace SendStage

def SetWithin (env : Env) (now : ℕ) : SendStage → Prop
  | sending _ sendElapsed => sendElapsed ≤ now
  | waiting _ deadline => deadline ≤ now + env.grace
  | created | recording _ _ | finished _ => True

def ClosesBy (env : Env) (ρ start now : ℕ) : SendStage → Prop
  | created => now ≤ start
  | sending _ sendElapsed => sendElapsed ≤ start ∧ now ≤ start + ρ
  | recording _ _ => now ≤ start + ρ
  | waiting _ deadline => deadline ≤ start + ρ + env.grace
  | finished _ => True

/-- The call of the sender is not older than `ρ`. -/
def ReturnsWithin (ρ now : ℕ) : SendStage → Prop
  | sending _ sendElapsed => now ≤ sendElapsed + ρ
  | created | recording _ _ | waiting _ _ | finished _ => True

end SendStage

namespace World

variable {env : Env} {w w' : World} {ρ start : ℕ}

/-- The clock passes no step that the program can take by itself, and no call of
a sender goes on for longer than `ρ`. -/
def Timely (env : Env) (ρ : ℕ) (w : World) : Act → Prop
  | .tick d =>
      (∀ d' < d, ∀ act : Act, act.own = true →
        env.machine.step { w with now := w.now + d' } act = none) ∧
      ∀ task ∈ w.sends, task.stage.ReturnsWithin ρ (w.now + d)
  | _ => True

/-! ## Timers -/

structure TimersSet (env : Env) (w : World) : Prop where
  main : w.main.pc.SetWithin env w.now
  sends : ∀ task ∈ w.sends, task.stage.SetWithin env w.now

theorem TimersSet.mainMove {act : MainAct} (h : w.TimersSet env) (hmove : MainMove env w act w') :
    w'.TimersSet env := by
  cases hmove with
  | dispatched nonceHash ep index rest pc =>
      refine ⟨trivial, fun task hmem ↦ ?_⟩
      rcases List.mem_append.mp hmem with hold | hnew
      · exact h.sends task hold
      · obtain rfl := List.mem_singleton.mp hnew
        trivial
  | collected pc => exact ⟨le_rfl, fun task hmem ↦ by cases hmem⟩
  | unflagged pc => exact ⟨le_rfl, h.sends⟩
  | signalled pc => exact ⟨le_rfl, h.sends⟩
  | _ => exact ⟨trivial, h.sends⟩

theorem TimersSet.setSend (h : w.TimersSet env) {i : ℕ} {task : SendTask} (stage : SendStage)
    (hstage : stage.SetWithin env w.now) (hmain : w'.main = w.main) (hnow : w'.now = w.now)
    (hsends : w'.sends = w.sends.set i { task with stage := stage }) : w'.TimersSet env where
  main := by
    rw [hmain, hnow]
    exact h.main
  sends task' hmem := by
    rw [hnow]
    rw [hsends] at hmem
    rcases List.mem_or_eq_of_mem_set hmem with hold | rfl
    · exact h.sends task' hold
    · exact hstage

theorem TimersSet.move {act : Act} (h : w.TimersSet env) (hmove : Move env w act w') :
    w'.TimersSet env := by
  cases hmove with
  | main move => exact h.mainMove move
  | listener move =>
      rw [move.frame]
      exact ⟨h.main, h.sends⟩
  | memo move =>
      rw [move.frame]
      exact ⟨h.main, h.sends⟩
  | ctrlC move =>
      rw [move.frame]
      exact ⟨h.main, h.sends⟩
  | tick d =>
      have hlater : w.now ≤ w.now + d := Nat.le_add_right _ _
      constructor
      · have hmain := h.main
        change w.main.pc.SetWithin env (w.now + d)
        cases hpc : w.main.pc with
        | delaying wake | graceSleep wake | selecting wake =>
            rw [hpc] at hmain
            exact le_trans hmain (Nat.add_le_add_right hlater _)
        | _ => trivial
      · intro task hmem
        have htask := h.sends task hmem
        change task.stage.SetWithin env (w.now + d)
        cases hstage : task.stage with
        | sending tx sendElapsed =>
            rw [hstage] at htask
            exact le_trans htask hlater
        | waiting pair deadline =>
            rw [hstage] at htask
            exact le_trans htask (Nat.add_le_add_right hlater _)
        | _ => trivial
  | send move =>
      cases move with
      | handed task clock tx => exact h.setSend (.sending tx w.now) le_rfl rfl rfl rfl
      | recorded task signature sendElapsed =>
          exact h.setSend (.waiting _ (w.now + env.grace)) le_rfl rfl rfl rfl
      | sent task tx sendElapsed =>
          exact h.setSend (.recording (env.host.base58 tx.signature) sendElapsed) trivial rfl rfl
            rfl
      | declined | unsent | waited => exact h.setSend (.finished (.ok ())) trivial rfl rfl rfl
      | unbuilt task clock err => exact h.setSend (.finished (.error err)) trivial rfl rfl rfl
      | clientless => exact h.setSend (.finished (.error _)) trivial rfl rfl rfl

theorem timersSet {as : List Act} (hrun : env.machine.run as = some w) : w.TimersSet env :=
  env.machine.invariant (P := fun w ↦ w.TimersSet env) ⟨trivial, fun _ hmem ↦ by cases hmem⟩
    (fun _ _ _ h hstep ↦ h.move (move hstep)) hrun

/-! ## What the clock does not pass -/

theorem exists_wait {now wake bound d : ℕ} (hnow : now ≤ bound) (hwake : wake ≤ bound)
    (h : ¬ now + d ≤ bound) : ∃ d' < d, wake ≤ now + d' :=
  ⟨wake - now, by omega, by omega⟩

/-- A step that is possible from some time on is taken by then. -/
theorem Timely.le_bound {d wake bound : ℕ} (h : Timely env ρ w (.tick d)) {act : Act}
    (hown : act.own = true) (hnow : w.now ≤ bound) (hwake : wake ≤ bound)
    (hstep : ∀ now, wake ≤ now → (env.machine.step { w with now := now } act).isSome = true) :
    w.now + d ≤ bound := by
  by_contra hlate
  obtain ⟨d', hlt, hlater⟩ := exists_wait hnow hwake hlate
  have hsome := hstep (w.now + d') hlater
  rw [h.1 d' hlt act hown] at hsome
  cases hsome

/-- While a step is possible, the clock stands still. -/
theorem Timely.still {d : ℕ} (h : Timely env ρ w (.tick d)) {act : Act}
    (hown : act.own = true)
    (hstep : ∀ now, (env.machine.step { w with now := now } act).isSome = true) :
    w.now + d ≤ w.now :=
  h.le_bound hown le_rfl (Nat.zero_le _) fun now _ ↦ hstep now

/-- The memo task of a listener that is over can always go on. -/
theorem isSome_memoStep {as : List Act} (hrun : env.machine.run as = some w)
    (hpc : w.main.pc = .awaitingMemo) (hrunning : w.memoTask ≠ .finished) (now : Duration) :
    ({ w with now := now } : World).memoStep.isSome = true := by
  have hentered : w.Entered := by
    rcases spawned hrun with hbefore | ⟨err, hfailed⟩ | hentered
    · rw [hpc] at hbefore
      exact hbefore.elim
    · rw [hpc] at hfailed
      cases hfailed
    · exact hentered
  have hsenders : w.memo.senders = 0 := by
    rw [(conserved hrun).senders, if_pos ((tailed hrun).awaitingMemo hpc)]
  cases htask : w.memoTask with
  | notSpawned => exact absurd htask hentered
  | finished => exact absurd htask hrunning
  | recording obs => simp [memoStep]
  | receiving =>
      cases hbuffer : w.memo.buffer with
      | nil => simp [memoStep, Mpsc.recv, hbuffer, hsenders]
      | cons obs rest => simp [memoStep, Mpsc.recv, hbuffer]

/-! ## From the Ctrl-C on -/

/-- Whoever has broadcast has put the flag up before. -/
def Flagged (w : World) : Prop :=
  w.ctrlC = .stored ∨ w.ctrlC = .broadcasted → w.shutdownFlag = true

theorem Flagged.move {act : Act} (h : w.Flagged) (hmove : Move env w act w') : w'.Flagged := by
  cases hmove with
  | tick d => exact h
  | listener move =>
      rw [move.frame]
      exact h
  | memo move =>
      rw [move.frame]
      exact h
  | send move =>
      rw [move.frame]
      exact h
  | ctrlC move =>
      cases move with
      | stored pc => exact fun _ ↦ rfl
      | failed pc => exact fun hctrl ↦ by rcases hctrl with hctrl | hctrl <;> cases hctrl
      | broadcasted pc => exact fun _ ↦ h (.inl pc)
  | main move =>
      cases move with
      | entered pc => exact fun hctrl ↦ by rcases hctrl with hctrl | hctrl <;> cases hctrl
      | stopped pc => exact fun _ ↦ rfl
      | _ => exact h

theorem flagged {as : List Act} (hrun : env.machine.run as = some w) : w.Flagged :=
  env.machine.invariant (P := Flagged)
    (fun hctrl ↦ by rcases hctrl with hctrl | hctrl <;> cases hctrl)
    (fun _ _ _ h hstep ↦ h.move (move hstep)) hrun

/-- `main` and its futures are where they have to be by now. -/
structure Closing (env : Env) (ρ start : ℕ) (w : World) : Prop where
  main : w.main.pc.ClosesBy env ρ start w.now
  sends : ∀ task ∈ w.sends, task.stage.ClosesBy env ρ start w.now

/-- As far as `main` has got, its timers have been set by now. -/
theorem closing_of_timersSet (ρ : ℕ) (h : w.TimersSet env) (hbefore : ¬ w.main.pc.BeforeLoop)
    (hasked : ¬ w.main.pc.Asking) (hfailed : ∀ err, w.main.pc ≠ .failed err) :
    Closing env ρ w.now w where
  main := by
    have hmain := h.main
    have hgrace : w.now + env.grace ≤ w.now + ρ + env.grace :=
      Nat.add_le_add_right (Nat.le_add_right _ _) _
    have hnow : w.now ≤ w.now + ρ + env.grace := Nat.le_add_right_of_le (Nat.le_add_right _ _)
    cases hpc : w.main.pc with
    | awaitReady | connecting rest =>
        rw [hpc] at hbefore
        exact (hbefore trivial).elim
    | fetching deadline | nonceSleep deadline wake =>
        rw [hpc] at hasked
        exact (hasked trivial).elim
    | failed err => exact absurd hpc (hfailed err)
    | finalizing | done summary => trivial
    | starting nonceHash | dispatching nonceHash rest => exact le_refl w.now
    | collecting => exact hnow
    | loopTop | graceCheck | signalling => exact env.le_lastBy hnow
    | aborting | awaitingMemo => exact env.le_closedBy (env.le_lastBy hnow)
    | delaying wake =>
        rw [hpc] at hmain
        exact ⟨env.le_lastBy hnow, le_trans hmain (env.add_delay_le hnow)⟩
    | graceSleep wake =>
        rw [hpc] at hmain
        exact ⟨env.le_lastBy hnow, le_trans hmain (env.le_lastBy hgrace)⟩
    | selecting wake =>
        rw [hpc] at hmain
        exact ⟨env.le_closedBy (env.le_lastBy hnow),
          le_trans hmain (env.add_select_le (env.le_lastBy hnow))⟩
  sends task hmem := by
    have htask := h.sends task hmem
    cases hstage : task.stage with
    | sending tx sendElapsed =>
        rw [hstage] at htask
        exact ⟨htask, Nat.le_add_right _ _⟩
    | waiting pair deadline =>
        rw [hstage] at htask
        exact le_trans htask (Nat.add_le_add_right (Nat.le_add_right _ _) _)
    | created => exact le_refl w.now
    | recording signature sendElapsed => exact Nat.le_add_right _ _
    | finished result => trivial

/-- A future of the round while the clock runs. -/
theorem Timely.task {d i : ℕ} {task : SendTask} (h : Timely env ρ w (.tick d))
    (hpc : w.main.pc = .collecting) (hget : w.sends[i]? = some task)
    (hnow : w.now ≤ start + ρ + env.grace) (hstage : task.stage.ClosesBy env ρ start w.now) :
    task.stage.ClosesBy env ρ start (w.now + d) ∧
      (task.stage.isFinished = true ∨ w.now + d ≤ start + ρ + env.grace) := by
  cases hcase : task.stage with
  | created =>
      have hstill : w.now + d ≤ w.now :=
        h.still (rfl : (Act.send i (.poll 0)).own = true) fun now ↦ by
          simp [Env.machine, step, sendStep, hpc, hget, hcase]
      rw [hcase] at hstage
      exact ⟨le_trans hstill hstage, .inr (le_trans hstill hnow)⟩
  | recording signature sendElapsed =>
      have hstill : w.now + d ≤ w.now :=
        h.still (rfl : (Act.send i .record).own = true) fun now ↦ by
          simp [Env.machine, step, sendStep, hpc, hget, hcase]
      rw [hcase] at hstage
      exact ⟨le_trans hstill hstage, .inr (le_trans hstill hnow)⟩
  | sending tx sendElapsed =>
      have hreturns := h.2 task (List.mem_of_getElem? hget)
      rw [hcase] at hstage hreturns
      have hlate : w.now + d ≤ start + ρ := le_trans hreturns (Nat.add_le_add_right hstage.1 _)
      exact ⟨⟨hstage.1, hlate⟩, .inr (Nat.le_add_right_of_le hlate)⟩
  | waiting pair deadline =>
      rw [hcase] at hstage
      refine ⟨hstage, .inr ?_⟩
      by_contra hlate
      -- the wait is over at its deadline, in whichever way
      obtain ⟨d', hlt, hlater⟩ := exists_wait hnow hstage hlate
      obtain ⟨outcome, hready⟩ : ∃ outcome, ({ w with now := w.now + d' } : World).waitReady pair
          deadline outcome = true := exists_waitReady hlater
      have hnone := h.1 d' hlt (.send i (.wait outcome)) rfl
      simp [Env.machine, step, sendStep, hpc, hget, hcase, hready] at hnone
  | finished result => exact ⟨trivial, .inl rfl⟩

theorem Closing.tick {as : List Act} {d : ℕ} (h : Closing env ρ start w)
    (hrun : env.machine.run as = some w) (htimely : Timely env ρ w (.tick d)) :
    Closing env ρ start { w with now := w.now + d } := by
  have hmain := h.main
  have hstill : w.now + d ≤ w.now → Closing env ρ start { w with now := w.now + d } := by
    intro hle
    have hsame : ({ w with now := w.now + d } : World) = w := by
      rw [le_antisymm hle (Nat.le_add_right _ _)]
    rw [hsame]
    exact h
  have hgo : (∀ now, (({ w with now := now } : World).mainGo env).isSome = true) →
      Closing env ρ start { w with now := w.now + d } := fun hsome ↦
    hstill (htimely.still (rfl : (Act.main .go).own = true) hsome)
  -- nobody is in flight while `main` sleeps
  have hidle : ¬ w.main.pc.InFlight → ∀ task ∈ w.sends,
      task.stage.ClosesBy env ρ start (w.now + d) := by
    intro hpc task hmem
    rw [(phased hrun).sends hpc] at hmem
    cases hmem
  cases hpc : w.main.pc with
  | awaitReady | connecting rest | fetching deadline | nonceSleep deadline wake | failed err =>
      rw [hpc] at hmain
      exact hmain.elim
  | starting nonceHash | loopTop | signalling => exact hgo fun now ↦ by simp [mainGo, hpc]
  | graceCheck =>
      refine hgo fun now ↦ ?_
      by_cases hflag : w.shutdownFlag = true <;> simp [mainGo, hpc, hflag]
  | dispatching nonceHash rest =>
      refine hgo fun now ↦ ?_
      cases rest <;> simp [mainGo, hpc]
  | delaying wake | graceSleep wake =>
      rw [hpc] at hmain
      refine ⟨?_, hidle (by rw [hpc]; exact id)⟩
      have hlate := htimely.le_bound (rfl : (Act.main .go).own = true) hmain.1 hmain.2
        fun now hwoken ↦ by
          simp [Env.machine, step, mainStep, mainGo, hpc, show wake ≤ now from hwoken]
      change w.main.pc.ClosesBy env ρ start (w.now + d)
      rw [hpc]
      exact ⟨hlate, hmain.2⟩
  | selecting wake =>
      rw [hpc] at hmain
      refine ⟨?_, hidle (by rw [hpc]; exact id)⟩
      have hlate := htimely.le_bound (rfl : (Act.main .timeout).own = true) hmain.1 hmain.2
        fun now hwoken ↦ by
          simp [Env.machine, step, mainStep, hpc, show wake ≤ now from hwoken]
      change w.main.pc.ClosesBy env ρ start (w.now + d)
      rw [hpc]
      exact ⟨hlate, hmain.2⟩
  | aborting =>
      by_cases hexited : w.listener.pc = .exited
      · exact hgo fun now ↦ by simp [mainGo, hpc, hexited]
      · refine hstill (htimely.still (rfl : (Act.listener .cancel).own = true) fun now ↦ ?_)
        simp [Env.machine, step, listenerStep, (tailed hrun).aborting hpc, hexited]
  | awaitingMemo =>
      by_cases hfinished : w.memoTask = .finished
      · exact hgo fun now ↦ by simp [mainGo, hpc, hfinished]
      · exact hstill (htimely.still (rfl : Act.memo.own = true)
          (isSome_memoStep hrun hpc hfinished))
  | finalizing | done summary =>
      refine ⟨?_, hidle (by rw [hpc]; exact id)⟩
      change w.main.pc.ClosesBy env ρ start (w.now + d)
      rw [hpc]
      trivial
  | collecting =>
      rw [hpc] at hmain
      by_cases hall : w.sends.all (·.stage.isFinished) = true
      · exact hgo fun now ↦ by simp [mainGo, hpc, hall]
      · have htasks : ∀ task ∈ w.sends, task.stage.ClosesBy env ρ start (w.now + d) ∧
            (task.stage.isFinished = true ∨ w.now + d ≤ start + ρ + env.grace) := by
          intro task hmem
          obtain ⟨i, hget⟩ := List.mem_iff_getElem?.mp hmem
          exact htimely.task hpc hget hmain (h.sends task hmem)
        obtain ⟨task, hmem, hunfinished⟩ := List.all_eq_false.mp (by simpa using hall)
        refine ⟨?_, fun task hmem ↦ (htasks task hmem).1⟩
        change w.main.pc.ClosesBy env ρ start (w.now + d)
        rw [hpc]
        exact (htasks task hmem).2.resolve_left hunfinished

theorem Closing.setSend (h : Closing env ρ start w) {i : ℕ} {task : SendTask} (stage : SendStage)
    (hstage : stage.ClosesBy env ρ start w.now) (hmain : w'.main = w.main) (hnow : w'.now = w.now)
    (hsends : w'.sends = w.sends.set i { task with stage := stage }) :
    Closing env ρ start w' where
  main := by
    rw [hmain, hnow]
    exact h.main
  sends task' hmem := by
    rw [hnow]
    rw [hsends] at hmem
    rcases List.mem_or_eq_of_mem_set hmem with hold | rfl
    · exact h.sends task' hold
    · exact hstage

theorem Closing.sendMove {i : ℕ} {act : SendAct} (h : Closing env ρ start w)
    (hmove : SendMove env w i act w') : Closing env ρ start w' := by
  have hold : ∀ task stage, w.sends[i]? = some task → task.stage = stage →
      stage.ClosesBy env ρ start w.now := by
    rintro task stage hget rfl
    exact h.sends task (List.mem_of_getElem? hget)
  cases hmove with
  | handed task clock tx client pc get stage =>
      have hnow : w.now ≤ start := hold task _ get stage
      exact h.setSend (.sending tx w.now) ⟨hnow, Nat.le_add_right_of_le hnow⟩ rfl rfl rfl
  | sent task tx sendElapsed pc get stage =>
      exact h.setSend (.recording (env.host.base58 tx.signature) sendElapsed)
        (hold task _ get stage).2 rfl rfl rfl
  | recorded task signature sendElapsed pc get stage =>
      have hnow : w.now ≤ start + ρ := hold task _ get stage
      exact h.setSend (.waiting _ (w.now + env.grace)) (Nat.add_le_add_right hnow _) rfl rfl rfl
  | declined | unsent | waited => exact h.setSend (.finished (.ok ())) trivial rfl rfl rfl
  | unbuilt task clock err => exact h.setSend (.finished (.error err)) trivial rfl rfl rfl
  | clientless => exact h.setSend (.finished (.error _)) trivial rfl rfl rfl

theorem Closing.mainMove {act : MainAct} (h : Closing env ρ start w) (hlistening : w.Listening)
    (hflagged : w.Flagged) (hctrl : w.ctrlC = .broadcasted) (hmove : MainMove env w act w') :
    Closing env ρ start w' := by
  have hmain := h.main
  cases hmove with
  | ready pc | unready pc | skipped _ _ pc | keyless _ _ pc | connected _ _ _ pc
  | unconnected _ _ pc | entered pc | woken _ _ pc | unfetched _ _ _ pc | fresh _ _ _ pc
  | stale _ _ pc =>
      rw [pc] at hmain
      exact hmain.elim
  | fetched pc round signal =>
      rw [(hlistening.isOk (by rw [pc]; trivial)).mpr hctrl] at signal
      cases signal
  | unflagged pc flag =>
      rw [hflagged (.inr hctrl)] at flag
      cases flag
  | began nonceHash pc =>
      rw [pc] at hmain
      exact ⟨hmain, h.sends⟩
  | dispatched nonceHash ep index rest pc =>
      rw [pc] at hmain
      refine ⟨hmain, fun task hmem ↦ ?_⟩
      rcases List.mem_append.mp hmem with hold | hnew
      · exact h.sends task hold
      · obtain rfl := List.mem_singleton.mp hnew
        exact hmain
  | filled nonceHash pc =>
      rw [pc] at hmain
      exact ⟨Nat.le_add_right_of_le (Nat.le_add_right_of_le hmain), h.sends⟩
  | collected pc finished =>
      rw [pc] at hmain
      exact ⟨⟨env.le_lastBy hmain, env.add_delay_le hmain⟩, fun task hmem ↦ by cases hmem⟩
  | delayed wake pc | graceOver wake pc =>
      rw [pc] at hmain
      exact ⟨hmain.1, h.sends⟩
  | exhausted pc | stopped pc | flagged pc =>
      rw [pc] at hmain
      exact ⟨hmain, h.sends⟩
  | signalled pc =>
      rw [pc] at hmain
      exact ⟨⟨env.le_closedBy hmain, env.add_select_le hmain⟩, h.sends⟩
  | listenerOver pc listener =>
      rcases pc with pc | ⟨wake, pc⟩
      · rw [pc] at hmain
        exact ⟨hmain, h.sends⟩
      · rw [pc] at hmain
        exact ⟨hmain.1, h.sends⟩
  | timedOut wake pc =>
      rw [pc] at hmain
      exact ⟨hmain.1, h.sends⟩
  | memoOver | finalized => exact ⟨trivial, h.sends⟩

theorem Closing.move {as : List Act} {act : Act} (h : Closing env ρ start w)
    (hrun : env.machine.run as = some w) (hctrl : w.ctrlC = .broadcasted)
    (htimely : Timely env ρ w act) (hmove : Move env w act w') : Closing env ρ start w' := by
  cases hmove with
  | tick d => exact h.tick hrun htimely
  | main move => exact h.mainMove (listening hrun) (flagged hrun) hctrl move
  | send move => exact h.sendMove move
  | listener move =>
      rw [move.frame]
      exact ⟨h.main, h.sends⟩
  | memo move =>
      rw [move.frame]
      exact ⟨h.main, h.sends⟩
  | ctrlC move =>
      rw [move.frame]
      exact ⟨h.main, h.sends⟩

/-- In a timely run the clock shows at most the sender's `ρ`, the grace, the delay
and two seconds more than at the Ctrl-C, until `main` has come to the summary;
unless the RPC was just being asked for the nonce. -/
theorem closed_in_time (env : Env) (ρ : ℕ) (as bs : List Act) (s t : World)
    (hrun : env.machine.run as = some s) (hctrl : s.ctrlC = .broadcasted)
    (hasked : ¬ s.main.pc.Asking) (hfailed : ∀ err, s.main.pc ≠ .failed err)
    (hfrom : env.machine.runFrom s bs = some t)
    (htimely : env.machine.AlongFrom (Timely env ρ) s bs) :
    (∀ err, t.main.pc ≠ .failed err) ∧
      (t.main.pc.AtFinalize ∨
        t.now ≤ s.now + ρ + env.grace + env.delay + Duration.fromMillis 2000) := by
  have hbefore : ¬ s.main.pc.BeforeLoop := by
    intro hpc
    rw [(phased hrun).ctrlC hpc] at hctrl
    cases hctrl
  have hinvariant := env.machine.invariant_of_alongFrom
    (P := fun u ↦ (∃ cs, env.machine.run cs = some u) ∧ u.ctrlC = .broadcasted ∧
      Closing env ρ s.now u)
    (fun u act v ⟨⟨cs, hcs⟩, hctrl, hclosing⟩ hgood hstep ↦ by
      have hmove := move hstep
      exact ⟨⟨cs ++ [act], env.machine.run_snoc_eq_some.mpr ⟨u, hcs, hstep⟩⟩,
        hmove.broadcasted (phased hcs) hctrl, hclosing.move hcs hctrl hgood hmove⟩)
    ⟨⟨as, hrun⟩, hctrl, closing_of_timersSet ρ (timersSet hrun) hbefore hasked hfailed⟩
    htimely hfrom
  obtain ⟨-, -, hmain, -⟩ := hinvariant
  exact ⟨hmain.not_failed, hmain.le⟩

/-- A sleep is timely if nobody else has anything to do. -/
theorem timely_of_delaying {wake : Duration} {d : ℕ} (ρ : ℕ) (hpc : w.main.pc = .delaying wake)
    (hwake : w.now + d ≤ wake) (hsends : w.sends = []) (htask : w.memoTask = .receiving)
    (hbuffer : w.memo.buffer = []) (hsenders : w.memo.senders = 1)
    (haborted : w.listener.aborted = false) : Timely env ρ w (.tick d) := by
  refine ⟨fun d' hlt act hown ↦ ?_, fun task hmem ↦ by rw [hsends] at hmem; cases hmem⟩
  have hearly : ¬ wake ≤ w.now + d' := fun hle ↦
    absurd (Nat.le_of_add_le_add_left (hwake.trans hle)) (Nat.not_le.mpr hlt)
  cases act with
  | memo => simp [Env.machine, step, memoStep, htask, Mpsc.recv, hbuffer, hsenders]
  | listener act =>
      cases act with
      | cancel => simp [Env.machine, step, listenerStep, haborted]
      | _ => cases hown
  | main act =>
      cases act with
      | go => simp [Env.machine, step, mainStep, mainGo, hpc, hearly]
      | timeout => simp [Env.machine, step, mainStep, hpc]
      | _ => cases hown
  | send i act => simp [Env.machine, step, sendStep, hpc]
  | tick | ctrlC => cases hown

/-- From the Ctrl-C in the sleep behind the only round to the summary. -/
def signalledInSleep : List Act :=
  Sample.startup ++ [.main .go, .main .go] ++ Sample.openRound Sample.nonce₀ ++
    [.send 0 (.poll Sample.wallClock), .send 0 (.returned false), .main .go,
      .ctrlC (.signal true), .ctrlC .broadcast]

theorem closed_in_time_signalledInSleep : ∃ s t,
    (Sample.rpcEnv 1).machine.run signalledInSleep = some s ∧
      (Sample.rpcEnv 1).machine.runFrom s (.tick 50000000 :: List.replicate 4 (.main .go) ++
        [.listener .shutdown, .main .go, .memo, .main .go]) = some t ∧
      t.main.pc = .finalizing ∧ ∀ err, t.main.pc ≠ .failed err := by
  have hruns : ((Sample.rpcEnv 1).machine.run signalledInSleep).map (fun s ↦
      (decide (s.ctrlC = .broadcasted ∧ s.main.pc.delayUntil = some (50000000 : ℕ) ∧
          s.now = (0 : ℕ) ∧ s.sends.length = 0 ∧ s.memoTask = .receiving ∧
          s.memo.buffer.length = 0 ∧ s.memo.senders = 1 ∧ s.listener.aborted = false),
        ((Sample.rpcEnv 1).machine.runFrom s (.tick 50000000 :: List.replicate 4 (.main .go) ++
          [.listener .shutdown, .main .go, .memo, .main .go])).map (·.main.pc.isFinalizing))) =
      some (true, some true) := by
    decide +kernel
  obtain ⟨s, hrun, hs⟩ := Option.map_eq_some_iff.mp hruns
  simp only [Prod.mk.injEq, Option.map_eq_some_iff, decide_eq_true_eq, MainPc.delayUntil_eq_some,
    MainPc.isFinalizing_iff, List.length_eq_zero_iff] at hs
  obtain ⟨⟨hctrl, hpc, hnow, hsends, htask, hbuffer, hsenders, haborted⟩, t, hfrom, ht⟩ := hs
  have hsleep : Timely (Sample.rpcEnv 1) 0 s (.tick 50000000) :=
    timely_of_delaying 0 hpc (by rw [hnow]) hsends htask hbuffer hsenders haborted
  have htimely : (Sample.rpcEnv 1).machine.AlongFrom (Timely (Sample.rpcEnv 1) 0) s
      (.tick 50000000 :: List.replicate 4 (.main .go) ++
        [.listener .shutdown, .main .go, .memo, .main .go]) :=
    ⟨hsleep, fun u _ ↦ (Sample.rpcEnv 1).machine.alongFrom_of_forall (by simp [Timely]) u⟩
  have hclosed := closed_in_time (Sample.rpcEnv 1) 0 signalledInSleep _ s t hrun hctrl
    (by rw [hpc]; exact id) (by rw [hpc]; simp) hfrom htimely
  exact ⟨s, t, hrun, hfrom, ht, hclosed.1⟩

end World
end LandingBench
