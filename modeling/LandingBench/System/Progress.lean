import LandingBench.System.Delivery

/-!
# How much a run still has to do

`main` and the futures that it polls are done after so many steps, whatever
the other tasks do meanwhile and however late it gets; and as long as `main`
has not ended, somebody can move until it gets further.
-/

namespace LandingBench

open Async Data

def SendStage.stepsLeft : SendStage → ℕ
  | created => 4
  | sending _ _ => 3
  | recording _ _ => 2
  | waiting _ _ => 1
  | finished _ => 0

/-- The check of a hash, with the comparison and the deadline in the open. -/
theorem checkNonceReply_nonce (host : Host) (previous : Option Hash) (now deadline : Duration)
    (current : Hash) :
    (previous ≠ some current ∧
        checkNonceReply host previous now deadline (.nonce current) = .ok (some current)) ∨
      (previous = some current ∧ deadline ≤ now ∧
        ∃ err, checkNonceReply host previous now deadline (.nonce current) = .error err) ∨
      (previous = some current ∧ now < deadline ∧
        checkNonceReply host previous now deadline (.nonce current) = .ok none) := by
  by_cases hstale : previous = some current
  · subst hstale
    by_cases hlate : deadline ≤ now
    · exact .inr (.inl ⟨rfl, hlate, _, by simp [checkNonceReply, hlate]; rfl⟩)
    · exact .inr (.inr ⟨rfl, Nat.lt_of_not_le hlate, by simp [checkNonceReply, hlate]⟩)
  · have hfresh : previous.all (· ≠ current) = true := by
      cases previous with
      | none => rfl
      | some hash => simpa using hstale
    exact .inl ⟨hstale, if_pos hfresh⟩

theorem reply_of_check_eq_some {host : Host} {previous : Option Hash} {now deadline : Duration}
    {reply : NonceReply} {hash : Hash}
    (h : checkNonceReply host previous now deadline reply = .ok (some hash)) :
    reply = .nonce hash ∧ previous ≠ some hash := by
  cases reply with
  | nonce current =>
      rcases checkNonceReply_nonce host previous now deadline current with
        ⟨hfresh, hok⟩ | ⟨-, -, err, herr⟩ | ⟨-, -, hok⟩
      · rw [h] at hok
        obtain rfl : hash = current := by simpa using hok
        exact ⟨rfl, hfresh⟩
      · rw [h] at herr
        cases herr
      · rw [h] at hok
        simp at hok
  | _ => cases h

theorem stale_of_check_eq_error {host : Host} {previous : Option Hash} {now deadline : Duration}
    {current : Hash} {err : String}
    (h : checkNonceReply host previous now deadline (.nonce current) = .error err) :
    previous = some current ∧ deadline ≤ now := by
  rcases checkNonceReply_nonce host previous now deadline current with
    ⟨-, hok⟩ | ⟨hstale, hlate, -⟩ | ⟨-, -, hok⟩
  · rw [h] at hok
    cases hok
  · exact ⟨hstale, hlate⟩
  · rw [h] at hok
    cases hok

theorem stale_of_check_eq_none {host : Host} {previous : Option Hash} {now deadline : Duration}
    {current : Hash}
    (h : checkNonceReply host previous now deadline (.nonce current) = .ok none) :
    previous = some current := by
  rcases checkNonceReply_nonce host previous now deadline current with
    ⟨-, hok⟩ | ⟨-, -, err, herr⟩ | ⟨hstale, -, -⟩
  · rw [h] at hok
    simp at hok
  · rw [h] at herr
    cases herr
  · exact hstale

theorem now_lt_of_stale {host : Host} {previous : Option Hash} {now deadline : Duration}
    {reply : NonceReply} (h : checkNonceReply host previous now deadline reply = .ok none) :
    now < deadline := by
  cases reply with
  | nonce current =>
      rcases checkNonceReply_nonce host previous now deadline current with
        ⟨-, hok⟩ | ⟨-, -, err, herr⟩ | ⟨-, hearly, -⟩
      · rw [h] at hok
        cases hok
      · rw [h] at herr
        cases herr
      · exact hearly
  | _ => cases h

/-- How often a nonce that does not advance is looked at before the deadline. -/
def pollsLeft (deadline now : ℕ) : ℕ := (deadline - now + 99999999) / 100000000

theorem pollsLeft_anti (deadline : ℕ) {now later : ℕ} (h : now ≤ later) :
    pollsLeft deadline later ≤ pollsLeft deadline now :=
  Nat.div_le_div_right (by omega)

theorem pollsLeft_add_left (d now : ℕ) : pollsLeft (now + d) now = pollsLeft d 0 := by
  simp [pollsLeft]

/-- Each nap between two looks uses one up. -/
theorem pollsLeft_nap {deadline now : ℕ} (h : now < deadline) :
    pollsLeft deadline (now + Duration.fromMillis 100) + 1 = pollsLeft deadline now := by
  have hnap : Duration.fromMillis 100 = (100000000 : ℕ) := rfl
  rw [hnap, pollsLeft, pollsLeft]
  omega

namespace Env

def endpoints (env : Env) : ℕ := env.config.endpoint.length

def roundSteps (env : Env) : ℕ :=
  2 * pollsLeft (Duration.fromMillis (max env.config.config.landingGraceMs 100)) 0 +
    5 * env.endpoints + 6

/-- At the top of the loop, before the round of this number. -/
def stepsFrom (env : Env) (round : ℕ) : ℕ :=
  (env.config.config.transactions - round) * env.roundSteps + 8

theorem stepsFrom_of_lt {env : Env} {round : ℕ} (h : round < env.config.config.transactions) :
    env.stepsFrom round = env.stepsFrom (round + 1) + env.roundSteps := by
  obtain ⟨rest, hrest⟩ := Nat.exists_eq_add_of_lt h
  have hnow : env.config.config.transactions - round = rest + 1 := by omega
  have hnext : env.config.config.transactions - (round + 1) = rest := by omega
  rw [stepsFrom, stepsFrom, hnow, hnext]
  ring

theorem eight_le_stepsFrom (env : Env) (round : ℕ) : 8 ≤ env.stepsFrom round :=
  Nat.le_add_left _ _

end Env

/-- The most steps that `main` takes on its own before it ends. -/
def MainPc.stepsLeft (env : Env) (now : Duration) (round : ℕ) : MainPc → ℕ
  | awaitReady => env.stepsFrom round + env.endpoints + 2
  | connecting rest => env.stepsFrom round + rest.length + 1
  | loopTop => env.stepsFrom round
  | fetching deadline =>
      env.stepsFrom (round + 1) + 2 * pollsLeft deadline now + 5 * env.endpoints + 5
  | nonceSleep deadline wake =>
      env.stepsFrom (round + 1) + 2 * pollsLeft deadline wake + 5 * env.endpoints + 6
  | starting _ => env.stepsFrom (round + 1) + 5 * env.endpoints + 4
  -- a future that is still to be made counts five, with the making
  | dispatching _ rest => env.stepsFrom (round + 1) + 5 * rest.length + 3
  | collecting => env.stepsFrom (round + 1) + 2
  | delaying _ => env.stepsFrom (round + 1) + 1
  | graceCheck => 7
  | graceSleep _ => 6
  | signalling => 5
  | selecting _ => 4
  | aborting => 3
  | awaitingMemo => 2
  | finalizing => 1
  | done _ => 0
  | failed _ => 0

/-- A step of `main` or of a future that it polls. -/
def Act.ofMain : Act → Bool
  | main _ | send _ _ => true
  | tick _ | listener _ | memo | ctrlC _ => false

namespace World

variable {env : Env} {w w' : World}

def sendStepsLeft (w : World) : ℕ := (w.sends.map fun task ↦ task.stage.stepsLeft).sum

def stepsLeft (env : Env) (w : World) : ℕ :=
  w.main.pc.stepsLeft env w.now w.main.round + w.sendStepsLeft

/-- A step of `main` that leaves the clock and the futures alone. -/
theorem stepsLeft_lt_of_main (hnow : w'.now = w.now) (hsends : w'.sends = w.sends)
    (h : w'.main.pc.stepsLeft env w.now w'.main.round <
      w.main.pc.stepsLeft env w.now w.main.round) :
    w'.stepsLeft env < w.stepsLeft env := by
  rw [stepsLeft, stepsLeft, sendStepsLeft, sendStepsLeft, hnow, hsends]
  omega

theorem MainMove.stepsLeft_lt {act : MainAct} (h : MainMove env w act w') :
    w'.stepsLeft env < w.stepsLeft env := by
  have htop := env.eight_le_stepsFrom w.main.round
  have hnext := env.eight_le_stepsFrom (w.main.round + 1)
  cases h with
  | fetched pc round signal =>
      refine stepsLeft_lt_of_main rfl rfl ?_
      have hpolls := pollsLeft_add_left
        (Duration.fromMillis (max env.config.config.landingGraceMs 100)) w.now
      have hround := Env.stepsFrom_of_lt round
      rw [Env.roundSteps] at hround
      simp only [pc, MainPc.stepsLeft]
      omega
  | stale deadline reply pc check =>
      refine stepsLeft_lt_of_main rfl rfl ?_
      have hnap := pollsLeft_nap (now_lt_of_stale check)
      simp only [pc, MainPc.stepsLeft, setMain]
      omega
  | woken deadline wake pc time =>
      refine stepsLeft_lt_of_main rfl rfl ?_
      have hpolls := pollsLeft_anti deadline time
      simp only [pc, MainPc.stepsLeft, setMain]
      omega
  | began nonceHash pc =>
      refine stepsLeft_lt_of_main rfl rfl ?_
      simp only [pc, MainPc.stepsLeft, beginRound, List.length_zipIdx, Env.endpoints]
      omega
  | dispatched nonceHash ep index rest pc =>
      have hnew : (w.newSend env nonceHash ep index).stage.stepsLeft = 4 := rfl
      simp only [stepsLeft, sendStepsLeft, pc, MainPc.stepsLeft, setMain, List.map_append,
        List.sum_append, List.map_singleton, List.sum_singleton, hnew, List.length_cons]
      omega
  | collected pc finished =>
      simp only [stepsLeft, sendStepsLeft, pc, MainPc.stepsLeft, setMain, List.map_nil,
        List.sum_nil]
      omega
  | listenerOver pc listener =>
      refine stepsLeft_lt_of_main rfl rfl ?_
      rcases pc with pc | ⟨wake, pc⟩ <;> simp [pc, MainPc.stepsLeft, setMain]
  | _ =>
      refine stepsLeft_lt_of_main rfl rfl ?_
      simp only [‹w.main.pc = _›, MainPc.stepsLeft, setMain, failEarly, enterLoop, Env.endpoints,
        List.length_cons, List.length_nil]
      omega

theorem SendMove.stepsLeft_lt {i : ℕ} {act : SendAct} (h : SendMove env w i act w') :
    w'.stepsLeft env < w.stepsLeft env := by
  have hset : ∀ (task : SendTask) (stage : SendStage), w.sends[i]? = some task →
      w'.sends = w.sends.set i { task with stage := stage } →
      stage.stepsLeft < task.stage.stepsLeft → w'.stepsLeft env < w.stepsLeft env := by
    intro task stage hget hsends hless
    have hsum := Lists.sum_map_set (fun task : SendTask ↦ task.stage.stepsLeft) hget
      { task with stage := stage }
    dsimp only at hsum
    have hmain : w'.main.pc.stepsLeft env w'.now w'.main.round =
        w.main.pc.stepsLeft env w.now w.main.round := by rw [h.frame]
    rw [stepsLeft, stepsLeft, sendStepsLeft, sendStepsLeft, hmain, hsends]
    omega
  cases h <;> exact hset _ _ ‹_› rfl (by simp [*, SendStage.stepsLeft])

theorem stepsLeft_tick (env : Env) (w : World) (d : Duration) :
    ({ w with now := w.now + d } : World).stepsLeft env ≤ w.stepsLeft env := by
  have hlater : w.now ≤ w.now + d := Nat.le_add_right _ _
  have hmain : w.main.pc.stepsLeft env (w.now + d) w.main.round ≤
      w.main.pc.stepsLeft env w.now w.main.round := by
    cases w.main.pc with
    | fetching deadline =>
        have hpolls := pollsLeft_anti deadline hlater
        simp only [MainPc.stepsLeft]
        omega
    | _ => exact le_rfl
  exact Nat.add_le_add_right hmain _

/-- Every step of `main` uses up one of the steps that are left, and nobody
else gives it more. -/
theorem stepsLeft_move {act : Act} (h : Move env w act w') :
    w'.stepsLeft env + (if act.ofMain then 1 else 0) ≤ w.stepsLeft env := by
  cases h with
  | tick d => exact stepsLeft_tick env w d
  | listener move =>
      rw [move.frame]
      exact le_rfl
  | memo move =>
      rw [move.frame]
      exact le_rfl
  | ctrlC move =>
      rw [move.frame]
      exact le_rfl
  | main move => exact move.stepsLeft_lt
  | send move => exact move.stepsLeft_lt

/-- However a run goes, `main` and its futures take a bounded number of steps. -/
theorem count_ofMain_le {as : List Act} (hrun : env.machine.run as = some w) :
    as.countP Act.ofMain + w.stepsLeft env ≤ (World.init env).stepsLeft env :=
  env.machine.countP_add_le (stepsLeft env) Act.ofMain (fun _ _ _ h ↦ stepsLeft_move (move h)) hrun

theorem stepsLeft_le_of_runFrom {as : List Act} (hrun : env.machine.runFrom w as = some w') :
    w'.stepsLeft env ≤ w.stepsLeft env := by
  refine env.machine.invariant_from (P := fun u ↦ u.stepsLeft env ≤ w.stepsLeft env) ?_ le_rfl hrun
  intro s act t hs hstep
  have hpaid := stepsLeft_move (move hstep)
  omega

/-! ## Somebody can always move -/

/-- How `main` waits for the other tasks at the end. -/
structure Tailed (w : World) : Prop where
  aborting : w.main.pc = .aborting → w.listener.aborted = true
  awaitingMemo : w.main.pc = .awaitingMemo → w.listener.pc = .exited

theorem Tailed.move {act : Act} (h : w.Tailed) (hmove : Move env w act w') : w'.Tailed := by
  cases hmove with
  | tick d => exact ⟨h.aborting, h.awaitingMemo⟩
  | listener move =>
      -- the listener keeps its flag, and does not come back
      have haborted : w'.listener.aborted = w.listener.aborted := by cases move <;> rfl
      have hexited : w.listener.pc = .exited → w'.listener.pc = .exited := by
        intro hpc
        cases move <;> simp_all
      have hmain : w'.main = w.main := by rw [move.frame]
      refine ⟨fun hpc ↦ haborted.trans (h.aborting (hmain ▸ hpc)), fun hpc ↦ ?_⟩
      exact hexited (h.awaitingMemo (hmain ▸ hpc))
  | memo move =>
      rw [move.frame]
      exact ⟨h.aborting, h.awaitingMemo⟩
  | ctrlC move =>
      rw [move.frame]
      exact ⟨h.aborting, h.awaitingMemo⟩
  | main move =>
      cases move with
      | timedOut wake pc time => exact ⟨fun _ ↦ rfl, fun hpc ↦ by cases hpc⟩
      | listenerOver pc listener => exact ⟨fun hpc ↦ (by cases hpc), fun _ ↦ listener⟩
      | _ => exact ⟨fun hpc ↦ (by cases hpc), fun hpc ↦ by cases hpc⟩
  | send move =>
      rw [move.frame]
      exact ⟨h.aborting, h.awaitingMemo⟩

theorem tailed {as : List Act} (hrun : env.machine.run as = some w) : w.Tailed :=
  env.machine.invariant (P := Tailed) ⟨fun h ↦ (by cases h), fun h ↦ by cases h⟩
    (fun _ _ _ h hstep ↦ h.move (move hstep)) hrun

/-- The memo task drains a channel that nobody sends on any more. -/
theorem exists_drained (hpc : w.memoTask = .receiving) (hsenders : w.memo.senders = 0) :
    ∃ n u, env.machine.runFrom w (List.replicate n .memo) = some u ∧
      u.memoTask = .finished ∧ u.main = w.main := by
  induction hbuffer : w.memo.buffer generalizing w with
  | nil =>
      refine ⟨1, { w with memo := w.memo.dropReceiver, memoTask := .finished }, ?_, rfl, rfl⟩
      have hstep : env.machine.step w .memo =
          some { w with memo := w.memo.dropReceiver, memoTask := .finished } := by
        simp [Env.machine, step, memoStep, hpc, Mpsc.recv, hbuffer, hsenders]
      simp [hstep]
  | cons obs rest ih =>
      let received : World :=
        { w with memo := { w.memo with buffer := rest }, memoTask := .recording obs }
      let recorded : World :=
        { received with
          book := (w.book.recordLanding obs).1
          log := w.log ++ [.recordLanding obs]
          memoTask := .receiving }
      have hfirst : env.machine.step w .memo = some received := by
        simp [Env.machine, step, memoStep, hpc, Mpsc.recv, hbuffer, received]
      have hsecond : env.machine.step received .memo = some recorded := rfl
      obtain ⟨n, u, hrun, hfinished, hmain⟩ := ih (w := recorded) rfl hsenders rfl
      refine ⟨n + 2, u, ?_, hfinished, hmain⟩
      simp [List.replicate_succ, hfirst, hsecond, hrun]

/-- At its deadline a wait is over in one of the four ways. -/
theorem exists_waitReady {pair : WaitPair} {deadline : Duration} (h : deadline ≤ w.now) :
    ∃ outcome, w.waitReady pair deadline outcome = true := by
  by_cases hself : w.waitReady pair deadline .selfLanded = true
  · exact ⟨_, hself⟩
  by_cases hother : w.waitReady pair deadline .otherLanded = true
  · exact ⟨_, hother⟩
  by_cases hdropped : w.waitReady pair deadline .waiterDropped = true
  · exact ⟨_, hdropped⟩
  refine ⟨.timedOut, ?_⟩
  simp only [waitReady] at *
  cases hack : w.book.acks[pair.ack]? <;> cases hround : w.book.rounds[pair.round]? <;>
    simp_all

end World

namespace MainPc

/-- `main` has returned. -/
def Ended : MainPc → Prop
  | done _ | failed _ => True
  | _ => False

end MainPc

/-- What needs neither an answer of the RPC nor the user. -/
def Act.calm : Act → Bool
  | ctrlC _ | main (.answer _) => false
  | _ => true

namespace World

variable {env : Env} {w w' : World}

/-- Calm steps after which `main` has less to do. -/
def GetsOn (env : Env) (w : World) : Prop :=
  ∃ as w', env.machine.runFrom w as = some w' ∧ (∀ act ∈ as, act.calm = true) ∧
    w'.stepsLeft env < w.stepsLeft env

/-- Others move until `main` can. -/
theorem getsOn_of_waiting (waiting : List Act) (act : Act) {u : World}
    (hrun : env.machine.runFrom w waiting = some u)
    (hwaiting : ∀ act ∈ waiting, act.calm = true) (hmain : act.ofMain = true)
    (hcalm : act.calm = true) (hstep : (env.machine.step u act).isSome = true) :
    w.GetsOn env := by
  obtain ⟨w', hstep⟩ := Option.isSome_iff_exists.mp hstep
  refine ⟨waiting ++ [act], w', ?_, ?_, ?_⟩
  · rw [Machine.runFrom_append, hrun]
    simp [hstep]
  · intro act' hmem
    rcases List.mem_append.mp hmem with hold | hnew
    · exact hwaiting act' hold
    · rw [List.mem_singleton.mp hnew]
      exact hcalm
  · have hbefore := stepsLeft_le_of_runFrom hrun
    have hpaid := stepsLeft_move (move hstep)
    rw [if_pos hmain] at hpaid
    omega

theorem getsOn_go (h : (w.mainGo env).isSome = true) : w.GetsOn env :=
  getsOn_of_waiting [] (.main .go) rfl (by simp) rfl rfl h

/-- A nap ends when the clock has moved far enough. -/
theorem getsOn_wake (wake : Duration)
    (h : (({ w with now := w.now + wake } : World).mainGo env).isSome = true) : w.GetsOn env :=
  getsOn_of_waiting [.tick wake] (.main .go) rfl (by simp [Act.calm]) rfl rfl h

theorem getsOn_send {i : ℕ} {task : SendTask} (hpc : w.main.pc = .collecting)
    (hget : w.sends[i]? = some task) (htask : task.stage.isFinished = false) :
    w.GetsOn env := by
  have hnow : ∀ act, (w.sendStep env i act).isSome = true → w.GetsOn env := fun act h ↦
    getsOn_of_waiting [] (.send i act) rfl (by simp) rfl rfl h
  cases hstage : task.stage with
  | created => exact hnow (.poll 0) (by simp [sendStep, hpc, hget, hstage])
  | sending tx sendElapsed => exact hnow (.returned true) (by simp [sendStep, hpc, hget, hstage])
  | recording signature sendElapsed => exact hnow .record (by simp [sendStep, hpc, hget, hstage])
  | waiting pair deadline =>
      -- none of the other three has to come, but the deadline does
      let later : World := { w with now := w.now + deadline }
      obtain ⟨outcome, hready⟩ : ∃ outcome, later.waitReady pair deadline outcome = true :=
        exists_waitReady (Nat.le_add_left deadline w.now)
      refine getsOn_of_waiting [.tick deadline] (.send i (.wait outcome)) (u := later) rfl
        (by simp [Act.calm]) rfl rfl ?_
      change (later.sendStep env i (.wait outcome)).isSome = true
      have hpc' : later.main.pc = .collecting := hpc
      have hget' : later.sends[i]? = some task := hget
      simp [sendStep, hpc', hget', hstage, hready]
  | finished result =>
      rw [hstage] at htask
      cases htask

theorem getsOn_collecting (hpc : w.main.pc = .collecting) : w.GetsOn env := by
  by_cases hall : w.sends.all (·.stage.isFinished) = true
  · exact getsOn_go (by simp [mainGo, hpc, hall])
  · obtain ⟨task, hmem, htask⟩ := List.all_eq_false.mp (by simpa using hall)
    obtain ⟨i, hget⟩ := List.mem_iff_getElem?.mp hmem
    exact getsOn_send hpc hget (by simpa using htask)

theorem getsOn_awaitingMemo (hpc : w.main.pc = .awaitingMemo) (hspawned : w.memoTask ≠ .notSpawned)
    (hsenders : w.memo.senders = 0) : w.GetsOn env := by
  have hdrained : ∀ u : World, u.main = w.main → u.memo.senders = 0 → u.memoTask = .receiving →
      ∃ n v, env.machine.runFrom u (List.replicate n .memo) = some v ∧
        (v.mainGo env).isSome = true := by
    intro u hmain hnobody hreceiving
    obtain ⟨n, v, hrun, hfinished, hmain'⟩ := exists_drained hreceiving hnobody
    refine ⟨n, v, hrun, ?_⟩
    have hpc' : v.main.pc = .awaitingMemo := by rw [hmain', hmain, hpc]
    simp [mainGo, hpc', hfinished]
  cases htask : w.memoTask with
  | notSpawned => exact absurd htask hspawned
  | finished => exact getsOn_go (by simp [mainGo, hpc, htask])
  | receiving =>
      obtain ⟨n, v, hrun, hgo⟩ := hdrained w rfl hsenders htask
      exact getsOn_of_waiting _ (.main .go) hrun (by simp [Act.calm]) rfl rfl hgo
  | recording obs =>
      let recorded : World :=
        { w with
          book := (w.book.recordLanding obs).1
          log := w.log ++ [.recordLanding obs]
          memoTask := .receiving }
      have hfirst : env.machine.step w .memo = some recorded := by
        simp [Env.machine, step, memoStep, htask, recorded]
      obtain ⟨n, v, hrun, hgo⟩ := hdrained recorded rfl hsenders rfl
      refine getsOn_of_waiting (.memo :: List.replicate n .memo) (.main .go)
        ?_ (by simp [Act.calm]) rfl rfl hgo
      rw [Machine.runFrom_cons, hfirst]
      exact hrun

/-- In its loop and behind it, `main` never waits for good, but for the RPC. -/
theorem getsOn {as : List Act} (hrun : env.machine.run as = some w)
    (hentered : w.memoTask ≠ .notSpawned) (hended : ¬ w.main.pc.Ended)
    (hasked : ∀ deadline, w.main.pc ≠ .fetching deadline) : w.GetsOn env := by
  have hearly : ¬ w.main.pc.BeforeLoop := fun hpc ↦ hentered ((phased hrun).memoTask hpc)
  cases hpc : w.main.pc with
  | awaitReady => exact (hearly (by rw [hpc]; trivial)).elim
  | connecting rest => exact (hearly (by rw [hpc]; trivial)).elim
  | fetching deadline => exact absurd hpc (hasked deadline)
  | done summary => exact (hended (by rw [hpc]; trivial)).elim
  | failed err => exact (hended (by rw [hpc]; trivial)).elim
  | loopTop => exact getsOn_go (by simp [mainGo, hpc])
  | nonceSleep deadline wake => exact getsOn_wake wake (by simp [mainGo, hpc])
  | starting nonceHash => exact getsOn_go (by simp [mainGo, hpc])
  | dispatching nonceHash rest =>
      cases rest with
      | nil => exact getsOn_go (by simp [mainGo, hpc])
      | cons next rest => exact getsOn_go (by simp [mainGo, hpc])
  | collecting => exact getsOn_collecting hpc
  | delaying wake => exact getsOn_wake wake (by simp [mainGo, hpc])
  | graceCheck =>
      apply getsOn_go
      by_cases hflag : w.shutdownFlag = true <;> simp [mainGo, hpc, hflag]
  | graceSleep wake => exact getsOn_wake wake (by simp [mainGo, hpc])
  | signalling => exact getsOn_go (by simp [mainGo, hpc])
  | selecting wake =>
      refine getsOn_of_waiting [.tick wake] (.main .timeout) rfl
        (by simp [Act.calm]) rfl rfl ?_
      simp [Env.machine, step, mainStep, hpc]
  | aborting =>
      by_cases hexited : w.listener.pc = .exited
      · exact getsOn_go (by simp [mainGo, hpc, hexited])
      · have hcancel : env.machine.runFrom w [.listener .cancel] = some w.exitListener := by
          simp [Env.machine, step, listenerStep, (tailed hrun).aborting hpc, hexited]
        refine getsOn_of_waiting _ (.main .go) hcancel (by simp [Act.calm]) rfl rfl ?_
        simp [Env.machine, step, mainStep, mainGo, exitListener, hpc]
  | awaitingMemo =>
      apply getsOn_awaitingMemo hpc hentered
      rw [(conserved hrun).senders, if_pos ((tailed hrun).awaitingMemo hpc)]
  | finalizing =>
      have hperm := List.isPerm_iff.mpr (List.Perm.refl w.book.records.metrics.items)
      refine getsOn_of_waiting [] (.main (.finalize w.book.records.metrics.items))
        rfl (by simp) rfl rfl ?_
      simp [Env.machine, step, mainStep, hpc, hperm]

end World
end LandingBench
