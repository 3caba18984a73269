import LandingBench.System.Pipeline
import LandingBench.System.RoundIds
import LandingBench.System.Shutdown

/-!
# How much is sent after a Ctrl-C

A shutdown that is missed by the futures of one round is found by `main` at the
next top of its loop.  So whenever the Ctrl-C task broadcasts, at most one more
round is started, and at most one more transaction is given away for each entry.
The entries that are counted are a parameter: one of them, or all.
-/

namespace LandingBench

open Async Data Ledger

/-- How many of these entries the configuration has. -/
def Env.countEntries (env : Env) (entries : ℕ → Bool) : ℕ :=
  (List.range env.endpoints).countP entries

theorem Env.countEntries_single (env : Env) (index : ℕ) :
    env.countEntries (fun i ↦ i == index) ≤ 1 := by
  rw [Env.countEntries, ← List.count_eq_countP]
  exact List.nodup_iff_count_le_one.mp List.nodup_range index

theorem Env.countEntries_all (env : Env) : env.countEntries (fun _ ↦ true) = env.endpoints := by
  rw [Env.countEntries, List.countP_true, List.length_range]

/-- How many futures of these entries the round of this place may still get. -/
def MainPc.toMake (env : Env) (entries : ℕ → Bool) : MainPc → ℕ
  | fetching _ | nonceSleep _ _ | starting _ => env.countEntries entries
  | dispatching _ rest => rest.countP fun item ↦ entries item.2
  | _ => 0

/-- Every entry has its place in the list that a round goes through. -/
theorem MainPc.toMake_dispatching (env : Env) (entries : ℕ → Bool) (nonceHash : Hash) :
    (MainPc.dispatching nonceHash env.config.endpoint.zipIdx).toMake env entries =
      env.countEntries entries := by
  have hplaces : env.config.endpoint.zipIdx.map Prod.snd = List.range env.endpoints := by
    rw [List.zipIdx_map_snd, ← List.range_eq_range', Env.endpoints]
  rw [Env.countEntries, ← hplaces, List.countP_map]
  rfl

/-- How many rounds may be started without another look at the loop's top. -/
def MainPc.toBegin : MainPc → ℕ
  | fetching _ | nonceSleep _ _ | starting _ => 1
  | _ => 0

namespace SendTask

/-- The future is of one of these entries. -/
def share (entries : ℕ → Bool) (task : SendTask) : ℕ := if entries task.index then 1 else 0

/-- It has yet to be polled as well, and was made after everything that was sent. -/
def unaware (entries : ℕ → Bool) (sent : ℕ) (task : SendTask) : ℕ :=
  match task.stage with
  | .created => if sent ≤ task.shutdownRx then task.share entries else 0
  | .sending _ _ | .recording _ _ | .waiting _ _ | .finished _ => 0

theorem unaware_le (entries : ℕ → Bool) (sent : ℕ) (task : SendTask) :
    task.unaware entries sent ≤ task.share entries := by
  unfold unaware
  split
  · split_ifs
    · exact le_rfl
    · exact Nat.zero_le _
  all_goals exact Nat.zero_le _

end SendTask

namespace World

variable {env : Env} {w w' : World}

/-- `main` has heard nothing as long as it is in its loop. -/
structure Listening (w : World) : Prop where
  capacity : w.shutdown.capacity = 1
  sent : w.main.pc.InLoop → w.shutdown.sent.length = if w.ctrlC = .broadcasted then 1 else 0
  mainRx : w.main.pc.InLoop → w.main.shutdownRx = 0

theorem Listening.isOk (h : w.Listening) (hpc : w.main.pc.InLoop) :
    (w.shutdown.tryRecv w.main.shutdownRx).1.isOk = true ↔ w.ctrlC = .broadcasted := by
  rw [h.mainRx hpc, Broadcast.tryRecv_isOk_iff, h.sent hpc, h.capacity]
  split_ifs with hctrl <;> simp [hctrl]

theorem Listening.congr (h : w.Listening) (hshutdown : w'.shutdown = w.shutdown)
    (hmainRx : w'.main.shutdownRx = w.main.shutdownRx)
    (hctrlC : w'.ctrlC = .broadcasted ↔ w.ctrlC = .broadcasted)
    (hloop : w'.main.pc.InLoop → w.main.pc.InLoop) : w'.Listening where
  capacity := by rw [hshutdown, h.capacity]
  sent hpc := by
    rw [hshutdown, h.sent (hloop hpc)]
    simp only [hctrlC]
  mainRx hpc := hmainRx.trans (h.mainRx (hloop hpc))

theorem Listening.mainMove {act : MainAct} (h : w.Listening) (hphased : w.Phased)
    (hmove : MainMove env w act w') : w'.Listening := by
  have hloop : ∀ pc, w.main.pc = pc → pc.InLoop → w.main.pc.InLoop := fun _ hpc hin ↦ hpc ▸ hin
  cases hmove with
  | entered pc =>
      have hctrl := hphased.ctrlC (by rw [pc]; trivial)
      exact h.congr rfl rfl (by simp [hctrl, enterLoop]) fun _ ↦ hloop _ pc trivial
  | stopped pc round signal => exact ⟨h.capacity, fun hpc ↦ hpc.elim, fun hpc ↦ hpc.elim⟩
  | fetched pc round signal =>
      have hin := hloop _ pc trivial
      refine ⟨h.capacity, fun _ ↦ h.sent hin, fun _ ↦ ?_⟩
      have hctrl : w.ctrlC ≠ .broadcasted := by
        intro hctrl
        rw [(h.isOk hin).mpr hctrl] at signal
        cases signal
      have hnothing : w.shutdown.sent.length ≤ w.main.shutdownRx := by
        rw [h.sent hin, if_neg hctrl]
        exact Nat.zero_le _
      have hposition := congrArg Prod.snd (Broadcast.tryRecv_of_le hnothing)
      exact hposition.trans (h.mainRx hin)
  | signalled pc => exact ⟨h.capacity, fun hpc ↦ hpc.elim, fun hpc ↦ hpc.elim⟩
  | ready pc | skipped _ _ pc | connected _ _ _ pc | woken _ _ pc | fresh _ _ _ pc | stale _ _ pc
  | began _ pc | dispatched _ _ _ _ pc | filled _ pc | collected pc | delayed _ pc =>
      exact h.congr rfl rfl .rfl fun _ ↦ hloop _ pc trivial
  | _ => exact h.congr rfl rfl .rfl fun hpc ↦ hpc.elim

theorem Listening.move {act : Act} (h : w.Listening) (hphased : w.Phased)
    (hmove : Move env w act w') : w'.Listening := by
  cases hmove with
  | tick d => exact h.congr rfl rfl .rfl id
  | listener move =>
      rw [move.frame]
      exact h.congr rfl rfl .rfl id
  | memo move =>
      rw [move.frame]
      exact h.congr rfl rfl .rfl id
  | ctrlC move =>
      cases move with
      | stored pc => exact h.congr rfl rfl (by simp [pc]) id
      | failed pc => exact h.congr rfl rfl (by simp [pc]) id
      | broadcasted pc =>
          refine ⟨h.capacity, fun hin ↦ ?_, h.mainRx⟩
          have hlength := h.sent hin
          rw [pc] at hlength
          simpa [Broadcast.send] using hlength
  | main move => exact h.mainMove hphased move
  | send move =>
      rw [move.frame]
      exact h.congr rfl rfl .rfl id

theorem listening {as : List Act} (hrun : env.machine.run as = some w) : w.Listening := by
  refine env.machine.run_induction (motive := fun _ w ↦ w.Listening)
    ⟨rfl, fun _ ↦ rfl, fun _ ↦ rfl⟩ ?_ hrun
  intro as act s t hs ih hstep
  exact ih.move (phased hs) (move hstep)

/-! ## The futures of a round -/

variable {entries : ℕ → Bool}

/-- How many futures of these entries the round has. -/
def inFlight (entries : ℕ → Bool) (w : World) : ℕ := (w.sends.map (SendTask.share entries)).sum

/-- A round has no more futures than there are entries. -/
def Sized (env : Env) (entries : ℕ → Bool) (w : World) : Prop :=
  w.inFlight entries + w.main.pc.toMake env entries ≤ env.countEntries entries

theorem Sized.mainMove {act : MainAct} (h : w.Sized env entries) (hphased : w.Phased)
    (hmove : MainMove env w act w') : w'.Sized env entries := by
  have hsized : w.inFlight entries + w.main.pc.toMake env entries ≤ env.countEntries entries := h
  cases hmove with
  | fetched pc round signal =>
      have hidle := hphased.sends (by rw [pc]; exact id)
      simp [Sized, inFlight, hidle, MainPc.toMake]
  | woken deadline wake pc time | fresh deadline _ _ pc | stale deadline _ pc =>
      rw [pc] at hsized
      exact hsized
  | began nonceHash pc =>
      rw [pc] at hsized
      change w.inFlight entries +
        (MainPc.dispatching nonceHash env.config.endpoint.zipIdx).toMake env entries ≤ _
      rw [MainPc.toMake_dispatching]
      exact hsized
  | dispatched nonceHash ep index rest pc =>
      rw [pc] at hsized
      simp only [Sized, inFlight, setMain, MainPc.toMake, List.map_append, List.sum_append,
        List.map_singleton, List.sum_singleton, List.countP_cons, SendTask.share,
        newSend] at hsized ⊢
      omega
  | collected pc finished => exact Nat.zero_le _
  | _ => exact le_trans (Nat.add_le_add_left (Nat.zero_le _) _) hsized

theorem inFlight_setSend {i : ℕ} {task : SendTask} (hget : w.sends[i]? = some task)
    (stage : SendStage) (hsends : w'.sends = w.sends.set i { task with stage := stage }) :
    w'.inFlight entries = w.inFlight entries := by
  have hsum := Lists.sum_map_set (SendTask.share entries) hget { task with stage := stage }
  have hsame : SendTask.share entries { task with stage := stage } = task.share entries := rfl
  unfold inFlight
  rw [hsends]
  omega

theorem sized (entries : ℕ → Bool) {as : List Act} (hrun : env.machine.run as = some w) :
    w.Sized env entries := by
  refine env.machine.run_induction (motive := fun _ w ↦ w.Sized env entries) (Nat.zero_le _) ?_
    hrun
  intro as act s t hs ih hstep
  rcases (move hstep).main_eq with ⟨mainAct, -, hmain⟩ | ⟨hmain, hother⟩
  · exact ih.mainMove (phased hs) hmain
  · have hflight : t.inFlight entries = s.inFlight entries := by
      cases move hstep with
      | tick d => rfl
      | listener move =>
          rw [move.frame]
          rfl
      | memo move =>
          rw [move.frame]
          rfl
      | ctrlC move =>
          rw [move.frame]
          rfl
      | main move => exact absurd rfl (hother _)
      | send move =>
          obtain ⟨task, stage, hget, hsends⟩ := move.sends_eq
          exact inFlight_setSend hget stage hsends
    rw [Sized, hflight, hmain]
    exact ih

/-! ## After the broadcast -/

/-- How many transactions for these entries have been given away. -/
def handedTo (entries : ℕ → Bool) (w : World) : ℕ := w.handed.countP fun h ↦ entries h.index

/-- How many more may be, by futures that hear nothing. -/
def toHand (env : Env) (entries : ℕ → Bool) (w : World) : ℕ :=
  (w.sends.map (SendTask.unaware entries w.shutdown.sent.length)).sum + w.main.pc.toMake env entries

theorem Sized.toHand_le (h : w.Sized env entries) :
    w.toHand env entries ≤ env.countEntries entries := by
  have hsum : (w.sends.map (SendTask.unaware entries w.shutdown.sent.length)).sum ≤
      w.inFlight entries :=
    List.sum_le_sum fun task _ ↦ task.unaware_le entries _
  have hsized : w.inFlight entries + w.main.pc.toMake env entries ≤ env.countEntries entries := h
  unfold toHand
  omega

theorem Move.broadcasted {act : Act} (h : Move env w act w') (hphased : w.Phased)
    (hctrl : w.ctrlC = .broadcasted) : w'.ctrlC = .broadcasted := by
  cases h with
  | tick d => exact hctrl
  | listener move =>
      rw [move.frame]
      exact hctrl
  | memo move =>
      rw [move.frame]
      exact hctrl
  | ctrlC move => cases move <;> simp_all
  | main move =>
      cases move with
      | entered pc =>
          have hearly := hphased.ctrlC (by rw [pc]; trivial)
          rw [hctrl] at hearly
          cases hearly
      | _ => exact hctrl
  | send move =>
      rw [move.frame]
      exact hctrl

/-- A step of `main` that makes no future. -/
theorem toHand_le_of_main (hshutdown : w'.shutdown = w.shutdown) (hsends : w'.sends = w.sends)
    (hmake : w'.main.pc.toMake env entries ≤ w.main.pc.toMake env entries) :
    w'.toHand env entries ≤ w.toHand env entries := by
  unfold toHand
  rw [hshutdown, hsends]
  omega

theorem MainMove.toHand_le {act : MainAct} (h : MainMove env w act w') (hphased : w.Phased)
    (hlistening : w.Listening) (hctrl : w.ctrlC = .broadcasted) :
    w'.toHand env entries ≤ w.toHand env entries := by
  cases h with
  | fetched pc round signal =>
      rw [(hlistening.isOk (by rw [pc]; trivial)).mpr hctrl] at signal
      cases signal
  | woken deadline wake pc time | fresh deadline _ _ pc | stale deadline _ pc =>
      refine toHand_le_of_main rfl rfl ?_
      rw [pc]
      exact le_rfl
  | began nonceHash pc =>
      refine toHand_le_of_main rfl rfl ?_
      rw [pc]
      exact (MainPc.toMake_dispatching env entries nonceHash).le
  | dispatched nonceHash ep index rest pc =>
      have hnew := (w.newSend env nonceHash ep index).unaware_le entries w.shutdown.sent.length
      have hshare : (w.newSend env nonceHash ep index).share entries =
          if entries index = true then 1 else 0 := rfl
      rw [hshare] at hnew
      simp only [toHand, pc, setMain, MainPc.toMake, List.map_append, List.sum_append,
        List.map_singleton, List.sum_singleton, List.countP_cons]
      omega
  | collected pc finished => exact Nat.zero_le _
  | signalled pc =>
      have hidle : w.sends = [] := hphased.sends (by rw [pc]; exact id)
      simp [toHand, setMain, MainPc.toMake, hidle]
  | _ => exact toHand_le_of_main rfl rfl (Nat.zero_le _)

theorem toHand_setSend (env : Env) (entries : ℕ → Bool) (w' : World) {i : ℕ} {task : SendTask}
    (hget : w.sends[i]? = some task) (stage : SendStage) (hstage : stage ≠ .created)
    (hshutdown : w'.shutdown = w.shutdown) (hmain : w'.main = w.main)
    (hsends : w'.sends = w.sends.set i { task with stage := stage }) :
    w'.toHand env entries + task.unaware entries w.shutdown.sent.length = w.toHand env entries := by
  have hsum := Lists.sum_map_set (SendTask.unaware entries w.shutdown.sent.length) hget
    { task with stage := stage }
  have hpolled : SendTask.unaware entries w.shutdown.sent.length
      { task with stage := stage } = 0 := by
    cases stage with
    | created => exact absurd rfl hstage
    | _ => rfl
  unfold toHand
  rw [hshutdown, hmain, hsends]
  omega

/-- Whoever gives a transaction away has heard nothing. -/
theorem unaware_of_quiet {task : SendTask} (hlistening : w.Listening)
    (hpc : w.main.pc = .collecting) (hctrl : w.ctrlC = .broadcasted)
    (hstage : task.stage = .created)
    (hquiet : (w.shutdown.tryRecv task.shutdownRx).1.isOk = false) :
    task.unaware entries w.shutdown.sent.length = task.share entries := by
  have hsent : w.shutdown.sent.length = 1 := by
    rw [hlistening.sent (by rw [hpc]; trivial), if_pos hctrl]
  have hmissed : 1 ≤ task.shutdownRx := by
    by_contra hearly
    have hheard : (w.shutdown.tryRecv task.shutdownRx).1.isOk = true := by
      rw [Broadcast.tryRecv_isOk_iff, hsent, hlistening.capacity]
      omega
    rw [hquiet] at hheard
    cases hheard
  rw [SendTask.unaware, hstage, hsent]
  exact if_pos hmissed

theorem SendMove.toHand_le {i : ℕ} {act : SendAct} (h : SendMove env w i act w')
    (hlistening : w.Listening) (hctrl : w.ctrlC = .broadcasted) :
    w'.handedTo entries + w'.toHand env entries ≤ w.handedTo entries + w.toHand env entries := by
  have hkept : ∀ (task : SendTask) (stage : SendStage), w.sends[i]? = some task →
      stage ≠ .created → w'.shutdown = w.shutdown → w'.main = w.main →
      w'.sends = w.sends.set i { task with stage := stage } → w'.handed = w.handed →
      w'.handedTo entries + w'.toHand env entries ≤ w.handedTo entries + w.toHand env entries := by
    intro task stage hget hstage hshutdown hmain hsends hhanded
    have hset := toHand_setSend env entries w' hget stage hstage hshutdown hmain hsends
    rw [handedTo, hhanded, ← handedTo]
    omega
  cases h with
  | handed task clock tx client pc get stage signal build sender =>
      let given : World := { w.setSend i task (.sending tx w.now) with
        randomCounter := nextCounter env.host w.randomCounter
        handed := w.handed ++ [⟨task.index, task.endpoint, client, tx, task.roundId⟩] }
      have hset := toHand_setSend env entries given get (.sending tx w.now) (by simp) rfl rfl rfl
      rw [unaware_of_quiet hlistening pc hctrl stage signal] at hset
      have hgiven : given.handedTo entries = w.handedTo entries + task.share entries := by
        simp only [given, handedTo, List.countP_append, List.countP_singleton, SendTask.share]
      change given.handedTo entries + given.toHand env entries ≤ _
      omega
  | declined task clock pc get => exact hkept task _ get (by simp) rfl rfl rfl rfl
  | unbuilt task clock err pc get => exact hkept task _ get (by simp) rfl rfl rfl rfl
  | clientless task clock tx pc get => exact hkept task _ get (by simp) rfl rfl rfl rfl
  | sent task tx sendElapsed pc get => exact hkept task _ get (by simp) rfl rfl rfl rfl
  | unsent task tx sendElapsed pc get => exact hkept task _ get (by simp) rfl rfl rfl rfl
  | recorded task signature sendElapsed pc get => exact hkept task _ get (by simp) rfl rfl rfl rfl
  | waited task pair deadline outcome pc get => exact hkept task _ get (by simp) rfl rfl rfl rfl

theorem Move.toHand_le {act : Act} (h : Move env w act w') (hphased : w.Phased)
    (hlistening : w.Listening) (hctrl : w.ctrlC = .broadcasted) :
    w'.handedTo entries + w'.toHand env entries ≤ w.handedTo entries + w.toHand env entries := by
  cases h with
  | tick d => exact le_rfl
  | listener move =>
      rw [move.frame]
      exact le_rfl
  | memo move =>
      rw [move.frame]
      exact le_rfl
  | ctrlC move => cases move <;> simp_all
  | main move =>
      have hkept : w'.handed = w.handed := by rw [move.frame]
      rw [handedTo, hkept]
      exact Nat.add_le_add_left (move.toHand_le hphased hlistening hctrl) _
  | send move => exact move.toHand_le hlistening hctrl

theorem Move.toBegin_le {act : Act} (h : Move env w act w') (hlistening : w.Listening)
    (hctrl : w.ctrlC = .broadcasted) :
    (startedRounds w'.log).length + w'.main.pc.toBegin ≤
      (startedRounds w.log).length + w.main.pc.toBegin := by
  rcases h.main_eq with ⟨mainAct, -, move⟩ | ⟨hmain, hother⟩
  · cases move with
    | fetched pc round signal =>
        rw [(hlistening.isOk (by rw [pc]; trivial)).mpr hctrl] at signal
        cases signal
    | woken deadline wake pc time | fresh deadline _ _ pc | stale deadline _ pc =>
        rw [pc]
        exact le_rfl
    | began nonceHash pc =>
        rw [pc]
        simp [beginRound, MainPc.toBegin]
    | _ => exact Nat.add_le_add_left (Nat.zero_le _) _
  · rw [startedRounds_of_other h hother, hmain]

/-- What a run goes on with from a broadcast of the Ctrl-C task. -/
theorem cutoff {as bs : List Act} {s t : World} (hrun : env.machine.run as = some s)
    (hctrl : s.ctrlC = .broadcasted) (hfrom : env.machine.runFrom s bs = some t) :
    (startedRounds t.log).length ≤ (startedRounds s.log).length + s.main.pc.toBegin ∧
      ∀ entries, t.handedTo entries ≤ s.handedTo entries + s.toHand env entries := by
  have hcut := env.machine.invariant_from
    (P := fun u ↦ (u.Phased ∧ u.Listening ∧ u.ctrlC = .broadcasted) ∧
      (startedRounds u.log).length + u.main.pc.toBegin ≤
        (startedRounds s.log).length + s.main.pc.toBegin ∧
      ∀ entries, u.handedTo entries + u.toHand env entries ≤
        s.handedTo entries + s.toHand env entries)
    (fun u act v ⟨⟨hphased, hlistening, hctrl⟩, hstarted, hhanded⟩ hstep ↦ by
      have hmove := move hstep
      exact ⟨⟨hphased.move hmove, hlistening.move hphased hmove,
        hmove.broadcasted hphased hctrl⟩, (hmove.toBegin_le hlistening hctrl).trans hstarted,
        fun entries ↦ (hmove.toHand_le hphased hlistening hctrl).trans (hhanded entries)⟩)
    ⟨⟨phased hrun, listening hrun, hctrl⟩, le_rfl, fun _ ↦ le_rfl⟩ hfrom
  obtain ⟨-, hstarted, hhanded⟩ := hcut
  exact ⟨le_of_add_le_left hstarted, fun entries ↦ le_of_add_le_left (hhanded entries)⟩

/-- From a broadcast of the Ctrl-C task on, and whatever it interrupts, at most
one more round is started, and no more transactions are given away than the
futures that hear nothing: one for each entry, and so many as there are entries. -/
theorem cutoff_within_a_round (env : Env) (as bs : List Act) (s t : World)
    (hrun : env.machine.run as = some s) (hctrl : s.ctrlC = .broadcasted)
    (hfrom : env.machine.runFrom s bs = some t) :
    ((startedRounds t.log).length ≤ (startedRounds s.log).length + s.main.pc.toBegin ∧
      s.main.pc.toBegin ≤ 1) ∧
    (∀ index, t.handedTo (fun i ↦ i == index) ≤
        s.handedTo (fun i ↦ i == index) + s.toHand env (fun i ↦ i == index) ∧
      s.toHand env (fun i ↦ i == index) ≤ 1) ∧
    t.handed.length ≤ s.handed.length + s.toHand env (fun _ ↦ true) ∧
      s.toHand env (fun _ ↦ true) ≤ env.endpoints := by
  obtain ⟨hstarted, hhanded⟩ := cutoff hrun hctrl hfrom
  have hbegin : s.main.pc.toBegin ≤ 1 := by cases s.main.pc <;> simp [MainPc.toBegin]
  have hall := hhanded fun _ ↦ true
  rw [handedTo, handedTo, List.countP_true] at hall
  refine ⟨⟨hstarted, hbegin⟩, fun index ↦ ⟨hhanded _, ?_⟩, hall, ?_⟩
  · exact (sized _ hrun).toHand_le.trans (env.countEntries_single index)
  · exact (sized _ hrun).toHand_le.trans env.countEntries_all.le

theorem cutoff_within_a_round_signalledWhileFetching :
    ∃ s t, (Sample.rpcEnv 1).machine.run (signalledWhileFetching.take 12) = some s ∧
      (Sample.rpcEnv 1).machine.runFrom s
        (signalledWhileFetching.drop 12 ++ [.send 0 (.poll Sample.wallClock)]) = some t ∧
      t.handed.length = 1 ∧
      t.handedTo (fun i ↦ i == 0) ≤ s.handedTo (fun i ↦ i == 0) + 1 := by
  have hrun : ((Sample.rpcEnv 1).machine.run (signalledWhileFetching.take 12)).map (fun s ↦
      (decide (s.ctrlC = .broadcasted), ((Sample.rpcEnv 1).machine.runFrom s
        (signalledWhileFetching.drop 12 ++ [.send 0 (.poll Sample.wallClock)])).map
          (·.handed.length))) = some (true, some 1) := by decide +kernel
  obtain ⟨s, hs, hpair⟩ := Option.map_eq_some_iff.mp hrun
  simp only [Prod.mk.injEq, decide_eq_true_eq, Option.map_eq_some_iff] at hpair
  obtain ⟨hctrl, t, ht, hlength⟩ := hpair
  obtain ⟨-, hentry, -⟩ := cutoff_within_a_round _ _ _ s t hs hctrl ht
  exact ⟨s, t, hs, ht, hlength, (hentry 0).1.trans (Nat.add_le_add_left (hentry 0).2 _)⟩

end World
end LandingBench
