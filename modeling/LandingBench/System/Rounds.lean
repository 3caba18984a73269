import LandingBench.System.Chain
import LandingBench.System.Report

/-!
# Which rounds there are

Every round starts from a nonce that the round before did not have.  `main`
looks at the nonce account until its deadline, and what it does at the deadline
decides about all other rounds.
-/

namespace LandingBench

open Async Data Ledger

/-- How many rounds have been started where `main` is. -/
def MainPc.Counts (n round started : ℕ) : MainPc → Prop
  | awaitReady | connecting _ | loopTop => started = round ∧ round ≤ n
  | fetching _ | nonceSleep _ _ | starting _ => started = round ∧ round < n
  | dispatching _ _ | collecting | delaying _ => started = round + 1 ∧ round < n
  | graceCheck | graceSleep _ | signalling | selecting _ | aborting | awaitingMemo
  | finalizing | done _ => started = n
  | failed _ => True

namespace World

variable {env : Env} {w w' : World}

/-- All rounds so far were started, and nothing has asked `main` to stop. -/
structure Uninterrupted (env : Env) (w : World) : Prop where
  ctrlC : w.ctrlC ≠ .stored
  sent : w.main.pc.InLoop → w.shutdown.sent = []
  counts : w.main.pc.Counts env.config.config.transactions w.main.round (startedRounds w.log).length

/-- A step of `main` that neither starts a round nor sends a shutdown. -/
theorem Uninterrupted.congr (h : w.Uninterrupted env) (hctrlC : w'.ctrlC = w.ctrlC)
    (hshutdown : w'.shutdown = w.shutdown) (hlog : startedRounds w'.log = startedRounds w.log)
    (hloop : w'.main.pc.InLoop → w.main.pc.InLoop)
    (hcounts : w.main.pc.Counts env.config.config.transactions w.main.round
        (startedRounds w.log).length →
      w'.main.pc.Counts env.config.config.transactions w'.main.round
        (startedRounds w.log).length) : w'.Uninterrupted env where
  ctrlC := by
    rw [hctrlC]
    exact h.ctrlC
  sent hpc := by
    rw [hshutdown]
    exact h.sent (hloop hpc)
  counts := by
    rw [hlog]
    exact hcounts h.counts

theorem Uninterrupted.mainMove {act : MainAct} (h : w.Uninterrupted env)
    (hmove : MainMove env w act w') : w'.Uninterrupted env := by
  have hcounts := h.counts
  cases hmove with
  | entered pc =>
      rw [pc] at hcounts
      exact ⟨by simp [enterLoop], fun _ ↦ h.sent (by rw [pc]; trivial), hcounts⟩
  | stopped pc round signal =>
      -- there is no shutdown to be found
      rw [Broadcast.tryRecv_isOk_iff, h.sent (by rw [pc]; trivial)] at signal
      exact absurd signal.1 (Nat.not_lt_zero _)
  | began nonceHash pc =>
      rw [pc] at hcounts
      refine ⟨h.ctrlC, fun _ ↦ h.sent (by rw [pc]; trivial), ?_, hcounts.2⟩
      simp [beginRound, BookOp.started?, hcounts.1]
  | signalled pc =>
      rw [pc] at hcounts
      exact ⟨h.ctrlC, fun hpc ↦ hpc.elim, hcounts⟩
  | exhausted pc round =>
      refine h.congr rfl rfl rfl (fun hpc ↦ hpc.elim) fun hcounts ↦ ?_
      rw [pc] at hcounts
      exact le_antisymm (hcounts.1.trans_le hcounts.2) (hcounts.1 ▸ round)
  | fetched pc round signal =>
      refine h.congr rfl rfl rfl (fun _ ↦ by rw [pc]; trivial) fun hcounts ↦ ?_
      rw [pc] at hcounts
      exact ⟨hcounts.1, round⟩
  | delayed wake pc time =>
      refine h.congr rfl rfl rfl (fun _ ↦ by rw [pc]; trivial) fun hcounts ↦ ?_
      rw [pc] at hcounts
      exact hcounts
  | unready | keyless | unconnected | unfetched =>
      exact h.congr rfl rfl rfl (fun hpc ↦ hpc.elim) fun _ ↦ trivial
  | ready pc | skipped _ _ pc | connected _ _ _ pc | woken _ _ pc | fresh _ _ _ pc | stale _ _ pc
  | dispatched _ _ _ _ pc | filled _ pc | collected pc =>
      exact h.congr rfl rfl rfl (fun _ ↦ by rw [pc]; trivial) fun hcounts ↦ by
        rw [pc] at hcounts; exact hcounts
  | flagged pc | unflagged pc | graceOver _ pc | timedOut _ pc | memoOver pc | finalized _ pc =>
      exact h.congr rfl rfl rfl (fun hpc ↦ hpc.elim) fun hcounts ↦ by
        rw [pc] at hcounts; exact hcounts
  | listenerOver pc listener =>
      refine h.congr rfl rfl rfl (fun hpc ↦ hpc.elim) fun hcounts ↦ ?_
      rcases pc with pc | ⟨wake, pc⟩
      · rw [pc] at hcounts
        exact hcounts
      · rw [pc] at hcounts
        exact hcounts

/-- Only `start_round` starts rounds. -/
theorem startedRounds_sendMove {i : ℕ} {act : SendAct} (hmove : SendMove env w i act w') :
    startedRounds w'.log = startedRounds w.log := by
  cases hmove with
  | recorded task signature sendElapsed pc get stage => simp [BookOp.started?]
  | _ => rfl

theorem Uninterrupted.move {act : Act} {nonce : Hash} (h : w.Uninterrupted env)
    (hanswers : act.answersWith nonce = true) (hmove : Move env w act w') :
    w'.Uninterrupted env := by
  cases hmove with
  | tick d => exact ⟨h.ctrlC, h.sent, h.counts⟩
  | listener move =>
      rw [move.frame]
      exact ⟨h.ctrlC, h.sent, h.counts⟩
  | memo move =>
      cases move with
      | received obs rest pc buffer => exact ⟨h.ctrlC, h.sent, h.counts⟩
      | ended pc buffer senders => exact ⟨h.ctrlC, h.sent, h.counts⟩
      | recorded obs pc =>
          exact h.congr rfl rfl (by simp [BookOp.started?]) id id
  | ctrlC move =>
      cases move with
      | stored pc => cases hanswers
      | failed pc => exact ⟨by simp, h.sent, h.counts⟩
      | broadcasted pc => exact absurd pc h.ctrlC
  | main move => exact h.mainMove move
  | send move =>
      have hlog := startedRounds_sendMove move
      rw [move.frame] at hlog ⊢
      exact h.congr rfl rfl hlog id id

/-- `main` has come to its loop. -/
def Entered (w : World) : Prop := w.memoTask ≠ .notSpawned

theorem Entered.move {act : Act} (h : w.Entered) (hmove : Move env w act w') : w'.Entered := by
  cases hmove with
  | tick d => exact h
  | listener move =>
      rw [move.frame]
      exact h
  | memo move =>
      cases move with
      | received obs rest pc buffer => exact MemoTask.noConfusion
      | ended pc buffer senders => exact MemoTask.noConfusion
      | recorded obs pc => exact MemoTask.noConfusion
  | ctrlC move =>
      rw [move.frame]
      exact h
  | main move =>
      cases move with
      | entered pc => exact MemoTask.noConfusion
      | _ => exact h
  | send move =>
      rw [move.frame]
      exact h

/-- Only `main` spawns the memo task. -/
theorem entered_iff_of_other {act : Act} (hmove : Move env w act w')
    (hother : ∀ mainAct, act ≠ .main mainAct) : w'.Entered ↔ w.Entered := by
  refine ⟨fun h ↦ ?_, fun h ↦ h.move hmove⟩
  cases hmove with
  | tick d => exact h
  | listener move =>
      rw [move.frame] at h
      exact h
  | memo move => cases move <;> simp [Entered, *]
  | ctrlC move =>
      rw [move.frame] at h
      exact h
  | main move => exact absurd rfl (hother _)
  | send move =>
      rw [move.frame] at h
      exact h

/-- Whoever is past the start, and has not failed there, has entered the loop. -/
def Spawned (w : World) : Prop :=
  w.main.pc.BeforeLoop ∨ (∃ err, w.main.pc = .failed err) ∨ w.Entered

theorem Spawned.mainMove {act : MainAct} (h : w.Spawned) (hmove : MainMove env w act w') :
    w'.Spawned := by
  have hentered : ∀ pc, w.main.pc = pc → ¬ pc.BeforeLoop → (∀ err, pc ≠ .failed err) →
      w.Entered := by
    rintro pc rfl hlate hrunning
    exact (h.resolve_left hlate).resolve_left fun ⟨err, hpc⟩ ↦ hrunning err hpc
  cases hmove with
  | ready | skipped | connected => exact .inl trivial
  | unready | keyless | unconnected | unfetched => exact .inr (.inl ⟨_, rfl⟩)
  | entered pc => exact .inr (.inr MemoTask.noConfusion)
  | listenerOver pc listener =>
      rcases pc with pc | ⟨wake, pc⟩
      · exact .inr (.inr (hentered _ pc id fun _ ↦ MainPc.noConfusion))
      · exact .inr (.inr (hentered _ pc id fun _ ↦ MainPc.noConfusion))
  | _ => exact .inr (.inr (hentered _ ‹w.main.pc = _› id fun _ ↦ MainPc.noConfusion))

theorem Spawned.move {act : Act} (h : w.Spawned) (hmove : Move env w act w') : w'.Spawned := by
  rcases hmove.main_eq with ⟨mainAct, -, move⟩ | ⟨hmain, -⟩
  · exact h.mainMove move
  · rw [Spawned, hmain]
    exact h.imp_right (Or.imp_right fun hentered ↦ hentered.move hmove)

theorem spawned {as : List Act} (hrun : env.machine.run as = some w) : w.Spawned :=
  env.machine.invariant (P := Spawned) (.inl trivial) (fun _ _ _ h hstep ↦ h.move (move hstep)) hrun

/-- Every result is lost behind the `?` of the nonce. -/
def Lost (w : World) : Prop := w.Entered ∧ ∃ err, w.main.pc = .failed err

end World

namespace OnChain

variable {env : Env} {first : Hash} {s t : OnChain} {a : OnChainAct}

theorem uninterrupted {as : List OnChainAct} (hrun : (env.onChain first).run as = some s)
    (hanswered : (env.onChain first).Along Answered as) : s.world.Uninterrupted env := by
  refine (env.onChain first).invariant_of_along (P := fun s ↦ s.world.Uninterrupted env)
    ⟨CtrlC.noConfusion, fun _ ↦ rfl, rfl, Nat.zero_le _⟩ ?_ hanswered hrun
  intro s a t h hgood hstep
  cases move hstep with
  | program move => exact h.move hgood move
  | landed k next handed account get land => exact h

/-- A look at the nonce at the deadline comes after something of the last round
has landed. -/
def LandsInTime (s : OnChain) (a : OnChainAct) : Prop :=
  ∀ reply deadline hash, a = .program (.main (.answer reply)) →
    s.world.main.pc = .fetching deadline → deadline ≤ s.world.now →
      s.world.main.previousNonce = some hash →
        ∃ tx ∈ s.account.landed, tx.recentBlockhash = hash

theorem landsInTime_mainMove {act : MainAct} {w : World} (hspent : s.Spent) (hfresh : s.Fresh)
    (hphased : s.world.Phased) (hspawned : s.world.Spawned)
    (hanswered : Answered s (.program (.main act))) (hmove : World.MainMove env s.world act w) :
    LandsInTime s (.program (.main act)) ↔ ¬ w.Lost := by
  have hearly : ∀ rest, s.world.main.pc = .connecting rest → ¬ s.world.Entered :=
    fun rest pc hentered ↦ hentered (hphased.memoTask (by rw [pc]; trivial))
  cases hmove with
  | unfetched deadline reply err pc check =>
      obtain rfl := answer_of_answersWith hanswered
      have hlost : (s.world.setMain (.failed err)).Lost := by
        refine ⟨(hspawned.resolve_left ?_).resolve_left ?_, err, rfl⟩
        · rw [pc]
          exact id
        · simp [pc]
      obtain ⟨hprevious, hlate⟩ := stale_of_check_eq_error check
      refine iff_of_false (fun hlands ↦ ?_) (not_not_intro hlost)
      have hlanded := hlands _ deadline _ rfl pc hlate hprevious
      exact (hspent.ne_nonce_iff hfresh hprevious).mpr hlanded rfl
  | fresh deadline reply nonceHash pc check =>
      obtain ⟨rfl, hnew⟩ := reply_of_check_eq_some check
      obtain rfl := hanswered.current _ rfl
      refine iff_of_true ?_ fun ⟨_, err, hpc⟩ ↦ by cases hpc
      intro reply' deadline' hash _ _ _ hprevious
      apply (hspent.ne_nonce_iff hfresh hprevious).mp
      rintro rfl
      exact hnew hprevious
  | stale deadline reply pc check =>
      refine iff_of_true ?_ fun ⟨_, err, hpc⟩ ↦ by cases hpc
      intro reply' deadline' hash _ hpc hlate
      rw [pc] at hpc
      obtain rfl := MainPc.fetching.inj hpc
      exact absurd (now_lt_of_stale check) (Nat.not_lt.mpr hlate)
  | unready pc value sender =>
      refine iff_of_true (fun _ _ _ h ↦ by cases h) fun hlost ↦ hlost.1 ?_
      exact hphased.memoTask (by rw [pc]; trivial)
  | keyless ep rest pc kind apiKey =>
      exact iff_of_true (fun _ _ _ h ↦ by cases h) fun hlost ↦ hearly _ pc hlost.1
  | unconnected ep rest pc kind =>
      exact iff_of_true (fun _ _ _ h ↦ by cases h) fun hlost ↦ hearly _ pc hlost.1
  | _ => exact iff_of_true (fun _ _ _ h ↦ by cases h) fun ⟨_, err, hpc⟩ ↦ by cases hpc

theorem not_lost_iff_of_move (hspent : s.Spent) (hfresh : s.Fresh) (hphased : s.world.Phased)
    (hspawned : s.world.Spawned) (hanswered : Answered s a) (hmove : Move env s a t) :
    ¬ t.world.Lost ↔ ¬ s.world.Lost ∧ LandsInTime s a := by
  cases hmove with
  | landed k next handed account get land =>
      exact (and_iff_left fun _ _ _ h ↦ by cases h).symm
  | @program act w move =>
      rcases move.main_eq with ⟨mainAct, rfl, hmain⟩ | ⟨hmain, hother⟩
      · have hlands :=
          landsInTime_mainMove hspent hfresh hphased hspawned hanswered hmain
        have hrunning : ¬ s.world.Lost := by
          rintro ⟨-, err, hpc⟩
          cases hmain <;> simp_all
        exact ⟨fun hnot ↦ ⟨hrunning, hlands.mpr hnot⟩, fun hboth ↦ hlands.mp hboth.2⟩
      · have hlands : LandsInTime s (.program act) := by
          intro reply deadline hash heq
          exact absurd (OnChainAct.program.inj heq) (hother _)
        rw [and_iff_left hlands, World.Lost, World.Lost, hmain,
          World.entered_iff_of_other move hother]

/-- The results are lost in those runs in which a round has not landed in time. -/
theorem along_landsInTime_iff {as : List OnChainAct}
    (hrun : (env.onChain first).run as = some s)
    (hanswered : (env.onChain first).Along Answered as) :
    (env.onChain first).Along LandsInTime as ↔ ¬ s.world.Lost := by
  have hkept := (env.onChain first).run_induction
    (motive := fun as s ↦ (env.onChain first).Along Answered as →
      ((env.onChain first).Along LandsInTime as ↔ ¬ s.world.Lost)) ?_ ?_ hrun
  · exact hkept hanswered
  · refine fun _ ↦ iff_of_true (fun pre a post s h ↦ by simp at h) ?_
    rintro ⟨-, err, hpc⟩
    cases hpc
  · intro as a s t hs ih hstep hall
    obtain ⟨hanswered, hlast⟩ := (env.onChain first).along_snoc.mp hall
    obtain ⟨bs, hbs⟩ := world_run hs
    have hspent := spent hs (Machine.Along.mono _ (fun _ _ ↦ Answered.current) hanswered)
    rw [not_lost_iff_of_move hspent (fresh hs) (World.phased hbs) (World.spawned hbs)
      (hlast s hs) (move hstep), ← ih hanswered, Machine.along_snoc]
    refine and_congr_right fun _ ↦ ⟨fun h ↦ h s hs, fun h u hu ↦ ?_⟩
    obtain rfl := Option.some.inj (hs.symm.trans hu)
    exact h

/-! ## Every run can be brought to an end -/

theorem runFrom_program {as : List Act} {w : World}
    (hrun : env.machine.runFrom s.world as = some w) :
    (env.onChain first).runFrom s (as.map .program) = some { s with world := w } := by
  induction as generalizing s with
  | nil =>
      obtain rfl : s.world = w := by simpa using hrun
      rfl
  | cons act as ih =>
      obtain ⟨u, hstep, hrest⟩ := Option.bind_eq_some_iff.mp hrun
      have hfirst : (env.onChain first).step s (.program act) = some { s with world := u } := by
        have hworld : s.world.step env act = some u := hstep
        simp [Env.onChain, hworld]
      rw [List.map_cons, Machine.runFrom_cons, hfirst]
      exact ih (s := { s with world := u }) hrest

theorem alongFrom_program {as : List Act} (hcalm : ∀ act ∈ as, act.calm = true) (s : OnChain) :
    (env.onChain first).AlongFrom Answered s (as.map .program) := by
  apply Machine.alongFrom_of_forall
  intro a hmem s
  obtain ⟨act, hact, rfl⟩ := List.mem_map.mp hmem
  exact answersWith_of_calm (hcalm act hact) _

theorem entered_of_runFrom {as : List OnChainAct} (hentered : s.world.Entered)
    (hrun : (env.onChain first).runFrom s as = some t) : t.world.Entered := by
  refine (env.onChain first).invariant_from (P := fun s ↦ s.world.Entered) ?_ hentered hrun
  intro s a t h hstep
  cases move hstep with
  | program move => exact h.move move
  | landed k next handed account get land => exact h

/-- The RPC can always answer. -/
theorem exists_answered (env : Env) (first : Hash) {s : OnChain} {deadline : Duration}
    (hpc : s.world.main.pc = .fetching deadline) :
    ∃ t, (env.onChain first).step s
        (.program (.main (.answer (.nonce s.account.nonce)))) = some t ∧
      t.world.stepsLeft env < s.world.stepsLeft env := by
  have hstep : ∃ w, s.world.step env (.main (.answer (.nonce s.account.nonce))) = some w := by
    simp only [World.step, World.mainStep, hpc]
    split <;> exact ⟨_, rfl⟩
  obtain ⟨w, hstep⟩ := hstep
  have hmain : s.world.mainStep env (.answer (.nonce s.account.nonce)) = some w := hstep
  refine ⟨{ s with world := w }, by simp [Env.onChain, hstep], ?_⟩
  exact (World.mainMove hmain).stepsLeft_lt

theorem exists_runFrom_less {as : List OnChainAct}
    (hrun : (env.onChain first).run as = some s) (hentered : s.world.Entered)
    (hended : ¬ s.world.main.pc.Ended) :
    ∃ bs t, (env.onChain first).runFrom s bs = some t ∧
      (env.onChain first).AlongFrom Answered s bs ∧
      t.world.stepsLeft env < s.world.stepsLeft env := by
  by_cases hasked : ∃ deadline, s.world.main.pc = .fetching deadline
  · obtain ⟨deadline, hpc⟩ := hasked
    obtain ⟨t, hstep, hless⟩ := exists_answered env first hpc
    have hanswered : Answered s (.program (.main (.answer (.nonce s.account.nonce)))) :=
      decide_eq_true rfl
    exact ⟨[.program (.main (.answer (.nonce s.account.nonce)))], t, by simp [hstep],
      ⟨hanswered, fun _ _ ↦ trivial⟩, hless⟩
  · obtain ⟨bs, hbs⟩ := world_run hrun
    obtain ⟨cs, w, hcs, hcalm, hless⟩ :=
      World.getsOn hbs hentered hended fun deadline hpc ↦ hasked ⟨deadline, hpc⟩
    exact ⟨cs.map .program, { s with world := w }, runFrom_program hcs,
      alongFrom_program hcalm s, hless⟩

theorem exists_runFrom_ended {as : List OnChainAct}
    (hrun : (env.onChain first).run as = some s) (hentered : s.world.Entered) :
    ∃ bs t, (env.onChain first).runFrom s bs = some t ∧
      (env.onChain first).AlongFrom Answered s bs ∧ t.world.main.pc.Ended := by
  obtain ⟨bs, t, hbs, hanswered, -, hended⟩ := (env.onChain first).exists_runFrom_along
    (fun s ↦ s.world.stepsLeft env)
    (P := fun s ↦ s.world.Entered ∧ ∃ as, (env.onChain first).run as = some s)
    (Q := fun s ↦ s.world.main.pc.Ended)
    (fun s ⟨hentered, as, hrun⟩ hended ↦ by
      obtain ⟨bs, t, hbs, hanswered, hless⟩ := exists_runFrom_less hrun hentered hended
      exact ⟨bs, t, hbs, hanswered, ⟨entered_of_runFrom hentered hbs, as ++ bs,
        ((env.onChain first).run_append_eq_some).mpr ⟨s, hrun, hbs⟩⟩, hless⟩)
    ⟨hentered, as, hrun⟩
  exact ⟨bs, t, hbs, hanswered, hended⟩

theorem count_ofMain_le {as : List OnChainAct} (hrun : (env.onChain first).run as = some s) :
    as.countP OnChainAct.ofMain ≤ (World.init env).stepsLeft env := by
  have hcount := (env.onChain first).countP_add_le (fun s ↦ s.world.stepsLeft env)
    OnChainAct.ofMain (fun s a t hstep ↦ by
      cases move hstep with
      | program move => exact World.stepsLeft_move move
      | landed k next handed account get land => exact le_rfl) hrun
  exact le_of_add_le_left hcount

/-- `main` has rendered a summary of all rounds, with every landing accepted in them. -/
def AllReported (env : Env) (w : World) : Prop :=
  ∃ summary, w.main.pc = .done summary ∧ summary.rounds = env.config.config.transactions ∧
    summary.Reports w.log

theorem allReported_of_done {as : List OnChainAct}
    (hrun : (env.onChain first).run as = some s)
    (hanswered : (env.onChain first).Along Answered as) {summary : LandingSummary}
    (hdone : s.world.main.pc = .done summary) : AllReported env s.world := by
  obtain ⟨bs, hbs⟩ := world_run hrun
  have hreports := World.reports hbs hdone
  have hcounts := (uninterrupted hrun hanswered).counts
  rw [hdone] at hcounts
  exact ⟨summary, hdone, hreports.rounds.trans hcounts, hreports⟩

theorem entered_of_done {as : List OnChainAct} (hrun : (env.onChain first).run as = some s)
    {summary : LandingSummary} (hdone : s.world.main.pc = .done summary) : s.world.Entered := by
  obtain ⟨bs, hbs⟩ := world_run hrun
  have hspawned := World.spawned hbs
  rw [World.Spawned, hdone] at hspawned
  apply (hspawned.resolve_left id).resolve_left
  rintro ⟨err, hpc⟩
  cases hpc

/-- Once in its loop, `main` ends after a bounded number of its steps; and it
ends with all rounds reported just if every round with a successor lands in time. -/
theorem rounds_reported_iff (env : Env) (first : Hash) (as : List OnChainAct) (s : OnChain)
    (hrun : (env.onChain first).run as = some s)
    (hanswered : (env.onChain first).Along Answered as) :
    (s.world.Entered → as.countP OnChainAct.ofMain ≤ (World.init env).stepsLeft env ∧
      ∃ bs t, (env.onChain first).runFrom s bs = some t ∧
        (env.onChain first).AlongFrom Answered s bs ∧ t.world.main.pc.Ended) ∧
    (s.world.main.pc.Ended →
      (AllReported env s.world ↔
        s.world.Entered ∧ (env.onChain first).Along LandsInTime as)) := by
  refine ⟨fun hentered ↦ ⟨count_ofMain_le hrun, exists_runFrom_ended hrun hentered⟩,
    fun hended ↦ ?_⟩
  rw [along_landsInTime_iff hrun hanswered]
  constructor
  · rintro ⟨summary, hdone, -⟩
    refine ⟨entered_of_done hrun hdone, ?_⟩
    rintro ⟨-, err, hfailed⟩
    rw [hdone] at hfailed
    cases hfailed
  · rintro ⟨hentered, hkept⟩
    cases hpc : s.world.main.pc with
    | done summary => exact allReported_of_done hrun hanswered hpc
    | failed err => exact absurd ⟨hentered, err, hpc⟩ hkept
    | _ =>
        rw [hpc] at hended
        exact hended.elim

/-- A round whose transaction lands and is observed. -/
def landedRound : List OnChainAct :=
  List.map .program (Sample.openRound Sample.nonce₀ ++ Sample.sendOne ++
      Sample.observeOne (Sample.report "rpc" 0) ++ [.send 0 (.wait .selfLanded)]) ++
    [.land 0 Sample.nonce₁] ++ List.map .program Sample.closeRound

/-- A round of which nothing lands. -/
def unlandedRound : List OnChainAct :=
  List.map .program (Sample.openRound Sample.nonce₁ ++ Sample.sendOne ++
    [.tick 10000000000, .send 0 (.wait .timedOut)] ++ Sample.closeRound)

/-- The last of two rounds does not land. -/
def twoRounds : List OnChainAct :=
  List.map .program (Sample.startup ++ [.main .go, .main .go]) ++ landedRound ++ unlandedRound ++
    List.map .program (Sample.shutDown ++ [.main (.finalize [("rpc", ⟨1, [5]⟩)])])

/-- The second of three rounds does not land, and the time for it runs out. -/
def stuckRound : List OnChainAct :=
  List.map .program (Sample.startup ++ [.main .go, .main .go]) ++ landedRound ++ unlandedRound ++
    List.map .program [.main .go, .tick 10000000000, .main (.answer (.nonce Sample.nonce₁))]

def advanced (s : OnChain) : OnChainAct → Bool
  | .program (.main (.answer _)) =>
      s.world.main.previousNonce.all fun hash ↦ s.account.used.contains hash
  | _ => true

theorem landsInTime_of_advanced (s : OnChain) (a : OnChainAct) (h : advanced s a = true) :
    LandsInTime s a := by
  rintro reply deadline hash rfl - - hprevious
  have hused : hash ∈ s.account.used := by simpa [advanced, hprevious] using h
  exact List.mem_map.mp hused

theorem rounds_reported_iff_twoRounds :
    ∃ s, ((Sample.rpcEnv 2).onChain Sample.nonce₀).run twoRounds = some s ∧
      AllReported (Sample.rpcEnv 2) s.world := by
  have hrun : (((Sample.rpcEnv 2).onChain Sample.nonce₀).run twoRounds).map
      (·.world.main.pc.isDone) = some true := by decide +kernel
  obtain ⟨s, hs, hdone⟩ := Option.map_eq_some_iff.mp hrun
  obtain ⟨summary, hpc⟩ := MainPc.isDone_iff.mp hdone
  have hended : s.world.main.pc.Ended := by
    rw [hpc]
    trivial
  have hlands : ((Sample.rpcEnv 2).onChain Sample.nonce₀).Along LandsInTime twoRounds :=
    Machine.along_of_check _ advanced landsInTime_of_advanced (by decide +kernel)
  have hanswered : ((Sample.rpcEnv 2).onChain Sample.nonce₀).Along Answered twoRounds :=
    Machine.along_of_check _ answered (fun _ _ h ↦ h) (by decide +kernel)
  exact ⟨s, hs, ((rounds_reported_iff _ _ _ s hs hanswered).2 hended).mpr
    ⟨entered_of_done hs hpc, hlands⟩⟩

/-- Then `main` returns an error instead of a summary, although one round has landed. -/
theorem stuckRound_unreported :
    ¬ ∀ env first as s, (Env.onChain env first).run as = some s →
      (Env.onChain env first).Along Answered as → s.world.Entered → s.world.main.pc.Ended →
        AllReported env s.world := by
  intro h
  have hrun : (((Sample.rpcEnv 3).onChain Sample.nonce₀).run stuckRound).map
      (fun s ↦ (s.world.main.pc.isFailed, decide (s.world.memoTask = .receiving))) =
        some (true, true) := by decide +kernel
  obtain ⟨s, hs, hpair⟩ := Option.map_eq_some_iff.mp hrun
  simp only [Prod.mk.injEq, decide_eq_true_eq] at hpair
  obtain ⟨err, hfailed⟩ := MainPc.isFailed_iff.mp hpair.1
  have hentered : s.world.Entered := by
    rw [World.Entered, hpair.2]
    exact MemoTask.noConfusion
  have hended : s.world.main.pc.Ended := by
    rw [hfailed]
    trivial
  have hanswered : ((Sample.rpcEnv 3).onChain Sample.nonce₀).Along Answered stuckRound :=
    Machine.along_of_check _ answered (fun _ _ h ↦ h) (by decide +kernel)
  obtain ⟨summary, hdone, -⟩ :=
    h (Sample.rpcEnv 3) Sample.nonce₀ stuckRound s hs hanswered hentered hended
  rw [hfailed] at hdone
  cases hdone

end OnChain
end LandingBench
