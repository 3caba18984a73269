import LandingBench.System.Report
import LandingBench.System.RoundIds

/-!
# Who watches a round

`main` starts its first round when the listener has reported a confirmed
subscription, and asks no more about it.  The listener stays in its loop until
the stream fails or closes, a ping cannot be answered, or a shutdown is
broadcast; the channel to the memo task does not close before that.
-/

namespace LandingBench

open Async Data Ledger

/-- The listener takes messages from the stream, or deals with one. -/
def ListenerPc.InReceiveLoop : ListenerPc → Prop
  | looping | delivering _ | replying => True
  | connecting _ | confirming | exited => False

def Act.keepsListener : Act → Bool
  | listener (.next .err) | listener (.next .closed) | listener (.pong false)
  | ctrlC .broadcast => false
  | _ => true

namespace World

variable {env : Env} {w w' : World}

/-- A round has been started and some `send_single_tx` of it is not over. -/
def RoundOpen (w : World) : Prop :=
  match w.main.pc with
  | .dispatching _ _ => True
  | .collecting => ∃ task ∈ w.sends, task.stage.isFinished = false
  | _ => False

/-- Neither the stream, nor a ping reply, nor Ctrl-C takes the listener away. -/
def Undisturbed (_ : World) (act : Act) : Prop := act.keepsListener = true

/-- How things stand as long as rounds may come. -/
structure Watched (w : World) : Prop where
  sent : w.shutdown.sent = []
  receiver : w.memo.receiver = true
  aborted : w.listener.aborted = false
  listening : w.ready.value.isSome = true → w.listener.pc.InReceiveLoop
  handshake : w.main.pc ≠ .awaitReady → w.ready.value.isSome = true

theorem watched_init (env : Env) : (World.init env).Watched where
  sent := rfl
  receiver := rfl
  aborted := rfl
  listening h := by cases h
  handshake h := absurd rfl h

theorem RoundOpen.inLoop (h : w.RoundOpen) : w.main.pc.InLoop := by
  unfold RoundOpen at h
  cases hpc : w.main.pc <;> simp_all [MainPc.InLoop]

theorem RoundOpen.ne_awaitReady (h : w.RoundOpen) : w.main.pc ≠ .awaitReady := by
  intro hpc
  simp [RoundOpen, hpc] at h

theorem Watched.listenerMove {act : ListenerAct} (h : w.Watched)
    (hquiet : w.Undisturbed (.listener act)) (hmove : ListenerMove env w act w') :
    w'.Watched := by
  -- a listener that has not got to its loop has not reported either
  have hnot : ∀ pc, w.listener.pc = pc → ¬ pc.InReceiveLoop →
      w.ready.value.isSome = true → False := by
    intro pc hpc hnot hready
    exact hnot (hpc ▸ h.listening hready)
  cases hmove with
  | stagePassed stage rest pc =>
      exact ⟨h.sent, h.receiver, h.aborted, fun hready ↦ (hnot _ pc id hready).elim, h.handshake⟩
  | stageFailed stage rest pc =>
      exact ⟨h.sent, h.receiver, h.aborted, fun hready ↦ (hnot _ pc id hready).elim, h.handshake⟩
  | confirmed update pc =>
      refine ⟨h.sent, h.receiver, h.aborted, fun _ ↦ trivial, fun hpc ↦ ?_⟩
      exact (hnot _ pc id (h.handshake hpc)).elim
  | refused item pc ended => rcases ended with rfl | rfl <;> cases hquiet
  | passed item pc quiet => exact h
  | ended item pc quiet ended => rcases ended with rfl | rfl <;> cases hquiet
  | stopped pc signal =>
      rw [Broadcast.ready, h.sent] at signal
      simp at signal
  | undeliverable obs pc receiver =>
      rw [h.receiver] at receiver
      cases receiver
  | replyFailed pc => cases hquiet
  | cancelled aborted pc =>
      rw [h.aborted] at aborted
      cases aborted
  | _ => exact ⟨h.sent, h.receiver, h.aborted, fun _ ↦ trivial, h.handshake⟩

/-- The memo task keeps its end of the channel open while the listener is there. -/
theorem Watched.memoMove (h : w.Watched) (hphased : w.Phased) (hconserved : w.Conserved)
    (hmove : MemoMove w w') : w'.Watched := by
  cases hmove with
  | received obs rest pc buffer => exact ⟨h.sent, h.receiver, h.aborted, h.listening, h.handshake⟩
  | recorded obs pc => exact ⟨h.sent, h.receiver, h.aborted, h.listening, h.handshake⟩
  | ended pc buffer senders =>
      have hexited : w.listener.pc = .exited := by
        by_contra hne
        rw [hconserved.senders, if_neg hne] at senders
        cases senders
      have hpc : w.main.pc ≠ .awaitReady := by
        intro hpc
        have hearly := hphased.memoTask (by rw [hpc]; trivial)
        rw [pc] at hearly
        cases hearly
      have hloop := h.listening (h.handshake hpc)
      rw [hexited] at hloop
      exact hloop.elim

theorem Watched.mainMove {act : MainAct} (h : w.main.pc.InLoop → w.Watched)
    (hmove : MainMove env w act w') (hin : w'.main.pc.InLoop) : w'.Watched := by
  cases hmove with
  | ready pc value =>
      have hold := h (by rw [pc]; trivial)
      exact ⟨hold.sent, hold.receiver, hold.aborted, hold.listening, fun _ ↦ value⟩
  | unready | keyless | unconnected | exhausted | stopped | unfetched | flagged | unflagged
  | graceOver | signalled | listenerOver | timedOut | memoOver | finalized => exact hin.elim
  | _ =>
      have hold := h (by simp_all [MainPc.InLoop])
      exact ⟨hold.sent, hold.receiver, hold.aborted, hold.listening,
        fun _ ↦ hold.handshake (by simp_all)⟩

theorem Watched.move {act : Act} (h : w.main.pc.InLoop → w.Watched) (hphased : w.Phased)
    (hconserved : w.Conserved) (hquiet : w.Undisturbed act) (hmove : Move env w act w')
    (hin : w'.main.pc.InLoop) : w'.Watched := by
  cases hmove with
  | tick d =>
      have hold := h hin
      exact ⟨hold.sent, hold.receiver, hold.aborted, hold.listening, hold.handshake⟩
  | listener move =>
      rw [move.frame] at hin
      exact (h hin).listenerMove hquiet move
  | memo move =>
      rw [move.frame] at hin
      exact (h hin).memoMove hphased hconserved move
  | ctrlC move =>
      cases move with
      | stored pc =>
          have hold := h hin
          exact ⟨hold.sent, hold.receiver, hold.aborted, hold.listening, hold.handshake⟩
      | failed pc =>
          have hold := h hin
          exact ⟨hold.sent, hold.receiver, hold.aborted, hold.listening, hold.handshake⟩
      | broadcasted pc => cases hquiet
  | main move => exact Watched.mainMove h move hin
  | send move =>
      rw [move.frame] at hin ⊢
      have hold := h hin
      exact ⟨hold.sent, hold.receiver, hold.aborted, hold.listening, hold.handshake⟩

theorem watched {as : List Act} (hquiet : env.machine.Along Undisturbed as)
    (hrun : env.machine.run as = some w) (hin : w.main.pc.InLoop) : w.Watched := by
  have hall := env.machine.invariant_of_along
    (P := fun w ↦ w.Phased ∧ w.Conserved ∧ (w.main.pc.InLoop → w.Watched))
    ⟨phased_init env, conserved_init env, fun _ ↦ watched_init env⟩
    (fun _ _ _ ⟨hphased, hconserved, h⟩ hquiet hstep ↦
      ⟨hphased.move (move hstep), hconserved.move hphased (move hstep),
        Watched.move h hphased hconserved hquiet (move hstep)⟩)
    hquiet hrun
  exact hall.2.2 hin

/-- As long as a round is open the listener is in its loop. -/
def RoundsAreWatched (env : Env) (as : List Act) : Prop :=
  ∀ pre post s, as = pre ++ post → env.machine.run pre = some s → s.RoundOpen →
    s.listener.pc.InReceiveLoop

/-- The rounds of which no observation was accepted. -/
def unlandedRounds (log : List BookOp) : List String :=
  (startedRounds log).filter fun roundId ↦
    roundId ∉ (LandingBook.accepted log).map (·.record.roundId)

/-- A run in which nothing takes the listener away has all its rounds watched; and
where the rounds have ids of their own, those that a summary counts but not as
landed are those of which no observation was accepted. -/
theorem rounds_are_watched (env : Env) (as : List Act) :
    (env.machine.Along Undisturbed as → RoundsAreWatched env as) ∧
      ∀ w summary, env.machine.run as = some w → w.main.pc = .done summary →
        summary.rounds = (startedRounds w.log).length ∧
          summary.totalLanded =
            ((LandingBook.accepted w.log).map (·.record.roundId)).toFinset.card ∧
          ((startedRounds w.log).Nodup →
            summary.rounds = summary.totalLanded + (unlandedRounds w.log).length) := by
  constructor
  · rintro hquiet pre post s rfl hpre hopen
    have hwatched := watched hquiet.left hpre hopen.inLoop
    exact hwatched.listening (hwatched.handshake hopen.ne_awaitReady)
  · intro w summary hrun hdone
    have hreports := reports hrun hdone
    refine ⟨hreports.rounds, hreports.totalLanded, fun hstarted ↦ ?_⟩
    have hsplit := (startedRounds w.log).length_eq_length_filter_add fun roundId ↦
      decide (roundId ∈ (LandingBook.accepted w.log).map (·.record.roundId))
    rw [hreports.rounds, hreports.totalLanded, (sendsStarted hrun).card_landed hstarted, hsplit]
    simp only [unlandedRounds, decide_not]

/-- The only round lands, and no other is left. -/
theorem rounds_are_watched_landedRun :
    RoundsAreWatched (Sample.rpcEnv 1) Sample.landedRun ∧
      ∃ w summary, (Sample.rpcEnv 1).machine.run
          (Sample.landedRun ++ [.main (.finalize [("rpc", ⟨1, [5]⟩)])]) = some w ∧
        w.main.pc = .done summary ∧ summary.rounds = summary.totalLanded := by
  have hquiet : (Sample.rpcEnv 1).machine.Along Undisturbed Sample.landedRun :=
    Machine.along_of_check _ (fun (_ : World) (act : Act) ↦ act.keepsListener) (fun _ _ h ↦ h)
      (by decide +kernel)
  refine ⟨(rounds_are_watched _ _).1 hquiet, ?_⟩
  have hrun : ((Sample.rpcEnv 1).machine.run
      (Sample.landedRun ++ [.main (.finalize [("rpc", ⟨1, [5]⟩)])])).map (fun w ↦
        (w.main.pc.isDone, decide (startedRounds w.log).Nodup, (unlandedRounds w.log).length)) =
          some (true, true, 0) := by decide +kernel
  obtain ⟨w, hw, hread⟩ := Option.map_eq_some_iff.mp hrun
  simp only [Prod.mk.injEq, decide_eq_true_eq] at hread
  obtain ⟨hdone, hstarted, hunlanded⟩ := hread
  obtain ⟨summary, hpc⟩ := MainPc.isDone_iff.mp hdone
  have hrounds := ((rounds_are_watched _ _).2 w summary hw hpc).2.2 hstarted
  rw [hunlanded] at hrounds
  exact ⟨w, summary, hw, hpc, hrounds⟩

/-- A round is open, and its transaction sent, when the item comes or Ctrl-C does. -/
def disturbedBy (disturbance : List Act) : List Act :=
  Sample.startup ++ [.main .go, .main .go] ++ Sample.openRound Sample.nonce₀ ++ Sample.sendOne ++
    disturbance

/-- Neither a closed stream nor a shutdown makes `main` leave an open round. -/
theorem rounds_unwatched :
    ¬ RoundsAreWatched (Sample.rpcEnv 1) (disturbedBy [.listener (.next .closed)]) ∧
      ¬ RoundsAreWatched (Sample.rpcEnv 1)
        (disturbedBy [.ctrlC (.signal true), .ctrlC .broadcast, .listener .shutdown]) := by
  have hunwatched : ∀ as, ((Sample.rpcEnv 1).machine.run as).map
      (fun w ↦ (decide (w.listener.pc = .exited), w.main.pc.isCollecting,
        w.sends.any (!·.stage.isFinished))) = some (true, true, true) →
      ¬ RoundsAreWatched (Sample.rpcEnv 1) as := by
    intro as hrun hwatched
    obtain ⟨w, hw, hpair⟩ := Option.map_eq_some_iff.mp hrun
    simp only [Prod.mk.injEq, decide_eq_true_eq, List.any_eq_true] at hpair
    obtain ⟨hexited, hcollecting, task, hmem, htask⟩ := hpair
    have hopen : w.RoundOpen := by
      rw [RoundOpen, MainPc.isCollecting_iff.mp hcollecting]
      exact ⟨task, hmem, by simpa using htask⟩
    have hloop := hwatched as [] w (by simp) hw hopen
    rw [hexited] at hloop
    exact hloop
  exact ⟨hunwatched _ (by decide +kernel), hunwatched _ (by decide +kernel)⟩

end World
end LandingBench
