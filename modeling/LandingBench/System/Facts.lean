import LandingBench.History
import LandingBench.System.Moves

/-!
# Facts about every run

The calls on the book are the only steps that change its accounts, so at any
point of a run the accounts are those of the calls made so far.  Where `main`
is says which of the other tasks there are.
-/

namespace LandingBench

open Async Data

namespace MainPc

/-- The memo task and the Ctrl-C task have not been spawned yet. -/
def BeforeLoop : MainPc → Prop
  | awaitReady | connecting _ => True
  | _ => False

/-- `main` may come back to the top of its loop. -/
def InLoop : MainPc → Prop
  | awaitReady | connecting _ | loopTop | fetching _ | nonceSleep _ _ | starting _
  | dispatching _ _ | collecting | delaying _ => True
  | graceCheck | graceSleep _ | signalling | selecting _ | aborting | awaitingMemo
  | finalizing | done _ | failed _ => False

/-- The futures of a round are being made or polled. -/
def InFlight : MainPc → Prop
  | dispatching _ _ | collecting => True
  | _ => False

/-- The memo task is over, and the book is read next or has been. -/
def AtFinalize : MainPc → Prop
  | finalizing | done _ => True
  | _ => False

theorem atFinalize_iff {pc : MainPc} :
    pc.AtFinalize ↔ pc = .finalizing ∨ ∃ summary, pc = .done summary := by
  cases pc <;> simp [AtFinalize]

end MainPc

namespace World

variable {env : Env} {w w' : World}

def Replayed (w : World) : Prop := w.book.accounts = (LandingBook.replay w.log).accounts

/-- A call on the book that is written down keeps the accounts in line. -/
theorem Replayed.call (h : w.Replayed) (op : BookOp) :
    (w.book.apply op).accounts = (LandingBook.replay (w.log ++ [op])).accounts := by
  rw [LandingBook.replay_snoc]
  exact LandingBook.accounts_apply_congr h op

theorem Replayed.move {act : Act} (h : w.Replayed) (hmove : Move env w act w') :
    w'.Replayed := by
  cases hmove with
  | tick d => exact h
  | listener move =>
      rw [move.frame]
      exact h
  | memo move =>
      cases move with
      | received obs rest pc buffer => exact h
      | ended pc buffer senders => exact h
      | recorded obs pc => exact h.call (.recordLanding obs)
  | ctrlC move =>
      rw [move.frame]
      exact h
  | main move =>
      cases move with
      | began nonceHash pc => exact h.call (.startRound (env.host.base58 nonceHash.bytes))
      | _ => exact h
  | send move =>
      cases move with
      | recorded task signature sendElapsed pc get stage =>
          exact h.call (.recordSend signature task.endpoint.name sendElapsed task.roundId)
      | waited task pair deadline outcome pc get stage ready =>
          exact (LandingBook.accounts_dropPair w.book pair).trans h
      | _ => exact h

theorem replayed {as : List Act} (hrun : env.machine.run as = some w) : w.Replayed :=
  env.machine.invariant (P := Replayed) rfl (fun _ _ _ h hstep ↦ h.move (move hstep)) hrun

/-- What there is besides `main`. -/
structure Phased (w : World) : Prop where
  memoTask : w.main.pc.BeforeLoop → w.memoTask = .notSpawned
  ctrlC : w.main.pc.BeforeLoop → w.ctrlC = .notSpawned
  sends : ¬ w.main.pc.InFlight → w.sends = []

theorem phased_init (env : Env) : (World.init env).Phased := ⟨fun _ ↦ rfl, fun _ ↦ rfl, fun _ ↦ rfl⟩

theorem Phased.mainMove {act : MainAct} (h : w.Phased) (hmove : MainMove env w act w') :
    w'.Phased := by
  have hearly : ∀ pc, w.main.pc = pc → pc.BeforeLoop →
      w.memoTask = .notSpawned ∧ w.ctrlC = .notSpawned := fun pc hpc hbefore ↦
    ⟨h.memoTask (hpc ▸ hbefore), h.ctrlC (hpc ▸ hbefore)⟩
  have hidle : ∀ pc, w.main.pc = pc → ¬ pc.InFlight → w.sends = [] := fun pc hpc hnot ↦
    h.sends (hpc ▸ hnot)
  cases hmove with
  | ready pc value =>
      exact ⟨fun _ ↦ (hearly _ pc trivial).1, fun _ ↦ (hearly _ pc trivial).2,
        fun _ ↦ hidle _ pc id⟩
  | skipped ep rest pc kind =>
      exact ⟨fun _ ↦ (hearly _ pc trivial).1, fun _ ↦ (hearly _ pc trivial).2,
        fun _ ↦ hidle _ pc id⟩
  | connected ep rest apiKey pc kind key =>
      exact ⟨fun _ ↦ (hearly _ pc trivial).1, fun _ ↦ (hearly _ pc trivial).2,
        fun _ ↦ hidle _ pc id⟩
  | began nonceHash pc => exact ⟨fun hpc ↦ hpc.elim, fun hpc ↦ hpc.elim, fun _ ↦ hidle _ pc id⟩
  | dispatched nonceHash ep index rest pc =>
      exact ⟨fun hpc ↦ hpc.elim, fun hpc ↦ hpc.elim, fun hpc ↦ absurd trivial hpc⟩
  | filled nonceHash pc =>
      exact ⟨fun hpc ↦ hpc.elim, fun hpc ↦ hpc.elim, fun hpc ↦ absurd trivial hpc⟩
  | collected pc finished => exact ⟨fun hpc ↦ hpc.elim, fun hpc ↦ hpc.elim, fun _ ↦ rfl⟩
  | listenerOver pc listener =>
      refine ⟨fun hpc ↦ hpc.elim, fun hpc ↦ hpc.elim, fun _ ↦ ?_⟩
      rcases pc with pc | ⟨wake, pc⟩ <;> exact hidle _ pc id
  | _ => exact ⟨fun hpc ↦ hpc.elim, fun hpc ↦ hpc.elim, fun _ ↦ hidle _ ‹w.main.pc = _› id⟩

theorem SendMove.collecting {i : ℕ} {act : SendAct} (h : SendMove env w i act w') :
    w.main.pc = .collecting := by
  cases h <;> assumption

theorem Phased.move {act : Act} (h : w.Phased) (hmove : Move env w act w') : w'.Phased := by
  cases hmove with
  | tick d => exact ⟨h.memoTask, h.ctrlC, h.sends⟩
  | listener move =>
      rw [move.frame]
      exact ⟨h.memoTask, h.ctrlC, h.sends⟩
  | memo move =>
      have hearly : ∀ task, w.memoTask = task → task ≠ .notSpawned → ¬ w.main.pc.BeforeLoop :=
        fun task htask hne hbefore ↦ hne (htask ▸ h.memoTask hbefore)
      cases move with
      | received obs rest pc buffer =>
          exact ⟨fun hpc ↦ absurd hpc (hearly _ pc (by simp)), h.ctrlC, h.sends⟩
      | ended pc buffer senders =>
          exact ⟨fun hpc ↦ absurd hpc (hearly _ pc (by simp)), h.ctrlC, h.sends⟩
      | recorded obs pc => exact ⟨fun hpc ↦ absurd hpc (hearly _ pc (by simp)), h.ctrlC, h.sends⟩
  | ctrlC move =>
      have hearly : ∀ task, w.ctrlC = task → task ≠ .notSpawned → ¬ w.main.pc.BeforeLoop :=
        fun task htask hne hbefore ↦ hne (htask ▸ h.ctrlC hbefore)
      cases move with
      | stored pc => exact ⟨h.memoTask, fun hpc ↦ absurd hpc (hearly _ pc (by simp)), h.sends⟩
      | failed pc => exact ⟨h.memoTask, fun hpc ↦ absurd hpc (hearly _ pc (by simp)), h.sends⟩
      | broadcasted pc => exact ⟨h.memoTask, fun hpc ↦ absurd hpc (hearly _ pc (by simp)), h.sends⟩
  | main move => exact h.mainMove move
  | send move =>
      have hpc := move.collecting
      rw [move.frame]
      exact ⟨h.memoTask, h.ctrlC, fun hidle ↦ absurd (hpc ▸ trivial) hidle⟩

theorem phased {as : List Act} (hrun : env.machine.run as = some w) : w.Phased :=
  env.machine.invariant (phased_init env) (fun _ _ _ h hstep ↦ h.move (move hstep)) hrun

end World
end LandingBench
