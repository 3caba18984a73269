import LandingBench.System.Facts

/-!
# Every delivered observation is recorded

The listener holds the only sender of the memo channel until it is gone, and
the memo task goes on until the channel is both drained and without a sender.
What has been delivered is therefore always what has been recorded, then what
the memo task holds, then what is still in the channel; and `main` reads the
book when the last two are empty for good.
-/

namespace LandingBench

open Async Data Ledger

def MemoTask.inHand : MemoTask → List MemoObservation
  | recording obs => [obs]
  | notSpawned => []
  | receiving => []
  | finished => []

namespace World

variable {env : Env} {w w' : World}

structure Conserved (w : World) : Prop where
  pieces : w.delivered = observations w.log ++ w.memoTask.inHand ++ w.memo.buffer
  senders : w.memo.senders = if w.listener.pc = .exited then 0 else 1
  finished : w.memoTask = .finished → w.memo.buffer = [] ∧ w.listener.pc = .exited
  atFinalize : w.main.pc.AtFinalize → w.memoTask = .finished

theorem conserved_init (env : Env) : (World.init env).Conserved where
  pieces := rfl
  senders := rfl
  finished h := by cases h
  atFinalize h := h.elim

/-- Leaving its loop, the listener drops the last sender. -/
theorem Conserved.exitListener (h : w.Conserved) (hpc : w.listener.pc ≠ .exited) :
    w.exitListener.Conserved where
  pieces := h.pieces
  senders := by
    have hone : w.memo.senders = 1 := by simpa [hpc] using h.senders
    simp [World.exitListener, Mpsc.dropSender, hone]
  finished hfin := ⟨(h.finished hfin).1, rfl⟩
  atFinalize := h.atFinalize

theorem Conserved.setListener (h : w.Conserved) (pc : ListenerPc) (hpc : w.listener.pc ≠ .exited)
    (hpc' : pc ≠ .exited) : (w.setListener pc).Conserved where
  pieces := h.pieces
  senders := by simpa [World.setListener, hpc, hpc'] using h.senders
  finished hfin := absurd (h.finished hfin).2 hpc
  atFinalize := h.atFinalize

theorem Conserved.listenerMove {act : ListenerAct} (h : w.Conserved)
    (hmove : ListenerMove env w act w') : w'.Conserved := by
  cases hmove with
  | stagePassed stage rest pc =>
      apply h.setListener _ (by simp [pc])
      split_ifs <;> simp
  | stageFailed stage rest pc => exact h.exitListener (by simp [pc])
  | confirmed update pc =>
      have hset := h.setListener .looping (by simp [pc]) (by simp)
      exact ⟨hset.pieces, hset.senders, hset.finished, hset.atFinalize⟩
  | unconfirmed pc => exact h.setListener _ (by simp [pc]) (by simp)
  | refused item pc ended => exact h.exitListener (by simp [pc])
  | observed txMsg obs pc quiet memo => exact h.setListener _ (by simp [pc]) (by simp)
  | pinged pc quiet => exact h.setListener _ (by simp [pc]) (by simp)
  | passed item pc quiet => exact h
  | ended item pc quiet ended => exact h.exitListener (by simp [pc])
  | stopped pc signal => exact h.exitListener (by simp [pc])
  | delivered obs pc receiver room =>
      have hset := h.setListener .looping (by simp [pc]) (by simp)
      have hpieces : w.delivered ++ [obs] =
          observations w.log ++ w.memoTask.inHand ++ (w.memo.buffer ++ [obs]) := by
        rw [h.pieces, List.append_assoc]
      -- the memo task is not over while the listener can still deliver
      have hopen : w.memoTask ≠ .finished := by
        intro hfin
        have hexited := (h.finished hfin).2
        rw [pc] at hexited
        cases hexited
      exact ⟨hpieces, hset.senders, fun hfin ↦ absurd hfin hopen, hset.atFinalize⟩
  | undeliverable obs pc receiver => exact h.exitListener (by simp [pc])
  | replied pc => exact h.setListener _ (by simp [pc]) (by simp)
  | replyFailed pc => exact h.exitListener (by simp [pc])
  | cancelled aborted pc => exact h.exitListener pc

theorem Conserved.memoMove (h : w.Conserved) (hmove : MemoMove w w') : w'.Conserved := by
  have hnotFinal : ∀ pc, w.memoTask = pc → pc ≠ .finished → ¬ w.main.pc.AtFinalize := by
    intro pc hpc hne hfinal
    exact hne (hpc ▸ h.atFinalize hfinal)
  cases hmove with
  | received obs rest pc buffer =>
      refine ⟨?_, h.senders, ?_, ?_⟩
      · have hpieces := h.pieces
        rw [pc, buffer] at hpieces
        simpa [MemoTask.inHand] using hpieces
      · intro hfin
        cases hfin
      · intro hfinal
        exact absurd hfinal (hnotFinal _ pc (by simp))
  | ended pc buffer senders =>
      have hexited : w.listener.pc = .exited := by
        by_contra hne
        rw [h.senders, if_neg hne] at senders
        cases senders
      refine ⟨?_, h.senders, fun _ ↦ ⟨buffer, hexited⟩, fun _ ↦ rfl⟩
      have hpieces := h.pieces
      rw [pc] at hpieces
      exact hpieces
  | recorded obs pc =>
      refine ⟨?_, h.senders, ?_, ?_⟩
      · have hpieces := h.pieces
        rw [pc] at hpieces
        simpa [MemoTask.inHand, observations] using hpieces
      · intro hfin
        cases hfin
      · intro hfinal
        exact absurd hfinal (hnotFinal _ pc (by simp))

/-- Steps that leave the channel and both of its ends alone. -/
theorem Conserved.congr (h : w.Conserved) (hdelivered : w'.delivered = w.delivered)
    (hlog : observations w'.log = observations w.log) (hbuffer : w'.memo.buffer = w.memo.buffer)
    (hsenders : w'.memo.senders = w.memo.senders) (hlistener : w'.listener.pc = w.listener.pc)
    (htask : w'.memoTask = w.memoTask)
    (hfinal : w'.main.pc.AtFinalize → w.memoTask = .finished) : w'.Conserved where
  pieces := by rw [hdelivered, hlog, hbuffer, htask, h.pieces]
  senders := by rw [hsenders, hlistener, h.senders]
  finished hfin := by
    rw [hbuffer, hlistener]
    exact h.finished (htask ▸ hfin)
  atFinalize hpc := htask.trans (hfinal hpc)

theorem Conserved.mainMove {act : MainAct} (h : w.Conserved) (hphased : w.Phased)
    (hmove : MainMove env w act w') : w'.Conserved := by
  cases hmove with
  | entered pc =>
      have hearly := hphased.memoTask (by rw [pc]; trivial)
      have hpieces := h.pieces
      rw [hearly] at hpieces
      exact ⟨hpieces, h.senders, fun hfin ↦ (by cases hfin), fun hpc ↦ hpc.elim⟩
  | began nonceHash pc =>
      refine h.congr rfl ?_ rfl rfl rfl rfl fun hpc ↦ hpc.elim
      simp [beginRound, observations]
  | memoOver pc memoTask => exact h.congr rfl rfl rfl rfl rfl rfl fun _ ↦ memoTask
  | finalized iter pc perm =>
      exact h.congr rfl rfl rfl rfl rfl rfl fun _ ↦ h.atFinalize (by rw [pc]; trivial)
  | _ => exact h.congr rfl rfl rfl rfl rfl rfl fun hpc ↦ hpc.elim

/-- The futures of a round never touch the channel. -/
theorem observations_sendMove {i : ℕ} {act : SendAct} (hmove : SendMove env w i act w') :
    observations w'.log = observations w.log := by
  cases hmove with
  | recorded task signature sendElapsed pc get stage => simp [observations]
  | _ => rfl

theorem Conserved.move {act : Act} (h : w.Conserved) (hphased : w.Phased)
    (hmove : Move env w act w') : w'.Conserved := by
  cases hmove with
  | tick d => exact ⟨h.pieces, h.senders, h.finished, h.atFinalize⟩
  | listener move => exact h.listenerMove move
  | memo move => exact h.memoMove move
  | ctrlC move =>
      rw [move.frame]
      exact ⟨h.pieces, h.senders, h.finished, h.atFinalize⟩
  | main move => exact h.mainMove hphased move
  | send move =>
      have hlog := observations_sendMove move
      rw [move.frame] at hlog ⊢
      exact h.congr rfl hlog rfl rfl rfl rfl h.atFinalize

theorem conserved {as : List Act} (hrun : env.machine.run as = some w) : w.Conserved := by
  have hboth := env.machine.invariant (P := fun w ↦ w.Phased ∧ w.Conserved)
    ⟨phased_init env, conserved_init env⟩
    (fun _ _ _ h hstep ↦ ⟨h.1.move (move hstep), h.2.move h.1 (move hstep)⟩) hrun
  exact hboth.2

/-! ## The end of a run -/

/-- From the moment at which `main` may read the book, nobody changes it. -/
structure Closed (w : World) : Prop where
  atFinalize : w.main.pc.AtFinalize
  memoTask : w.memoTask = .finished
  listener : w.listener.pc = .exited

theorem Conserved.closed (h : w.Conserved) (hpc : w.main.pc.AtFinalize) : w.Closed :=
  ⟨hpc, h.atFinalize hpc, (h.finished (h.atFinalize hpc)).2⟩

/-- A closed run stays as it is, but for the summary. -/
theorem Closed.move {act : Act} (h : w.Closed) (hmove : Move env w act w') :
    w'.Closed ∧ w'.log = w.log ∧ w'.delivered = w.delivered ∧ w'.book = w.book ∧
      (∀ summary, w.main.pc = .done summary → w'.main.pc = .done summary) := by
  obtain ⟨hfinal, htask, hexited⟩ := h
  cases hmove with
  | tick d => exact ⟨⟨hfinal, htask, hexited⟩, rfl, rfl, rfl, fun _ h ↦ h⟩
  | listener move => cases move <;> simp_all
  | memo move => cases move <;> simp_all
  | ctrlC move =>
      rw [move.frame]
      exact ⟨⟨hfinal, htask, hexited⟩, rfl, rfl, rfl, fun _ h ↦ h⟩
  | main move =>
      rcases MainPc.atFinalize_iff.mp hfinal with hpc | ⟨summary, hpc⟩
      · cases move with
        | finalized iter pc perm =>
            exact ⟨⟨trivial, htask, hexited⟩, rfl, rfl, rfl, fun _ h ↦ by simp [pc] at h⟩
        | _ => simp_all
      · cases move <;> simp_all
  | send move =>
      rw [move.collecting] at hfinal
      exact hfinal.elim

theorem done_of_move {act : Act} (hmove : Move env w act w') {summary : LandingSummary}
    (hdone : w'.main.pc = .done summary) :
    w.main.pc = .done summary ∨
      ∃ iter, iter.Perm w'.book.records.metrics.items ∧ summary = w'.book.finalize iter := by
  rcases hmove.main_eq with ⟨mainAct, -, move⟩ | ⟨hmain, -⟩
  · cases move with
    | finalized iter pc perm =>
        obtain rfl := MainPc.done.inj hdone
        exact .inr ⟨iter, perm, rfl⟩
    | _ => cases hdone
  · rw [hmain] at hdone
    exact .inl hdone

/-- The summary is what `finalize` makes of the book as it still is. -/
theorem summary_eq {as : List Act} (hrun : env.machine.run as = some w) {summary : LandingSummary}
    (hdone : w.main.pc = .done summary) :
    ∃ iter, iter.Perm w.book.records.metrics.items ∧ summary = w.book.finalize iter := by
  refine env.machine.run_induction (motive := fun _ w ↦ ∀ summary, w.main.pc = .done summary →
    ∃ iter, iter.Perm w.book.records.metrics.items ∧ summary = w.book.finalize iter)
    (fun summary hpc ↦ by cases hpc) ?_ hrun summary hdone
  intro as act s t hs ih hstep summary hpc
  rcases done_of_move (move hstep) hpc with hpc' | hread
  · have hclosed := (conserved hs).closed (MainPc.atFinalize_iff.mpr (.inr ⟨summary, hpc'⟩))
    obtain ⟨-, -, -, hbook, -⟩ := hclosed.move (move hstep)
    rw [hbook]
    exact ih summary hpc'
  · exact hread

/-- What the listener has put into the channel is recorded in that order, and
all of it before the book is read, after which no call is made any more. -/
theorem delivered_recorded_once (env : Env) (as : List Act) (w : World)
    (hrun : env.machine.run as = some w) :
    w.book.accounts = (LandingBook.replay w.log).accounts ∧
      observations w.log <+: w.delivered ∧
      (w.main.pc.AtFinalize → observations w.log = w.delivered ∧
        ∀ bs w', env.machine.runFrom w bs = some w' →
          w'.log = w.log ∧ w'.delivered = w.delivered) ∧
      (∀ summary, w.main.pc = .done summary →
        ∃ iter, iter.Perm w.book.records.metrics.items ∧ summary = w.book.finalize iter) := by
  have hconserved := conserved hrun
  refine ⟨replayed hrun, ?_, fun hfinal ↦ ⟨?_, fun bs w' hbs ↦ ?_⟩,
    fun summary hdone ↦ summary_eq hrun hdone⟩
  · rw [hconserved.pieces, List.append_assoc]
    exact List.prefix_append _ _
  · have hclosed := hconserved.closed hfinal
    have hbuffer := (hconserved.finished hclosed.memoTask).1
    have hpieces := hconserved.pieces
    rw [hclosed.memoTask, hbuffer] at hpieces
    simpa [MemoTask.inHand] using hpieces.symm
  · have hkept := env.machine.invariant_from
      (P := fun u ↦ u.Closed ∧ u.log = w.log ∧ u.delivered = w.delivered)
      (fun s act t ⟨hclosed, hlog, hdelivered⟩ hstep ↦ by
        obtain ⟨hclosed', hlog', hdelivered', -⟩ := hclosed.move (move hstep)
        exact ⟨hclosed', hlog'.trans hlog, hdelivered'.trans hdelivered⟩)
      ⟨hconserved.closed hfinal, rfl, rfl⟩ hbs
    exact hkept.2

theorem delivered_recorded_once_landedRun :
    ∃ w, (Sample.rpcEnv 1).machine.run Sample.landedRun = some w ∧
      observations w.log = w.delivered ∧ w.delivered ≠ [] := by
  have hrun : ((Sample.rpcEnv 1).machine.run Sample.landedRun).map
      (fun w ↦ (w.delivered.isEmpty, w.main.pc.isFinalizing)) = some (false, true) := by
    decide +kernel
  obtain ⟨w, hw, hpair⟩ := Option.map_eq_some_iff.mp hrun
  obtain ⟨hempty, hfinalizing⟩ := Prod.mk.inj hpair
  have hfinal : w.main.pc.AtFinalize := by
    rw [MainPc.isFinalizing_iff.mp hfinalizing]
    trivial
  exact ⟨w, hw, ((delivered_recorded_once _ _ w hw).2.2.1 hfinal).1, by simpa using hempty⟩

end World
end LandingBench
