import LandingBench.System.Handshake

/-!
# From the stream to the book

What the listener reads goes through its hands into the channel, and from there
through the hands of the memo task into the book.  It can be lost at one place
only: in the hands of a listener that has to leave.
-/

namespace LandingBench

open Async Data Ledger

namespace ListenerPc

def inHand : ListenerPc → List MemoObservation
  | delivering obs => [obs]
  | connecting _ | confirming | looping | replying | exited => []

end ListenerPc

namespace World

variable {env : Env} {w w' : World} {seen : List MemoObservation}

/-- The observation that the listener makes of a message in its loop. -/
def observed? (env : Env) (w : World) : Act → Option MemoObservation
  | .listener (.next (.update (some (.transaction txMsg)))) =>
      if w.listener.pc = .looping then w.observe env txMsg else none
  | _ => none

def observedFrom (env : Env) (as : List Act) : List MemoObservation :=
  env.machine.outputs (observed? env) as

/-! ## The channel -/

/-- The channel never holds more than it was made for, and its receiver is only
dropped by a task that is over. -/
structure Bounded (w : World) : Prop where
  capacity : w.memo.capacity = 1024
  buffer : w.memo.buffer.length ≤ w.memo.capacity
  receiver : w.memo.receiver = false → w.memoTask = .finished ∨ ∃ err, w.main.pc = .failed err

theorem bounded_init (env : Env) : (World.init env).Bounded :=
  ⟨rfl, Nat.zero_le _, fun h ↦ by cases h⟩

theorem Bounded.congr (h : w.Bounded) (hmemo : w'.memo = w.memo)
    (htask : w.memoTask = .finished → w'.memoTask = .finished)
    (hmain : ∀ err, w.main.pc = .failed err → w'.main.pc = .failed err) : w'.Bounded where
  capacity := hmemo ▸ h.capacity
  buffer := hmemo ▸ h.buffer
  receiver hreceiver := by
    rw [hmemo] at hreceiver
    exact (h.receiver hreceiver).imp htask fun ⟨err, hpc⟩ ↦ ⟨err, hmain err hpc⟩

theorem Bounded.listenerMove {act : ListenerAct} (h : w.Bounded)
    (hmove : ListenerMove env w act w') : w'.Bounded := by
  have hsame : w'.main = w.main ∧ w'.memoTask = w.memoTask := by
    rw [hmove.frame]
    exact ⟨rfl, rfl⟩
  have hreceiver : w'.memo.receiver = false →
      w'.memoTask = .finished ∨ ∃ err, w'.main.pc = .failed err := by
    rw [hmove.receiver_eq, hsame.1, hsame.2]
    exact h.receiver
  cases hmove with
  | delivered obs pc receiver room =>
      refine ⟨h.capacity, ?_, hreceiver⟩
      have hroom : w.memo.buffer.length < w.memo.capacity := of_decide_eq_true room
      simpa [Mpsc.push] using hroom
  | _ => exact ⟨h.capacity, h.buffer, hreceiver⟩

theorem MainMove.not_failed {act : MainAct} (h : MainMove env w act w') (err : String) :
    w.main.pc ≠ .failed err := by
  intro hpc
  cases h <;> simp_all

theorem Bounded.mainMove {act : MainAct} (h : w.Bounded) (hphased : w.Phased)
    (hmove : MainMove env w act w') : w'.Bounded := by
  have hgone : ∀ err, w.main.pc = .failed err → w'.main.pc = .failed err := fun err hpc ↦
    absurd hpc (hmove.not_failed err)
  cases hmove with
  | unready pc | keyless _ _ pc | unconnected _ _ pc =>
      exact ⟨h.capacity, h.buffer, fun _ ↦ .inr ⟨_, rfl⟩⟩
  | entered pc =>
      have hearly := hphased.memoTask (by rw [pc]; trivial)
      exact h.congr rfl (fun hfinished ↦ by simp [hearly] at hfinished) hgone
  | _ => exact h.congr rfl id hgone

theorem Bounded.move {act : Act} (h : w.Bounded) (hphased : w.Phased)
    (hmove : Move env w act w') : w'.Bounded := by
  cases hmove with
  | tick d => exact h.congr rfl id fun _ ↦ id
  | listener move => exact h.listenerMove move
  | memo move =>
      cases move with
      | received obs rest pc buffer =>
          refine ⟨h.capacity, ?_, fun hreceiver ↦ ?_⟩
          · have hbuffer := h.buffer
            rw [buffer, List.length_cons] at hbuffer
            exact Nat.le_of_succ_le hbuffer
          · rcases h.receiver hreceiver with hfinished | hfailed
            · simp [pc] at hfinished
            · exact .inr hfailed
      | ended pc buffer senders => exact ⟨h.capacity, h.buffer, fun _ ↦ .inl rfl⟩
      | recorded obs pc => exact h.congr rfl (by simp [pc]) fun _ ↦ id
  | ctrlC move =>
      rw [move.frame]
      exact h.congr rfl id fun _ ↦ id
  | main move => exact h.mainMove hphased move
  | send move =>
      rw [move.frame]
      exact h.congr rfl id fun _ ↦ id

theorem bounded {as : List Act} (hrun : env.machine.run as = some w) : w.Bounded := by
  refine env.machine.run_induction (motive := fun _ w ↦ w.Bounded) (bounded_init env) ?_ hrun
  intro as act s t hs ih hstep
  exact ih.move (phased hs) (move hstep)

/-! ## Nothing is lost on the way -/

/-- An abort is not taken back. -/
theorem Move.aborted {act : Act} (h : Move env w act w') (haborted : w.listener.aborted = true) :
    w'.listener.aborted = true := by
  cases h with
  | tick d => exact haborted
  | listener move => exact move.aborted_eq.trans haborted
  | memo move =>
      rw [move.frame]
      exact haborted
  | ctrlC move =>
      rw [move.frame]
      exact haborted
  | main move =>
      cases move with
      | timedOut wake pc time => rfl
      | _ => exact haborted
  | send move =>
      rw [move.frame]
      exact haborted

theorem Move.failed {act : Act} {err : String} (h : Move env w act w')
    (hpc : w.main.pc = .failed err) : w'.main.pc = .failed err := by
  rcases h.main_eq with ⟨mainAct, -, move⟩ | ⟨hmain, -⟩
  · exact absurd hpc (move.not_failed err)
  · rw [hmain]
    exact hpc

/-- The listener was made to leave. -/
def Evicted (w : World) : Prop :=
  w.listener.pc = .exited ∧ (w.listener.aborted = true ∨ ∃ err, w.main.pc = .failed err)

/-- What has been seen was put into the channel, is in the listener's hands, or
was the last thing in the hands of a listener that had to leave. -/
structure Piped (seen : List MemoObservation) (w : World) : Prop where
  pieces : ∃ lost, seen = w.delivered ++ w.listener.pc.inHand ++ lost ∧ lost.length ≤ 1 ∧
    (lost ≠ [] → w.Evicted)

theorem Piped.intro (hseen : seen = w.delivered ++ w.listener.pc.inHand) : Piped seen w :=
  ⟨⟨[], by simpa using hseen, Nat.zero_le _, fun h ↦ absurd rfl h⟩⟩

/-- A listener that is still there has lost nothing. -/
theorem Piped.seen_eq (h : Piped seen w) (hpc : w.listener.pc ≠ .exited) :
    seen = w.delivered ++ w.listener.pc.inHand := by
  obtain ⟨lost, hseen, -, hlost⟩ := h.pieces
  obtain rfl : lost = [] := by
    by_contra hne
    exact hpc (hlost hne).1
  simpa using hseen

theorem Piped.other (h : Piped seen w) (hdelivered : w'.delivered = w.delivered)
    (hpc : w'.listener.pc = w.listener.pc)
    (haborted : w.listener.aborted = true → w'.listener.aborted = true)
    (hmain : ∀ err, w.main.pc = .failed err → w'.main.pc = .failed err) : Piped seen w' := by
  obtain ⟨lost, hseen, hlength, hlost⟩ := h.pieces
  refine ⟨⟨lost, by rw [hdelivered, hpc]; exact hseen, hlength, fun hne ↦ ?_⟩⟩
  obtain ⟨hexited, hwhy⟩ := hlost hne
  exact ⟨hpc.trans hexited, hwhy.imp haborted fun ⟨err, herr⟩ ↦ ⟨err, hmain err herr⟩⟩

/-- The listener leaves with what it has in its hands. -/
theorem Piped.exit (h : Piped seen w) (hpc : w.listener.pc ≠ .exited)
    (hwhy : w.listener.pc.inHand ≠ [] →
      w.listener.aborted = true ∨ ∃ err, w.main.pc = .failed err) :
    Piped seen w.exitListener := by
  refine ⟨⟨w.listener.pc.inHand, ?_, ?_, fun hne ↦ ⟨rfl, hwhy hne⟩⟩⟩
  · rw [h.seen_eq hpc]
    simp [World.exitListener, ListenerPc.inHand]
  · cases w.listener.pc <;> simp [ListenerPc.inHand]

/-- The listener goes on reading only if there was nothing to observe. -/
theorem observed?_eq_none {act : ListenerAct} (hstep : w.listenerStep env act = some w')
    (hpc : w'.listener.pc.inHand = []) : w.observed? env (.listener act) = none := by
  unfold observed?
  split
  · rename_i txMsg hact
    obtain rfl := Act.listener.inj hact
    split_ifs with hlooping
    · simp only [listenerStep, hlooping] at hstep
      split_ifs at hstep
      obtain rfl := Option.some.inj hstep
      cases hobs : w.observe env txMsg with
      | none => rfl
      | some obs => simp [receive, hobs, setListener, ListenerPc.inHand] at hpc
    · rfl
  · rfl

theorem Piped.listenerStep {act : ListenerAct} (h : Piped seen w) (hbounded : w.Bounded)
    (hconserved : w.Conserved) (hstep : w.listenerStep env act = some w') :
    Piped (seen ++ (w.observed? env (.listener act)).toList) w' := by
  -- the listener keeps going, with nothing in its hands
  have hgo : ∀ pc, w.listener.pc ≠ .exited → w.listener.pc.inHand = [] → pc.inHand = [] →
      w'.listener.pc = pc → w'.delivered = w.delivered →
        Piped (seen ++ (w.observed? env (.listener act)).toList) w' := by
    rintro pc hpc hbefore hafter rfl hdelivered
    rw [observed?_eq_none hstep hafter, Option.toList_none, List.append_nil]
    apply Piped.intro
    rw [hdelivered, hafter, h.seen_eq hpc, hbefore]
  have hexit : w' = w.exitListener → w.listener.pc ≠ .exited →
      (w.listener.pc.inHand ≠ [] → w.listener.aborted = true ∨ ∃ err, w.main.pc = .failed err) →
        Piped (seen ++ (w.observed? env (.listener act)).toList) w' := by
    rintro rfl hpc hwhy
    rw [observed?_eq_none hstep rfl, Option.toList_none, List.append_nil]
    exact h.exit hpc hwhy
  have hempty : ∀ pc, w.listener.pc = pc → pc.inHand = [] → w.listener.pc.inHand ≠ [] →
      w.listener.aborted = true ∨ ∃ err, w.main.pc = .failed err := by
    rintro pc rfl hbefore hne
    exact absurd hbefore hne
  cases World.listenerMove hstep with
  | stagePassed stage rest pc =>
      refine hgo _ (by simp [pc]) (by simp [pc, ListenerPc.inHand]) ?_ rfl rfl
      split_ifs <;> rfl
  | confirmed update pc =>
      exact hgo .looping (by simp [pc]) (by simp [pc, ListenerPc.inHand]) rfl rfl rfl
  | unconfirmed pc =>
      exact hgo .looping (by simp [pc]) (by simp [pc, ListenerPc.inHand]) rfl rfl rfl
  | observed txMsg obs pc quiet memo =>
      have hobs : w.observed? env (.listener (.next (.update (some (.transaction txMsg))))) =
          some obs := by simp [observed?, pc, memo]
      rw [hobs]
      apply Piped.intro
      have hseen := h.seen_eq (by simp [pc])
      simpa [pc, ListenerPc.inHand, setListener] using hseen
  | pinged pc quiet =>
      exact hgo .replying (by simp [pc]) (by simp [pc, ListenerPc.inHand]) rfl rfl rfl
  | passed item pc quiet goesOn =>
      exact hgo _ (by simp [pc]) (by simp [pc, ListenerPc.inHand])
        (by simp [pc, ListenerPc.inHand]) rfl rfl
  | replied pc =>
      exact hgo .looping (by simp [pc]) (by simp [pc, ListenerPc.inHand]) rfl rfl rfl
  | delivered obs pc receiver room =>
      rw [observed?_eq_none hstep rfl, Option.toList_none, List.append_nil]
      apply Piped.intro
      rw [h.seen_eq (by simp [pc]), pc]
      simp [ListenerPc.inHand, setListener]
  | stageFailed stage rest pc => exact hexit rfl (by simp [pc]) (hempty _ pc rfl)
  | refused item pc ended => exact hexit rfl (by simp [pc]) (hempty _ pc rfl)
  | ended item pc quiet ended => exact hexit rfl (by simp [pc]) (hempty _ pc rfl)
  | stopped pc signal => exact hexit rfl (by simp [pc]) (hempty _ pc rfl)
  | replyFailed pc => exact hexit rfl (by simp [pc]) (hempty _ pc rfl)
  | undeliverable obs pc receiver =>
      refine hexit rfl (by simp [pc]) fun _ ↦ .inr ?_
      -- the memo task does not end before the listener does
      refine (hbounded.receiver receiver).resolve_left fun hfinished ↦ ?_
      have hexited := (hconserved.finished hfinished).2
      simp [pc] at hexited
  | cancelled aborted pc => exact hexit rfl pc fun _ ↦ .inl aborted

theorem Piped.step {act : Act} (h : Piped seen w) (hbounded : w.Bounded)
    (hconserved : w.Conserved) (hstep : env.machine.step w act = some w') :
    Piped (seen ++ (w.observed? env act).toList) w' := by
  by_cases hlistener : ∃ a, act = .listener a
  · obtain ⟨a, rfl⟩ := hlistener
    exact h.listenerStep hbounded hconserved hstep
  · have hother : ∀ a, act ≠ .listener a := fun a ha ↦ hlistener ⟨a, ha⟩
    have hnone : w.observed? env act = none := by
      cases act with
      | listener a => exact absurd rfl (hother a)
      | _ => rfl
    have hmove := World.move hstep
    rw [hnone, Option.toList_none, List.append_nil]
    exact h.other (hmove.delivered_eq hother) (hmove.ready_eq hother).2 hmove.aborted
      fun err ↦ hmove.failed

theorem piped {as : List Act} (hrun : env.machine.run as = some w) :
    Piped (observedFrom env as) w := by
  refine env.machine.run_induction (motive := fun as w ↦ Piped (observedFrom env as) w)
    (Piped.intro rfl) ?_ hrun
  intro as act s t hs ih hstep
  rw [observedFrom, env.machine.outputs_snoc _ hs]
  exact ih.step (bounded hs) (conserved hs) hstep

/-- Everything that the listener observes is put into the channel in its order,
but for the one observation that an aborted listener, or one that outlives a
failed `main`, has in its hands; the channel holds 1024 at most; and at the end
of a run without an abort the book has been told all that was observed, once. -/
theorem observed_recorded_once (env : Env) (as : List Act) (w : World)
    (hrun : env.machine.run as = some w) :
    (∃ lost, observedFrom env as = w.delivered ++ w.listener.pc.inHand ++ lost ∧
      lost.length ≤ 1 ∧ (lost ≠ [] → w.Evicted)) ∧
    w.memo.buffer.length ≤ 1024 ∧
    (w.main.pc.AtFinalize → w.listener.aborted = false →
      observations w.log = observedFrom env as) := by
  have hconserved := conserved hrun
  obtain ⟨lost, hseen, hlength, hlost⟩ := (piped hrun).pieces
  refine ⟨⟨lost, hseen, hlength, hlost⟩, (bounded hrun).capacity ▸ (bounded hrun).buffer,
    fun hfinal hkept ↦ ?_⟩
  have hclosed := hconserved.closed hfinal
  have hnone : lost = [] := by
    by_contra hne
    rcases (hlost hne).2 with haborted | ⟨err, hfailed⟩
    · rw [hkept] at haborted
      cases haborted
    · rw [hfailed] at hfinal
      exact hfinal
  have hpieces := hconserved.pieces
  rw [hclosed.memoTask, (hconserved.finished hclosed.memoTask).1] at hpieces
  rw [hseen, hnone, hclosed.listener, hpieces]
  simp [MemoTask.inHand, ListenerPc.inHand]

theorem observed_recorded_once_landedRun :
    ∃ w, (Sample.rpcEnv 1).machine.run Sample.landedRun = some w ∧ w.log.length = 3 ∧
      observations w.log = observedFrom (Sample.rpcEnv 1) Sample.landedRun := by
  have hrun : ((Sample.rpcEnv 1).machine.run Sample.landedRun).map
      (fun w ↦ (w.log.length, w.listener.aborted, w.main.pc.isFinalizing)) =
        some (3, false, true) := by decide +kernel
  obtain ⟨w, hw, htriple⟩ := Option.map_eq_some_iff.mp hrun
  simp only [Prod.mk.injEq] at htriple
  obtain ⟨hlength, hkept, hfinalizing⟩ := htriple
  have hfinal : w.main.pc.AtFinalize := by
    rw [MainPc.isFinalizing_iff.mp hfinalizing]
    trivial
  exact ⟨w, hw, hlength, (observed_recorded_once _ _ w hw).2.2 hfinal hkept⟩

end World
end LandingBench
