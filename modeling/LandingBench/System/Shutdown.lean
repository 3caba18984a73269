import LandingBench.System.Facts

/-!
# Ctrl-C and the money that is still spent

`main` looks for the shutdown at the top of its loop, a future at its first
poll, each through a receiver of its own.  A receiver only gets what is sent
after it was made, and the receivers of a round are made after the nonce has
been fetched.  So a shutdown that falls between the top of the loop and the
last of these receivers is heard by nobody until the round is over.
-/

namespace LandingBench

open Async Data

namespace MainPc

/-- The check at the top of the loop is over, and receivers of the round are
still to be made. -/
def Deaf : MainPc → Prop
  | fetching _ | nonceSleep _ _ | starting _ | dispatching _ (_ :: _) => True
  | _ => False

end MainPc

namespace World

variable {env : Env} {w w' : World}

/-- No broadcast of the Ctrl-C task while `main` is deaf. -/
def HeardByAll (w : World) (act : Act) : Prop :=
  act = .ctrlC .broadcast → ¬ w.main.pc.Deaf

/-- Every receiver in the loop was made before the first broadcast. -/
structure Hears (w : World) : Prop where
  capacity : w.shutdown.capacity = 1
  sent : w.main.pc.InLoop →
    w.shutdown.sent.length = if w.ctrlC = .broadcasted then 1 else 0
  mainRx : w.main.pc.InLoop → w.main.shutdownRx = 0
  sendRx : ∀ task ∈ w.sends, task.shutdownRx = 0
  awake : w.ctrlC = .broadcasted → ¬ w.main.pc.Deaf

theorem hears_init (env : Env) : (World.init env).Hears where
  capacity := rfl
  sent _ := rfl
  mainRx _ := rfl
  sendRx task h := by cases h
  awake h := by cases h

/-- A receiver at the start finds the broadcast of the Ctrl-C task. -/
theorem Hears.tryRecv_isOk (h : w.Hears) (hpc : w.main.pc.InLoop) :
    (w.shutdown.tryRecv 0).1.isOk = true ↔ w.ctrlC = .broadcasted := by
  rw [Broadcast.tryRecv_isOk_iff, h.sent hpc, h.capacity]
  split_ifs with hctrl <;> simp [hctrl]

/-- As long as it finds nothing it stays where it is. -/
theorem Hears.tryRecv_position (h : w.Hears) (hpc : w.main.pc.InLoop)
    (hquiet : w.ctrlC ≠ .broadcasted) : (w.shutdown.tryRecv 0).2 = 0 := by
  have hlength : w.shutdown.sent.length = 0 := by
    rw [h.sent hpc, if_neg hquiet]
  rw [Broadcast.tryRecv_of_le hlength.le]

/-- Steps that neither send on the broadcast channel nor make receivers. -/
theorem Hears.congr (h : w.Hears) (hshutdown : w'.shutdown = w.shutdown)
    (hmainRx : w'.main.shutdownRx = w.main.shutdownRx) (hsends : w'.sends = w.sends)
    (hctrlC : w'.ctrlC = .broadcasted ↔ w.ctrlC = .broadcasted)
    (hloop : w'.main.pc.InLoop → w.main.pc.InLoop)
    (hawake : w.ctrlC = .broadcasted → ¬ w'.main.pc.Deaf) : w'.Hears where
  capacity := by rw [hshutdown, h.capacity]
  sent hpc := by
    rw [hshutdown, h.sent (hloop hpc)]
    simp only [hctrlC]
  mainRx hpc := hmainRx.trans (h.mainRx (hloop hpc))
  sendRx := hsends ▸ h.sendRx
  awake hctrl := hawake (hctrlC.mp hctrl)

theorem Hears.sendMove {i : ℕ} {act : SendAct} (h : w.Hears) (hmove : SendMove env w i act w') :
    w'.Hears := by
  obtain ⟨task, stage, hget, hsends⟩ := hmove.sends_eq
  have hrx : ∀ task' ∈ w'.sends, task'.shutdownRx = 0 := by
    intro task' hmem
    rw [hsends] at hmem
    rcases List.mem_or_eq_of_mem_set hmem with hold | rfl
    · exact h.sendRx task' hold
    · exact h.sendRx task (List.mem_of_getElem? hget)
  rw [hmove.frame] at hrx ⊢
  exact ⟨h.capacity, h.sent, h.mainRx, hrx, h.awake⟩

theorem Hears.mainMove {act : MainAct} (h : w.Hears) (hphased : w.Phased)
    (hmove : MainMove env w act w') : w'.Hears := by
  -- whoever is deaf has not missed the broadcast so far
  have hquiet : ∀ pc, w.main.pc = pc → pc.Deaf → w.ctrlC ≠ .broadcasted := by
    intro pc hpc hdeaf hctrl
    exact h.awake hctrl (hpc ▸ hdeaf)
  have hloop : ∀ pc, w.main.pc = pc → pc.InLoop → w.main.pc.InLoop := fun _ hpc hin ↦ hpc ▸ hin
  cases hmove with
  | entered pc =>
      have hctrl := hphased.ctrlC (by rw [pc]; trivial)
      have hin := hloop _ pc trivial
      refine ⟨h.capacity, fun _ ↦ ?_, fun _ ↦ h.mainRx hin, h.sendRx,
        fun hctrl' ↦ (by cases hctrl')⟩
      have hsent := h.sent hin
      rw [hctrl] at hsent
      exact hsent
  | stopped pc round signal =>
      exact ⟨h.capacity, fun hpc ↦ hpc.elim, fun hpc ↦ hpc.elim, h.sendRx, fun _ ↦ id⟩
  | fetched pc round signal =>
      have hin := hloop _ pc trivial
      rw [h.mainRx hin] at signal
      have hctrl : w.ctrlC ≠ .broadcasted := by
        intro hctrl
        rw [(h.tryRecv_isOk hin).mpr hctrl] at signal
        cases signal
      refine ⟨h.capacity, fun _ ↦ h.sent hin, fun _ ↦ ?_, h.sendRx,
        fun hctrl' ↦ absurd hctrl' hctrl⟩
      change (w.shutdown.tryRecv w.main.shutdownRx).2 = 0
      rw [h.mainRx hin]
      exact h.tryRecv_position hin hctrl
  | woken deadline wake pc time =>
      exact h.congr rfl rfl rfl .rfl (fun _ ↦ hloop _ pc trivial)
        fun hctrl ↦ absurd hctrl (hquiet _ pc trivial)
  | fresh deadline reply nonceHash pc check =>
      exact h.congr rfl rfl rfl .rfl (fun _ ↦ hloop _ pc trivial)
        fun hctrl ↦ absurd hctrl (hquiet _ pc trivial)
  | stale deadline reply pc check =>
      exact h.congr rfl rfl rfl .rfl (fun _ ↦ hloop _ pc trivial)
        fun hctrl ↦ absurd hctrl (hquiet _ pc trivial)
  | began nonceHash pc =>
      exact h.congr rfl rfl rfl .rfl (fun _ ↦ hloop _ pc trivial)
        fun hctrl ↦ absurd hctrl (hquiet _ pc trivial)
  | dispatched nonceHash ep index rest pc =>
      have hctrl := hquiet _ pc trivial
      have hin := hloop _ pc trivial
      refine ⟨h.capacity, fun _ ↦ h.sent hin, fun _ ↦ h.mainRx hin, fun task hmem ↦ ?_,
        fun hctrl' ↦ absurd hctrl' hctrl⟩
      rcases List.mem_append.mp hmem with hold | hnew
      · exact h.sendRx task hold
      · obtain rfl := List.mem_singleton.mp hnew
        change w.shutdown.sent.length = 0
        rw [h.sent hin, if_neg hctrl]
  | collected pc finished =>
      have hin := hloop _ pc trivial
      exact ⟨h.capacity, fun _ ↦ h.sent hin, fun _ ↦ h.mainRx hin, fun task hmem ↦ (by cases hmem),
        fun _ ↦ id⟩
  | signalled pc =>
      exact ⟨h.capacity, fun hpc ↦ hpc.elim, fun hpc ↦ hpc.elim, h.sendRx, fun _ ↦ id⟩
  | ready pc value | skipped ep rest pc kind | connected ep rest apiKey pc kind key
  | filled nonceHash pc | delayed wake pc time =>
      exact h.congr rfl rfl rfl .rfl (fun _ ↦ hloop _ pc trivial) fun _ ↦ id
  | _ => exact h.congr rfl rfl rfl .rfl (fun hpc ↦ hpc.elim) fun _ ↦ id

theorem Hears.move {act : Act} (h : w.Hears) (hphased : w.Phased) (hheard : w.HeardByAll act)
    (hmove : Move env w act w') : w'.Hears := by
  cases hmove with
  | tick d => exact ⟨h.capacity, h.sent, h.mainRx, h.sendRx, h.awake⟩
  | listener move =>
      rw [move.frame]
      exact ⟨h.capacity, h.sent, h.mainRx, h.sendRx, h.awake⟩
  | memo move =>
      rw [move.frame]
      exact ⟨h.capacity, h.sent, h.mainRx, h.sendRx, h.awake⟩
  | ctrlC move =>
      cases move with
      | stored pc => exact h.congr rfl rfl rfl (by simp [pc]) id h.awake
      | failed pc => exact h.congr rfl rfl rfl (by simp [pc]) id h.awake
      | broadcasted pc =>
          refine ⟨h.capacity, fun hin ↦ ?_, h.mainRx, h.sendRx, fun _ ↦ hheard rfl⟩
          have hlength := h.sent hin
          rw [pc] at hlength
          simpa [Broadcast.send] using hlength
  | main move => exact h.mainMove hphased move
  | send move => exact h.sendMove move

theorem hears {as : List Act} (hgood : env.machine.Along HeardByAll as)
    (hrun : env.machine.run as = some w) : w.Hears := by
  have hboth := env.machine.invariant_of_along (P := fun w ↦ w.Phased ∧ w.Hears)
    ⟨phased_init env, hears_init env⟩
    (fun _ _ _ h hheard hstep ↦ ⟨h.1.move (move hstep), h.2.move h.1 hheard (move hstep)⟩)
    hgood hrun
  exact hboth.2

/-- No future that is polled after the broadcast hands a transaction to a sender. -/
def ShutdownStopsSending (env : Env) (as : List Act) : Prop :=
  ∀ pre i clock post s t, as = pre ++ .send i (.poll clock) :: post →
    env.machine.run pre = some s → env.machine.step s (.send i (.poll clock)) = some t →
      s.ctrlC = .broadcasted → t.handed = s.handed

/-- If every broadcast is heard, it stops all sending. -/
theorem shutdown_stops_sending (env : Env) (as : List Act)
    (hgood : env.machine.Along HeardByAll as) : ShutdownStopsSending env as := by
  rintro pre i clock post s t rfl hpre hstep hctrl
  have hheard := hears hgood.left hpre
  cases move hstep with
  | send move =>
      cases move with
      | handed task _ tx client pc get stage signal build sender =>
          -- the receiver is older than the broadcast, so it has the value
          have hin : s.main.pc.InLoop := by
            rw [pc]
            trivial
          rw [hheard.sendRx task (List.mem_of_getElem? get),
            (hheard.tryRecv_isOk hin).mpr hctrl] at signal
          cases signal
      | _ => rfl

/-- A Ctrl-C while the only future of a round waits for its first poll. -/
def signalledInTime : List Act :=
  Sample.startup ++ [.main .go, .main .go] ++ Sample.openRound Sample.nonce₀ ++
    [.ctrlC (.signal true), .ctrlC .broadcast, .send 0 (.poll Sample.wallClock)]

/-- The futures are all made when the Ctrl-C task broadcasts. -/
def broadcastsLate (w : World) : Act → Bool
  | .ctrlC .broadcast => w.main.pc.isCollecting
  | _ => true

theorem shutdown_stops_sending_signalledInTime :
    ShutdownStopsSending (Sample.rpcEnv 1) signalledInTime ∧
      ((Sample.rpcEnv 1).machine.run signalledInTime).map (·.handed.length) = some 0 := by
  have hlate : ∀ w act, broadcastsLate w act = true → HeardByAll w act := by
    rintro w act hlate rfl
    rw [MainPc.isCollecting_iff.mp hlate]
    exact id
  have hgood : (Sample.rpcEnv 1).machine.Along HeardByAll signalledInTime :=
    Machine.along_of_check _ broadcastsLate hlate (by decide +kernel)
  exact ⟨shutdown_stops_sending _ _ hgood, by decide +kernel⟩

/-- A Ctrl-C while the nonce is being fetched. -/
def signalledWhileFetching : List Act :=
  Sample.startup ++ [.main .go, .main .go, .main .go] ++
    [.ctrlC (.signal true), .ctrlC .broadcast, .main (.answer (.nonce Sample.nonce₀)),
      .main .go, .main .go, .main .go]

/-- The transaction of the round goes out all the same. -/
theorem signalledWhileFetching_sends : ¬ ∀ env as, ShutdownStopsSending env as := by
  intro h
  have hrun : ((Sample.rpcEnv 1).machine.run signalledWhileFetching).map
      (fun w ↦ (decide (w.ctrlC = .broadcasted), w.handed.length,
        ((Sample.rpcEnv 1).machine.step w (.send 0 (.poll Sample.wallClock))).map
          (·.handed.length))) = some (true, 0, some 1) := by decide +kernel
  obtain ⟨s, hs, hpair⟩ := Option.map_eq_some_iff.mp hrun
  simp only [Prod.mk.injEq, decide_eq_true_eq, Option.map_eq_some_iff] at hpair
  obtain ⟨hctrl, hbefore, t, ht, hafter⟩ := hpair
  have hsame :=
    h (Sample.rpcEnv 1) _ signalledWhileFetching 0 Sample.wallClock [] s t rfl hs ht hctrl
  rw [hsame, hbefore] at hafter
  cases hafter

end World
end LandingBench
