import LandingBench.System.Rounds

/-!
# How a run starts, and whether it can end

`main` waits for the listener to say that it has subscribed, and the listener
says so only if the first message of the stream carries an update.  Otherwise
it goes on reading without a word, into a channel that nobody drains yet.
-/

namespace LandingBench

open Async Data

/-- The first message that the listener gets. -/
def firstItem (as : List Act) : Option StreamItem :=
  as.findSome? fun
    | .listener (.next item) => some item
    | _ => none

namespace ListenerPc

/-- The subscription has not been answered yet. -/
def Subscribing : ListenerPc → Prop
  | connecting _ | confirming => True
  | looping | delivering _ | replying | exited => False

/-- The listener is in its loop. -/
def Streaming : ListenerPc → Prop
  | looping | delivering _ | replying => True
  | connecting _ | confirming | exited => False

end ListenerPc

namespace World

variable {env : Env} {w w' : World}

/-! ## The ends of the three channels -/

/-- The listener keeps its half of the handshake until it uses it or is gone. -/
structure Handshake (w : World) : Prop where
  stages : w.listener.pc ≠ .connecting []
  receiver : w.ready.receiver = true
  sender : w.ready.value = none → (w.ready.sender = true ↔ w.listener.pc ≠ .exited)
  silent : w.listener.pc.Subscribing → w.ready.value = none

theorem connectStages_ne_nil (endpoint : GrpcEndpoint) : connectStages endpoint ≠ [] := by
  simp [connectStages]

theorem handshake_init (env : Env) : (World.init env).Handshake where
  stages h := connectStages_ne_nil env.config.grpc (ListenerPc.connecting.inj h)
  receiver := rfl
  sender _ := by simp [World.init, Oneshot.channel]
  silent _ := rfl

theorem Handshake.exitListener (h : w.Handshake) : w.exitListener.Handshake where
  stages h := by cases h
  receiver := h.receiver
  sender _ := by simp [World.exitListener, Oneshot.dropSender]
  silent hpc := hpc.elim

/-- The listener goes on, with or without its half. -/
theorem Handshake.setListener (h : w.Handshake) {pc : ListenerPc}
    (hpc : w.listener.pc ≠ .exited) (hpc' : pc ≠ .exited) (hstages : pc ≠ .connecting [])
    (hsilent : pc.Subscribing → w.ready.value = none) : (w.setListener pc).Handshake where
  stages := hstages
  receiver := h.receiver
  sender hvalue := by
    have hsender := (h.sender hvalue).mpr hpc
    simpa [World.setListener, hpc'] using hsender
  silent := hsilent

theorem Handshake.listenerMove {act : ListenerAct} (h : w.Handshake)
    (hmove : ListenerMove env w act w') : w'.Handshake := by
  cases hmove with
  | stagePassed stage rest pc =>
      have hvalue := h.silent (by rw [pc]; trivial)
      refine h.setListener (by simp [pc]) ?_ ?_ fun _ ↦ hvalue
      · split_ifs <;> simp
      · split_ifs with hrest <;> simp [hrest]
  | confirmed update pc =>
      refine ⟨by simp [World.setListener], h.receiver, fun hvalue ↦ ?_, fun hpc ↦ hpc.elim⟩
      simp [Oneshot.send, h.receiver] at hvalue
  | stageFailed => exact h.exitListener
  | refused => exact h.exitListener
  | passed => exact h
  | ended => exact h.exitListener
  | stopped => exact h.exitListener
  | delivered obs pc receiver room =>
      have hset : (w.setListener .looping).Handshake :=
        h.setListener (by simp [pc]) (by simp) (by simp) fun hpc ↦ hpc.elim
      exact ⟨hset.stages, hset.receiver, hset.sender, hset.silent⟩
  | undeliverable => exact h.exitListener
  | replyFailed => exact h.exitListener
  | cancelled => exact h.exitListener
  | unconfirmed pc => exact h.setListener (by simp [pc]) (by simp) (by simp) fun hpc ↦ hpc.elim
  | observed txMsg obs pc quiet memo =>
      exact h.setListener (by simp [pc]) (by simp) (by simp) fun hpc ↦ hpc.elim
  | pinged pc quiet => exact h.setListener (by simp [pc]) (by simp) (by simp) fun hpc ↦ hpc.elim
  | replied pc => exact h.setListener (by simp [pc]) (by simp) (by simp) fun hpc ↦ hpc.elim

/-- Nobody else touches the handshake. -/
theorem Move.ready_eq {act : Act} (h : Move env w act w') (hother : ∀ a, act ≠ .listener a) :
    w'.ready = w.ready ∧ w'.listener.pc = w.listener.pc := by
  cases h with
  | tick d => exact ⟨rfl, rfl⟩
  | listener move => exact absurd rfl (hother _)
  | memo move => exact ⟨by rw [move.frame], by rw [move.frame]⟩
  | ctrlC move => exact ⟨by rw [move.frame], by rw [move.frame]⟩
  | send move => exact ⟨by rw [move.frame], by rw [move.frame]⟩
  | main move =>
      refine ⟨by rw [move.frame], ?_⟩
      cases move <;> rfl

/-- Nobody but the listener puts anything into the channel. -/
theorem Move.delivered_eq {act : Act} (h : Move env w act w') (hother : ∀ a, act ≠ .listener a) :
    w'.delivered = w.delivered := by
  cases h with
  | tick d => rfl
  | listener move => exact absurd rfl (hother _)
  | memo move => rw [move.frame]
  | ctrlC move => rw [move.frame]
  | main move => rw [move.frame]
  | send move => rw [move.frame]

theorem Handshake.move {act : Act} (h : w.Handshake) (hmove : Move env w act w') :
    w'.Handshake := by
  by_cases hlistener : ∃ a, act = .listener a
  · obtain ⟨a, rfl⟩ := hlistener
    cases hmove with
    | listener move => exact h.listenerMove move
  · obtain ⟨hready, hpc⟩ := hmove.ready_eq fun a ha ↦ hlistener ⟨a, ha⟩
    constructor
    · rw [hpc]
      exact h.stages
    · rw [hready]
      exact h.receiver
    · rw [hready, hpc]
      exact h.sender
    · rw [hready, hpc]
      exact h.silent

theorem handshake {as : List Act} (hrun : env.machine.run as = some w) : w.Handshake :=
  env.machine.invariant (handshake_init env) (fun _ _ _ h hstep ↦ h.move (move hstep)) hrun

/-! ## Before `main` goes on -/

def notReady : String := "gRPC listener failed to become ready"

/-- Nothing has been done yet that a benchmark consists of. -/
structure Unstarted (w : World) : Prop where
  main : (w.main.pc = .awaitReady ∧ w.memo.receiver = true) ∨
    (w.main.pc = .failed notReady ∧ w.listener.pc = .exited)
  memoTask : w.memoTask = .notSpawned
  ctrlC : w.ctrlC = .notSpawned
  signals : w.shutdown.sent = []
  aborted : w.listener.aborted = false
  log : w.log = []
  handed : w.handed = []

theorem unstarted_init (env : Env) : (World.init env).Unstarted :=
  ⟨.inl ⟨rfl, rfl⟩, rfl, rfl, rfl, rfl, rfl, rfl⟩

theorem ListenerMove.aborted_eq {act : ListenerAct} (h : ListenerMove env w act w') :
    w'.listener.aborted = w.listener.aborted := by
  cases h <;> rfl

theorem ListenerMove.receiver_eq {act : ListenerAct} (h : ListenerMove env w act w') :
    w'.memo.receiver = w.memo.receiver := by
  cases h <;> rfl

/-- The listener does not come back. -/
theorem ListenerMove.exited {act : ListenerAct} (h : ListenerMove env w act w')
    (hpc : w.listener.pc = .exited) : w'.listener.pc = .exited := by
  cases h <;> simp_all

theorem Unstarted.listenerMove {act : ListenerAct} (h : w.Unstarted)
    (hmove : ListenerMove env w act w') : w'.Unstarted := by
  have hsame : w'.main = w.main := by rw [hmove.frame]
  have hmain : (w'.main.pc = .awaitReady ∧ w'.memo.receiver = true) ∨
      (w'.main.pc = .failed notReady ∧ w'.listener.pc = .exited) := by
    rw [hsame, hmove.receiver_eq]
    exact h.main.imp_right (And.imp_right hmove.exited)
  have haborted := hmove.aborted_eq.trans h.aborted
  rw [hmove.frame] at hmain haborted ⊢
  exact ⟨hmain, h.memoTask, h.ctrlC, h.signals, haborted, h.log, h.handed⟩

theorem Unstarted.move {act : Act} (h : w.Unstarted) (hshake : w.Handshake)
    (hvalue : w.ready.value = none) (hmove : Move env w act w') : w'.Unstarted := by
  have hneither : ∀ pc, w.main.pc = pc → pc = .awaitReady ∨ pc = .failed notReady := by
    rintro pc rfl
    exact h.main.imp And.left And.left
  cases hmove with
  | tick d => exact ⟨h.main, h.memoTask, h.ctrlC, h.signals, h.aborted, h.log, h.handed⟩
  | listener move => exact h.listenerMove move
  | memo move =>
      have htask := h.memoTask
      cases move <;> simp_all
  | ctrlC move =>
      have htask := h.ctrlC
      cases move <;> simp_all
  | main move =>
      cases move with
      | ready pc value => simp [hvalue] at value
      | unready pc value sender =>
          have hexited : w.listener.pc = .exited := by
            by_contra hpc
            rw [(hshake.sender value).mpr hpc] at sender
            cases sender
          exact ⟨.inr ⟨rfl, hexited⟩, h.memoTask, h.ctrlC, h.signals, h.aborted, h.log, h.handed⟩
      | listenerOver pc listener =>
          rcases pc with pc | ⟨wake, pc⟩ <;> exact absurd (hneither _ pc) (by simp)
      | _ => exact absurd (hneither _ ‹w.main.pc = _›) (by simp)
  | send move => exact absurd (hneither _ move.collecting) (by simp)

/-- What is stored stays stored. -/
theorem Move.value_eq_none {act : Act} (h : Move env w act w') (hvalue : w'.ready.value = none) :
    w.ready.value = none := by
  by_cases hlistener : ∃ a, act = .listener a
  · obtain ⟨a, rfl⟩ := hlistener
    cases h with
    | listener move =>
        cases move with
        | confirmed update pc =>
            simp only [Oneshot.send] at hvalue
            split_ifs at hvalue
            exact hvalue
        | _ => exact hvalue
  · rw [← (h.ready_eq fun a ha ↦ hlistener ⟨a, ha⟩).1]
    exact hvalue

theorem unstarted {as : List Act} (hrun : env.machine.run as = some w)
    (hvalue : w.ready.value = none) : w.Unstarted := by
  refine env.machine.run_induction (motive := fun _ w ↦ w.ready.value = none → w.Unstarted)
    (fun _ ↦ unstarted_init env) ?_ hrun hvalue
  intro as act s t hs ih hstep hvalue
  have hvalue' := (move hstep).value_eq_none hvalue
  exact (ih hvalue').move (handshake hs) hvalue' (move hstep)

/-! ## The first message decides -/

theorem firstItem_snoc (as : List Act) (act : Act) :
    firstItem (as ++ [act]) = (firstItem as).or (firstItem [act]) := by
  simp [firstItem, List.findSome?_append]

/-- What the first message has been, as far as the run has got. -/
structure Decided (as : List Act) (w : World) : Prop where
  subscribing : w.listener.pc.Subscribing → firstItem as = none
  streaming : w.listener.pc.Streaming → firstItem as ≠ none
  value : w.ready.value = some () ↔ ∃ update, firstItem as = some (.update (some update))

theorem Decided.kept {as : List Act} {act : Act} (h : Decided as w)
    (hitem : firstItem as ≠ none ∨ firstItem [act] = none)
    (hvalue : w'.ready.value = w.ready.value)
    (hsubscribing : w'.listener.pc.Subscribing → w.listener.pc.Subscribing)
    (hstreaming : w'.listener.pc.Streaming → w.listener.pc.Streaming) :
    Decided (as ++ [act]) w' := by
  have hsame : firstItem (as ++ [act]) = firstItem as := by
    rw [firstItem_snoc]
    rcases hitem with hitem | hitem
    · obtain ⟨item, hitem⟩ := Option.ne_none_iff_exists'.mp hitem
      rw [hitem]
      rfl
    · rw [hitem, Option.or_none]
  constructor
  · rw [hsame]
    exact fun hpc ↦ h.subscribing (hsubscribing hpc)
  · rw [hsame]
    exact fun hpc ↦ h.streaming (hstreaming hpc)
  · rw [hsame, hvalue]
    exact h.value

/-- The message that the listener waits for to be confirmed is the first one. -/
theorem Decided.first {as : List Act} {item : StreamItem} (h : Decided as w)
    (hpc : w.listener.pc = .confirming) :
    firstItem (as ++ [.listener (.next item)]) = some item := by
  rw [firstItem_snoc, h.subscribing (by rw [hpc]; trivial)]
  rfl

theorem Decided.listenerMove {as : List Act} {act : ListenerAct} (h : Decided as w)
    (hshake : w.Handshake) (hmove : ListenerMove env w act w') :
    Decided (as ++ [.listener act]) w' := by
  have hlater : w.listener.pc = .looping → firstItem as ≠ none := fun hpc ↦
    h.streaming (by rw [hpc]; trivial)
  cases hmove with
  | stagePassed stage rest pc =>
      refine h.kept (.inr rfl) rfl (fun _ ↦ by rw [pc]; trivial) fun hpc ↦ ?_
      simp only [setListener] at hpc
      split_ifs at hpc <;> exact hpc.elim
  | confirmed update pc =>
      refine ⟨fun hpc ↦ hpc.elim, fun _ ↦ by simp [h.first pc], ?_⟩
      simp [h.first pc, Oneshot.send, hshake.receiver]
  | unconfirmed pc =>
      have hsilent : w.ready.value = none := hshake.silent (by rw [pc]; trivial)
      refine ⟨fun hpc ↦ hpc.elim, fun _ ↦ by simp [h.first pc], ?_⟩
      simp [h.first pc, setListener, hsilent]
  | refused item pc ended =>
      have hsilent : w.ready.value = none := hshake.silent (by rw [pc]; trivial)
      refine ⟨fun hpc ↦ hpc.elim, fun hpc ↦ hpc.elim, ?_⟩
      rcases ended with rfl | rfl <;>
        simp [h.first pc, exitListener, Oneshot.dropSender, hsilent]
  | observed txMsg obs pc quiet memo =>
      exact h.kept (.inl (hlater pc)) rfl (fun hpc ↦ hpc.elim) fun _ ↦ by rw [pc]; trivial
  | pinged pc quiet =>
      exact h.kept (.inl (hlater pc)) rfl (fun hpc ↦ hpc.elim) fun _ ↦ by rw [pc]; trivial
  | passed item pc quiet goesOn => exact h.kept (.inl (hlater pc)) rfl id id
  | ended item pc quiet ended =>
      exact h.kept (.inl (hlater pc)) rfl (fun hpc ↦ hpc.elim) fun hpc ↦ hpc.elim
  | delivered obs pc receiver room =>
      exact h.kept (.inr rfl) rfl (fun hpc ↦ hpc.elim) fun _ ↦ by rw [pc]; trivial
  | replied pc => exact h.kept (.inr rfl) rfl (fun hpc ↦ hpc.elim) fun _ ↦ by rw [pc]; trivial
  | _ => exact h.kept (.inr rfl) rfl (fun hpc ↦ hpc.elim) fun hpc ↦ hpc.elim

theorem decided {as : List Act} (hrun : env.machine.run as = some w) : Decided as w := by
  refine env.machine.run_induction (motive := fun as w ↦ Decided as w)
    ⟨fun _ ↦ rfl, fun hpc ↦ hpc.elim, ?_⟩ ?_ hrun
  · simp [Env.machine, World.init, Oneshot.channel, firstItem]
  · intro as act s t hs ih hstep
    have hmove := move hstep
    by_cases hlistener : ∃ a, act = .listener a
    · obtain ⟨a, rfl⟩ := hlistener
      cases hmove with
      | listener move => exact ih.listenerMove (handshake hs) move
    · have hother : ∀ a, act ≠ .listener a := fun a ha ↦ hlistener ⟨a, ha⟩
      obtain ⟨hready, hpc⟩ := hmove.ready_eq hother
      have hitem : firstItem [act] = none := by
        cases act with
        | listener a => exact absurd rfl (hother a)
        | _ => rfl
      refine ih.kept (.inr hitem) (congrArg Oneshot.value hready) ?_ ?_
      · rw [hpc]
        exact id
      · rw [hpc]
        exact id

/-- The benchmark is started just if the first message of the stream carries an
update.  Otherwise nothing is ever sent, counted or recorded, whatever else the
stream brings, and `main` waits for as long as the listener lives. -/
theorem starts_iff_confirmed (env : Env) (as : List Act) (w : World)
    (hrun : env.machine.run as = some w) :
    (w.ready.value = some () ↔ ∃ update, firstItem as = some (.update (some update))) ∧
      ((∀ update, firstItem as ≠ some (.update (some update))) →
        w.log = [] ∧ w.handed = [] ∧ (w.main.pc = .awaitReady ∨
          (w.main.pc = .failed notReady ∧ w.listener.pc = .exited))) ∧
      ((∃ update, firstItem as = some (.update (some update))) → w.main.pc = .awaitReady →
        ∃ w', env.machine.step w (.main .go) = some w' ∧
          w'.main.pc = .connecting env.config.endpoint) := by
  have hdecided := decided hrun
  refine ⟨hdecided.value, fun hnever ↦ ?_, fun hconfirmed hpc ↦ ?_⟩
  · have hvalue : w.ready.value = none := by
      by_contra hsome
      obtain ⟨⟨⟩, hunit⟩ := Option.ne_none_iff_exists'.mp hsome
      obtain ⟨update, hitem⟩ := hdecided.value.mp hunit
      exact hnever update hitem
    have hunstarted := unstarted hrun hvalue
    exact ⟨hunstarted.log, hunstarted.handed, hunstarted.main.imp_left And.left⟩
  · have hvalue := hdecided.value.mpr hconfirmed
    refine ⟨w.setMain (.connecting env.config.endpoint), ?_, rfl⟩
    simp [Env.machine, step, mainStep, mainGo, hpc, hvalue]

/-- The subscription is answered by a message without an update. -/
def silentStartup : List Act :=
  List.replicate 5 (.listener (.connect true)) ++ [.listener (.next (.update none))]

theorem run_silentStartup : (Sample.rpcEnv 1).machine.run silentStartup =
    some { World.init (Sample.rpcEnv 1) with listener := ⟨.looping, 0, false⟩ } := rfl

theorem starts_iff_confirmed_silentStartup :
    ∃ w, (Sample.rpcEnv 1).machine.run silentStartup = some w ∧ w.log = [] ∧ w.handed = [] := by
  refine ⟨_, run_silentStartup, ?_⟩
  have hnever : ∀ update, firstItem silentStartup ≠ some (.update (some update)) := by
    intro update hitem
    cases Option.some.inj hitem
  have hunstarted := (starts_iff_confirmed _ _ _ run_silentStartup).2.1 hnever
  exact ⟨hunstarted.1, hunstarted.2.1⟩

/-! ## Waiting for each other -/

/-- `main` waits for a word of the listener, which waits for room in a channel
that only a task yet to be spawned would drain. -/
structure Deadlocked (w : World) : Prop where
  main : w.main.pc = .awaitReady
  silent : w.ready.value = none
  delivering : ∃ obs, w.listener.pc = .delivering obs
  full : w.memo.hasRoom = false

theorem Unstarted.receiver (h : w.Unstarted) (hpc : w.main.pc = .awaitReady) :
    w.memo.receiver = true := by
  rcases h.main with ⟨-, hreceiver⟩ | ⟨hfailed, -⟩
  · exact hreceiver
  · rw [hpc] at hfailed
    cases hfailed

theorem Deadlocked.move {act : Act} (h : w.Deadlocked) (hunstarted : w.Unstarted)
    (hshake : w.Handshake) (hmove : Move env w act w') : w'.Deadlocked := by
  obtain ⟨hmain, hsilent, ⟨obs, hpc⟩, hfull⟩ := h
  cases hmove with
  | tick d => exact ⟨hmain, hsilent, ⟨obs, hpc⟩, hfull⟩
  | listener move =>
      have hreceiver := hunstarted.receiver hmain
      have haborted := hunstarted.aborted
      cases move <;> simp_all
  | memo move =>
      have htask := hunstarted.memoTask
      cases move <;> simp_all
  | ctrlC move =>
      have htask := hunstarted.ctrlC
      cases move <;> simp_all
  | main move =>
      have hsender := (hshake.sender hsilent).mpr (by simp [hpc])
      cases move <;> simp_all
  | send move =>
      have hcollecting := move.collecting
      rw [hmain] at hcollecting
      cases hcollecting

theorem Deadlocked.runFrom {as bs : List Act} (h : w.Deadlocked)
    (hrun : env.machine.run as = some w) (hfrom : env.machine.runFrom w bs = some w') :
    w'.Deadlocked := by
  have hinvariant := env.machine.invariant_from
    (P := fun u ↦ u.Deadlocked ∧ ∃ as, env.machine.run as = some u)
    (fun s act t ⟨hdead, as, hs⟩ hstep ↦
      ⟨hdead.move (unstarted hs hdead.silent) (handshake hs) (World.move hstep), as ++ [act],
        env.machine.run_snoc_eq_some.mpr ⟨s, hs, hstep⟩⟩) ⟨h, as, hrun⟩ hfrom
  exact hinvariant.1

/-- As long as the stream may fail, the listener can be brought to leave. -/
theorem exists_left (env : Env) (hstages : w.listener.pc ≠ .connecting [])
    (hpc : w.listener.pc ≠ .exited)
    (hroom : ∀ obs, w.listener.pc = .delivering obs →
      w.memo.receiver = false ∨ w.memo.hasRoom = true) :
    ∃ as u, env.machine.runFrom w as = some u ∧ u.main = w.main ∧ u.ready.sender = false := by
  have honce : ∀ a, env.machine.step w (.listener a) = some w.exitListener →
      ∃ as u, env.machine.runFrom w as = some u ∧ u.main = w.main ∧ u.ready.sender = false :=
    fun a hstep ↦ ⟨[.listener a], w.exitListener, by simp [hstep], rfl, rfl⟩
  have hlooping : ∀ u : World, u.listener.pc = .looping →
      ∃ a, env.machine.step u (.listener a) = some u.exitListener := by
    intro u hpc
    cases hsignal : u.shutdown.ready u.listener.shutdownRx with
    | true =>
        exact ⟨.shutdown, by simp [Env.machine, step, listenerStep, hpc, hsignal]⟩
    | false =>
        exact ⟨.next .closed, by simp [Env.machine, step, listenerStep, receive, hpc, hsignal]⟩
  cases hlistener : w.listener.pc with
  | connecting rest =>
      cases rest with
      | nil => exact absurd hlistener hstages
      | cons stage rest =>
          exact honce (.connect false) (by simp [Env.machine, step, listenerStep, hlistener])
  | confirming =>
      exact honce (.next .closed) (by simp [Env.machine, step, listenerStep, confirm, hlistener])
  | looping =>
      obtain ⟨a, hstep⟩ := hlooping w hlistener
      exact honce a hstep
  | delivering obs =>
      cases hreceiver : w.memo.receiver with
      | false =>
          exact honce .deliver (by simp [Env.machine, step, listenerStep, hlistener, hreceiver])
      | true =>
          have hroom : w.memo.hasRoom = true := by simpa [hreceiver] using hroom obs hlistener
          let delivered : World :=
            { w.setListener .looping with
              memo := w.memo.push obs
              delivered := w.delivered ++ [obs] }
          have hdeliver : env.machine.step w (.listener .deliver) = some delivered := by
            simp [Env.machine, step, listenerStep, hlistener, hreceiver, hroom, delivered]
          obtain ⟨a, hstep⟩ := hlooping delivered rfl
          exact ⟨[.listener .deliver, .listener a], delivered.exitListener,
            by simp [hdeliver, hstep], rfl, rfl⟩
  | replying =>
      exact honce (.pong false) (by simp [Env.machine, step, listenerStep, hlistener])
  | exited => exact absurd hlistener hpc

theorem exists_go_awaitReady (env : Env) (hpc : w.main.pc = .awaitReady)
    (hover : w.ready.completed = true) :
    ∃ u, env.machine.step w (.main .go) = some u ∧ u.main.pc ≠ .awaitReady := by
  cases hword : w.ready.value with
  | some word =>
      refine ⟨w.setMain (.connecting env.config.endpoint), ?_, by simp [setMain]⟩
      simp [Env.machine, step, mainStep, mainGo, hpc, hword]
  | none =>
      refine ⟨w.failEarly notReady, ?_, by simp [failEarly, setMain]⟩
      simp [Env.machine, step, mainStep, mainGo, hpc, hword, hover, notReady]

theorem exists_woken {as : List Act} (hrun : env.machine.run as = some w)
    (hpc : w.main.pc = .awaitReady) (hfree : ¬ w.Deadlocked) :
    ∃ bs u, env.machine.runFrom w bs = some u ∧ u.main.pc ≠ .awaitReady := by
  by_cases hover : w.ready.completed = true
  · obtain ⟨u, hstep, hwoken⟩ := exists_go_awaitReady env hpc hover
    exact ⟨[.main .go], u, by simp [hstep], hwoken⟩
  · have hshake := handshake hrun
    obtain ⟨hsilent, hsender⟩ : w.ready.value = none ∧ w.ready.sender = true := by
      simpa [Oneshot.completed] using hover
    have hroom : ∀ obs, w.listener.pc = .delivering obs →
        w.memo.receiver = false ∨ w.memo.hasRoom = true := by
      intro obs hdelivering
      by_contra hstuck
      obtain ⟨-, hfull⟩ := not_or.mp hstuck
      exact hfree ⟨hpc, hsilent, ⟨obs, hdelivering⟩, by simpa using hfull⟩
    obtain ⟨bs, u, hbs, hmain, hleft⟩ :=
      exists_left env hshake.stages ((hshake.sender hsilent).mp hsender) hroom
    obtain ⟨v, hstep, hwoken⟩ := exists_go_awaitReady env (w := u) (by rw [hmain, hpc])
      (by simp [Oneshot.completed, hleft])
    refine ⟨bs ++ [.main .go], v, ?_, hwoken⟩
    rw [Machine.runFrom_append, hbs]
    simp [hstep]

/-- `main` does not come back to its first wait. -/
theorem Move.awaitReady {act : Act} (h : Move env w act w') (hpc : w'.main.pc = .awaitReady) :
    w.main.pc = .awaitReady := by
  rcases h.main_eq with ⟨mainAct, -, move⟩ | ⟨hmain, -⟩
  · cases move <;> cases hpc
  · rw [← hmain]
    exact hpc

theorem getsOn_connecting {rest : List Endpoint} (hpc : w.main.pc = .connecting rest) :
    w.GetsOn env := by
  cases rest with
  | nil => exact getsOn_go (by simp [mainGo, hpc])
  | cons ep rest =>
      by_cases hkind : ep.kind = .soyas
      · cases hkey : ep.apiKey with
        | none => exact getsOn_go (by simp [mainGo, hpc, hkind, hkey])
        | some apiKey =>
            refine getsOn_of_waiting [] (.main (.connected true)) rfl (by simp) rfl rfl ?_
            simp [Env.machine, step, mainStep, hpc, hkind, hkey]
      · exact getsOn_go (by simp [mainGo, hpc, hkind])

theorem exists_runFrom_less {as : List Act} (hrun : env.machine.run as = some w)
    (hwoken : w.main.pc ≠ .awaitReady) (hended : ¬ w.main.pc.Ended) :
    ∃ bs u, env.machine.runFrom w bs = some u ∧ u.stepsLeft env < w.stepsLeft env := by
  have hcalmly : w.GetsOn env →
      ∃ bs u, env.machine.runFrom w bs = some u ∧ u.stepsLeft env < w.stepsLeft env :=
    fun ⟨bs, u, hbs, _, hless⟩ ↦ ⟨bs, u, hbs, hless⟩
  by_cases hasked : ∃ deadline, w.main.pc = .fetching deadline
  · obtain ⟨deadline, hpc⟩ := hasked
    obtain ⟨u, hstep⟩ : ∃ u, w.mainStep env (.answer .rpcError) = some u := by
      simp [mainStep, hpc, checkNonceReply]
    have hmachine : env.machine.step w (.main (.answer .rpcError)) = some u := hstep
    exact ⟨[.main (.answer .rpcError)], u, by simp [hmachine], (mainMove hstep).stepsLeft_lt⟩
  · rcases spawned hrun with hbefore | ⟨err, hpc⟩ | hentered
    · cases hpc : w.main.pc with
      | awaitReady => exact absurd hpc hwoken
      | connecting rest => exact hcalmly (getsOn_connecting hpc)
      | _ =>
          rw [hpc] at hbefore
          exact hbefore.elim
    · exact absurd (by rw [hpc]; trivial) hended
    · exact hcalmly (getsOn hrun hentered hended fun deadline hpc ↦ hasked ⟨deadline, hpc⟩)

theorem exists_runFrom_ended {as : List Act} (hrun : env.machine.run as = some w)
    (hwoken : w.main.pc ≠ .awaitReady) :
    ∃ bs u, env.machine.runFrom w bs = some u ∧ u.main.pc.Ended := by
  refine env.machine.exists_runFrom_of_potential (stepsLeft env)
    (P := fun w ↦ w.main.pc ≠ .awaitReady ∧ ∃ as, env.machine.run as = some w)
    (Q := fun w ↦ w.main.pc.Ended) ?_ ⟨hwoken, as, hrun⟩
  rintro s ⟨hwoken, as, hs⟩ hended
  obtain ⟨bs, t, hbs, hless⟩ := exists_runFrom_less hs hwoken hended
  have hwoken' := env.machine.invariant_from (P := fun u ↦ u.main.pc ≠ .awaitReady)
    (fun _ _ _ hu hstep hpc ↦ hu ((move hstep).awaitReady hpc)) hwoken hbs
  exact ⟨bs, t, hbs, ⟨hwoken', as ++ bs, env.machine.run_append_eq_some.mpr ⟨s, hs, hbs⟩⟩, hless⟩

/-- Nothing but that deadlock keeps a run from its end, and it does so for good;
whichever way a run goes, `main` and its futures take so many steps at most. -/
theorem ends_iff_not_deadlocked (env : Env) (as : List Act) (w : World)
    (hrun : env.machine.run as = some w) :
    ((∃ bs w', env.machine.runFrom w bs = some w' ∧ w'.main.pc.Ended) ↔ ¬ w.Deadlocked) ∧
      as.countP Act.ofMain ≤ (World.init env).stepsLeft env := by
  refine ⟨⟨?_, fun hfree ↦ ?_⟩, le_of_add_le_left (count_ofMain_le hrun)⟩
  · rintro ⟨bs, w', hbs, hended⟩ hdead
    rw [(hdead.runFrom hrun hbs).main] at hended
    exact hended
  · by_cases hpc : w.main.pc = .awaitReady
    · obtain ⟨bs, u, hbs, hwoken⟩ := exists_woken hrun hpc hfree
      obtain ⟨cs, v, hcs, hended⟩ := exists_runFrom_ended
        (env.machine.run_append_eq_some.mpr ⟨w, hrun, hbs⟩) hwoken
      refine ⟨bs ++ cs, v, ?_, hended⟩
      rw [Machine.runFrom_append, hbs]
      exact hcs
    · exact exists_runFrom_ended hrun hpc

/-- As many observations as there is room for fill the channel. -/
theorem exists_full {txMsg : Geyser.SubscribeUpdateTransaction} {found : String × String}
    (hfound : Geyser.extractMemo env.host txMsg env.memoProgram = some found) (n : ℕ)
    (hpc : w.listener.pc = .looping) (hquiet : w.shutdown.ready w.listener.shutdownRx = false)
    (hreceiver : w.memo.receiver = true) (hroom : w.memo.buffer.length + n = w.memo.capacity) :
    ∃ as u, env.machine.runFrom w as = some u ∧ u.main = w.main ∧ u.ready = w.ready ∧
      u.memo.hasRoom = false ∧ u.listener.pc = .looping ∧
      u.shutdown.ready u.listener.shutdownRx = false := by
  induction n generalizing w with
  | zero =>
      have hfull : w.memo.hasRoom = false := by
        simp only [Mpsc.hasRoom, decide_eq_false_iff_not]
        omega
      exact ⟨[], w, rfl, rfl, rfl, hfull, hpc, hquiet⟩
  | succ n ih =>
      let obs : MemoObservation := ⟨found.1, found.2, w.now⟩
      let seen : World := w.setListener (.delivering obs)
      let delivered : World :=
        { seen.setListener .looping with
          memo := w.memo.push obs
          delivered := w.delivered ++ [obs] }
      have hfirst : env.machine.step w
          (.listener (.next (.update (some (.transaction txMsg))))) = some seen := by
        simp [Env.machine, step, listenerStep, receive, observe, hpc, hquiet, hfound, seen, obs]
      have hsecond : env.machine.step seen (.listener .deliver) = some delivered := by
        have hroom' : w.memo.hasRoom = true := by
          simp only [Mpsc.hasRoom, decide_eq_true_eq]
          omega
        simp [Env.machine, step, listenerStep, setListener, hreceiver, hroom', seen, delivered]
      obtain ⟨as, u, hrun, hmain, hready, hfull, hrest⟩ := ih (w := delivered) rfl hquiet hreceiver
        (by simp only [delivered, Mpsc.push, List.length_append, List.length_singleton]; omega)
      refine ⟨.listener (.next (.update (some (.transaction txMsg)))) :: .listener .deliver :: as,
        u, ?_, hmain, hready, hfull, hrest⟩
      rw [Machine.runFrom_cons, hfirst, Option.bind_some, Machine.runFrom_cons, hsecond,
        Option.bind_some, hrun]

/-- One more observation, and the listener waits as well. -/
theorem exists_deadlocked (env : Env) {txMsg : Geyser.SubscribeUpdateTransaction}
    {found : String × String}
    (hfound : Geyser.extractMemo env.host txMsg env.memoProgram = some found)
    (hmain : w.main.pc = .awaitReady) (hsilent : w.ready.value = none)
    (hpc : w.listener.pc = .looping) (hquiet : w.shutdown.ready w.listener.shutdownRx = false)
    (hreceiver : w.memo.receiver = true) (hbuffer : w.memo.buffer = []) :
    ∃ as u, env.machine.runFrom w as = some u ∧ u.Deadlocked := by
  obtain ⟨as, u, hrun, hmain', hready, hfull, hlooping, hquiet'⟩ :=
    exists_full hfound w.memo.capacity hpc hquiet hreceiver (by simp [hbuffer])
  let stuck : World := u.setListener (.delivering ⟨found.1, found.2, u.now⟩)
  have hlast : env.machine.step u
      (.listener (.next (.update (some (.transaction txMsg))))) = some stuck := by
    simp [Env.machine, step, listenerStep, receive, observe, hlooping, hquiet', hfound, stuck]
  refine ⟨as ++ [.listener (.next (.update (some (.transaction txMsg))))], stuck, ?_, ?_⟩
  · rw [Machine.runFrom_append, hrun]
    simp [hlast]
  · exact ⟨by rw [← hmain, ← hmain']; rfl, by rw [← hsilent, ← hready]; rfl, ⟨_, rfl⟩, hfull⟩

theorem ends_iff_not_deadlocked_silentStartup :
    (∃ w, (Sample.rpcEnv 1).machine.run silentStartup = some w ∧
      ∃ bs w', (Sample.rpcEnv 1).machine.runFrom w bs = some w' ∧ w'.main.pc.Ended) ∧
    ∃ as w, (Sample.rpcEnv 1).machine.run as = some w ∧
      ¬ ∃ bs w', (Sample.rpcEnv 1).machine.runFrom w bs = some w' ∧ w'.main.pc.Ended := by
  refine ⟨⟨_, run_silentStartup, (ends_iff_not_deadlocked _ _ _ run_silentStartup).1.mpr ?_⟩, ?_⟩
  · rintro ⟨-, -, ⟨obs, hpc⟩, -⟩
    cases hpc
  · have hmemo : ((buildTransaction Sample.host (Sample.rpc "rpc") (Sample.pubkey Sample.nonceText)
        Sample.authority Sample.nonce₀ (.finite 0) 1000000 Sample.wallClock 0).toOption.bind
          fun tx ↦ Geyser.extractMemo Sample.host (Geyser.update tx) Sample.memoProgram).isSome =
            true := by decide +kernel
    obtain ⟨found, hfound⟩ := Option.isSome_iff_exists.mp hmemo
    obtain ⟨tx, -, hfound⟩ := Option.bind_eq_some_iff.mp hfound
    obtain ⟨as, u, has, hdead⟩ := exists_deadlocked (Sample.rpcEnv 1)
      (w := { World.init (Sample.rpcEnv 1) with listener := ⟨.looping, 0, false⟩ })
      hfound rfl rfl rfl rfl rfl rfl
    have hrun := (Sample.rpcEnv 1).machine.run_append_eq_some.mpr ⟨_, run_silentStartup, has⟩
    exact ⟨_, u, hrun, fun hends ↦ (ends_iff_not_deadlocked _ _ _ hrun).1.mp hends hdead⟩

end World
end LandingBench
