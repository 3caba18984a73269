import LandingBench.System.Measured
import LandingBench.System.RoundIds

/-!
# The pace of the rounds

A round starts when the sleep behind the one before it is over, and the
listener is stopped when the grace behind the last one is.  The clock may run
as fast as it likes, so these are lower bounds.
-/

namespace LandingBench

open Async Data Ledger

namespace Env

def delay (env : Env) : Duration := Duration.fromMillis env.config.config.delayMs

def grace (env : Env) : Duration := Duration.fromMillis env.config.config.landingGraceMs

end Env

namespace MainPc

/-- The listener is being stopped, or is. -/
def Stopping : MainPc → Prop
  | signalling | selecting _ | aborting | awaitingMemo | finalizing | done _ => True
  | _ => False

/-- `main` has given its time to a round that started then. -/
def Gives (env : Env) (flag : Bool) (now start : Duration) : MainPc → Prop
  | awaitReady | connecting _ => False
  | dispatching _ _ | collecting => start ≤ now
  | delaying wake => start + env.delay ≤ wake
  | loopTop | fetching _ | nonceSleep _ _ | starting _ | graceCheck => start + env.delay ≤ now
  | graceSleep wake => start + env.delay + env.grace ≤ wake
  | signalling | selecting _ | aborting | awaitingMemo | finalizing | done _ =>
      flag = true ∨ start + env.delay + env.grace ≤ now
  | failed _ => True

/-- Time only passes, and a flag that is up stays up. -/
theorem Gives.mono {env : Env} {flag flag' : Bool} {now now' start : Duration} {pc : MainPc}
    (h : pc.Gives env flag now start) (hnow : now ≤ now') (hflag : flag = true → flag' = true) :
    pc.Gives env flag' now' start := by
  cases pc with
  | awaitReady | connecting rest => exact h.elim
  | dispatching nonceHash rest | collecting => exact le_trans h hnow
  | loopTop | fetching deadline | nonceSleep deadline wake | starting nonceHash | graceCheck =>
      exact le_trans h hnow
  | delaying wake | graceSleep wake => exact h
  | signalling | selecting wake | aborting | awaitingMemo | finalizing | done summary =>
      exact h.imp hflag fun hover ↦ hover.trans hnow
  | failed err => trivial

end MainPc

namespace World

variable {env : Env} {w w' : World} {begun : List (String × Duration)}

def started (w : World) : List String := startedRounds w.log

/-- The rounds that a run starts, and when. -/
def begunFrom (env : Env) (as : List Act) : List (String × Duration) :=
  env.machine.outputs (added? env started) as

structure Paced (env : Env) (begun : List (String × Duration)) (w : World) : Prop where
  started : begun.map Prod.fst = w.started
  apart : begun.IsChain fun a b ↦ a.2 + env.delay ≤ b.2
  last : ∀ b ∈ begun.getLast?, w.main.pc.Gives env w.shutdownFlag w.now b.2

theorem Paced.congr (h : Paced env begun w) (hstarted : w'.started = w.started)
    (hlast : ∀ start, w.main.pc.Gives env w.shutdownFlag w.now start →
      w'.main.pc.Gives env w'.shutdownFlag w'.now start) : Paced env begun w' where
  started := h.started.trans hstarted.symm
  apart := h.apart
  last b hb := hlast b.2 (h.last b hb)

/-- The next round, no sooner than `main` has slept behind the last one. -/
theorem Paced.began (h : Paced env begun w) {nonceHash : Hash}
    (hpc : w.main.pc = .starting nonceHash) :
    Paced env (begun ++ [(env.host.base58 nonceHash.bytes, w.now)])
      (w.beginRound env nonceHash) where
  started := by
    rw [List.map_append, h.started]
    simp [World.started, beginRound]
  apart := by
    refine List.isChain_append.mpr ⟨h.apart, List.isChain_singleton _, fun a ha b hb ↦ ?_⟩
    obtain rfl : (env.host.base58 nonceHash.bytes, w.now) = b := by simpa using hb
    have hslept := h.last a ha
    rw [hpc] at hslept
    exact hslept
  last b hb := by
    obtain rfl : (env.host.base58 nonceHash.bytes, w.now) = b := by simpa using hb
    exact le_refl w.now

theorem Paced.mainMove {act : MainAct} (h : Paced env begun w)
    (hstep : env.machine.step w (.main act) = some w') (hmove : MainMove env w act w') :
    Paced env (begun ++ (w.added? env World.started (.main act)).toList) w' := by
  have hquiet : w'.started = w.started → (∀ start, w.main.pc.Gives env w.shutdownFlag w.now start →
      w'.main.pc.Gives env w'.shutdownFlag w'.now start) →
        Paced env (begun ++ (w.added? env World.started (.main act)).toList) w' := by
    intro hstarted hlast
    rw [added?_eq_none hstep hstarted, Option.toList_none, List.append_nil]
    exact h.congr hstarted hlast
  cases hmove with
  | began nonceHash pc =>
      have hnew : (w.beginRound env nonceHash).started =
          w.started ++ [env.host.base58 nonceHash.bytes] := by simp [World.started, beginRound]
      rw [added?_eq_some hstep hnew, Option.toList_some]
      exact h.began pc
  | collected pc =>
      refine hquiet rfl fun start hgives ↦ ?_
      rw [pc] at hgives
      exact Nat.add_le_add_right hgives _
  | delayed wake pc time =>
      refine hquiet rfl fun start hgives ↦ ?_
      rw [pc] at hgives
      exact le_trans hgives time
  | flagged pc flag =>
      exact hquiet rfl fun start _ ↦ .inl flag
  | unflagged pc =>
      refine hquiet rfl fun start hgives ↦ ?_
      rw [pc] at hgives
      exact Nat.add_le_add_right hgives _
  | graceOver wake pc time =>
      refine hquiet rfl fun start hgives ↦ ?_
      rw [pc] at hgives
      exact .inr (le_trans hgives time)
  | listenerOver pc =>
      refine hquiet rfl fun start hgives ↦ ?_
      rcases pc with pc | ⟨wake, pc⟩
      · rw [pc] at hgives
        exact hgives
      · rw [pc] at hgives
        exact hgives
  | unready | keyless | unconnected | unfetched => exact hquiet rfl fun _ _ ↦ trivial
  | ready pc | skipped _ _ pc | connected _ _ _ pc | entered pc | exhausted pc | stopped pc
  | fetched pc | woken _ _ pc | fresh _ _ _ pc | stale _ _ pc | dispatched _ _ _ _ pc | filled _ pc
  | signalled pc | timedOut _ pc | memoOver pc | finalized _ pc =>
      refine hquiet rfl fun start hgives ↦ ?_
      rw [pc] at hgives
      first
        | exact hgives
        | exact hgives.elim

/-- Whoever is not `main` lets time pass, or puts the flag up. -/
theorem Move.gives {act : Act} (h : Move env w act w') (hother : ∀ mainAct, act ≠ .main mainAct)
    (start : Duration) (hgives : w.main.pc.Gives env w.shutdownFlag w.now start) :
    w'.main.pc.Gives env w'.shutdownFlag w'.now start := by
  cases h with
  | main move => exact absurd rfl (hother _)
  | tick d => exact hgives.mono (Nat.le_add_right _ _) id
  | listener move =>
      rw [move.frame]
      exact hgives
  | memo move =>
      rw [move.frame]
      exact hgives
  | send move =>
      rw [move.frame]
      exact hgives
  | ctrlC move =>
      cases move with
      | stored pc => exact hgives.mono le_rfl fun _ ↦ rfl
      | failed pc => exact hgives
      | broadcasted pc => exact hgives

theorem paced {as : List Act} (hrun : env.machine.run as = some w) :
    Paced env (begunFrom env as) w := by
  refine env.machine.run_induction (motive := fun as w ↦ Paced env (begunFrom env as) w)
    ⟨rfl, List.isChain_nil, fun b hb ↦ by cases hb⟩ ?_ hrun
  intro as act s t hs ih hstep
  rw [begunFrom, env.machine.outputs_snoc _ hs]
  have hmove := World.move hstep
  rcases hmove.main_eq with ⟨mainAct, rfl, hmain⟩ | ⟨-, hother⟩
  · exact ih.mainMove hstep hmain
  · have hstarted : t.started = s.started := startedRounds_of_other hmove hother
    rw [added?_eq_none hstep hstarted, Option.toList_none, List.append_nil]
    exact ih.congr hstarted (hmove.gives hother)

/-- Rounds are at least `delay_ms` apart, and without a shutdown the listener is
kept until the last of them has had `delay_ms` and `landing_grace_ms`. -/
theorem rounds_paced (env : Env) (as : List Act) (w : World)
    (hrun : env.machine.run as = some w) :
    (begunFrom env as).map Prod.fst = startedRounds w.log ∧
      (begunFrom env as).IsChain (fun a b ↦ a.2 + env.delay ≤ b.2) ∧
      (w.main.pc.Stopping → w.shutdownFlag = false →
        ∀ b ∈ (begunFrom env as).getLast?, b.2 + env.delay + env.grace ≤ w.now) := by
  have hpaced := paced hrun
  refine ⟨hpaced.started, hpaced.apart, fun hstopping hflag b hb ↦ ?_⟩
  have hgives := hpaced.last b hb
  cases hpc : w.main.pc with
  | signalling | selecting wake | aborting | awaitingMemo | finalizing | done summary =>
      rw [hpc, hflag] at hgives
      exact hgives.resolve_left (by simp)
  | _ =>
      rw [hpc] at hstopping
      exact hstopping.elim

theorem rounds_paced_twoNonces :
    ∃ w, (Sample.rpcEnv 2).machine.run twoNonces = some w ∧
      (begunFrom (Sample.rpcEnv 2) twoNonces).map Prod.snd = [0, 50000000] ∧
      (begunFrom (Sample.rpcEnv 2) twoNonces).IsChain
        fun a b ↦ a.2 + (Sample.rpcEnv 2).delay ≤ b.2 := by
  have hrun : ((Sample.rpcEnv 2).machine.run twoNonces).isSome = true := by decide +kernel
  obtain ⟨w, hw⟩ := Option.isSome_iff_exists.mp hrun
  exact ⟨w, hw, by decide +kernel, (rounds_paced _ _ w hw).2.1⟩

end World
end LandingBench
