import LandingBench.System.Budget

/-!
# Rounds on the chain

An RPC that shows no other nonce than the account's lets a round begin only when
the one before it has landed, because a nonce that has not advanced is not taken
again.  So the rounds of a run have nonces of their own, and all but the last of
them land, also where a question fails or a Ctrl-C comes.
-/

namespace LandingBench

open Async Data Ledger

namespace OnChain

variable {env : Env} {first : Hash} {s t : OnChain}

/-- The nonces of the rounds so far: all but the last are used up, and the one
that a round is about to begin with is none of them. -/
structure InTurn (env : Env) (hashes : List Hash) (s : OnChain) : Prop where
  started : startedRounds s.world.log = hashes.map fun hash ↦ env.host.base58 hash.bytes
  last : hashes.getLast? = s.world.main.previousNonce
  used : ∀ hash ∈ hashes.dropLast, hash ∈ s.account.used
  nodup : hashes.Nodup
  starting : ∀ hash, s.world.main.pc = .starting hash →
    hash ∉ hashes ∧ ∀ old ∈ hashes, old ∈ s.account.used

theorem inTurn_init (env : Env) (first : Hash) : InTurn env [] ⟨World.init env, first, []⟩ where
  started := rfl
  last := rfl
  used hash hmem := by cases hmem
  nodup := List.nodup_nil
  starting hash hpc := by cases hpc

/-- When the RPC shows another nonce than that of the last round, this one is
used up as well. -/
theorem InTurn.all_used {hashes : List Hash} (h : InTurn env hashes s) (hspent : s.Spent)
    (hnew : s.world.main.previousNonce ≠ some s.account.nonce) :
    ∀ hash ∈ hashes, hash ∈ s.account.used := by
  intro hash hmem
  rcases Lists.mem_dropLast_or_getLast? hmem with hearlier | hlast
  · exact h.used hash hearlier
  · rw [h.last] at hlast
    refine (hspent.previous hash hlast).resolve_left fun heq ↦ hnew ?_
    rw [hlast, heq]

theorem InTurn.mainMove {hashes : List Hash} {act : MainAct} {w : World}
    (h : InTurn env hashes s) (hspent : s.Spent) (hfresh : s.Fresh)
    (hcurrent : Current s (.program (.main act)))
    (hmove : World.MainMove env s.world act w) :
    ∃ hashes, InTurn env hashes { s with world := w } := by
  cases hmove with
  | fresh deadline reply nonceHash pc check =>
      obtain ⟨rfl, hnew⟩ := reply_of_check_eq_some check
      obtain rfl := hcurrent _ rfl
      refine ⟨hashes, h.started, h.last, h.used, h.nodup, fun hash hpc ↦ ?_⟩
      obtain rfl := MainPc.starting.inj hpc
      have hall := h.all_used hspent hnew
      exact ⟨fun hmem ↦ hfresh (hall _ hmem), hall⟩
  | began nonceHash pc =>
      obtain ⟨hnew, hall⟩ := h.starting _ pc
      refine ⟨hashes ++ [nonceHash], ?_, ?_, ?_, ?_, fun hash hpc ↦ by cases hpc⟩
      · simp [World.beginRound, h.started]
      · simp [World.beginRound]
      · simpa using hall
      · exact h.nodup.append (List.nodup_singleton _) (by simpa using hnew)
  | _ => exact ⟨hashes, h.started, h.last, h.used, h.nodup, fun hash hpc ↦ by cases hpc⟩

theorem InTurn.move {hashes : List Hash} {a : OnChainAct} (h : InTurn env hashes s)
    (hspent : s.Spent) (hfresh : s.Fresh) (hcurrent : Current s a) (hmove : Move env s a t) :
    ∃ hashes, InTurn env hashes t := by
  cases hmove with
  | @program act w move =>
      rcases move.main_eq with ⟨mainAct, rfl, hmain⟩ | ⟨hmain, hother⟩
      · exact h.mainMove hspent hfresh hcurrent hmain
      · refine ⟨hashes, ?_, ?_, h.used, h.nodup, ?_⟩
        · rw [World.startedRounds_of_other move hother]
          exact h.started
        · rw [hmain]
          exact h.last
        · rw [hmain]
          exact h.starting
  | landed k next handed account get land =>
      have hgrows : ∀ hash ∈ s.account.used, hash ∈ account.used := fun hash hused ↦
        (NonceAccount.mem_used_of_land land hash).mpr (.inr hused)
      refine ⟨hashes, h.started, h.last, fun hash hmem ↦ hgrows _ (h.used hash hmem), h.nodup,
        fun hash hpc ↦ ?_⟩
      obtain ⟨hnew, hall⟩ := h.starting hash hpc
      exact ⟨hnew, fun old hmem ↦ hgrows _ (hall old hmem)⟩

theorem inTurn {as : List OnChainAct} (hrun : (env.onChain first).run as = some s)
    (hcurrent : (env.onChain first).Along Current as) : ∃ hashes, InTurn env hashes s := by
  have hturns := (env.onChain first).invariant_of_along
    (P := fun s ↦ (s.Spent ∧ s.Fresh) ∧ ∃ hashes, InTurn env hashes s)
    ⟨⟨spent (Machine.run_nil _) (Machine.along_nil _), fresh (Machine.run_nil _)⟩,
      [], inTurn_init env first⟩
    (fun _ _ _ ⟨⟨hspent, hfresh⟩, _, h⟩ hgood hstep ↦
      ⟨⟨hspent.move hgood (move hstep), hfresh.move (move hstep)⟩,
        h.move hspent hfresh hgood (move hstep)⟩)
    hcurrent hrun
  exact hturns.2

/-- If the RPC shows no other nonce than the account's, the rounds of a run have
ids of their own, each of them but the last lands before the next begins, and so
the chain has one landed transaction for each round, or for each but the last. -/
theorem rounds_land_in_turn (env : Env) (hbase58 : Function.Injective env.host.base58)
    (first : Hash) (as : List OnChainAct) (s : OnChain)
    (hrun : (env.onChain first).run as = some s)
    (hcurrent : (env.onChain first).Along Current as) :
    (startedRounds s.world.log).Nodup ∧
      (∀ roundId ∈ (startedRounds s.world.log).dropLast, ∃ tx ∈ s.account.landed,
        env.host.base58 tx.recentBlockhash.bytes = roundId) ∧
      s.account.landed.length ≤ (startedRounds s.world.log).length ∧
      (startedRounds s.world.log).length ≤ s.account.landed.length + 1 := by
  obtain ⟨hashes, hturn⟩ := inTurn hrun hcurrent
  obtain ⟨bs, hbs⟩ := world_run hrun
  have hinjective : Function.Injective fun hash : Hash ↦ env.host.base58 hash.bytes :=
    hbase58.comp Hash.bytes_injective
  refine ⟨?_, fun roundId hmem ↦ ?_, (settled hrun).length_le hbase58 (World.priced hbs), ?_⟩
  · rw [hturn.started]
    exact hturn.nodup.map hinjective
  · rw [hturn.started, ← List.map_dropLast] at hmem
    obtain ⟨hash, hearlier, rfl⟩ := List.mem_map.mp hmem
    obtain ⟨tx, hlanded, rfl⟩ := List.mem_map.mp (hturn.used hash hearlier)
    exact ⟨tx, hlanded, rfl⟩
  · have hearlier : hashes.dropLast.length ≤ s.account.used.length :=
      ((hturn.nodup.sublist (List.dropLast_sublist _)).subperm hturn.used).length_le
    rw [hturn.started, List.length_map]
    rw [List.length_dropLast, NonceAccount.used, List.length_map] at hearlier
    omega

theorem rounds_land_in_turn_twoRounds :
    ∃ s, ((Sample.rpcEnv 2).onChain Sample.nonce₀).run twoRounds = some s ∧
      s.account.landed.length = 1 ∧ (startedRounds s.world.log).length ≤ 2 := by
  have hrun : (((Sample.rpcEnv 2).onChain Sample.nonce₀).run twoRounds).map
      (·.account.landed.length) = some 1 := by decide +kernel
  obtain ⟨s, hs, hlength⟩ := Option.map_eq_some_iff.mp hrun
  have hanswered : ((Sample.rpcEnv 2).onChain Sample.nonce₀).Along Answered twoRounds :=
    Machine.along_of_check _ answered (fun _ _ h ↦ h) (by decide +kernel)
  have hcurrent := Machine.Along.mono _ (fun _ _ ↦ Answered.current) hanswered
  have hrounds := (rounds_land_in_turn _ Sdk.base58_injective _ _ s hs hcurrent).2.2.2
  rw [hlength] at hrounds
  exact ⟨s, hs, hlength, hrounds⟩

end OnChain
end LandingBench
