import LandingBench.Data.Stutter
import LandingBench.Ledger
import LandingBench.System.Progress

/-!
# Which nonces the rounds get

`fetch_fresh_nonce_hash` compares a reply with the nonce of the last round
only, so the hashes that it returns are the replies without their repetitions,
and an older nonce is taken for a fresh one.
-/

namespace LandingBench

open Async Data Ledger

/-- The hash that `main` has fetched for the round that it starts next. -/
def MainPc.toStart : MainPc → Option Hash
  | starting nonceHash => some nonceHash
  | _ => none

/-- A valid reply of the utility RPC. -/
def Act.nonce? : Act → Option Hash
  | main (.answer (.nonce hash)) => some hash
  | _ => none

def nonceReplies (as : List Act) : List Hash := as.filterMap Act.nonce?

namespace World

variable {env : Env} {w w' : World}

/-- The hash that `fetch_fresh_nonce_hash` returns in this step. -/
def fetched? (env : Env) (w : World) : Act → Option Hash
  | .main (.answer reply) =>
      match w.main.pc with
      | .fetching deadline =>
          match checkNonceReply env.host w.main.previousNonce w.now deadline reply with
          | .ok nonceHash => nonceHash
          | .error _ => none
      | _ => none
  | _ => none

def fetchedHashes (env : Env) (as : List Act) : List Hash := env.machine.outputs (fetched? env) as

/-- No nonce is fetched twice, so that no two rounds have one id, and none is
lost among the landed ones. -/
structure RoundsIdentified (env : Env) (as : List Act) (w : World) : Prop where
  fetched : (fetchedHashes env as).Nodup
  started : (startedRounds w.log).Nodup
  landed : w.book.records.landedRounds.card = ((startedRounds w.log).filter
    (· ∈ (LandingBook.accepted w.log).map (·.record.roundId))).length

/-! ## Replies, fetched hashes and started rounds -/

structure Fetches (env : Env) (replies hashes : List Hash) (w : World) : Prop where
  noted : hashes = replies.destutter (· ≠ ·)
  previous : w.main.pc.toStart.or w.main.previousNonce = hashes.getLast?
  started : startedRounds w.log ++
    w.main.pc.toStart.toList.map (fun hash ↦ env.host.base58 hash.bytes) =
      hashes.map fun hash ↦ env.host.base58 hash.bytes

theorem fetches_init (env : Env) : Fetches env [] [] (World.init env) := ⟨rfl, rfl, rfl⟩

section Step

variable {replies hashes : List Hash}

/-- A step that fetches nothing and starts nothing. -/
theorem Fetches.congr (h : Fetches env replies hashes w)
    (htoStart : w'.main.pc.toStart = w.main.pc.toStart)
    (hprevious : w'.main.previousNonce = w.main.previousNonce)
    (hlog : startedRounds w'.log = startedRounds w.log) : Fetches env replies hashes w' where
  noted := h.noted
  previous := by
    rw [htoStart, hprevious]
    exact h.previous
  started := by
    rw [htoStart, hlog]
    exact h.started

theorem Fetches.idle (h : Fetches env replies hashes w) (hpc : w.main.pc.toStart = none)
    (hpc' : w'.main.pc.toStart = none) (hprevious : w'.main.previousNonce = w.main.previousNonce)
    (hlog : startedRounds w'.log = startedRounds w.log) :
    Fetches env (replies ++ []) (hashes ++ []) w' := by
  rw [List.append_nil, List.append_nil]
  exact h.congr (hpc'.trans hpc.symm) hprevious hlog

/-- Another look at the hash that was fetched last changes nothing. -/
theorem Fetches.repeated (h : Fetches env replies hashes w) {hash : Hash}
    (hpc : w.main.pc.toStart = none) (hold : w.main.previousNonce = some hash) :
    Fetches env (replies ++ [hash]) (hashes ++ []) w := by
  have hread : replies.getLast? = some hash := by
    rw [← getLast?_destutter, ← h.noted, ← h.previous, hpc]
    exact hold
  rw [List.append_nil]
  refine ⟨?_, h.previous, h.started⟩
  rw [destutter_snoc, if_pos hread]
  exact h.noted

/-- Any other hash is fetched. -/
theorem Fetches.fresh (h : Fetches env replies hashes w) {hash : Hash}
    (hpc : w.main.pc.toStart = none) (hnew : w.main.previousNonce ≠ some hash) :
    Fetches env (replies ++ [hash]) (hashes ++ [hash]) (w.setMain (.starting hash)) where
  noted := by
    have hread : replies.getLast? ≠ some hash := by
      rw [← getLast?_destutter, ← h.noted, ← h.previous, hpc]
      exact hnew
    rw [destutter_snoc, if_neg hread, h.noted]
  previous := by simp [setMain, MainPc.toStart]
  started := by
    have hstarted := h.started
    rw [hpc] at hstarted
    simp only [Option.toList_none, List.map_nil, List.append_nil] at hstarted
    simp [setMain, MainPc.toStart, hstarted]

/-- The round that begins has the hash that was fetched last. -/
theorem Fetches.began (h : Fetches env replies hashes w) {nonceHash : Hash}
    (hpc : w.main.pc = .starting nonceHash) :
    Fetches env (replies ++ []) (hashes ++ []) (w.beginRound env nonceHash) := by
  have hprevious := h.previous
  have hstarted := h.started
  rw [hpc] at hprevious hstarted
  rw [List.append_nil, List.append_nil]
  refine ⟨h.noted, hprevious, ?_⟩
  rw [← hstarted]
  simp [beginRound, MainPc.toStart]

theorem Fetches.mainMove {act : MainAct} (h : Fetches env replies hashes w)
    (hmove : MainMove env w act w') :
    Fetches env (replies ++ (Act.nonce? (.main act)).toList)
      (hashes ++ (w.fetched? env (.main act)).toList) w' := by
  cases hmove with
  | fresh deadline reply nonceHash pc check =>
      have hfetched : w.fetched? env (.main (.answer reply)) = some nonceHash := by
        simp only [fetched?, pc, check]
      rw [hfetched]
      obtain ⟨rfl, hnew⟩ := reply_of_check_eq_some check
      exact h.fresh (by rw [pc]; rfl) hnew
  | stale deadline reply pc check =>
      have hfetched : w.fetched? env (.main (.answer reply)) = none := by
        simp only [fetched?, pc, check]
      rw [hfetched]
      cases reply with
      | nonce current =>
          have hrepeated := h.repeated (by rw [pc]; rfl) (stale_of_check_eq_none check)
          exact hrepeated.congr (by rw [pc]; rfl) rfl rfl
      | _ => cases check
  | unfetched deadline reply err pc check =>
      have hfetched : w.fetched? env (.main (.answer reply)) = none := by
        simp only [fetched?, pc, check]
      rw [hfetched]
      cases reply with
      | nonce current =>
          have hrepeated := h.repeated (by rw [pc]; rfl) (stale_of_check_eq_error check).1
          exact hrepeated.congr (by rw [pc]; rfl) rfl rfl
      | _ => exact h.idle (by rw [pc]; rfl) rfl rfl rfl
  | began nonceHash pc => exact h.began pc
  | listenerOver pc listener =>
      rcases pc with pc | ⟨wake, pc⟩
      · exact h.idle (by rw [pc]; rfl) rfl rfl rfl
      · exact h.idle (by rw [pc]; rfl) rfl rfl rfl
  | _ => exact h.idle (by simp [‹w.main.pc = _›, MainPc.toStart]) rfl rfl rfl

theorem startedRounds_of_other {act : Act} (hmove : Move env w act w')
    (hother : ∀ mainAct, act ≠ .main mainAct) : startedRounds w'.log = startedRounds w.log := by
  cases hmove with
  | tick d => rfl
  | listener move => rw [move.frame]
  | memo move => cases move <;> simp
  | ctrlC move => rw [move.frame]
  | main move => exact absurd rfl (hother _)
  | send move => cases move <;> simp [setSend]

theorem Fetches.move {act : Act} (h : Fetches env replies hashes w)
    (hmove : Move env w act w') :
    Fetches env (replies ++ act.nonce?.toList) (hashes ++ (w.fetched? env act).toList) w' := by
  rcases hmove.main_eq with ⟨mainAct, rfl, move⟩ | ⟨hmain, hother⟩
  · exact h.mainMove move
  · have hnone : act.nonce? = none ∧ w.fetched? env act = none := by
      cases act with
      | main mainAct => exact absurd rfl (hother mainAct)
      | _ => exact ⟨rfl, rfl⟩
    rw [hnone.1, hnone.2, Option.toList_none, List.append_nil, List.append_nil]
    exact h.congr (by rw [hmain]) (by rw [hmain]) (startedRounds_of_other hmove hother)

end Step

theorem fetches {as : List Act} (hrun : env.machine.run as = some w) :
    Fetches env (nonceReplies as) (fetchedHashes env as) w := by
  refine env.machine.run_induction
    (motive := fun as w ↦ Fetches env (nonceReplies as) (fetchedHashes env as) w)
    (fetches_init env) ?_ hrun
  intro as act w w' hw ih hstep
  have hreplies : nonceReplies (as ++ [act]) = nonceReplies as ++ act.nonce?.toList := by
    rw [nonceReplies, List.filterMap_append]
    cases hact : act.nonce? <;> simp [nonceReplies, hact]
  rw [hreplies, fetchedHashes, env.machine.outputs_snoc _ hw]
  exact ih.move (move hstep)

/-! ## Sends of started rounds -/

/-- Whatever is sent belongs to a round that was started. -/
structure SendsStarted (env : Env) (w : World) : Prop where
  dispatching : ∀ nonceHash rest, w.main.pc = .dispatching nonceHash rest →
    env.host.base58 nonceHash.bytes ∈ startedRounds w.log
  tasks : ∀ task ∈ w.sends, task.roundId ∈ startedRounds w.log
  recorded : ∀ signature provider sentElapsed roundId,
    .recordSend signature provider sentElapsed roundId ∈ w.log → roundId ∈ startedRounds w.log

theorem SendsStarted.other {act : Act} (h : w.SendsStarted env) (hmove : Move env w act w')
    (hother : ∀ mainAct, act ≠ .main mainAct) (hmain : w'.main = w.main) :
    w'.SendsStarted env where
  dispatching nonceHash rest hpc := by
    rw [startedRounds_of_other hmove hother]
    exact h.dispatching nonceHash rest (hmain ▸ hpc)
  tasks task hmem := by
    rw [startedRounds_of_other hmove hother]
    obtain ⟨old, hold, stage, rfl⟩ := hmove.mem_sends hother hmem
    exact h.tasks old hold
  recorded signature provider sentElapsed roundId hmem := by
    rw [startedRounds_of_other hmove hother]
    cases hmove with
    | tick d => exact h.recorded _ _ _ _ hmem
    | listener move =>
        rw [move.frame] at hmem
        exact h.recorded _ _ _ _ hmem
    | memo move =>
        cases move with
        | received | ended => exact h.recorded _ _ _ _ hmem
        | recorded obs pc =>
            rcases List.mem_append.mp hmem with hmem | hnew
            · exact h.recorded _ _ _ _ hmem
            · cases List.mem_singleton.mp hnew
    | ctrlC move =>
        rw [move.frame] at hmem
        exact h.recorded _ _ _ _ hmem
    | main move => exact absurd rfl (hother _)
    | send move =>
        cases move with
        | recorded task signature' sendElapsed pc get stage =>
            rcases List.mem_append.mp hmem with hmem | hnew
            · exact h.recorded _ _ _ _ hmem
            · obtain ⟨-, -, -, rfl⟩ := BookOp.recordSend.inj (List.mem_singleton.mp hnew)
              exact h.tasks task (List.mem_of_getElem? get)
        | _ => exact h.recorded _ _ _ _ hmem

theorem SendsStarted.mainMove {act : MainAct} (h : w.SendsStarted env)
    (hmove : MainMove env w act w') : w'.SendsStarted env := by
  cases hmove with
  | began nonceHash pc =>
      have hstarted : startedRounds (w.log ++ [.startRound (env.host.base58 nonceHash.bytes)]) =
          startedRounds w.log ++ [env.host.base58 nonceHash.bytes] := startedRounds_snoc _ _
      refine ⟨fun nonceHash' rest hpc ↦ ?_, fun task hmem ↦ ?_, fun s p e r hmem ↦ ?_⟩
      · obtain ⟨rfl, -⟩ := MainPc.dispatching.inj hpc
        exact hstarted ▸ List.mem_append_right _ (List.mem_singleton.mpr rfl)
      · exact hstarted ▸ List.mem_append_left _ (h.tasks task hmem)
      · rcases List.mem_append.mp hmem with hmem | hnew
        · exact hstarted ▸ List.mem_append_left _ (h.recorded _ _ _ _ hmem)
        · cases List.mem_singleton.mp hnew
  | dispatched nonceHash ep index rest pc =>
      refine ⟨fun nonceHash' rest' hpc ↦ ?_, fun task hmem ↦ ?_, h.recorded⟩
      · obtain ⟨rfl, -⟩ := MainPc.dispatching.inj hpc
        exact h.dispatching _ _ pc
      · rcases List.mem_append.mp hmem with hmem | hnew
        · exact h.tasks task hmem
        · obtain rfl := List.mem_singleton.mp hnew
          exact h.dispatching _ _ pc
  | collected pc finished =>
      exact ⟨fun _ _ hpc ↦ (by cases hpc), fun task hmem ↦ (by cases hmem), h.recorded⟩
  | _ => exact ⟨fun _ _ hpc ↦ (by cases hpc), h.tasks, h.recorded⟩

theorem sendsStarted {as : List Act} (hrun : env.machine.run as = some w) :
    w.SendsStarted env := by
  refine env.machine.invariant (P := fun w ↦ w.SendsStarted env) ?_ ?_ hrun
  · exact ⟨fun _ _ hpc ↦ (by cases hpc), fun _ hmem ↦ (by cases hmem),
      fun _ _ _ _ hmem ↦ (by cases hmem)⟩
  · intro w act w' h hstep
    have hmove := move hstep
    rcases hmove.main_eq with ⟨mainAct, rfl, hmain⟩ | ⟨hmain, hother⟩
    · exact h.mainMove hmain
    · exact h.other hmove hother hmain

theorem SendsStarted.landing (h : w.SendsStarted env) {landing : Landing}
    (hmem : landing ∈ LandingBook.accepted w.log) :
    landing.record.roundId ∈ startedRounds w.log := by
  rw [LandingBook.accepted_eq_landings] at hmem
  obtain ⟨pre, post, hlog, hopen, -⟩ := mem_landings_iff.mp hmem
  obtain ⟨earlier, since, rfl, -⟩ := openSend_eq_some_iff.mp hopen
  exact h.recorded landing.obs.signature landing.record.provider landing.record.sentElapsed
    landing.record.roundId (by simp [hlog])

/-- Rounds with ids of their own are landed on their own. -/
theorem SendsStarted.card_landed (h : w.SendsStarted env)
    (hstarted : (startedRounds w.log).Nodup) :
    ((LandingBook.accepted w.log).map (·.record.roundId)).toFinset.card =
      ((startedRounds w.log).filter
        (· ∈ (LandingBook.accepted w.log).map (·.record.roundId))).length := by
  have hlanded : ((LandingBook.accepted w.log).map (·.record.roundId)).toFinset =
      ((startedRounds w.log).filter
        (· ∈ (LandingBook.accepted w.log).map (·.record.roundId))).toFinset := by
    ext roundId
    rw [List.mem_toFinset, List.mem_toFinset, List.mem_filter, decide_eq_true_eq, iff_and_self]
    intro hmem
    obtain ⟨landing, hlanding, rfl⟩ := List.mem_map.mp hmem
    exact h.landing hlanding
  rw [hlanded, List.toFinset_card_of_nodup (hstarted.filter _)]

theorem card_landedRounds (h : w.SendsStarted env) (hreplayed : w.Replayed)
    (hstarted : (startedRounds w.log).Nodup) :
    w.book.records.landedRounds.card = ((startedRounds w.log).filter
      (· ∈ (LandingBook.accepted w.log).map (·.record.roundId))).length := by
  have hbook : w.book.records.landedRounds =
      (LandingBook.replay w.log).records.landedRounds := congrArg Accounts.landedRounds hreplayed
  have hexact : (LandingBook.replay w.log).records.landedRounds =
      ((landings w.log).map (·.record.roundId)).toFinset := (exact_replay w.log).landedRounds
  rw [hbook, hexact, ← LandingBook.accepted_eq_landings]
  exact h.card_landed hstarted

/-- Rounds are told apart by their ids exactly when no nonce that the utility
RPC has answered with comes back after another one. -/
theorem rounds_identified_iff (env : Env) (hbase58 : Function.Injective env.host.base58)
    (as : List Act) (w : World) (hrun : env.machine.run as = some w) :
    RoundsIdentified env as w ↔ NeverBack (nonceReplies as) := by
  have hfetches := fetches hrun
  rw [← nodup_destutter_iff, ← hfetches.noted]
  refine ⟨fun h ↦ h.fetched, fun hnodup ↦ ?_⟩
  have hids : (startedRounds w.log).Nodup := by
    have hinjective : Function.Injective fun hash : Hash ↦ env.host.base58 hash.bytes := by
      intro hash hash' heq
      cases hash
      cases hash'
      simpa using hbase58 heq
    have hmap := hnodup.map hinjective
    rw [← hfetches.started] at hmap
    exact (List.nodup_append.mp hmap).1
  exact ⟨hnodup, hids, card_landedRounds (sendsStarted hrun) (replayed hrun) hids⟩

/-- Two rounds with a nonce each. -/
def twoNonces : List Act :=
  Sample.startup ++ [.main .go, .main .go] ++ Sample.failedRound Sample.nonce₀ ++
    Sample.failedRound Sample.nonce₁

theorem rounds_identified_iff_twoNonces :
    ∃ w, (Sample.rpcEnv 2).machine.run twoNonces = some w ∧
      RoundsIdentified (Sample.rpcEnv 2) twoNonces w := by
  have hrun : ((Sample.rpcEnv 2).machine.run twoNonces).isSome = true := by decide +kernel
  obtain ⟨w, hw⟩ := Option.isSome_iff_exists.mp hrun
  refine ⟨w, hw, (rounds_identified_iff _ Sdk.base58_injective _ w hw).mpr ?_⟩
  rw [← nodup_destutter_iff]
  decide +kernel

/-- The nonce of the first round is answered again after that of the second. -/
def staleReply : List Act := twoNonces ++ Sample.failedRound Sample.nonce₀

/-- Then the third round is started with the first one's id. -/
theorem staleReply_reuses_nonce :
    ¬ ∀ env as w, Function.Injective env.host.base58 → (Env.machine env).run as = some w →
      RoundsIdentified env as w := by
  intro h
  have hrun : ((Sample.rpcEnv 3).machine.run staleReply).map (fun w ↦
      decide (startedRounds w.log).Nodup) = some false := by decide +kernel
  obtain ⟨w, hw, hnodup⟩ := Option.map_eq_some_iff.mp hrun
  exact of_decide_eq_false hnodup (h _ _ w Sdk.base58_injective hw).started

end World
end LandingBench
