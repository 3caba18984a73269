import LandingBench.System.Provenance
import LandingBench.System.RoundIds
import LandingBench.System.Rounds

/-!
# What a run can cost

A transaction that is given to a sender may land, and then it costs its tip and
its fees.  A round gives away one transaction for each entry at most, and of
those one lands, since they share a nonce.
-/

namespace LandingBench

open Async Data Ledger

/-- The futures of one round, each at the price of its entry. -/
def Env.roundCost (env : Env) (cost : String → ℕ → ℕ) (roundId : String) : ℕ :=
  (env.config.endpoint.zipIdx.map fun entry ↦ cost roundId entry.2).sum

/-- The future may still give its transaction away. -/
def SendTask.due (cost : String → ℕ → ℕ) (task : SendTask) : ℕ :=
  match task.stage with
  | .created => cost task.roundId task.index
  | .sending _ _ | .recording _ _ | .waiting _ _ | .finished _ => 0

/-- The futures of the round that are still to be made. -/
def MainPc.due (env : Env) (cost : String → ℕ → ℕ) : MainPc → ℕ
  | dispatching nonceHash rest =>
      (rest.map fun entry ↦ cost (env.host.base58 nonceHash.bytes) entry.2).sum
  | _ => 0

/-- How many rounds have been started where `main` is, if it goes on. -/
def MainPc.Before (n round started : ℕ) : MainPc → Prop
  | awaitReady | connecting _ | loopTop => started = round
  | fetching _ | nonceSleep _ _ | starting _ => started = round ∧ round < n
  | dispatching _ _ | collecting | delaying _ => started = round + 1
  | graceCheck | graceSleep _ | signalling | selecting _ | aborting | awaitingMemo
  | finalizing | done _ | failed _ => True

/-- The transaction was built for the entry, with the nonce of the round. -/
def Handed.Built (env : Env) (h : Handed) : Prop :=
  ∃ clock count, env.host.base58 h.tx.recentBlockhash.bytes = h.roundId ∧
    buildTransaction env.host h.endpoint env.nonceAccount env.authority h.tx.recentBlockhash
      env.config.config.prioFee env.config.config.computeUnitLimit clock count = .ok h.tx

theorem Hash.bytes_injective : Function.Injective Hash.bytes := by
  rintro ⟨bytes, hsize⟩ ⟨bytes', hsize'⟩ h
  obtain rfl : bytes = bytes' := h
  rfl

theorem recentBlockhash_of_build {host : Host} {endpoint : Endpoint}
    {nonceAccount authority : Pubkey} {nonceHash : Hash} {prioFee : F64} {cuLimit : UInt32}
    {now : Duration} {count : UInt64} {tx : Transaction}
    (h : buildTransaction host endpoint nonceAccount authority nonceHash prioFee cuLimit now
      count = .ok tx) : tx.recentBlockhash = nonceHash := by
  unfold buildTransaction at h
  split at h
  · cases h
  · cases h
    rfl

namespace World

variable {env : Env} {w w' : World} {cost : String → ℕ → ℕ}

/-! ## Given away -/

def handedCost (cost : String → ℕ → ℕ) (w : World) : ℕ :=
  (w.handed.map fun h ↦ cost h.roundId h.index).sum

def startedCost (env : Env) (cost : String → ℕ → ℕ) (w : World) : ℕ :=
  ((startedRounds w.log).map (env.roundCost cost)).sum

/-- What has been given away, and what may still be, is covered by the rounds. -/
def Covered (env : Env) (cost : String → ℕ → ℕ) (w : World) : Prop :=
  w.handedCost cost + (w.sends.map (SendTask.due cost)).sum + w.main.pc.due env cost ≤
    w.startedCost env cost

theorem Covered.setSend {i : ℕ} {task : SendTask} (h : w.Covered env cost)
    (hget : w.sends[i]? = some task) (stage : SendStage) (hstage : stage ≠ .created)
    (hsends : w'.sends = w.sends.set i { task with stage := stage })
    (hhanded : w'.handedCost cost ≤ w.handedCost cost + task.due cost)
    (hlog : startedRounds w'.log = startedRounds w.log) (hmain : w'.main = w.main) :
    w'.Covered env cost := by
  have hsum := Lists.sum_map_set (SendTask.due cost) hget { task with stage := stage }
  have hdue : SendTask.due cost { task with stage := stage } = 0 := by
    cases stage with
    | created => exact absurd rfl hstage
    | _ => rfl
  have hcovered := h
  unfold Covered startedCost at hcovered ⊢
  rw [hlog, hmain, hsends]
  omega

theorem Covered.sendMove {i : ℕ} {act : SendAct} (h : w.Covered env cost)
    (hmove : SendMove env w i act w') : w'.Covered env cost := by
  cases hmove with
  | handed task clock tx client pc get stage signal build sender =>
      refine h.setSend get _ (by simp) rfl (le_of_eq ?_) rfl rfl
      simp [handedCost, SendTask.due, stage]
  | recorded task signature sendElapsed pc get stage =>
      exact h.setSend get _ (by simp) rfl (Nat.le_add_right _ _) (by simp) rfl
  | declined task clock pc get =>
      exact h.setSend get _ (by simp) rfl (Nat.le_add_right _ _) rfl rfl
  | unbuilt task clock err pc get =>
      exact h.setSend get _ (by simp) rfl (Nat.le_add_right _ _) rfl rfl
  | clientless task clock tx pc get =>
      exact h.setSend get _ (by simp) rfl (Nat.le_add_right _ _) rfl rfl
  | sent task tx sendElapsed pc get =>
      exact h.setSend get _ (by simp) rfl (Nat.le_add_right _ _) rfl rfl
  | unsent task tx sendElapsed pc get =>
      exact h.setSend get _ (by simp) rfl (Nat.le_add_right _ _) rfl rfl
  | waited task pair deadline outcome pc get =>
      exact h.setSend get _ (by simp) rfl (Nat.le_add_right _ _) rfl rfl

theorem Covered.mainMove {act : MainAct} (h : w.Covered env cost)
    (hmove : MainMove env w act w') : w'.Covered env cost := by
  have hcovered : w.handedCost cost + (w.sends.map (SendTask.due cost)).sum + w.main.pc.due env cost
    ≤ w.startedCost env cost := h
  cases hmove with
  | began nonceHash pc =>
      have hround : (w.beginRound env nonceHash).main.pc.due env cost =
          env.roundCost cost (env.host.base58 nonceHash.bytes) := rfl
      have hstarted : (w.beginRound env nonceHash).startedCost env cost =
          w.startedCost env cost + env.roundCost cost (env.host.base58 nonceHash.bytes) := by
        simp [startedCost, beginRound]
      have hkept : (w.beginRound env nonceHash).handedCost cost = w.handedCost cost := rfl
      have hsends : (w.beginRound env nonceHash).sends = w.sends := rfl
      rw [Covered, hround, hstarted, hkept, hsends]
      omega
  | dispatched nonceHash ep index rest pc =>
      rw [pc] at hcovered
      simp only [MainPc.due, List.map_cons, List.sum_cons] at hcovered
      simp only [Covered, handedCost, startedCost, setMain, MainPc.due, List.map_append,
        List.sum_append, List.map_singleton, List.sum_singleton] at hcovered ⊢
      have hnew : SendTask.due cost (w.newSend env nonceHash ep index) =
          cost (env.host.base58 nonceHash.bytes) index := rfl
      omega
  | collected pc finished =>
      refine le_trans ?_ hcovered
      simp only [handedCost, setMain, MainPc.due, List.map_nil, List.sum_nil]
      omega
  | _ =>
      refine le_trans ?_ hcovered
      exact Nat.add_le_add_left (Nat.zero_le _) _

theorem Covered.move {act : Act} (h : w.Covered env cost) (hmove : Move env w act w') :
    w'.Covered env cost := by
  cases hmove with
  | tick d => exact h
  | listener move =>
      rw [move.frame]
      exact h
  | memo move =>
      have hlog := startedRounds_of_other (.memo move : Move env w .memo w') (by simp)
      rw [move.frame] at hlog ⊢
      unfold Covered startedCost at h ⊢
      rw [hlog]
      exact h
  | ctrlC move =>
      rw [move.frame]
      exact h
  | main move => exact h.mainMove move
  | send move => exact h.sendMove move

theorem covered {as : List Act} (hrun : env.machine.run as = some w) (cost : String → ℕ → ℕ) :
    w.Covered env cost :=
  env.machine.invariant (P := fun w ↦ w.Covered env cost) (Nat.zero_le _)
    (fun _ _ _ h hstep ↦ h.move (move hstep)) hrun

/-! ## Started -/

structure RoundsBounded (env : Env) (w : World) : Prop where
  at_main : w.main.pc.Before env.config.config.transactions w.main.round
    (startedRounds w.log).length
  le : (startedRounds w.log).length ≤ env.config.config.transactions

theorem RoundsBounded.mainMove {act : MainAct} (h : w.RoundsBounded env)
    (hmove : MainMove env w act w') : w'.RoundsBounded env := by
  have hmain := h.at_main
  cases hmove with
  | began nonceHash pc =>
      rw [pc] at hmain
      have hlength : (startedRounds (w.beginRound env nonceHash).log).length =
          (startedRounds w.log).length + 1 := by simp [beginRound]
      refine ⟨hlength.trans (congrArg (· + 1) hmain.1), ?_⟩
      have hround := hmain.2
      rw [hlength, hmain.1]
      exact hround
  | fetched pc round signal =>
      rw [pc] at hmain
      exact ⟨⟨hmain, round⟩, h.le⟩
  | delayed wake pc time =>
      rw [pc] at hmain
      exact ⟨hmain, h.le⟩
  | fresh _ _ _ pc | stale _ _ pc | woken _ _ pc | ready pc | skipped _ _ pc
  | connected _ _ _ pc | entered pc | dispatched _ _ _ _ pc | filled _ pc | collected pc =>
      rw [pc] at hmain
      exact ⟨hmain, h.le⟩
  | _ => exact ⟨trivial, h.le⟩

theorem roundsBounded {as : List Act} (hrun : env.machine.run as = some w) :
    w.RoundsBounded env := by
  refine env.machine.invariant (P := RoundsBounded env) ⟨rfl, Nat.zero_le _⟩ ?_ hrun
  intro s act t h hstep
  rcases (move hstep).main_eq with ⟨mainAct, -, hmain⟩ | ⟨hmain, hother⟩
  · exact h.mainMove hmain
  · have hlog := startedRounds_of_other (move hstep) hother
    constructor
    · rw [hlog, hmain]
      exact h.at_main
    · rw [hlog]
      exact h.le

/-! ## Built -/

/-- Futures and transactions have the nonce of their round. -/
structure Priced (env : Env) (w : World) : Prop where
  sends : ∀ task ∈ w.sends, env.host.base58 task.nonceHash.bytes = task.roundId
  handed : ∀ h ∈ w.handed, h.Built env ∧ h.roundId ∈ startedRounds w.log

theorem Priced.sendMove {i : ℕ} {act : SendAct} (h : w.Priced env)
    (hstarted : w.SendsStarted env) (hmove : SendMove env w i act w') : w'.Priced env := by
  have hsends : ∀ task ∈ w'.sends, env.host.base58 task.nonceHash.bytes = task.roundId := by
    intro task hmem
    obtain ⟨old, hold, stage, rfl⟩ := (Move.send hmove).mem_sends (by simp) hmem
    exact h.sends old hold
  refine ⟨hsends, ?_⟩
  cases hmove with
  | handed task clock tx client pc get stage signal build sender =>
      intro given hmem
      rcases List.mem_append.mp hmem with hmem | hnew
      · exact h.handed given hmem
      · obtain rfl := List.mem_singleton.mp hnew
        have hhash := recentBlockhash_of_build build
        have htask := List.mem_of_getElem? get
        refine ⟨⟨clock, w.randomCounter, ?_, ?_⟩, hstarted.tasks task htask⟩
        · rw [hhash]
          exact h.sends task htask
        · rw [hhash]
          exact build
  | recorded task signature sendElapsed pc get stage =>
      intro given hmem
      simpa using h.handed given hmem
  | _ => exact h.handed

theorem Priced.mainMove {act : MainAct} (h : w.Priced env) (hmove : MainMove env w act w') :
    w'.Priced env := by
  cases hmove with
  | began nonceHash pc =>
      refine ⟨h.sends, fun given hmem ↦ ⟨(h.handed given hmem).1, ?_⟩⟩
      simpa [beginRound] using Or.inl (h.handed given hmem).2
  | dispatched nonceHash ep index rest pc =>
      refine ⟨fun task hmem ↦ ?_, h.handed⟩
      rcases List.mem_append.mp hmem with hmem | hnew
      · exact h.sends task hmem
      · obtain rfl := List.mem_singleton.mp hnew
        rfl
  | collected pc finished => exact ⟨fun task hmem ↦ (by cases hmem), h.handed⟩
  | _ => exact ⟨h.sends, h.handed⟩

theorem Priced.move {act : Act} (h : w.Priced env) (hstarted : w.SendsStarted env)
    (hmove : Move env w act w') : w'.Priced env := by
  cases hmove with
  | tick d => exact ⟨h.sends, h.handed⟩
  | listener move =>
      rw [move.frame]
      exact ⟨h.sends, h.handed⟩
  | memo move =>
      have hlog := startedRounds_of_other (.memo move : Move env w .memo w') (by simp)
      rw [move.frame] at hlog ⊢
      refine ⟨h.sends, fun given hmem ↦ ?_⟩
      rw [hlog]
      exact h.handed given hmem
  | ctrlC move =>
      rw [move.frame]
      exact ⟨h.sends, h.handed⟩
  | main move => exact h.mainMove move
  | send move => exact h.sendMove hstarted move

theorem priced {as : List Act} (hrun : env.machine.run as = some w) : w.Priced env := by
  refine env.machine.run_induction (motive := fun _ w ↦ w.Priced env)
    ⟨fun task hmem ↦ (by cases hmem), fun given hmem ↦ by cases hmem⟩ ?_ hrun
  intro as act s t hs ih hstep
  exact ih.move (sendsStarted hs) (move hstep)

/-- Whatever a transaction costs, a run gives away no more than one for each
entry in each round, and starts no more rounds than are configured. -/
theorem handed_within_rounds (env : Env) (as : List Act) (w : World)
    (hrun : env.machine.run as = some w) (cost : String → ℕ → ℕ) :
    (w.handed.map fun h ↦ cost h.roundId h.index).sum ≤
        ((startedRounds w.log).map (env.roundCost cost)).sum ∧
      (startedRounds w.log).length ≤ env.config.config.transactions ∧
      ∀ h ∈ w.handed, h.Built env ∧ h.roundId ∈ startedRounds w.log ∧
        env.config.endpoint[h.index]? = some h.endpoint := by
  have hcovered := covered hrun cost
  refine ⟨?_, (roundsBounded hrun).le, fun h hmem ↦ ?_⟩
  · unfold Covered at hcovered
    exact (Nat.le_add_right _ _).trans ((Nat.le_add_right _ _).trans hcovered)
  · have hpriced := (priced hrun).handed h hmem
    exact ⟨hpriced.1, hpriced.2, ((traced hrun).handed h hmem).1⟩

theorem handed_within_rounds_twoNonces :
    ∃ w, (Sample.rpcEnv 2).machine.run twoNonces = some w ∧ w.handed.length = 2 ∧
      (w.handed.map fun _ ↦ 1000000).sum ≤
        ((startedRounds w.log).map ((Sample.rpcEnv 2).roundCost fun _ _ ↦ 1000000)).sum := by
  have hrun : ((Sample.rpcEnv 2).machine.run twoNonces).map (·.handed.length) = some 2 := by
    decide +kernel
  obtain ⟨w, hw, hlength⟩ := Option.map_eq_some_iff.mp hrun
  exact ⟨w, hw, hlength, (handed_within_rounds _ _ w hw fun _ _ ↦ 1000000).1⟩

theorem Move.handed_grows {act : Act} (h : Move env w act w') : w.handed <+: w'.handed := by
  cases h with
  | tick d => exact List.prefix_refl _
  | listener move => rw [move.frame]
  | memo move => rw [move.frame]
  | ctrlC move => rw [move.frame]
  | main move => rw [move.frame]
  | send move =>
      cases move with
      | handed task clock tx client pc get stage signal build sender =>
          exact List.prefix_append _ _
      | _ => exact List.prefix_refl _

/-! ## Asked -/

end World

/-- A question to the RPC about the nonce has been answered. -/
def Act.asks : Act → Bool
  | main (.answer _) => true
  | _ => false

/-- The most questions that one round asks. -/
def Env.roundAsks (env : Env) : ℕ :=
  pollsLeft (Duration.fromMillis (max env.config.config.landingGraceMs 100)) 0 + 1

def Env.asksFrom (env : Env) (round : ℕ) : ℕ :=
  (env.config.config.transactions - round) * env.roundAsks

theorem Env.roundAsks_eq (env : Env) :
    env.roundAsks = (max env.config.config.landingGraceMs 100 + 99) / 100 + 1 := by
  unfold Env.roundAsks pollsLeft Duration.fromMillis
  omega

theorem Env.asksFrom_of_lt {env : Env} {round : ℕ} (h : round < env.config.config.transactions) :
    env.asksFrom round = env.asksFrom (round + 1) + env.roundAsks := by
  obtain ⟨rest, hrest⟩ := Nat.exists_eq_add_of_lt h
  have hnow : env.config.config.transactions - round = rest + 1 := by omega
  have hnext : env.config.config.transactions - (round + 1) = rest := by omega
  rw [asksFrom, asksFrom, hnow, hnext]
  ring

/-- The most questions that `main` still asks. -/
def MainPc.asksLeft (env : Env) (now : Duration) (round : ℕ) : MainPc → ℕ
  | awaitReady | connecting _ | loopTop => env.asksFrom round
  | fetching deadline => env.asksFrom (round + 1) + pollsLeft deadline now + 1
  | nonceSleep deadline wake => env.asksFrom (round + 1) + pollsLeft deadline wake + 1
  | starting _ | dispatching _ _ | collecting | delaying _ => env.asksFrom (round + 1)
  | graceCheck | graceSleep _ | signalling | selecting _ | aborting | awaitingMemo
  | finalizing | done _ | failed _ => 0

namespace World

variable {env : Env} {w w' : World}

def asksLeft (env : Env) (w : World) : ℕ := w.main.pc.asksLeft env w.now w.main.round

theorem MainMove.asksLeft_le {act : MainAct} (h : MainMove env w act w') :
    w'.asksLeft env + (if (Act.main act).asks then 1 else 0) ≤ w.asksLeft env := by
  cases h with
  | fetched pc round signal =>
      have hround := Env.asksFrom_of_lt round
      have hpolls := pollsLeft_add_left
        (Duration.fromMillis (max env.config.config.landingGraceMs 100)) w.now
      rw [Env.roundAsks] at hround
      simp only [asksLeft, pc, MainPc.asksLeft, Act.asks, Bool.false_eq_true, if_false]
      omega
  | stale deadline reply pc check =>
      have hnap := pollsLeft_nap (now_lt_of_stale check)
      simp only [asksLeft, pc, MainPc.asksLeft, Act.asks, setMain, if_true]
      omega
  | woken deadline wake pc time =>
      have hpolls := pollsLeft_anti deadline time
      simp only [asksLeft, pc, MainPc.asksLeft, Act.asks, setMain, Bool.false_eq_true, if_false]
      omega
  | fresh deadline reply nonceHash pc check =>
      simp only [asksLeft, pc, MainPc.asksLeft, Act.asks, setMain, if_true]
      omega
  | unfetched deadline reply err pc check =>
      simp only [asksLeft, pc, MainPc.asksLeft, Act.asks, setMain, if_true]
      omega
  | listenerOver pc listener => exact Nat.zero_le _
  | _ =>
      simp only [asksLeft, ‹w.main.pc = _›, MainPc.asksLeft, Act.asks, setMain, failEarly,
        enterLoop, beginRound, Bool.false_eq_true, if_false]
      omega

theorem asksLeft_move {act : Act} (h : Move env w act w') :
    w'.asksLeft env + (if act.asks then 1 else 0) ≤ w.asksLeft env := by
  rcases h.main_eq with ⟨mainAct, rfl, move⟩ | ⟨hmain, hother⟩
  · exact move.asksLeft_le
  · have hasks : act.asks = false := by
      cases act with
      | main mainAct => exact absurd rfl (hother mainAct)
      | _ => rfl
    rw [hasks, if_neg Bool.false_ne_true, Nat.add_zero, asksLeft, asksLeft, hmain]
    -- it can only have got later
    have hlater : w.now ≤ w'.now := by
      cases h with
      | tick d => exact Nat.le_add_right _ _
      | listener move => rw [move.frame]
      | memo move => rw [move.frame]
      | ctrlC move => rw [move.frame]
      | main move => exact absurd rfl (hother _)
      | send move => rw [move.frame]
    cases w.main.pc with
    | fetching deadline =>
        have hpolls := pollsLeft_anti deadline hlater
        simp only [MainPc.asksLeft]
        omega
    | _ => exact le_rfl

/-- The RPC is asked for the nonce a bounded number of times: in each of the
configured rounds once, and once more for each tenth of a second of the wait. -/
theorem asks_bounded (env : Env) (as : List Act) (w : World)
    (hrun : env.machine.run as = some w) :
    as.countP Act.asks ≤ env.config.config.transactions *
      ((max env.config.config.landingGraceMs 100 + 99) / 100 + 1) := by
  have hcount := env.machine.countP_add_le (asksLeft env) Act.asks
    (fun _ _ _ hstep ↦ asksLeft_move (move hstep)) hrun
  have hinit : asksLeft env env.machine.init = env.config.config.transactions * env.roundAsks := rfl
  rw [hinit, env.roundAsks_eq] at hcount
  exact le_of_add_le_left hcount

/-- The nonce of the first round is answered twice more until it has advanced. -/
def patientRounds : List Act :=
  Sample.startup ++ [.main .go, .main .go] ++ Sample.failedRound Sample.nonce₀ ++
    [.main .go, .main (.answer (.nonce Sample.nonce₀)), .tick 100000000, .main .go,
      .main (.answer (.nonce Sample.nonce₀)), .tick 100000000, .main .go,
      .main (.answer (.nonce Sample.nonce₁))]

theorem asks_bounded_patientRounds :
    (Sample.rpcEnv 2).machine.run patientRounds ≠ none ∧ patientRounds.countP Act.asks = 4 ∧
      patientRounds.countP Act.asks ≤ 2 * ((10000 + 99) / 100 + 1) := by
  have hrun : ((Sample.rpcEnv 2).machine.run patientRounds).isSome = true := by decide +kernel
  obtain ⟨w, hw⟩ := Option.isSome_iff_exists.mp hrun
  exact ⟨by simp [hw], rfl, asks_bounded _ _ w hw⟩

end World

namespace OnChain

variable {env : Env} {first : Hash} {s t : OnChain}

/-- What has landed was given away, and no two of it share a nonce. -/
structure Settled (s : OnChain) : Prop where
  given : ∀ tx ∈ s.account.landed, ∃ h ∈ s.world.handed, h.tx = tx
  used : s.account.used.Nodup

theorem Settled.move {a : OnChainAct} (h : s.Settled) (hfresh : s.Fresh) (hmove : Move env s a t) :
    t.Settled := by
  cases hmove with
  | program move =>
      refine ⟨fun tx hmem ↦ ?_, h.used⟩
      obtain ⟨given, hgiven, htx⟩ := h.given tx hmem
      exact ⟨given, move.handed_grows.subset hgiven, htx⟩
  | landed k next handed account get land =>
      unfold NonceAccount.land at land
      split_ifs at land with hcond
      obtain rfl := Option.some.inj land
      constructor
      · intro tx hmem
        rcases List.mem_append.mp hmem with hmem | hnew
        · exact h.given tx hmem
        · obtain rfl := List.mem_singleton.mp hnew
          exact ⟨handed, List.mem_of_getElem? get, rfl⟩
      · have hunused : handed.tx.recentBlockhash ∉ s.account.used := by
          rw [hcond.1]
          exact hfresh
        have hused : NonceAccount.used ⟨next, s.account.landed ++ [handed.tx]⟩ =
            s.account.used ++ [handed.tx.recentBlockhash] := by
          simp [NonceAccount.used]
        rw [hused]
        exact h.used.append (List.nodup_singleton _) (by simpa using hunused)

theorem settled {as : List OnChainAct} (hrun : (env.onChain first).run as = some s) :
    s.Settled := by
  refine (env.onChain first).run_induction (motive := fun _ s ↦ s.Settled)
    ⟨fun tx hmem ↦ (by cases hmem), List.nodup_nil⟩ ?_ hrun
  intro as a s t hs ih hstep
  exact ih.move (fresh hs) (move hstep)

theorem Settled.length_le (h : s.Settled) (hbase58 : Function.Injective env.host.base58)
    (hpriced : s.world.Priced env) :
    s.account.landed.length ≤ (startedRounds s.world.log).length := by
  have hids : (s.account.used.map fun hash ↦ env.host.base58 hash.bytes).Nodup := by
    exact h.used.map fun hash hash' heq ↦ Hash.bytes_injective (hbase58 heq)
  have hsubset : s.account.used.map (fun hash ↦ env.host.base58 hash.bytes) ⊆
      startedRounds s.world.log := by
    intro roundId hmem
    obtain ⟨hash, hused, rfl⟩ := List.mem_map.mp hmem
    obtain ⟨tx, hlanded, rfl⟩ := List.mem_map.mp hused
    obtain ⟨given, hgiven, rfl⟩ := h.given tx hlanded
    obtain ⟨⟨clock, count, hround, -⟩, hstarted⟩ := hpriced.handed given hgiven
    rw [hround]
    exact hstarted
  have hlength := (hids.subperm hsubset).length_le
  simpa [NonceAccount.used] using hlength

/-- Next to the nonce account a run pays for one transaction in each round at
most, whatever the senders do with what they are given and the RPC answers. -/
theorem paid_within_rounds (env : Env) (hbase58 : Function.Injective env.host.base58)
    (first : Hash) (as : List OnChainAct) (s : OnChain)
    (hrun : (env.onChain first).run as = some s) :
    (s.account.landed.map Transaction.recentBlockhash).Nodup ∧
      (∀ tx ∈ s.account.landed, ∃ h ∈ s.world.handed, h.tx = tx ∧ h.Built env) ∧
      ∀ (price : Transaction → ℕ) (most : ℕ), (∀ h ∈ s.world.handed, price h.tx ≤ most) →
        (s.account.landed.map price).sum ≤ (startedRounds s.world.log).length * most ∧
          (s.account.landed.map price).sum ≤ env.config.config.transactions * most := by
  obtain ⟨bs, hbs⟩ := world_run hrun
  have hsettled := settled hrun
  have hpriced := World.priced hbs
  refine ⟨hsettled.used, fun tx hmem ↦ ?_, fun price most hmost ↦ ?_⟩
  · obtain ⟨h, hgiven, htx⟩ := hsettled.given tx hmem
    exact ⟨h, hgiven, htx, (hpriced.handed h hgiven).1⟩
  · have hsum : (s.account.landed.map price).sum ≤ s.account.landed.length * most := by
      have hcard := List.sum_le_card_nsmul (s.account.landed.map price) most (by
        intro amount hmem
        obtain ⟨tx, hlanded, rfl⟩ := List.mem_map.mp hmem
        obtain ⟨h, hgiven, rfl⟩ := hsettled.given tx hlanded
        exact hmost h hgiven)
      simpa using hcard
    have hrounds : (s.account.landed.map price).sum ≤
        (startedRounds s.world.log).length * most :=
      hsum.trans (Nat.mul_le_mul_right most (hsettled.length_le hbase58 hpriced))
    exact ⟨hrounds, hrounds.trans (Nat.mul_le_mul_right most (World.roundsBounded hbs).le)⟩

theorem paid_within_rounds_twoRounds :
    ∃ s, ((Sample.rpcEnv 2).onChain Sample.nonce₀).run twoRounds = some s ∧
      s.account.landed.length = 1 ∧ (s.account.landed.map fun _ ↦ 5000).sum ≤ 2 * 5000 := by
  have hrun : (((Sample.rpcEnv 2).onChain Sample.nonce₀).run twoRounds).map
      (·.account.landed.length) = some 1 := by decide +kernel
  obtain ⟨s, hs, hlength⟩ := Option.map_eq_some_iff.mp hrun
  have hpaid := (paid_within_rounds _ Sdk.base58_injective _ _ s hs).2.2
  exact ⟨s, hs, hlength, (hpaid (fun _ ↦ 5000) 5000 fun _ _ ↦ le_rfl).2⟩

end OnChain
end LandingBench
