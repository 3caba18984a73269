import LandingBench.System.Progress

/-!
# The program next to the nonce account

On the chain the nonce advances when a transaction that carries it lands, so a
round of which nothing lands leaves it as it is.  What the RPC answers, and
whether anybody presses Ctrl-C, is left to the runs.
-/

namespace LandingBench

open Async Data

/-- The nonce account, and the transactions that have used its nonces up. -/
structure NonceAccount where
  nonce : Hash
  landed : List Transaction

namespace NonceAccount

def used (account : NonceAccount) : List Hash := account.landed.map Transaction.recentBlockhash

/-- The nonce is current, or was before. -/
def Knows (account : NonceAccount) (hash : Hash) : Prop :=
  hash = account.nonce ∨ hash ∈ account.used

/-- A transaction only lands with the current nonce, and the next one is new. -/
def land (account : NonceAccount) (tx : Transaction) (next : Hash) : Option NonceAccount :=
  if tx.recentBlockhash = account.nonce ∧ next ≠ account.nonce ∧ next ∉ account.used then
    some ⟨next, account.landed ++ [tx]⟩
  else none

theorem mem_used_of_land {account account' : NonceAccount} {tx : Transaction} {next : Hash}
    (h : account.land tx next = some account') (hash : Hash) :
    hash ∈ account'.used ↔ account.Knows hash := by
  unfold land at h
  split_ifs at h with hcond
  obtain rfl := Option.some.inj h
  simp [used, Knows, hcond.1, or_comm]

theorem not_knows_of_land {account account' : NonceAccount} {tx : Transaction} {next : Hash}
    (h : account.land tx next = some account') : ¬ account.Knows account'.nonce := by
  unfold land at h
  split_ifs at h with hcond
  obtain rfl := Option.some.inj h
  exact fun hknown ↦ hknown.elim hcond.2.1 hcond.2.2

end NonceAccount

structure OnChain where
  world : World
  account : NonceAccount

inductive OnChainAct where
  | program (act : Act)
  | land (k : ℕ) (next : Hash)

/-- An answer of the RPC is the nonce, and nobody presses Ctrl-C. -/
def Act.answersWith (nonce : Hash) : Act → Bool
  | main (.answer (.nonce hash)) => hash = nonce
  | main (.answer _) => false
  | ctrlC (.signal ok) => !ok
  | _ => true

theorem answersWith_of_calm {act : Act} (h : act.calm = true) (nonce : Hash) :
    act.answersWith nonce = true := by
  cases act with
  | ctrlC act => cases h
  | main act => cases act <;> simp_all [Act.calm, Act.answersWith]
  | _ => rfl

def OnChainAct.ofMain : OnChainAct → Bool
  | program act => act.ofMain
  | land _ _ => false

/-- The program next to the chain, where what was given to a sender may land. -/
def Env.onChain (env : Env) (first : Hash) : Machine OnChain OnChainAct where
  init := ⟨World.init env, first, []⟩
  step s
    | .program act => (s.world.step env act).map fun w ↦ { s with world := w }
    | .land k next =>
        (s.world.handed[k]?).bind fun handed ↦
          (s.account.land handed.tx next).map fun account ↦ { s with account := account }

namespace OnChain

variable {env : Env} {first : Hash} {s t : OnChain} {a : OnChainAct}

def answered (s : OnChain) : OnChainAct → Bool
  | .program act => act.answersWith s.account.nonce
  | .land _ _ => true

/-- The RPC answers with the nonce, and nobody presses Ctrl-C. -/
def Answered (s : OnChain) (a : OnChainAct) : Prop := s.answered a = true

/-- A nonce in an answer of the RPC is that of the account. -/
def Current (s : OnChain) (a : OnChainAct) : Prop :=
  ∀ hash, a = .program (.main (.answer (.nonce hash))) → hash = s.account.nonce

theorem Answered.current (h : Answered s a) : Current s a := by
  rintro hash rfl
  simpa [Answered, answered, Act.answersWith] using h

inductive Move (env : Env) (s : OnChain) : OnChainAct → OnChain → Prop where
  | program {act : Act} {w : World} (move : World.Move env s.world act w) :
      Move env s (.program act) { s with world := w }
  | landed (k : ℕ) (next : Hash) (handed : Handed) (account : NonceAccount)
      (get : s.world.handed[k]? = some handed)
      (land : s.account.land handed.tx next = some account) :
      Move env s (.land k next) { s with account := account }

theorem move (h : (env.onChain first).step s a = some t) : Move env s a t := by
  cases a with
  | program act =>
      obtain ⟨w, hstep, rfl⟩ := Option.map_eq_some_iff.mp h
      exact .program (World.move hstep)
  | land k next =>
      simp only [Env.onChain] at h
      obtain ⟨handed, hget, hland⟩ := Option.bind_eq_some_iff.mp h
      obtain ⟨account, haccount, rfl⟩ := Option.map_eq_some_iff.mp hland
      exact .landed k next handed account hget haccount

/-- Without the chain this is a run of the program. -/
def projection (env : Env) (first : Hash) : Machine.Projection (env.onChain first) env.machine where
  state := OnChain.world
  acts _
    | .program act => [act]
    | .land _ _ => []
  init := rfl
  step s a t h := by
    cases a with
    | program act =>
        obtain ⟨w, hstep, rfl⟩ := Option.map_eq_some_iff.mp h
        have hmachine : env.machine.step s.world act = some w := hstep
        simp [hmachine]
    | land k next =>
        cases move h
        rfl

theorem world_run {as : List OnChainAct} (hrun : (env.onChain first).run as = some s) :
    ∃ bs, env.machine.run bs = some s.world :=
  (projection env first).exists_run hrun

/-! ## The nonce of the last round -/

/-- The nonce has not been used up. -/
def Fresh (s : OnChain) : Prop := s.account.nonce ∉ s.account.used

theorem Fresh.move (h : s.Fresh) (hmove : Move env s a t) : t.Fresh := by
  cases hmove with
  | program move => exact h
  | landed k next handed account get land =>
      intro hmem
      have hknown := (NonceAccount.mem_used_of_land land account.nonce).mp hmem
      exact NonceAccount.not_knows_of_land land hknown

theorem fresh {as : List OnChainAct} (hrun : (env.onChain first).run as = some s) : s.Fresh :=
  (env.onChain first).invariant (P := Fresh) List.not_mem_nil
    (fun _ _ _ h hstep ↦ h.move (move hstep)) hrun

/-- The nonces that `main` has got were current at some time. -/
structure Spent (s : OnChain) : Prop where
  previous : ∀ hash, s.world.main.previousNonce = some hash → s.account.Knows hash
  starting : ∀ hash, s.world.main.pc = .starting hash → s.account.Knows hash

theorem answer_of_answersWith {nonce : Hash} {reply : NonceReply}
    (h : (Act.main (.answer reply)).answersWith nonce = true) : reply = .nonce nonce := by
  cases reply with
  | nonce hash =>
      obtain rfl : hash = nonce := by simpa [Act.answersWith] using h
      rfl
  | _ => cases h

theorem Spent.mainMove {act : MainAct} {w : World} (h : s.Spent)
    (hcurrent : Current s (.program (.main act))) (hmove : World.MainMove env s.world act w) :
    ({ s with world := w } : OnChain).Spent := by
  cases hmove with
  | fresh deadline reply nonceHash pc check =>
      obtain ⟨rfl, -⟩ := reply_of_check_eq_some check
      refine ⟨h.previous, fun hash hpc ↦ ?_⟩
      obtain rfl := MainPc.starting.inj hpc
      exact .inl (hcurrent _ rfl)
  | began nonceHash pc =>
      refine ⟨fun hash hprevious ↦ ?_, fun hash hpc ↦ by cases hpc⟩
      obtain rfl := Option.some.inj hprevious
      exact h.starting _ pc
  | _ => exact ⟨h.previous, fun hash hpc ↦ by cases hpc⟩

theorem Spent.move (h : s.Spent) (hcurrent : Current s a) (hmove : Move env s a t) :
    t.Spent := by
  cases hmove with
  | @program act w move =>
      rcases move.main_eq with ⟨mainAct, rfl, hmain⟩ | ⟨hmain, -⟩
      · exact h.mainMove hcurrent hmain
      · exact ⟨fun hash ↦ hmain ▸ h.previous hash, fun hash ↦ hmain ▸ h.starting hash⟩
  | landed k next handed account get land =>
      have hknows : ∀ hash, s.account.Knows hash → account.Knows hash := fun hash hknown ↦
        .inr ((NonceAccount.mem_used_of_land land hash).mpr hknown)
      exact ⟨fun hash hprevious ↦ hknows hash (h.previous hash hprevious),
        fun hash hpc ↦ hknows hash (h.starting hash hpc)⟩

theorem spent {as : List OnChainAct} (hrun : (env.onChain first).run as = some s)
    (hcurrent : (env.onChain first).Along Current as) : s.Spent :=
  (env.onChain first).invariant_of_along (P := Spent)
    ⟨fun _ h ↦ (by cases h), fun _ h ↦ by cases h⟩
    (fun _ _ _ h hgood hstep ↦ h.move hgood (move hstep)) hcurrent hrun

/-- The nonce of the last round is used up just when a transaction of it landed. -/
theorem Spent.ne_nonce_iff (h : s.Spent) (hfresh : s.Fresh) {hash : Hash}
    (hprevious : s.world.main.previousNonce = some hash) :
    hash ≠ s.account.nonce ↔ ∃ tx ∈ s.account.landed, tx.recentBlockhash = hash := by
  rw [← List.mem_map]
  constructor
  · exact (h.previous hash hprevious).resolve_left
  · rintro hused rfl
    exact hfresh hused

end OnChain
end LandingBench
