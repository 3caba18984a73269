import LandingBench.System.Budget
import LandingBench.Tag

/-!
# What the listener asks the stream for

The request names the nonce account, which every transaction of the program
mentions.  So the filter lets all of them through, and what the listener makes
of their updates is their signature and the name they were sent for.
-/

namespace LandingBench

open Async Data

inductive CommitmentLevel where
  | processed
  | confirmed
  | finalized
  deriving DecidableEq, Repr

def CommitmentLevel.from : ArgsCommitment → CommitmentLevel
  | .processed => processed
  | .confirmed => confirmed
  | .finalized => finalized

namespace Geyser

structure SubscribeRequestFilterTransactions where
  vote : Option Bool := none
  failed : Option Bool := none
  signature : Option String := none
  accountInclude : List String := []
  accountExclude : List String := []
  accountRequired : List String := []
  deriving DecidableEq, Repr

structure SubscribeRequest where
  transactions : HashMap String SubscribeRequestFilterTransactions := ∅
  commitment : Option CommitmentLevel := none

/-- What `spawn_memo_listener` sends before it waits for the first message. -/
def subscribeRequest (config : ConfigToml) : SubscribeRequest where
  transactions := (∅ : HashMap String SubscribeRequestFilterTransactions).insert "nonce-filter"
    { accountInclude := [config.config.nonceAccount] }
  commitment := some (CommitmentLevel.from config.config.commitment)

/-- What the program relies on in the server: a filter that asks for nothing but an
account takes every transaction that mentions the account. -/
def TakesIncluded (host : Host) (takes : SubscribeRequest → LandingBench.Message → Bool) : Prop :=
  ∀ request name text key message,
    request.transactions.lookup name = some { accountInclude := [text] } →
      host.parsePubkey text = .ok key → key ∈ message.accountKeys → takes request message = true

end Geyser

/-- What the program relies on in the SDK: the advance mentions the account, and a
message keeps what its instructions mention. -/
structure Host.KeepsAccounts (host : Host) : Prop where
  advanceNonceAccount : ∀ nonceAccount authority,
    ∃ m ∈ (host.advanceNonceAccount nonceAccount authority).accounts, m.pubkey = nonceAccount
  newMessage : ∀ instructions payer, ∀ ix ∈ instructions, ∀ m ∈ ix.accounts,
    m.pubkey ∈ (host.newMessage instructions payer).accountKeys

theorem Host.sdk_keepsAccounts (blake3 : ByteArray → ByteArray)
    (sign : Message → Hash → ByteArray) : (Host.sdk blake3 sign).KeepsAccounts where
  advanceNonceAccount _ _ := ⟨_, List.mem_cons_self, rfl⟩
  newMessage _ payer ix hix _ hm := Sdk.mem_accountKeys_of_meta
    (List.mem_flatMap.mpr ⟨ix, hix, List.mem_append_left _ hm⟩) payer

/-- A transaction that was built mentions the nonce account. -/
theorem nonceAccount_mem_accountKeys {host : Host} (haccounts : host.KeepsAccounts)
    {endpoint : Endpoint} {nonceAccount authority : Pubkey} {nonceHash : Hash} {prioFee : F64}
    {cuLimit : UInt32} {now : Duration} {count : UInt64} {tx : Transaction} {memoProgram : Pubkey}
    (hmemo : host.parsePubkey memoProgramId = .ok memoProgram)
    (hbuild : buildTransaction host endpoint nonceAccount authority nonceHash prioFee cuLimit
      now count = .ok tx) : nonceAccount ∈ tx.message.accountKeys := by
  obtain ⟨tip, hmessage⟩ := buildTransaction_message hmemo hbuild
  obtain ⟨m, hm, hkey⟩ := haccounts.advanceNonceAccount nonceAccount authority
  have hmem : m.pubkey ∈ tx.message.accountKeys := by
    rw [hmessage]
    exact haccounts.newMessage _ _ _ (List.mem_append_left _ List.mem_cons_self) m hm
  rwa [hkey] at hmem

/-- Whatever was given to a sender is taken by the filter of the request, and its
update is read as its own signature with its own tag. -/
theorem World.handed_are_recognised (env : Env) (hdoc : env.host.Documented)
    (haccounts : env.host.KeepsAccounts)
    (takes : Geyser.SubscribeRequest → Message → Bool)
    (htakes : Geyser.TakesIncluded env.host takes) (as : List Act) (w : World)
    (hrun : env.machine.run as = some w) :
    ∀ h ∈ w.handed, takes (Geyser.subscribeRequest env.config) h.tx.message = true ∧
      ∃ random, Geyser.extractMemo env.host (Geyser.update h.tx) env.memoProgram =
        some (h.signature env.host, h.endpoint.name ++ "|" ++ random) := by
  intro h hgiven
  obtain ⟨⟨clock, count, -, hbuild⟩, -⟩ := (priced hrun).handed h hgiven
  refine ⟨?_, extractMemo_update hdoc env.memoProgram_eq hbuild⟩
  have hfilter : (Geyser.subscribeRequest env.config).transactions.lookup "nonce-filter" =
      some { accountInclude := [env.config.config.nonceAccount] } := AList.lookup_insert _
  exact htakes _ _ _ _ _ hfilter env.nonceAccount_eq
    (nonceAccount_mem_accountKeys haccounts env.memoProgram_eq hbuild)

/-- A server that looks at the included accounts only. -/
def Sample.takes (request : Geyser.SubscribeRequest) (message : Message) : Bool :=
  request.transactions.items.any fun item ↦ item.2.accountInclude.any fun text ↦
    match host.parsePubkey text with
    | .ok key => message.accountKeys.contains key
    | .error _ => false

theorem Sample.takesIncluded : Geyser.TakesIncluded host takes := by
  intro request name text key message hfilter hkey hmem
  refine List.any_eq_true.mpr ⟨(name, { accountInclude := [text] }),
    HashMap.mem_items.mpr hfilter, ?_⟩
  simp [hkey, hmem]

theorem World.handed_are_recognised_landedRun :
    ∃ w, (Sample.rpcEnv 1).machine.run Sample.landedRun = some w ∧ w.handed.length = 1 ∧
      ∀ h ∈ w.handed,
        Sample.takes (Geyser.subscribeRequest (Sample.rpcEnv 1).config) h.tx.message = true := by
  have hrun : ((Sample.rpcEnv 1).machine.run Sample.landedRun).map (·.handed.length) = some 1 := by
    decide +kernel
  obtain ⟨w, hw, hlength⟩ := Option.map_eq_some_iff.mp hrun
  have hrecognised := handed_are_recognised (Sample.rpcEnv 1) (Host.sdk_documented _ _)
    (Host.sdk_keepsAccounts _ _) Sample.takes Sample.takesIncluded _ w hw
  exact ⟨w, hw, hlength, fun h hgiven ↦ (hrecognised h hgiven).1⟩

end LandingBench
