import LandingBench.Async.Channels
import LandingBench.Data.HashMap
import LandingBench.Data.Quantity
import LandingBench.Data.Text
import Mathlib.Data.Finset.Insert

/-!
# The landing book

The state behind the mutex and its three operations.  Each of them holds the
lock from its first line to its last and awaits nothing in between, so it is
one step of the program.  A sender of a channel is the index of its channel in
`acks` or `rounds`; a wait pair is the two receivers that `record_send` hands
to the task that sent the transaction.
-/

namespace LandingBench

open Async Data

structure MemoObservation where
  signature : String
  memo : String
  elapsedSinceStart : Duration
  deriving DecidableEq, Repr

structure SendRecord where
  provider : String
  sentElapsed : Duration
  roundId : String
  deriving DecidableEq, Repr

structure ProviderMetrics where
  landed : ℕ
  latenciesMs : List ℚ
  deriving DecidableEq

instance : Inhabited ProviderMetrics := ⟨⟨0, []⟩⟩

structure LandingBookInner where
  sent : HashMap String SendRecord
  metrics : HashMap String ProviderMetrics
  roundsAttempted : ℕ
  landedRounds : Finset String
  waiters : HashMap String ℕ
  roundNotifiers : HashMap String ℕ

structure LandingBook where
  records : LandingBookInner
  acks : List (Oneshot Unit)
  rounds : List (Watch Bool)

/-- The receivers returned by `record_send`: an ack, and a round channel with
the version of it that counts as seen. -/
structure WaitPair where
  ack : ℕ
  round : ℕ
  seen : ℕ
  deriving DecidableEq, Repr

/-- The provider that an observed memo names. -/
def observedProvider (memo : String) : String :=
  ((Text.splitOnce '|' memo).map Prod.fst).getD memo

theorem observedProvider_eq (memo : String) :
    observedProvider memo = Text.beforeFirst '|' memo := Text.splitOnce_getD '|' memo

def SendRecord.latencyMs (send : SendRecord) (obs : MemoObservation) : ℚ :=
  Duration.asMillis (obs.elapsedSinceStart - send.sentElapsed)

def ProviderMetrics.push (entry : ProviderMetrics) (latencyMs : ℚ) : ProviderMetrics :=
  ⟨entry.landed + 1, entry.latenciesMs ++ [latencyMs]⟩

namespace LandingBook

def empty : LandingBook := ⟨⟨∅, ∅, 0, ∅, ∅, ∅⟩, [], []⟩

/-! ## Channels of the book -/

/-- `round_notifiers.entry(round_id).or_insert_with(..)`: the receiver of a new
channel is dropped at once. -/
def notifier (book : LandingBook) (roundId : String) : LandingBook × ℕ :=
  match book.records.roundNotifiers.lookup roundId with
  | some tx => (book, tx)
  | none =>
      ({ book with
          records := { book.records with
            roundNotifiers := book.records.roundNotifiers.insert roundId book.rounds.length }
          rounds := book.rounds ++ [(Watch.channel false).dropReceiver] },
        book.rounds.length)

/-- `waiters.insert(sig_key, tx)` of a new channel; a sender that was there is
dropped. -/
def addWaiter (book : LandingBook) (signature : String) : LandingBook :=
  let acks := match book.records.waiters.lookup signature with
    | some old => book.acks.modify old Oneshot.dropSender
    | none => book.acks
  { book with
    records := { book.records with
      waiters := book.records.waiters.insert signature book.acks.length }
    acks := acks ++ [Oneshot.channel] }

/-- Subscribe through a clone of the sender, which is dropped on return. -/
def subscribe (book : LandingBook) (round : ℕ) : LandingBook × ℕ :=
  match book.rounds[round]? with
  | some c =>
      let (c, seen) := c.cloneSender.subscribe
      ({ book with rounds := book.rounds.set round c.dropSender }, seen)
  | none => (book, 0)

def fireWaiter (book : LandingBook) (signature : String) : LandingBook :=
  match book.records.waiters.lookup signature with
  | some tx =>
      { book with
        records := { book.records with waiters := book.records.waiters.erase signature }
        acks := book.acks.modify tx (Oneshot.send ()) }
  | none => book

def fireNotifier (book : LandingBook) (roundId : String) : LandingBook :=
  match book.records.roundNotifiers.lookup roundId with
  | some tx =>
      { book with
        records := { book.records with
          roundNotifiers := book.records.roundNotifiers.erase roundId }
        rounds := book.rounds.modify tx fun c ↦ (c.send true).dropSender }
  | none => book

/-! ## The operations -/

def startRound (book : LandingBook) (roundId : String) : LandingBook :=
  let book := { book with
    records := { book.records with roundsAttempted := book.records.roundsAttempted + 1 } }
  (book.notifier roundId).1

def recordSend (book : LandingBook) (signature provider : String) (sentElapsed : Duration)
    (roundId : String) : LandingBook × WaitPair :=
  let (book, roundTx) := book.notifier roundId
  let book := { book with
    records := { book.records with
      sent := book.records.sent.insert signature ⟨provider, sentElapsed, roundId⟩
      metrics := book.records.metrics.orInsert provider default } }
  let ack := book.acks.length
  let book := book.addWaiter signature
  let (book, seen) := book.subscribe roundTx
  (book, ⟨ack, roundTx, seen⟩)

def recordLanding (book : LandingBook) (obs : MemoObservation) : LandingBook × Bool :=
  match book.records.sent.lookup obs.signature with
  | none => (book, false)
  | some send =>
      let book := { book with
        records := { book.records with sent := book.records.sent.erase obs.signature } }
      -- the record is gone by now, also where the provider turns out to differ
      if observedProvider obs.memo ≠ send.provider then (book, false)
      else
        let book := { book with
          records := { book.records with
            metrics := book.records.metrics.upsert send.provider default
              (·.push (send.latencyMs obs))
            landedRounds := insert send.roundId book.records.landedRounds } }
        (((book.fireWaiter obs.signature).fireNotifier send.roundId), true)

/-- Both receivers of a pair are dropped when the wait ends. -/
def dropPair (book : LandingBook) (pair : WaitPair) : LandingBook :=
  { book with
    acks := book.acks.modify pair.ack Oneshot.dropReceiver
    rounds := book.rounds.modify pair.round Watch.dropReceiver }

end LandingBook

/-! ## Histories -/

inductive BookOp where
  | startRound (roundId : String)
  | recordSend (signature provider : String) (sentElapsed : Duration) (roundId : String)
  | recordLanding (obs : MemoObservation)
  deriving DecidableEq, Repr

namespace LandingBook

def apply (book : LandingBook) : BookOp → LandingBook
  | .startRound roundId => book.startRound roundId
  | .recordSend signature provider sentElapsed roundId =>
      (book.recordSend signature provider sentElapsed roundId).1
  | .recordLanding obs => (book.recordLanding obs).1

def replay (history : List BookOp) : LandingBook := history.foldl apply empty

@[simp] theorem replay_nil : replay [] = empty := rfl

@[simp] theorem replay_snoc (history : List BookOp) (op : BookOp) :
    replay (history ++ [op]) = (replay history).apply op := by
  simp [replay]

/-! ## The accounts of a book

The four fields that are no channels.  The channel steps of the operations
leave them alone, so each operation has one equation for them. -/

end LandingBook

structure Accounts where
  sent : HashMap String SendRecord
  metrics : HashMap String ProviderMetrics
  roundsAttempted : ℕ
  landedRounds : Finset String

namespace LandingBook

def accounts (book : LandingBook) : Accounts :=
  ⟨book.records.sent, book.records.metrics, book.records.roundsAttempted,
    book.records.landedRounds⟩

@[simp] theorem accounts_notifier (book : LandingBook) (roundId : String) :
    (book.notifier roundId).1.accounts = book.accounts := by
  unfold notifier
  split <;> rfl

@[simp] theorem accounts_addWaiter (book : LandingBook) (signature : String) :
    (book.addWaiter signature).accounts = book.accounts := rfl

@[simp] theorem accounts_subscribe (book : LandingBook) (round : ℕ) :
    (book.subscribe round).1.accounts = book.accounts := by
  unfold subscribe
  split <;> rfl

@[simp] theorem accounts_fireWaiter (book : LandingBook) (signature : String) :
    (book.fireWaiter signature).accounts = book.accounts := by
  unfold fireWaiter
  split <;> rfl

@[simp] theorem accounts_fireNotifier (book : LandingBook) (roundId : String) :
    (book.fireNotifier roundId).accounts = book.accounts := by
  unfold fireNotifier
  split <;> rfl

@[simp] theorem accounts_dropPair (book : LandingBook) (pair : WaitPair) :
    (book.dropPair pair).accounts = book.accounts := rfl

theorem fireWaiter_roundNotifiers (book : LandingBook) (signature : String) :
    (book.fireWaiter signature).records.roundNotifiers = book.records.roundNotifiers := by
  unfold fireWaiter
  split <;> rfl

theorem fireWaiter_rounds (book : LandingBook) (signature : String) :
    (book.fireWaiter signature).rounds = book.rounds := by
  unfold fireWaiter
  split <;> rfl

theorem fireWaiter_landedRounds (book : LandingBook) (signature : String) :
    (book.fireWaiter signature).records.landedRounds = book.records.landedRounds :=
  congrArg Accounts.landedRounds (accounts_fireWaiter book signature)

theorem accounts_startRound (book : LandingBook) (roundId : String) :
    (book.startRound roundId).accounts =
      { book.accounts with roundsAttempted := book.accounts.roundsAttempted + 1 } := by
  unfold startRound
  rw [accounts_notifier]
  rfl

theorem accounts_recordSend (book : LandingBook) (signature provider : String)
    (sentElapsed : Duration) (roundId : String) :
    (book.recordSend signature provider sentElapsed roundId).1.accounts =
      { book.accounts with
        sent := book.accounts.sent.insert signature ⟨provider, sentElapsed, roundId⟩
        metrics := book.accounts.metrics.orInsert provider default } := by
  have hnotifier := accounts_notifier book roundId
  simp only [accounts, Accounts.mk.injEq] at hnotifier
  obtain ⟨hsent, hmetrics, hattempted, hlanded⟩ := hnotifier
  simp only [recordSend, accounts_subscribe, accounts_addWaiter]
  simp only [accounts, hsent, hmetrics, hattempted, hlanded]

/-- Unknown signature: nothing happens. -/
theorem recordLanding_of_none {book : LandingBook} {obs : MemoObservation}
    (h : book.records.sent.lookup obs.signature = none) :
    book.recordLanding obs = (book, false) := by
  simp [recordLanding, h]

/-- Another provider's memo: the send record is lost. -/
theorem recordLanding_of_ne {book : LandingBook} {obs : MemoObservation} {send : SendRecord}
    (h : book.records.sent.lookup obs.signature = some send)
    (hne : observedProvider obs.memo ≠ send.provider) :
    book.recordLanding obs =
      ({ book with
        records := { book.records with sent := book.records.sent.erase obs.signature } },
        false) := by
  simp [recordLanding, h, hne]

theorem recordLanding_of_eq {book : LandingBook} {obs : MemoObservation} {send : SendRecord}
    (h : book.records.sent.lookup obs.signature = some send)
    (heq : observedProvider obs.memo = send.provider) :
    (book.recordLanding obs).2 = true ∧
      (book.recordLanding obs).1.accounts =
        { book.accounts with
          sent := book.accounts.sent.erase obs.signature
          metrics := book.accounts.metrics.upsert send.provider default
            (·.push (send.latencyMs obs))
          landedRounds := insert send.roundId book.accounts.landedRounds } := by
  constructor
  · simp [recordLanding, h, heq]
  · simp only [recordLanding, h, heq, ne_eq, not_true_eq_false, if_false,
      accounts_fireNotifier, accounts_fireWaiter]
    rfl

/-- An observation is accepted exactly when its signature has a send record
that names the provider of its memo. -/
theorem recordLanding_eq_true_iff (book : LandingBook) (obs : MemoObservation) :
    (book.recordLanding obs).2 = true ↔
      ∃ send, book.records.sent.lookup obs.signature = some send ∧
        observedProvider obs.memo = send.provider := by
  constructor
  · intro haccept
    cases h : book.records.sent.lookup obs.signature with
    | none => simp [recordLanding_of_none h] at haccept
    | some send =>
        by_cases hne : observedProvider obs.memo = send.provider
        · exact ⟨send, rfl, hne⟩
        · simp [recordLanding_of_ne h hne] at haccept
  · rintro ⟨send, h, heq⟩
    exact (recordLanding_of_eq h heq).1

/-- What an operation does to the accounts depends on nothing but them. -/
theorem accounts_apply_congr {book book' : LandingBook} (h : book.accounts = book'.accounts)
    (op : BookOp) : (book.apply op).accounts = (book'.apply op).accounts := by
  cases op with
  | startRound roundId => simp only [apply, accounts_startRound, h]
  | recordSend signature provider sentElapsed roundId =>
      simp only [apply, accounts_recordSend, h]
  | recordLanding obs =>
      have hsent : book.records.sent = book'.records.sent := congrArg Accounts.sent h
      cases hlookup : book'.records.sent.lookup obs.signature with
      | none =>
          simp only [apply]
          rw [recordLanding_of_none hlookup, recordLanding_of_none (hsent ▸ hlookup), h]
      | some send =>
          by_cases htag : observedProvider obs.memo = send.provider
          · simp only [apply]
            rw [(recordLanding_of_eq hlookup htag).2,
              (recordLanding_of_eq (hsent ▸ hlookup) htag).2, h]
          · simp only [apply]
            rw [recordLanding_of_ne hlookup htag, recordLanding_of_ne (hsent ▸ hlookup) htag]
            simp only [accounts, Accounts.mk.injEq] at h ⊢
            exact ⟨by rw [hsent], h.2⟩

/-! ## The waiters of a book

The senders of acks, by the signature that they wait for. -/

@[simp] theorem waiters_notifier (book : LandingBook) (roundId : String) :
    (book.notifier roundId).1.records.waiters = book.records.waiters := by
  unfold notifier
  split <;> rfl

@[simp] theorem acks_notifier (book : LandingBook) (roundId : String) :
    (book.notifier roundId).1.acks = book.acks := by
  unfold notifier
  split <;> rfl

@[simp] theorem waiters_subscribe (book : LandingBook) (round : ℕ) :
    (book.subscribe round).1.records.waiters = book.records.waiters := by
  unfold subscribe
  split <;> rfl

@[simp] theorem acks_subscribe (book : LandingBook) (round : ℕ) :
    (book.subscribe round).1.acks = book.acks := by
  unfold subscribe
  split <;> rfl

@[simp] theorem waiters_fireNotifier (book : LandingBook) (roundId : String) :
    (book.fireNotifier roundId).records.waiters = book.records.waiters := by
  unfold fireNotifier
  split <;> rfl

@[simp] theorem acks_fireNotifier (book : LandingBook) (roundId : String) :
    (book.fireNotifier roundId).acks = book.acks := by
  unfold fireNotifier
  split <;> rfl

theorem waiters_startRound (book : LandingBook) (roundId : String) :
    (book.startRound roundId).records.waiters = book.records.waiters := by
  simp [startRound]

theorem acks_startRound (book : LandingBook) (roundId : String) :
    (book.startRound roundId).acks = book.acks := by
  simp [startRound]

section RecordSend

variable (book : LandingBook) (signature provider : String) (sentElapsed : Duration)
  (roundId : String)

theorem waiters_recordSend :
    (book.recordSend signature provider sentElapsed roundId).1.records.waiters =
      book.records.waiters.insert signature book.acks.length := by
  simp [recordSend, addWaiter]

theorem ack_recordSend :
    (book.recordSend signature provider sentElapsed roundId).2.ack = book.acks.length := by
  simp [recordSend]

theorem acks_recordSend (h : book.records.waiters.lookup signature = none) :
    (book.recordSend signature provider sentElapsed roundId).1.acks =
      book.acks ++ [Oneshot.channel] := by
  simp [recordSend, addWaiter, h]

end RecordSend

theorem lookup_waiters_recordLanding {book : LandingBook} {obs : MemoObservation}
    {send : SendRecord} (h : book.records.sent.lookup obs.signature = some send)
    (htag : observedProvider obs.memo = send.provider) (signature : String) :
    (book.recordLanding obs).1.records.waiters.lookup signature =
      if signature = obs.signature then none else book.records.waiters.lookup signature := by
  simp only [recordLanding, h, htag, ne_eq, not_true_eq_false, if_false, waiters_fireNotifier]
  unfold fireWaiter
  cases hwaiter : book.records.waiters.lookup obs.signature with
  | none =>
      split_ifs with heq
      · rw [heq]
        exact hwaiter
      · rfl
  | some tx =>
      split_ifs with heq
      · rw [heq]
        exact AList.lookup_erase _ _
      · exact AList.lookup_erase_ne heq

theorem acks_recordLanding {book : LandingBook} {obs : MemoObservation} {send : SendRecord}
    (h : book.records.sent.lookup obs.signature = some send)
    (htag : observedProvider obs.memo = send.provider) :
    (book.recordLanding obs).1.acks =
      match book.records.waiters.lookup obs.signature with
      | some tx => book.acks.modify tx (Oneshot.send ())
      | none => book.acks := by
  simp only [recordLanding, h, htag, ne_eq, not_true_eq_false, if_false, acks_fireNotifier]
  unfold fireWaiter
  cases book.records.waiters.lookup obs.signature <;> rfl

/-! ## The notifiers of a book

The senders of round channels, by the round that they belong to. -/

theorem notifier_of_some {book : LandingBook} {roundId : String} {tx : ℕ}
    (h : book.records.roundNotifiers.lookup roundId = some tx) :
    book.notifier roundId = (book, tx) := by
  simp [notifier, h]

theorem notifier_of_none {book : LandingBook} {roundId : String}
    (h : book.records.roundNotifiers.lookup roundId = none) :
    book.notifier roundId =
      ({ book with
          records := { book.records with
            roundNotifiers := book.records.roundNotifiers.insert roundId book.rounds.length }
          rounds := book.rounds ++ [(Watch.channel false).dropReceiver] },
        book.rounds.length) := by
  simp [notifier, h]

theorem lookup_notifier (book : LandingBook) (roundId : String) :
    (book.notifier roundId).1.records.roundNotifiers.lookup roundId =
      some (book.notifier roundId).2 := by
  cases h : book.records.roundNotifiers.lookup roundId with
  | some tx =>
      rw [notifier_of_some h]
      exact h
  | none => simp [notifier_of_none h]

theorem subscribe_of_some {book : LandingBook} {round : ℕ} {c : Watch Bool}
    (h : book.rounds[round]? = some c) :
    book.subscribe round =
      ({ book with rounds := book.rounds.set round c.cloneSender.subscribe.1.dropSender },
        c.version) := by
  simp only [subscribe, h]
  rfl

theorem fireNotifier_of_some {book : LandingBook} {roundId : String} {tx : ℕ}
    (h : book.records.roundNotifiers.lookup roundId = some tx) :
    book.fireNotifier roundId =
      { book with
        records := { book.records with
          roundNotifiers := book.records.roundNotifiers.erase roundId }
        rounds := book.rounds.modify tx fun c ↦ (c.send true).dropSender } := by
  simp [fireNotifier, h]

theorem fireNotifier_of_none {book : LandingBook} {roundId : String}
    (h : book.records.roundNotifiers.lookup roundId = none) :
    book.fireNotifier roundId = book := by
  simp [fireNotifier, h]

end LandingBook
end LandingBench
