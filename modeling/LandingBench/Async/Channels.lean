import Mathlib.Data.List.Basic
import Mathlib.Tactic.Common

/-!
# Channels of an asynchronous runtime

The four channels that concurrent tasks share, as plain values.  A channel
counts the handles that are still held, since dropping the last one is what a
waiting task observes as a close.  A task that holds a receiver of a watch or a
broadcast channel holds a number: the version, or the position, that it has
seen.
-/

namespace Async

variable {α : Type*}

/-! ## One value, one sender, one receiver -/

structure Oneshot (α : Type*) where
  value : Option α
  sender : Bool
  receiver : Bool
  deriving DecidableEq, Repr

namespace Oneshot

def channel : Oneshot α := ⟨none, true, true⟩

/-- Sending uses the sender up; the value is stored if somebody may read it. -/
def send (a : α) (c : Oneshot α) : Oneshot α :=
  { c with value := if c.receiver then some a else c.value, sender := false }

def dropSender (c : Oneshot α) : Oneshot α := { c with sender := false }

def dropReceiver (c : Oneshot α) : Oneshot α := { c with receiver := false }

/-- Awaiting the receiver ends: with the value, or because no value can come. -/
def completed (c : Oneshot α) : Bool := c.value.isSome || !c.sender

end Oneshot

/-! ## The latest value, many senders, many receivers -/

structure Watch (α : Type*) where
  value : α
  version : ℕ
  senders : ℕ
  receivers : ℕ
  deriving DecidableEq, Repr

namespace Watch

/-- A new channel comes with one sender and one receiver. -/
def channel (a : α) : Watch α := ⟨a, 0, 1, 1⟩

def cloneSender (c : Watch α) : Watch α := { c with senders := c.senders + 1 }

def dropSender (c : Watch α) : Watch α := { c with senders := c.senders - 1 }

def dropReceiver (c : Watch α) : Watch α := { c with receivers := c.receivers - 1 }

/-- A subscriber counts the current value as seen, so it holds this version. -/
def subscribe (c : Watch α) : Watch α × ℕ :=
  ({ c with receivers := c.receivers + 1 }, c.version)

/-- A value sent to nobody is refused and leaves the channel as it was. -/
def send (a : α) (c : Watch α) : Watch α :=
  if c.receivers = 0 then c else { c with value := a, version := c.version + 1 }

/-- `changed` is ready with a value that the receiver has not seen, also when
every sender is gone. -/
def changed (c : Watch α) (seen : ℕ) : Bool := c.version ≠ seen

/-- `changed` fails: nothing new, and nobody left to send. -/
def hungUp (c : Watch α) (seen : ℕ) : Bool := !c.changed seen && c.senders == 0

@[simp] theorem dropSender_version (c : Watch α) : c.dropSender.version = c.version := rfl

@[simp] theorem dropSender_receivers (c : Watch α) : c.dropSender.receivers = c.receivers := rfl

@[simp] theorem receivers_send (a : α) (c : Watch α) : (c.send a).receivers = c.receivers := by
  by_cases h : c.receivers = 0 <;> simp [send, h]

theorem version_le_send (a : α) (c : Watch α) : c.version ≤ (c.send a).version := by
  by_cases h : c.receivers = 0 <;> simp [send, h]

theorem version_send {c : Watch α} (h : c.receivers ≠ 0) (a : α) :
    (c.send a).version = c.version + 1 := by
  simp [send, h]

end Watch

/-! ## Every value to every receiver -/

structure Broadcast (α : Type*) where
  capacity : ℕ
  sent : List α
  deriving DecidableEq, Repr

/-- What a receiver finds without waiting. -/
inductive TryRecv (α : Type*) where
  | value (a : α)
  | empty
  | lagged
  deriving DecidableEq, Repr

def TryRecv.isOk : TryRecv α → Bool
  | value _ => true
  | empty => false
  | lagged => false

namespace Broadcast

def channel (capacity : ℕ) : Broadcast α := ⟨capacity, []⟩

def send (a : α) (c : Broadcast α) : Broadcast α := { c with sent := c.sent ++ [a] }

/-- A receiver only gets values sent after it subscribed. -/
def subscribe (c : Broadcast α) : ℕ := c.sent.length

/-- `recv` does not wait. -/
def ready (c : Broadcast α) (position : ℕ) : Bool := position < c.sent.length

/-- A receiver that fell behind by more than the capacity is told so, and goes
on from the oldest value that is still kept. -/
def tryRecv (c : Broadcast α) (position : ℕ) : TryRecv α × ℕ :=
  if h : position < c.sent.length then
    if position + c.capacity < c.sent.length then
      (.lagged, c.sent.length - c.capacity)
    else (.value c.sent[position], position + 1)
  else (.empty, position)

theorem tryRecv_of_le {c : Broadcast α} {position : ℕ} (h : c.sent.length ≤ position) :
    c.tryRecv position = (.empty, position) := by
  simp [tryRecv, Nat.not_lt.mpr h]

theorem tryRecv_isOk_iff (c : Broadcast α) (position : ℕ) :
    (c.tryRecv position).1.isOk = true ↔
      position < c.sent.length ∧ c.sent.length ≤ position + c.capacity := by
  unfold tryRecv
  split_ifs with h hlag
  · simp [TryRecv.isOk, hlag]
  · simpa [TryRecv.isOk, h] using hlag
  · simp [TryRecv.isOk, h]

end Broadcast

/-! ## A bounded queue with one consumer -/

structure Mpsc (α : Type*) where
  capacity : ℕ
  buffer : List α
  senders : ℕ
  receiver : Bool
  deriving DecidableEq, Repr

namespace Mpsc

def channel (capacity : ℕ) : Mpsc α := ⟨capacity, [], 1, true⟩

def dropSender (c : Mpsc α) : Mpsc α := { c with senders := c.senders - 1 }

def dropReceiver (c : Mpsc α) : Mpsc α := { c with receiver := false }

/-- A pending `send` gets its slot. -/
def hasRoom (c : Mpsc α) : Bool := c.buffer.length < c.capacity

def push (a : α) (c : Mpsc α) : Mpsc α := { c with buffer := c.buffer ++ [a] }

/-- `recv` gives the oldest value, or `none` once no sender is left and the
buffer is drained; it waits in every other case. -/
def recv (c : Mpsc α) : Option (Option α × Mpsc α) :=
  match c.buffer with
  | a :: rest => some (some a, { c with buffer := rest })
  | [] => if c.senders = 0 then some (none, c) else none

theorem recv_eq_some_some {c d : Mpsc α} {a : α} :
    c.recv = some (some a, d) ↔
      ∃ rest, c.buffer = a :: rest ∧ d = { c with buffer := rest } := by
  rcases c with ⟨capacity, buffer, senders, receiver⟩
  cases buffer with
  | nil => by_cases h : senders = 0 <;> simp [recv, h]
  | cons b rest =>
      constructor
      · intro h
        simp only [recv, Option.some.injEq, Prod.mk.injEq] at h
        exact ⟨rest, by rw [h.1], h.2.symm⟩
      · rintro ⟨tail, hcons, rfl⟩
        obtain ⟨rfl, rfl⟩ := List.cons.inj hcons
        rfl

theorem recv_eq_some_none {c d : Mpsc α} :
    c.recv = some (none, d) ↔ c.buffer = [] ∧ c.senders = 0 ∧ d = c := by
  rcases c with ⟨capacity, buffer, senders, receiver⟩
  cases buffer with
  | nil =>
      by_cases h : senders = 0
      · simp [recv, h, eq_comm]
      · simp [recv, h]
  | cons b rest => simp [recv]

end Mpsc
end Async
