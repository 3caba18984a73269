import LandingBench.Async.Machine
import LandingBench.Sdk

/-!
# The Soyas client

Any number of calls of `send_transaction` share one client: the connection that
it holds and the mutex around a reconnect.  A step takes one call from one
access to these, or from one await, to the next; the network answers as it
likes.
-/

namespace LandingBench.Soyas

open Async

/-- A stream as the server gets it, with the call that opened it. -/
structure UniStream where
  connection : ℕ
  call : ℕ
  written : List UInt8
  finished : Bool
  deriving DecidableEq, Repr

inductive Attempt where
  | first
  | second
  deriving DecidableEq, Repr

inductive SendError where
  | serialize (err : String)
  | tryLock
  | connect
  | trySendBytes
  deriving DecidableEq, Repr

inductive CallPc where
  | called
  | openUni (attempt : Attempt) (connection : ℕ)
  | writeAll (attempt : Attempt) (connection stream : ℕ)
  | tryLock
  | connectWith
  | store (connection : ℕ)
  | loadFull
  | returned (result : Except SendError Unit)

structure Call where
  transaction : Transaction
  serializedTx : List UInt8
  pc : CallPc
  -- the connections that it has loaded so far
  loaded : List ℕ

/-- Connections are numbered in the order of their handshakes. -/
structure Client where
  connection : ℕ
  reconnect : Bool
  handshakes : ℕ
  streams : List UniStream
  calls : List Call

def Client.init : Client := ⟨0, false, 1, [], []⟩

/-- What becomes of `write_all(payload)` and `finish()`. -/
inductive Written where
  | finished
  | failed (count : ℕ)
  deriving DecidableEq, Repr

inductive CallAct where
  /-- The next step that waits for nobody. -/
  | go
  | opened (ok : Bool)
  | wrote (written : Written)
  | connected (ok : Bool)
  deriving DecidableEq, Repr

inductive Act where
  | call (transaction : Transaction)
  | on (call : ℕ) (act : CallAct)

/-- A failed first attempt goes on with a reconnect, a second one is the result. -/
def Attempt.failed : Attempt → CallPc
  | first => .tryLock
  | second => .returned (.error .trySendBytes)

namespace Client

def setCall (c : Client) (i : ℕ) (call : Call) : Client := { c with calls := c.calls.set i call }

/-- `serialized_tx` and the first `load_full`. -/
def begin (serialize : Transaction → Except String (List UInt8)) (c : Client) (i : ℕ)
    (call : Call) : Client :=
  match serialize call.transaction with
  | .error err => c.setCall i { call with pc := .returned (.error (.serialize err)) }
  | .ok serializedTx =>
      c.setCall i { call with
        serializedTx := serializedTx
        pc := .openUni .first c.connection
        loaded := [c.connection] }

def goStep (serialize : Transaction → Except String (List UInt8)) (c : Client) (i : ℕ)
    (call : Call) : Option Client :=
  match call.pc with
  | .called => some (c.begin serialize i call)
  | .tryLock =>
      if c.reconnect then some (c.setCall i { call with pc := .returned (.error .tryLock) })
      else some { c.setCall i { call with pc := .connectWith } with reconnect := true }
  -- the guard is dropped when `reconnect` returns
  | .store connection =>
      some { c.setCall i { call with pc := .loadFull } with
        connection := connection
        reconnect := false }
  | .loadFull =>
      some (c.setCall i { call with
        pc := .openUni .second c.connection
        loaded := call.loaded ++ [c.connection] })
  | .openUni _ _ => none
  | .writeAll _ _ _ => none
  | .connectWith => none
  | .returned _ => none

def callStep (serialize : Transaction → Except String (List UInt8)) (c : Client) (i : ℕ)
    (call : Call) : CallAct → Option Client
  | .go => c.goStep serialize i call
  | .opened ok =>
      match call.pc with
      | .openUni attempt connection =>
          if ok then
            some { c.setCall i { call with
                pc := .writeAll attempt connection c.streams.length } with
              streams := c.streams ++ [⟨connection, i, [], false⟩] }
          else some (c.setCall i { call with pc := attempt.failed })
      | _ => none
  | .wrote written =>
      match call.pc, written with
      | .writeAll _ connection stream, .finished =>
          some { c.setCall i { call with pc := .returned (.ok ()) } with
            streams := c.streams.set stream ⟨connection, i, call.serializedTx, true⟩ }
      | .writeAll attempt connection stream, .failed count =>
          some { c.setCall i { call with pc := attempt.failed } with
            streams := c.streams.set stream ⟨connection, i, call.serializedTx.take count, false⟩ }
      | _, _ => none
  | .connected ok =>
      match call.pc with
      | .connectWith =>
          if ok then
            some { c.setCall i { call with pc := .store c.handshakes } with
              handshakes := c.handshakes + 1 }
          else
            some { c.setCall i { call with pc := .returned (.error .connect) } with
              reconnect := false }
      | _ => none

def call (c : Client) (transaction : Transaction) : Client :=
  { c with calls := c.calls ++ [⟨transaction, [], .called, []⟩] }

@[simp] theorem calls_call (c : Client) (transaction : Transaction) :
    (c.call transaction).calls = c.calls ++ [⟨transaction, [], .called, []⟩] := rfl

def step (serialize : Transaction → Except String (List UInt8)) (c : Client) : Act → Option Client
  | .call transaction => some (c.call transaction)
  | .on i act => c.calls[i]?.bind fun call ↦ c.callStep serialize i call act

end Client

/-- The client as a machine, from the connection of `connect` on. -/
def machine (serialize : Transaction → Except String (List UInt8)) : Machine Client Act :=
  ⟨Client.init, Client.step serialize⟩

/-! ## What a step can do -/

namespace Client

variable {serialize : Transaction → Except String (List UInt8)} {c c' : Client}

inductive CallMove (serialize : Transaction → Except String (List UInt8)) (c : Client) (i : ℕ)
    (call : Call) : CallAct → Client → Prop where
  | unserialized (err : String) (pc : call.pc = .called)
      (serialized : serialize call.transaction = .error err) :
      CallMove serialize c i call .go
        (c.setCall i { call with pc := .returned (.error (.serialize err)) })
  | begun (serializedTx : List UInt8) (pc : call.pc = .called)
      (serialized : serialize call.transaction = .ok serializedTx) :
      CallMove serialize c i call .go
        (c.setCall i { call with
          serializedTx := serializedTx
          pc := .openUni .first c.connection
          loaded := [c.connection] })
  | opened (attempt : Attempt) (connection : ℕ) (pc : call.pc = .openUni attempt connection) :
      CallMove serialize c i call (.opened true)
        { c.setCall i { call with pc := .writeAll attempt connection c.streams.length } with
          streams := c.streams ++ [⟨connection, i, [], false⟩] }
  | unopened (attempt : Attempt) (connection : ℕ) (pc : call.pc = .openUni attempt connection) :
      CallMove serialize c i call (.opened false)
        (c.setCall i { call with pc := attempt.failed })
  | finished (attempt : Attempt) (connection stream : ℕ)
      (pc : call.pc = .writeAll attempt connection stream) :
      CallMove serialize c i call (.wrote .finished)
        { c.setCall i { call with pc := .returned (.ok ()) } with
          streams := c.streams.set stream ⟨connection, i, call.serializedTx, true⟩ }
  | unfinished (attempt : Attempt) (connection stream count : ℕ)
      (pc : call.pc = .writeAll attempt connection stream) :
      CallMove serialize c i call (.wrote (.failed count))
        { c.setCall i { call with pc := attempt.failed } with
          streams := c.streams.set stream ⟨connection, i, call.serializedTx.take count, false⟩ }
  | contended (pc : call.pc = .tryLock) (locked : c.reconnect = true) :
      CallMove serialize c i call .go
        (c.setCall i { call with pc := .returned (.error .tryLock) })
  | locked (pc : call.pc = .tryLock) (free : c.reconnect = false) :
      CallMove serialize c i call .go
        { c.setCall i { call with pc := .connectWith } with reconnect := true }
  | connected (pc : call.pc = .connectWith) :
      CallMove serialize c i call (.connected true)
        { c.setCall i { call with pc := .store c.handshakes } with
          handshakes := c.handshakes + 1 }
  | unconnected (pc : call.pc = .connectWith) :
      CallMove serialize c i call (.connected false)
        { c.setCall i { call with pc := .returned (.error .connect) } with reconnect := false }
  | stored (connection : ℕ) (pc : call.pc = .store connection) :
      CallMove serialize c i call .go
        { c.setCall i { call with pc := .loadFull } with
          connection := connection
          reconnect := false }
  | loaded (pc : call.pc = .loadFull) :
      CallMove serialize c i call .go
        (c.setCall i { call with
          pc := .openUni .second c.connection
          loaded := call.loaded ++ [c.connection] })

theorem goMove {i : ℕ} {call : Call} (h : c.goStep serialize i call = some c') :
    CallMove serialize c i call .go c' := by
  unfold goStep at h
  split at h
  · rename_i hpc
    cases h
    unfold begin
    cases hserialized : serialize call.transaction with
    | error err => exact .unserialized err hpc hserialized
    | ok serializedTx => exact .begun serializedTx hpc hserialized
  · rename_i hpc
    split_ifs at h with hlocked
    · cases h
      exact .contended hpc hlocked
    · cases h
      exact .locked hpc (by simpa using hlocked)
  · rename_i connection hpc
    cases h
    exact .stored connection hpc
  · rename_i hpc
    cases h
    exact .loaded hpc
  all_goals cases h

theorem callMove {i : ℕ} {call : Call} {act : CallAct}
    (h : c.callStep serialize i call act = some c') : CallMove serialize c i call act c' := by
  cases act with
  | go => exact goMove h
  | opened ok =>
      simp only [callStep] at h
      split at h
      · rename_i attempt connection hpc
        cases ok with
        | true =>
            cases h
            exact .opened attempt connection hpc
        | false =>
            cases h
            exact .unopened attempt connection hpc
      · cases h
  | wrote written =>
      simp only [callStep] at h
      split at h
      · rename_i attempt connection stream hpc
        cases h
        exact .finished attempt connection stream hpc
      · rename_i attempt connection stream count hpc
        cases h
        exact .unfinished attempt connection stream count hpc
      · cases h
  | connected ok =>
      simp only [callStep] at h
      split at h
      · rename_i hpc
        cases ok with
        | true =>
            cases h
            exact .connected hpc
        | false =>
            cases h
            exact .unconnected hpc
      · cases h

theorem step_cases {act : Act} (h : (machine serialize).step c act = some c') :
    (∃ transaction, act = .call transaction ∧ c' = c.call transaction) ∨
      ∃ i callAct call, act = .on i callAct ∧ c.calls[i]? = some call ∧
        CallMove serialize c i call callAct c' := by
  cases act with
  | call transaction =>
      cases h
      exact .inl ⟨transaction, rfl, rfl⟩
  | on i callAct =>
      obtain ⟨call, hget, hstep⟩ := Option.bind_eq_some_iff.mp h
      exact .inr ⟨i, callAct, call, rfl, hget, callMove hstep⟩

end Client
end LandingBench.Soyas

/-! ## A sample -/

namespace LandingBench.Sample

/-- The wire format of a transaction with one signer, given the accounts of its
instructions and how many keys at the end are only read; no length takes two
bytes. -/
def bincode (accounts : List (List Pubkey)) (readonly : ℕ) (tx : Transaction) : List UInt8 :=
  let keys := tx.message.accountKeys
  let instruction (ix : CompiledInstruction) (accounts : List Pubkey) : List UInt8 :=
    UInt8.ofNat ix.programIdIndex :: UInt8.ofNat accounts.length ::
      (accounts.map fun key ↦ UInt8.ofNat (keys.idxOf key)) ++
        UInt8.ofNat ix.data.size :: ix.data.data.toList
  1 :: tx.signature.data.toList ++
    [1, 0, UInt8.ofNat readonly, UInt8.ofNat keys.length] ++
    (keys.flatMap fun key ↦ key.bytes.data.toList) ++ tx.recentBlockhash.bytes.data.toList ++
    UInt8.ofNat tx.message.instructions.length ::
      (List.zipWith instruction tx.message.instructions accounts).flatten

/-- A nonce instruction, the memo and a tip. -/
def serialize (tx : Transaction) : Except String (List UInt8) :=
  .ok (bincode [[pubkey nonceText, Sdk.recentBlockhashes, authority], [],
    [authority, pubkey "soyascXFW5wEEYiwfEmHy2pNwomqzvggJosGVD6TJdY"]] 3 tx)

def soyasTx : Transaction :=
  match buildTransaction host (soyasFra "soyas") (pubkey nonceText) authority nonce₀ (.finite 0)
      1000000 wallClock 0 with
  | .ok tx => tx
  | .error _ => ⟨[.empty], ⟨[], []⟩, nonce₀, by simp⟩

end LandingBench.Sample
