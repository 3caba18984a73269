import LandingBench.Config
import Mathlib

/-!
# Building a transaction and reading its memo back

`Host` stands for the crates that the program calls.  The sender's side formats
the tag and puts it among the instructions; the listener's side looks for it in
the transaction of a gRPC update.
-/

namespace LandingBench

open Data

structure Pubkey where
  bytes : ByteArray
  size_eq : bytes.size = 32
  deriving DecidableEq

structure Hash where
  bytes : ByteArray
  size_eq : bytes.size = 32
  deriving DecidableEq

structure AccountMeta where
  pubkey : Pubkey
  isSigner : Bool
  isWritable : Bool
  deriving DecidableEq

structure Instruction where
  programId : Pubkey
  accounts : List AccountMeta
  data : ByteArray
  deriving DecidableEq

structure CompiledInstruction where
  programIdIndex : ℕ
  data : ByteArray
  deriving DecidableEq

structure Message where
  accountKeys : List Pubkey
  instructions : List CompiledInstruction
  deriving DecidableEq

/-- A signed transaction; its first signature names it. -/
structure Transaction where
  signatures : List ByteArray
  message : Message
  recentBlockhash : Hash
  signed : signatures ≠ []
  deriving DecidableEq

def Transaction.signature (tx : Transaction) : ByteArray := tx.signatures.head tx.signed

/-- What the program uses of other crates: keys and their text, the hash
function, the instructions and messages of the SDK, and the key pair. -/
structure Host where
  parsePubkey : String → Except String Pubkey
  base58 : ByteArray → String
  blake3 : ByteArray → ByteArray
  /-- `{now:.6}` of a clock reading. -/
  formatTimestamp : Duration → String
  advanceNonceAccount : Pubkey → Pubkey → Instruction
  setComputeUnitPrice : UInt64 → Instruction
  setComputeUnitLimit : UInt32 → Instruction
  transfer : Pubkey → Pubkey → UInt64 → Instruction
  newMessage : List Instruction → Pubkey → Message
  sign : Message → Hash → ByteArray

def memoProgramId : String := "Fa1CoNWTFZkQaJCuGRLshjJ3n9t6fYsARK3GjdAGjnXx"

/-- What the program relies on in them. -/
structure Host.Documented (host : Host) : Prop where
  base58_no_bar : ∀ bytes, '|' ∉ (host.base58 bytes).toList
  newMessage_keeps : ∀ instructions payer,
    List.Forall₂ (fun (ix : Instruction) (c : CompiledInstruction) ↦
        c.data = ix.data ∧ (host.newMessage instructions payer).accountKeys[c.programIdIndex]? =
          some ix.programId)
      instructions (host.newMessage instructions payer).instructions
  other_programs : ∀ memoProgram, host.parsePubkey memoProgramId = .ok memoProgram →
    (∀ nonce authority, (host.advanceNonceAccount nonce authority).programId ≠ memoProgram) ∧
    (∀ fee, (host.setComputeUnitPrice fee).programId ≠ memoProgram) ∧
    (∀ limit, (host.setComputeUnitLimit limit).programId ≠ memoProgram)

/-! ## The sender's side -/

/-- `count` is what `RANDOM_COUNTER` held before the call. -/
def randomIxPayload (host : Host) (provider : String) (now : Duration) (count : UInt64) :
    ByteArray :=
  let seed := provider ++ "|" ++ host.formatTimestamp now ++ "|" ++ toString count
  let random := host.base58 (host.blake3 seed.toUTF8)
  (provider ++ "|" ++ random).toUTF8

def feeInstructions (host : Host) (prioFee : F64) (cuLimit : UInt32) : List Instruction :=
  if prioFee.isPos then
    [host.setComputeUnitPrice prioFee.toMicro, host.setComputeUnitLimit cuLimit]
  else []

def tipInstructions (host : Host) (endpoint : Endpoint) (authority : Pubkey) :
    Except String (List Instruction) :=
  if endpoint.kind = .custom ∨ endpoint.kind = .soyas then
    match endpoint.tipLamports with
    | some lamports =>
        if 0 < lamports then
          match endpoint.tipWallet with
          | none => .error s!"{endpoint.kind.debug} endpoint {endpoint.name} missing tip_wallet"
          | some wallet =>
              match host.parsePubkey wallet with
              | .error err => .error s!"Invalid tip_wallet for {endpoint.name}: {err}"
              | .ok walletPk => .ok [host.transfer authority walletPk lamports]
        else .ok []
    | none => .ok []
  else .ok []

def buildInstructions (host : Host) (endpoint : Endpoint) (nonceAccount authority : Pubkey)
    (memoText : String) (prioFee : F64) (cuLimit : UInt32) (now : Duration) (count : UInt64) :
    Except String (List Instruction) :=
  match host.parsePubkey memoProgramId with
  | .error err => .error s!"Invalid memo program id: {err}"
  | .ok memoProgram =>
      match tipInstructions host endpoint authority with
      | .error err => .error err
      | .ok tip =>
          .ok (host.advanceNonceAccount nonceAccount authority ::
            (feeInstructions host prioFee cuLimit ++
              ⟨memoProgram, [], randomIxPayload host memoText now count⟩ :: tip))

/-- `random_ix_payload` is reached unless the memo program has no key. -/
def nextCounter (host : Host) (count : UInt64) : UInt64 :=
  match host.parsePubkey memoProgramId with
  | .error _ => count
  | .ok _ => count + 1

/-- The first part of `send_single_tx`: the signed transaction. -/
def buildTransaction (host : Host) (endpoint : Endpoint) (nonceAccount authority : Pubkey)
    (nonceHash : Hash) (prioFee : F64) (cuLimit : UInt32) (now : Duration) (count : UInt64) :
    Except String Transaction :=
  match buildInstructions host endpoint nonceAccount authority endpoint.name prioFee cuLimit
      now count with
  | .error err => .error err
  | .ok instructions =>
      let message := host.newMessage instructions authority
      .ok ⟨[host.sign message nonceHash], message, nonceHash, by simp⟩

/-! ## The listener's side -/

namespace Geyser

structure Message where
  accountKeys : List ByteArray
  instructions : List CompiledInstruction

structure Transaction where
  signatures : List ByteArray
  message : Option Message

structure SubscribeUpdateTransactionInfo where
  transaction : Option Transaction

structure SubscribeUpdateTransaction where
  transaction : Option SubscribeUpdateTransactionInfo

/-- The loop over the instructions: one of the memo program that is no UTF-8
is passed over like one of another program. -/
def findMemo (accountKeys : List ByteArray) (memoProgram : Pubkey) :
    List CompiledInstruction → Option String
  | [] => none
  | inst :: rest =>
      match accountKeys[inst.programIdIndex]? with
      | none => findMemo accountKeys memoProgram rest
      | some pidBytes =>
          if pidBytes = memoProgram.bytes then
            match String.fromUTF8? inst.data with
            | some memo => some memo
            | none => findMemo accountKeys memoProgram rest
          else findMemo accountKeys memoProgram rest

def extractMemo (host : Host) (txMsg : SubscribeUpdateTransaction) (memoProgram : Pubkey) :
    Option (String × String) :=
  txMsg.transaction.bind fun info ↦
    info.transaction.bind fun tx ↦
      tx.signatures.head?.bind fun signatureBytes ↦
        tx.message.bind fun message ↦
          (findMemo message.accountKeys memoProgram message.instructions).map fun memo ↦
            (host.base58 signatureBytes, memo)

/-- The update that reports a transaction as it was sent. -/
def update (tx : LandingBench.Transaction) : SubscribeUpdateTransaction :=
  ⟨some ⟨some ⟨tx.signatures,
    some ⟨tx.message.accountKeys.map Pubkey.bytes, tx.message.instructions⟩⟩⟩⟩

end Geyser
end LandingBench
