import LandingBench.Data.Base58
import LandingBench.Transaction
import Mathlib.Data.List.Dedup
import Mathlib.Data.List.Sort

/-!
# The crates behind the program

The text of keys, the instructions of the system and compute budget programs,
and the message that a list of instructions is compiled to.  Only hashing and
signing are left open, so whatever they are, the crates do what the program
relies on.
-/

namespace LandingBench

open Data

namespace Sdk

def pubkeyOfBytes (bytes : List UInt8) (h : bytes.length = 32) : Pubkey :=
  ⟨⟨bytes.toArray⟩, by simpa [ByteArray.size] using h⟩

def parsePubkey (s : String) : Except String Pubkey :=
  if 44 < s.utf8ByteSize then .error "String is the wrong size"
  else
    match Base58.decode s with
    | none => .error "Invalid Base58 string"
    | some bytes =>
        if h : bytes.length = 32 then .ok (pubkeyOfBytes bytes h)
        else .error "String is the wrong size"

def base58 (bytes : ByteArray) : String := Base58.encode bytes.data.toList

theorem base58_injective : Function.Injective base58 := by
  intro bytes bytes' h
  have hlist := Base58.encode_injective h
  exact ByteArray.ext (Array.toList_inj.mp hlist)

/-- `11111111111111111111111111111111` -/
def systemProgram : Pubkey := pubkeyOfBytes (List.replicate 32 0) (by simp)

/-- `ComputeBudget111111111111111111111111111111` -/
def computeBudgetProgram : Pubkey :=
  pubkeyOfBytes [3, 6, 70, 111, 229, 33, 23, 50, 255, 236, 173, 186, 114, 195, 155, 231, 188,
    140, 229, 187, 197, 247, 18, 107, 44, 67, 155, 58, 64, 0, 0, 0] rfl

/-- `SysvarRecentB1ockHashes11111111111111111111` -/
def recentBlockhashes : Pubkey :=
  pubkeyOfBytes [6, 167, 213, 23, 25, 44, 86, 142, 224, 138, 132, 95, 115, 210, 151, 136, 207,
    3, 92, 49, 69, 178, 26, 179, 68, 216, 6, 46, 169, 64, 0, 0] rfl

example : parsePubkey "ComputeBudget111111111111111111111111111111" = .ok computeBudgetProgram := by
  decide +kernel

def littleEndian (width n : ℕ) : List UInt8 :=
  (List.range width).map fun i ↦ UInt8.ofNat (n / 256 ^ i)

def instruction (programId : Pubkey) (accounts : List AccountMeta) (data : List UInt8) :
    Instruction :=
  ⟨programId, accounts, ⟨data.toArray⟩⟩

def advanceNonceAccount (nonceAccount authority : Pubkey) : Instruction :=
  instruction systemProgram
    [⟨nonceAccount, false, true⟩, ⟨recentBlockhashes, false, false⟩, ⟨authority, true, false⟩]
    (littleEndian 4 4)

def transfer (source target : Pubkey) (lamports : UInt64) : Instruction :=
  instruction systemProgram [⟨source, true, true⟩, ⟨target, false, true⟩]
    (littleEndian 4 2 ++ littleEndian 8 lamports.toNat)

def setComputeUnitLimit (limit : UInt32) : Instruction :=
  instruction computeBudgetProgram [] (2 :: littleEndian 4 limit.toNat)

def setComputeUnitPrice (microLamports : UInt64) : Instruction :=
  instruction computeBudgetProgram [] (3 :: littleEndian 8 microLamports.toNat)

/-- `{now:.6}` of the seconds, where the code goes through an `f64`: here the time
is rounded as it is, half of a microsecond up. -/
def formatTimestamp (now : Duration) : String :=
  let micros := (now + 500) / 1000
  let digits := toString (micros % 1000000)
  toString (micros / 1000000) ++ "." ++ String.ofList (List.replicate (6 - digits.length) '0') ++
    digits

/-! ## Messages -/

/-- What the instructions ask of every account they mention. -/
def metas (instructions : List Instruction) : List AccountMeta :=
  instructions.flatMap fun ix ↦ ix.accounts ++ [⟨ix.programId, false, false⟩]

/-- The keys in the order of their bytes, as the map of the compiler holds them. -/
def sortedKeys (instructions : List Instruction) (payer : Pubkey) : List Pubkey :=
  (((metas instructions).map AccountMeta.pubkey).dedup.filter (· ≠ payer)).insertionSort
    fun a b ↦ Base58.toNat a.bytes.data.toList ≤ Base58.toNat b.bytes.data.toList

/-- The payer, then the signers, then the others; writable keys come first in
both groups. -/
def accountKeys (instructions : List Instruction) (payer : Pubkey) : List Pubkey :=
  let signs (key : Pubkey) := (metas instructions).any fun m ↦ m.pubkey = key && m.isSigner
  let writes (key : Pubkey) := (metas instructions).any fun m ↦ m.pubkey = key && m.isWritable
  let keys := sortedKeys instructions payer
  payer :: (keys.filter (fun key ↦ signs key && writes key) ++
    keys.filter (fun key ↦ signs key && !writes key) ++
    keys.filter (fun key ↦ !signs key && writes key) ++
    keys.filter (fun key ↦ !signs key && !writes key))

def newMessage (instructions : List Instruction) (payer : Pubkey) : Message :=
  let keys := accountKeys instructions payer
  ⟨keys, instructions.map fun ix ↦ ⟨keys.idxOf ix.programId, ix.data⟩⟩

theorem mem_accountKeys_of_meta {instructions : List Instruction} {m : AccountMeta}
    (h : m ∈ metas instructions) (payer : Pubkey) : m.pubkey ∈ accountKeys instructions payer := by
  rcases eq_or_ne m.pubkey payer with heq | hne
  · rw [heq, accountKeys]
    exact List.mem_cons_self
  · have hsorted : m.pubkey ∈ sortedKeys instructions payer := by
      have hmeta := List.mem_map_of_mem (f := AccountMeta.pubkey) h
      simp only [sortedKeys, List.mem_insertionSort, List.mem_filter, List.mem_dedup, hmeta,
        decide_eq_true_eq, true_and]
      exact hne
    apply List.mem_cons_of_mem _
    simp only [List.mem_append, List.mem_filter, hsorted, true_and]
    generalize ((metas instructions).any fun m' ↦ m'.pubkey = m.pubkey && m'.isSigner) = signs
    generalize ((metas instructions).any fun m' ↦ m'.pubkey = m.pubkey && m'.isWritable) = writes
    cases signs <;> cases writes <;> simp

theorem mem_accountKeys {instructions : List Instruction} {ix : Instruction}
    (h : ix ∈ instructions) (payer : Pubkey) : ix.programId ∈ accountKeys instructions payer := by
  have hmeta : (⟨ix.programId, false, false⟩ : AccountMeta) ∈ metas instructions :=
    List.mem_flatMap.mpr ⟨ix, h, by simp⟩
  exact mem_accountKeys_of_meta hmeta payer

theorem newMessage_keeps (instructions : List Instruction) (payer : Pubkey) :
    List.Forall₂ (fun (ix : Instruction) (c : CompiledInstruction) ↦
        c.data = ix.data ∧ (newMessage instructions payer).accountKeys[c.programIdIndex]? =
          some ix.programId)
      instructions (newMessage instructions payer).instructions := by
  have hkey : ∀ ix ∈ instructions, (accountKeys instructions payer)[
      (accountKeys instructions payer).idxOf ix.programId]? = some ix.programId := fun ix hix ↦ by
    have hlt := List.idxOf_lt_length_iff.mpr (mem_accountKeys hix payer)
    rw [List.getElem?_eq_getElem hlt, List.getElem_idxOf]
  simp only [newMessage, List.forall₂_map_right_iff]
  exact List.forall₂_same.mpr fun ix hix ↦ ⟨rfl, hkey ix hix⟩

end Sdk

/-- The crates around any hash function and any way to sign. -/
def Host.sdk (blake3 : ByteArray → ByteArray) (sign : Message → Hash → ByteArray) : Host where
  parsePubkey := Sdk.parsePubkey
  base58 := Sdk.base58
  blake3 := blake3
  formatTimestamp := Sdk.formatTimestamp
  advanceNonceAccount := Sdk.advanceNonceAccount
  setComputeUnitPrice := Sdk.setComputeUnitPrice
  setComputeUnitLimit := Sdk.setComputeUnitLimit
  transfer := Sdk.transfer
  newMessage := Sdk.newMessage
  sign := sign

theorem Host.sdk_documented (blake3 : ByteArray → ByteArray)
    (sign : Message → Hash → ByteArray) : (Host.sdk blake3 sign).Documented where
  base58_no_bar bytes h := absurd (Base58.toNat_lt_of_mem_encode h) (by decide)
  newMessage_keeps := Sdk.newMessage_keeps
  other_programs memoProgram h := by
    have hsystem : Sdk.parsePubkey memoProgramId ≠ .ok Sdk.systemProgram := by decide +kernel
    have hbudget : Sdk.parsePubkey memoProgramId ≠ .ok Sdk.computeBudgetProgram := by
      decide +kernel
    have hparse : Sdk.parsePubkey memoProgramId = .ok memoProgram := h
    refine ⟨fun nonce authority heq ↦ hsystem ?_, fun fee heq ↦ hbudget ?_,
      fun limit heq ↦ hbudget ?_⟩
    · rw [hparse, ← heq]
      rfl
    · rw [hparse, ← heq]
      rfl
    · rw [hparse, ← heq]
      rfl

/-! ## A sample

Five transactions of one key pair, with the digests and signatures that belong
to them. -/

namespace Sample

def digests : List (String × String) :=
  [("rpc|1700000000.000000|0", "4zryUFoGCKPPqjxDzAF2bpov4wN9EquKocH95XT7PaNQ"),
    ("rpc|1700000000.000000|1", "Hw6Eox4b6EAKCn8dZDgddUuSAKsTDp1s2m9uQUGL8KdY"),
    ("fra|rpc|1700000000.000000|0", "Fz3DVQsBXjevdZgV7gyrC3uzwvKDoC6KjMdVukettzVD"),
    ("soyas|1700000000.000000|0", "FzCMYutZcisChd2Ndaw85MP3mb9qCLbeZbWCv7N2sRvR"),
    ("soyas|1700000000.000000|1", "9EjCGVAbDGhuYzeMKZA2UVXV1nCVavF8iN9TrfxbLpc8")]

def signatures : List (String × String) :=
  [("rpc|4zryUFoGCKPPqjxDzAF2bpov4wN9EquKocH95XT7PaNQ",
      "4ceu6ioaVnZhQSnQ8zuQQLfUj2HDeU7shm9PTemAgsSxqahi4q2G6LB2qZ7htoG86cYRRmWwBU5eyLCS4QhQuXqg"),
    ("rpc|Hw6Eox4b6EAKCn8dZDgddUuSAKsTDp1s2m9uQUGL8KdY",
      "55HkqSiahV793sdaFGWSbLkRv4DFTJMnsFC4hc9wBrVbBLUQLg8E8xi4dc4nmLN6GCQQu9bA8se4LnVSDXZ2wLQZ"),
    ("fra|rpc|Fz3DVQsBXjevdZgV7gyrC3uzwvKDoC6KjMdVukettzVD",
      "3EYqCS7vK8qB2jrZk838ivL2JRr51bBkQ2kwXUy5TkkeE871a7d71BNKrcgx94nV3foWLJPGq92Sk256qqtjNev7"),
    ("soyas|FzCMYutZcisChd2Ndaw85MP3mb9qCLbeZbWCv7N2sRvR",
      "5zRdipHrjMG1T3fy3ZLGpyksiivNpkhvM7fGtb5Cno4hH2dHZ5wEvCgGZG82VFmQVD1taJVBAXzjHUcHeSsr3jpY"),
    ("soyas|9EjCGVAbDGhuYzeMKZA2UVXV1nCVavF8iN9TrfxbLpc8",
      "2FksUwt6sfTJdK98GZ9M3WMN3LKoRvJzDFbtmWKfHn7xbDKKAx8aT3LUThp3XpRVDkk4wia5bjfFa9UM6tbcyn6a")]

def bytes (text : String) : ByteArray := ⟨((Base58.decode text).getD []).toArray⟩

def blake3 (seed : ByteArray) : ByteArray :=
  bytes (((digests.find? fun entry ↦ entry.1.toUTF8 = seed).map Prod.snd).getD "")

def sign (message : Message) (_ : Hash) : ByteArray :=
  bytes (((signatures.find? fun entry ↦
    message.instructions.any fun ix ↦ ix.data = entry.1.toUTF8).map Prod.snd).getD "")

def host : Host := Host.sdk blake3 sign

def pubkey (text : String) : Pubkey :=
  match Sdk.parsePubkey text with
  | .ok key => key
  | .error _ => Sdk.systemProgram

def authority : Pubkey := pubkey "kNZ9uxMvkGNEZq4pp6qMhQ8duMEhtxaCEw5j8xbZYeK"

def nonceText : String := "GLAajnheyfVTTgDUDFoRa79K7hR2D6PmSwpws5Td3hSN"

def memoProgram : Pubkey := pubkey memoProgramId

theorem parsePubkey_nonceText : host.parsePubkey nonceText = .ok (pubkey nonceText) := by
  decide +kernel

theorem parsePubkey_memoProgramId : host.parsePubkey memoProgramId = .ok memoProgram := by
  decide +kernel

def nonceHash (text : String) : Hash := ⟨(pubkey text).bytes, (pubkey text).size_eq⟩

def nonce₀ : Hash := nonceHash "9VwmX1m1JSq1ySn5tVTuJTX3c5xFLJTjci6pojfz13FX"

def nonce₁ : Hash := nonceHash "7pTKGMeCnKKEJd1bP2D6dWdx54ZPikrELkHQCcAh76y1"

def rpc (name : String) : Endpoint :=
  ⟨name, "https://api.mainnet-beta.solana.com", .rpc, none, none, none⟩

def soyas (name url apiKey : String) : Endpoint :=
  ⟨name, url, .soyas, some 1000000, some "soyascXFW5wEEYiwfEmHy2pNwomqzvggJosGVD6TJdY", some apiKey⟩

def soyasFra (name : String) : Endpoint :=
  soyas name "fra.landing.soyas.xyz:9000"
    "LneSSbrVBeJ1HF3She1ikw6QEQb366fsgZ7k5V53ezMLNvZ1ykvwPk7jRuVpvR9QGsp5DVvdvDcmr6jXPTaCREp"

def soyasAms (name : String) : Endpoint :=
  soyas name "ams.landing.soyas.xyz:9000"
    "Qumi8WD9HJNdMfTeXhJEvXcmQyPNJ8qBDbpXzLGP6wztyawsnJWztLU2YKuLhjpgvf81okdURvxopgxNngJJSFs"

def config (transactions : ℕ) (endpoint : List Endpoint) : ConfigToml where
  config :=
    { utilityRpc := "https://api.mainnet-beta.solana.com"
      transactions := transactions
      delayMs := 50
      commitment := .processed
      nonceAccount := nonceText
      landingGraceMs := 10000
      prioFee := .finite 0
      computeUnitLimit := 1000000 }
  grpc := ⟨"yellowstone", "https://grpc.example.org", none, .yellowstone⟩
  endpoint := endpoint

/-- What a test reads on the wall clock. -/
def wallClock : Duration := 1700000000 * 1000000000

end Sample
end LandingBench
