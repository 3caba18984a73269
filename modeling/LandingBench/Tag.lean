import LandingBench.Book
import LandingBench.Sdk

/-!
# The tag on its way through the chain

The endpoint's name goes into the payload of the memo instruction, comes back
in a transaction update, and is cut out again by `record_landing`.
-/

namespace LandingBench

open Data

theorem Pubkey.bytes_injective : Function.Injective Pubkey.bytes := by
  rintro ⟨bytes, _⟩ ⟨_, _⟩ rfl
  rfl

namespace Geyser

/-- The first instruction of the memo program is found behind any number of
others, and read back if it is text. -/
theorem findMemo_append {keys : List Pubkey} {memoProgram : Pubkey} {memo : String}
    {front tail : List Instruction} {accounts : List AccountMeta}
    {compiled : List CompiledInstruction}
    (hfront : ∀ ix ∈ front, ix.programId ≠ memoProgram)
    (hkeeps : List.Forall₂ (fun (ix : Instruction) (c : CompiledInstruction) ↦
        c.data = ix.data ∧ keys[c.programIdIndex]? = some ix.programId)
      (front ++ ⟨memoProgram, accounts, memo.toUTF8⟩ :: tail) compiled) :
    findMemo (keys.map Pubkey.bytes) memoProgram compiled = some memo := by
  induction front generalizing compiled with
  | nil =>
      cases hkeeps with
      | @cons _ c _ rest hc _ =>
          obtain ⟨hdata, hkey⟩ := hc
          have hutf8 : String.fromUTF8? c.data = some memo := by
            rw [hdata]
            simp [String.fromUTF8?, memo.isValidUTF8, String.fromUTF8]
          simp [findMemo, hkey, hutf8]
  | cons ix front ih =>
      cases hkeeps with
      | @cons _ c _ rest hc hrest =>
          obtain ⟨-, hkey⟩ := hc
          have hne : ix.programId.bytes ≠ memoProgram.bytes := fun h ↦
            hfront ix List.mem_cons_self (Pubkey.bytes_injective h)
          simp only [findMemo, List.getElem?_map, hkey, Option.map_some, if_neg hne]
          exact ih (fun ix' h ↦ hfront ix' (List.mem_cons_of_mem _ h)) hrest

end Geyser

theorem observedProvider_payload_iff (provider random : String) :
    observedProvider (provider ++ "|" ++ random) = provider ↔ '|' ∉ provider.toList := by
  rw [observedProvider_eq]
  constructor
  · intro h hbar
    rw [← h] at hbar
    exact Text.notMem_beforeFirst '|' _ hbar
  · intro h
    exact Text.beforeFirst_append h random

theorem buildTransaction_message {host : Host} {endpoint : Endpoint}
    {nonceAccount authority : Pubkey} {nonceHash : Hash} {prioFee : F64} {cuLimit : UInt32}
    {now : Duration} {count : UInt64} {tx : Transaction} {memoProgram : Pubkey}
    (hmemo : host.parsePubkey memoProgramId = .ok memoProgram)
    (hbuild : buildTransaction host endpoint nonceAccount authority nonceHash prioFee cuLimit
      now count = .ok tx) :
    ∃ tip, tx.message = host.newMessage
      ((host.advanceNonceAccount nonceAccount authority :: feeInstructions host prioFee cuLimit) ++
        ⟨memoProgram, [], (endpoint.name ++ "|" ++ host.base58 (host.blake3 (endpoint.name ++
          "|" ++ host.formatTimestamp now ++ "|" ++ toString count).toUTF8)).toUTF8⟩ :: tip)
      authority := by
  unfold buildTransaction buildInstructions at hbuild
  rw [hmemo] at hbuild
  cases htip : tipInstructions host endpoint authority with
  | error err => simp [htip] at hbuild
  | ok tip =>
      rw [htip] at hbuild
      obtain rfl := Except.ok.inj hbuild
      exact ⟨tip, rfl⟩

/-- What the listener reads in the update of a transaction that was built. -/
theorem extractMemo_update {host : Host} (hdoc : host.Documented) {endpoint : Endpoint}
    {nonceAccount authority : Pubkey} {nonceHash : Hash} {prioFee : F64} {cuLimit : UInt32}
    {now : Duration} {count : UInt64} {tx : Transaction} {memoProgram : Pubkey}
    (hmemo : host.parsePubkey memoProgramId = .ok memoProgram)
    (hbuild : buildTransaction host endpoint nonceAccount authority nonceHash prioFee cuLimit
      now count = .ok tx) :
    ∃ random, Geyser.extractMemo host (Geyser.update tx) memoProgram =
      some (host.base58 tx.signature, endpoint.name ++ "|" ++ random) := by
  obtain ⟨hnonce, hprice, hlimit⟩ := hdoc.other_programs memoProgram hmemo
  have hfront : ∀ ix ∈ host.advanceNonceAccount nonceAccount authority ::
      feeInstructions host prioFee cuLimit, ix.programId ≠ memoProgram := by
    intro ix hix
    rcases List.mem_cons.mp hix with rfl | hfee
    · exact hnonce _ _
    · unfold feeInstructions at hfee
      split_ifs at hfee
      · rcases List.mem_pair.mp hfee with rfl | rfl
        · exact hprice _
        · exact hlimit _
      · cases hfee
  obtain ⟨tip, hmessage⟩ := buildTransaction_message hmemo hbuild
  have hfound := Geyser.findMemo_append hfront
    (hmessage ▸ hdoc.newMessage_keeps _ authority)
  refine ⟨host.base58 (host.blake3 (endpoint.name ++ "|" ++ host.formatTimestamp now ++ "|" ++
    toString count).toUTF8), ?_⟩
  have hsignature : tx.signatures.head? = some tx.signature := List.head?_eq_some_head tx.signed
  simp [Geyser.extractMemo, Geyser.update, hsignature, hfound]

/-- The update of a transaction gives its signature and a memo from which the
endpoint's name is cut, so that its landing is accepted. -/
def TagSurvives (host : Host) (endpoint : Endpoint) (memoProgram : Pubkey) (tx : Transaction) :
    Prop :=
  ∃ memo, Geyser.extractMemo host (Geyser.update tx) memoProgram =
      some (host.base58 tx.signature, memo) ∧
    observedProvider memo = endpoint.name ∧
      ∀ (book : LandingBook) (send : SendRecord) (elapsed : Duration),
        book.records.sent.lookup (host.base58 tx.signature) = some send →
          send.provider = endpoint.name →
            (book.recordLanding ⟨host.base58 tx.signature, memo, elapsed⟩).2 = true

/-- The tag survives exactly when the endpoint's name has no separator in it. -/
theorem tagSurvives_iff (host : Host) (hdoc : host.Documented) (config : ConfigToml)
    (_hvalid : validateConfig config = .ok ()) (endpoint : Endpoint)
    (_hendpoint : endpoint ∈ config.endpoint) (nonceAccount authority : Pubkey)
    (nonceHash : Hash) (prioFee : F64) (cuLimit : UInt32) (now : Duration) (count : UInt64)
    (memoProgram : Pubkey) (hmemo : host.parsePubkey memoProgramId = .ok memoProgram)
    (tx : Transaction)
    (hbuild : buildTransaction host endpoint nonceAccount authority nonceHash prioFee cuLimit
      now count = .ok tx) :
    TagSurvives host endpoint memoProgram tx ↔ '|' ∉ endpoint.name.toList := by
  obtain ⟨random, hextract⟩ := extractMemo_update hdoc hmemo hbuild
  constructor
  · rintro ⟨memo, hmemo', hprovider, -⟩
    rw [hextract] at hmemo'
    obtain rfl : endpoint.name ++ "|" ++ random = memo := (Prod.mk.inj (Option.some.inj hmemo')).2
    exact (observedProvider_payload_iff _ _).mp hprovider
  · intro hbar
    have hprovider := (observedProvider_payload_iff endpoint.name random).mpr hbar
    refine ⟨_, hextract, hprovider, fun book send elapsed hsent hsend ↦ ?_⟩
    exact (book.recordLanding_eq_true_iff _).mpr ⟨send, hsent, hprovider.trans hsend.symm⟩

/-- What the listener reads of the sample transaction of an endpoint. -/
def sampleReading (name : String) : Except String (Option (String × String)) :=
  (buildTransaction Sample.host (Sample.rpc name) (Sample.pubkey Sample.nonceText)
    Sample.authority Sample.nonce₀ (.finite 0) 1000000 Sample.wallClock 0).map fun tx ↦
      Geyser.extractMemo Sample.host (Geyser.update tx) Sample.memoProgram

theorem sampleReading_ok (name : String) (reading : Option (String × String))
    (h : sampleReading name = .ok reading) :
    ∃ tx, buildTransaction Sample.host (Sample.rpc name) (Sample.pubkey Sample.nonceText)
        Sample.authority Sample.nonce₀ (.finite 0) 1000000 Sample.wallClock 0 = .ok tx ∧
      Geyser.extractMemo Sample.host (Geyser.update tx) Sample.memoProgram = reading := by
  unfold sampleReading at h
  cases hbuild : buildTransaction Sample.host (Sample.rpc name) (Sample.pubkey Sample.nonceText)
      Sample.authority Sample.nonce₀ (.finite 0) 1000000 Sample.wallClock 0 with
  | error err => simp [hbuild, Except.map] at h
  | ok tx =>
      rw [hbuild] at h
      exact ⟨tx, rfl, Except.ok.inj h⟩

theorem tagSurvives_iff_rpc :
    ∃ tx, buildTransaction Sample.host (Sample.rpc "rpc") (Sample.pubkey Sample.nonceText)
        Sample.authority Sample.nonce₀ (.finite 0) 1000000 Sample.wallClock 0 = .ok tx ∧
      TagSurvives Sample.host (Sample.rpc "rpc") Sample.memoProgram tx := by
  obtain ⟨tx, hbuild, -⟩ := sampleReading_ok "rpc" (some
    ("4ceu6ioaVnZhQSnQ8zuQQLfUj2HDeU7shm9PTemAgsSxqahi4q2G6LB2qZ7htoG86cYRRmWwBU5eyLCS4QhQuXqg",
      "rpc|4zryUFoGCKPPqjxDzAF2bpov4wN9EquKocH95XT7PaNQ")) (by decide +kernel)
  exact ⟨tx, hbuild, (tagSurvives_iff Sample.host (Host.sdk_documented _ _)
    (Sample.config 1 [Sample.rpc "rpc"]) (by decide) (Sample.rpc "rpc") (by simp [Sample.config])
    (Sample.pubkey Sample.nonceText) Sample.authority Sample.nonce₀ (.finite 0) 1000000
    Sample.wallClock 0 Sample.memoProgram Sample.parsePubkey_memoProgramId tx hbuild).mpr
      (by decide)⟩

/-- An accepted name with the separator in it comes back cut short. -/
theorem barredName_cut :
    ¬ ∀ (host : Host), host.Documented → ∀ config : ConfigToml, validateConfig config = .ok () →
      ∀ endpoint ∈ config.endpoint, ∀ (nonceAccount authority : Pubkey) (nonceHash : Hash)
        (prioFee : F64) (cuLimit : UInt32) (now : Duration) (count : UInt64)
        (memoProgram : Pubkey), host.parsePubkey memoProgramId = .ok memoProgram →
          ∀ tx, buildTransaction host endpoint nonceAccount authority nonceHash prioFee cuLimit
            now count = .ok tx → TagSurvives host endpoint memoProgram tx := by
  intro h
  obtain ⟨tx, hbuild, hread⟩ := sampleReading_ok "fra|rpc" (some
    ("3EYqCS7vK8qB2jrZk838ivL2JRr51bBkQ2kwXUy5TkkeE871a7d71BNKrcgx94nV3foWLJPGq92Sk256qqtjNev7",
      "fra|rpc|Fz3DVQsBXjevdZgV7gyrC3uzwvKDoC6KjMdVukettzVD")) (by decide +kernel)
  obtain ⟨memo, hmemo, hprovider, -⟩ := h Sample.host (Host.sdk_documented _ _)
    (Sample.config 1 [Sample.rpc "fra|rpc"]) (by decide) (Sample.rpc "fra|rpc")
    (by simp [Sample.config]) _ _ _ _ _ _ _ Sample.memoProgram
    Sample.parsePubkey_memoProgramId tx hbuild
  have hcut : observedProvider "fra|rpc|Fz3DVQsBXjevdZgV7gyrC3uzwvKDoC6KjMdVukettzVD" = "fra" := by
    decide +kernel
  rw [hread] at hmemo
  obtain rfl := (Prod.mk.inj (Option.some.inj hmemo)).2
  rw [hcut] at hprovider
  exact absurd hprovider (by decide)

end LandingBench
