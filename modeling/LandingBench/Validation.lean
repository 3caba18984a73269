import LandingBench.Sdk

/-!
# The validator and the builder

`validate_config` asks for a tip wallet, and `build_instructions` for one that
is a key.  Between the two there are configurations that are accepted, and
whose endpoints never send.
-/

namespace LandingBench

open Data

/-- The text of 32 bytes in base 58. -/
def IsKeyText (text : String) : Prop := ∃ bytes, Base58.decode text = some bytes ∧ bytes.length = 32

/-- What the program relies on in `Pubkey::from_str`. -/
def Host.ParsesKeys (host : Host) : Prop :=
  ∀ text, (∃ key, host.parsePubkey text = .ok key) ↔ IsKeyText text

theorem isKeyText_memoProgramId : IsKeyText memoProgramId := by
  have hdecode : (Base58.decode memoProgramId).map List.length = some 32 := by decide +kernel
  exact Option.map_eq_some_iff.mp hdecode

/-- The text of a key has at most 44 symbols. -/
theorem IsKeyText.utf8ByteSize_le {text : String} (h : IsKeyText text) :
    text.utf8ByteSize ≤ 44 := by
  obtain ⟨bytes, hdecode, hlength⟩ := h
  obtain ⟨ones, rest, hsize, hones, hrest⟩ := Base58.length_of_decode hdecode
  rw [hlength] at hones hrest
  have hbound : ∀ ones ≤ 32, 256 ^ (32 - ones) ≤ 58 ^ (44 - ones) := by decide
  rcases hrest with rfl | hlt
  · omega
  · have hpow := (Nat.pow_lt_pow_iff_right (by norm_num)).mp (hlt.trans_le (hbound ones hones))
    omega

theorem Sdk.parsesKeys (blake3 : ByteArray → ByteArray) (sign : Message → Hash → ByteArray) :
    (Host.sdk blake3 sign).ParsesKeys := by
  intro text
  change (∃ key, Sdk.parsePubkey text = .ok key) ↔ IsKeyText text
  constructor
  · rintro ⟨key, hkey⟩
    unfold Sdk.parsePubkey at hkey
    split_ifs at hkey
    split at hkey
    · cases hkey
    · rename_i bytes hdecode
      split_ifs at hkey with hlength
      exact ⟨bytes, hdecode, hlength⟩
  · intro h
    have hsize := h.utf8ByteSize_le
    obtain ⟨bytes, hdecode, hlength⟩ := h
    refine ⟨Sdk.pubkeyOfBytes bytes hlength, ?_⟩
    rw [Sdk.parsePubkey, if_neg (by omega), hdecode]
    simp [hlength]

/-- The instructions can be built for every account and fee. -/
def Endpoint.Builds (host : Host) (endpoint : Endpoint) : Prop :=
  ∀ nonceAccount authority memoText prioFee cuLimit now count, ∃ instructions,
    buildInstructions host endpoint nonceAccount authority memoText prioFee cuLimit now count =
      .ok instructions

/-- The tip goes to a key. -/
def Endpoint.TipsKey (endpoint : Endpoint) : Prop :=
  endpoint.kind ≠ .rpc → ∃ wallet, endpoint.tipWallet = some wallet ∧ IsKeyText wallet

/-- What the validator asks of an endpoint that tips. -/
theorem validateEndpoint_tip {endpoint : Endpoint} (h : validateEndpoint endpoint = .ok ())
    (hkind : endpoint.kind ≠ .rpc) :
    ∃ lamports wallet, endpoint.tipLamports = some lamports ∧ 0 < lamports ∧
      endpoint.tipWallet = some wallet := by
  unfold validateEndpoint at h
  have htip : endpoint.tipLamports.getD 0 ≠ 0 ∧ endpoint.tipWallet.isNone = false := by
    cases hk : endpoint.kind with
    | rpc => exact absurd hk hkind
    | custom =>
        rw [hk] at h
        dsimp only at h
        split_ifs at h with hlamports hwallet
        exact ⟨hlamports, Bool.eq_false_iff.mpr hwallet⟩
    | soyas =>
        rw [hk] at h
        dsimp only at h
        split_ifs at h with hkey hlamports hwallet
        exact ⟨hlamports, Bool.eq_false_iff.mpr hwallet⟩
  obtain ⟨hlamports, hwallet⟩ := htip
  cases hl : endpoint.tipLamports with
  | none => simp [hl] at hlamports
  | some lamports =>
      cases hw : endpoint.tipWallet with
      | none => simp [hw] at hwallet
      | some wallet =>
          rw [hl, Option.getD_some] at hlamports
          exact ⟨lamports, wallet, rfl, UInt64.pos_iff_ne_zero.mpr hlamports, rfl⟩

theorem tipInstructions_rpc (host : Host) {endpoint : Endpoint} (hkind : endpoint.kind = .rpc)
    (authority : Pubkey) : tipInstructions host endpoint authority = .ok [] := by
  simp [tipInstructions, hkind]

theorem tipInstructions_of_tip (host : Host) {endpoint : Endpoint} (hkind : endpoint.kind ≠ .rpc)
    {lamports : UInt64} (hlamports : endpoint.tipLamports = some lamports) (hpos : 0 < lamports)
    {wallet : String} (hwallet : endpoint.tipWallet = some wallet) (authority : Pubkey) :
    tipInstructions host endpoint authority =
      match host.parsePubkey wallet with
      | .error err => .error s!"Invalid tip_wallet for {endpoint.name}: {err}"
      | .ok walletPk => .ok [host.transfer authority walletPk lamports] := by
  have htips : endpoint.kind = .custom ∨ endpoint.kind = .soyas := by
    cases hk : endpoint.kind with
    | rpc => exact absurd hk hkind
    | custom => exact .inl rfl
    | soyas => exact .inr rfl
  cases hkey : host.parsePubkey wallet with
  | error err => simp only [tipInstructions, htips, hlamports, hpos, hwallet, hkey, if_true]
  | ok walletPk => simp only [tipInstructions, htips, hlamports, hpos, hwallet, hkey, if_true]

/-- Only the tip can fail. -/
theorem buildInstructions_ok_iff {host : Host} (hkeys : host.ParsesKeys) (endpoint : Endpoint)
    (nonceAccount authority : Pubkey) (memoText : String) (prioFee : F64) (cuLimit : UInt32)
    (now : Duration) (count : UInt64) :
    (∃ instructions, buildInstructions host endpoint nonceAccount authority memoText prioFee
      cuLimit now count = .ok instructions) ↔
        ∃ tip, tipInstructions host endpoint authority = .ok tip := by
  obtain ⟨memoProgram, hmemo⟩ := (hkeys memoProgramId).mpr isKeyText_memoProgramId
  simp only [buildInstructions, hmemo]
  cases tipInstructions host endpoint authority with
  | error err => simp
  | ok tip => simp

/-- An accepted endpoint builds exactly when its tip goes to a key. -/
theorem builds_iff {host : Host} (hkeys : host.ParsesKeys) {endpoint : Endpoint}
    (hvalid : validateEndpoint endpoint = .ok ()) :
    endpoint.Builds host ↔ endpoint.TipsKey := by
  by_cases hkind : endpoint.kind = .rpc
  · refine iff_of_true (fun _ authority _ _ _ _ _ ↦ ?_) fun hne ↦ absurd hkind hne
    rw [buildInstructions_ok_iff hkeys]
    exact ⟨[], tipInstructions_rpc host hkind authority⟩
  · obtain ⟨lamports, wallet, hlamports, hpos, hwallet⟩ := validateEndpoint_tip hvalid hkind
    have htip := tipInstructions_of_tip host hkind hlamports hpos hwallet
    have hparsed : ∀ authority, (∃ tip, tipInstructions host endpoint authority = .ok tip) ↔
        ∃ key, host.parsePubkey wallet = .ok key := by
      intro authority
      rw [htip authority]
      cases host.parsePubkey wallet with
      | error err => simp
      | ok key => simp
    have htips : endpoint.TipsKey ↔ IsKeyText wallet := by
      simp [Endpoint.TipsKey, hkind, hwallet]
    rw [htips, ← hkeys]
    constructor
    · intro h
      obtain ⟨memoProgram, -⟩ := (hkeys memoProgramId).mpr isKeyText_memoProgramId
      exact (hparsed memoProgram).mp ((buildInstructions_ok_iff hkeys _ _ _ _ _ _ _ _).mp
        (h memoProgram memoProgram "" (.finite 0) 0 0 0))
    · intro h _ authority _ _ _ _ _
      rw [buildInstructions_ok_iff hkeys]
      exact (hparsed authority).mpr h

end LandingBench
