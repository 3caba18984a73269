import LandingBench.Data.Text
import LandingBench.Sdk

/-!
# Payloads of one run

A payload ends with a digest, whose seed ends with the counter.  The separator
before either of them is the last one, whatever stands in front of it.
-/

namespace LandingBench

open Data

/-- A call of `random_ix_payload` and what the clock shows to it. -/
structure PayloadCall where
  provider : String
  now : Duration
  deriving DecidableEq, Repr

/-- The calls of a run with what `fetch_add` gives to each of them. -/
def counted : UInt64 → List PayloadCall → List (PayloadCall × UInt64)
  | _, [] => []
  | count, call :: rest => (call, count) :: counted (count + 1) rest

/-- The text that is hashed. -/
def PayloadCall.seed (host : Host) (call : PayloadCall) (count : UInt64) : String :=
  call.provider ++ "|" ++ host.formatTimestamp call.now ++ "|" ++ toString count

def PayloadCall.payload (host : Host) (call : PayloadCall) (count : UInt64) : ByteArray :=
  randomIxPayload host call.provider call.now count

/-- What the calls of a run hash, in their order. -/
def seeds (host : Host) (count : UInt64) (calls : List PayloadCall) : List String :=
  (counted count calls).map fun entry ↦ entry.1.seed host entry.2

/-- What the calls of a run return, in their order. -/
def payloads (host : Host) (count : UInt64) (calls : List PayloadCall) : List ByteArray :=
  (counted count calls).map fun entry ↦ entry.1.payload host entry.2

theorem bar_notMem_toString (count : UInt64) : '|' ∉ (toString count).toList := by
  intro h
  have hdigit : Char.isDigit '|' = true :=
    Nat.isDigit_of_mem_toDigits (b := 10) (n := count.toNat) (by decide) (by decide) (by
      rw [← Nat.toList_repr]
      exact h)
  cases hdigit

theorem toString_uint64_injective {count count' : UInt64} (h : toString count = toString count') :
    count = count' :=
  UInt64.toNat_inj.mp (Nat.repr_injective h)

/-- The counter is read off the right end of the seed. -/
theorem PayloadCall.count_eq_of_seed_eq {host : Host} {call call' : PayloadCall}
    {count count' : UInt64} (h : call.seed host count = call'.seed host count') :
    count = count' :=
  toString_uint64_injective
    (Text.append_sep_inj (bar_notMem_toString count) (bar_notMem_toString count') h).2

/-- The digest is read off the right end of the payload. -/
theorem PayloadCall.digest_eq_of_payload_eq {host : Host}
    (hbar : ∀ bytes, '|' ∉ (host.base58 bytes).toList)
    (hbase58 : Function.Injective host.base58) {call call' : PayloadCall} {count count' : UInt64}
    (h : call.payload host count = call'.payload host count') :
    host.blake3 (call.seed host count).toUTF8 = host.blake3 (call'.seed host count').toUTF8 := by
  have htext := String.toByteArray_inj.mp h
  exact hbase58 (Text.append_sep_inj (hbar _) (hbar _) htext).2

theorem exists_of_mem_counted {count : UInt64} {calls : List PayloadCall}
    {entry : PayloadCall × UInt64} (h : entry ∈ counted count calls) :
    ∃ i < calls.length, entry.2 = count + UInt64.ofNat i := by
  induction calls generalizing count with
  | nil => cases h
  | cons call rest ih =>
      rcases List.mem_cons.mp h with rfl | hrest
      · exact ⟨0, by simp, by simp⟩
      · obtain ⟨i, hi, heq⟩ := ih hrest
        refine ⟨i + 1, by simpa using hi, ?_⟩
        rw [heq, UInt64.ofNat_add, UInt64.add_assoc, UInt64.add_comm 1]
        rfl

/-- The counter does not come round in fewer than `2 ^ 64` calls. -/
theorem nodup_counts {count : UInt64} {calls : List PayloadCall} (h : calls.length < 2 ^ 64) :
    ((counted count calls).map Prod.snd).Nodup := by
  induction calls generalizing count with
  | nil => exact List.nodup_nil
  | cons call rest ih =>
      rw [List.length_cons] at h
      rw [counted, List.map_cons, List.nodup_cons]
      refine ⟨fun hmem ↦ ?_, ih (by omega)⟩
      obtain ⟨entry, hentry, heq⟩ := List.mem_map.mp hmem
      obtain ⟨i, hi, hcount⟩ := exists_of_mem_counted hentry
      have hround := congrArg UInt64.toNat (heq.symm.trans hcount)
      have hlt := count.toNat_lt
      have hi' : (UInt64.ofNat i).toNat = i := UInt64.toNat_ofNat_of_lt' (show i < 2 ^ 64 by omega)
      simp only [UInt64.toNat_add, UInt64.toNat_ofNat, hi'] at hround
      omega

/-- Payloads of one run never collide. -/
theorem payloads_nodup (host : Host) (hbase58 : Function.Injective host.base58)
    (hbar : ∀ bytes, '|' ∉ (host.base58 bytes).toList) (count : UInt64)
    (calls : List PayloadCall) (hcalls : calls.length < 2 ^ 64)
    (hblake3 : ∀ seed ∈ seeds host count calls, ∀ seed' ∈ seeds host count calls,
      host.blake3 seed.toUTF8 = host.blake3 seed'.toUTF8 → seed = seed') :
    (payloads host count calls).Nodup := by
  apply List.Nodup.map_on _ (List.Nodup.of_map Prod.snd (nodup_counts hcalls))
  intro entry hentry entry' hentry' heq
  have hseed : entry.1.seed host entry.2 = entry'.1.seed host entry'.2 := by
    apply hblake3 _ (List.mem_map_of_mem hentry) _ (List.mem_map_of_mem hentry')
    exact PayloadCall.digest_eq_of_payload_eq hbar hbase58 heq
  exact List.inj_on_of_nodup_map (nodup_counts hcalls) hentry hentry'
    (PayloadCall.count_eq_of_seed_eq hseed)

/-- One endpoint twice in the same microsecond. -/
theorem payloads_nodup_twice :
    (payloads Sample.host 0 [⟨"rpc", Sample.wallClock⟩, ⟨"rpc", Sample.wallClock⟩]).Nodup :=
  payloads_nodup Sample.host (Sdk.base58_injective) (Host.sdk_documented _ _).base58_no_bar 0 _
    (by decide) (by decide +kernel)

end LandingBench
