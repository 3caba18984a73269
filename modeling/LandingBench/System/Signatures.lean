import LandingBench.Payload
import LandingBench.System.Provenance
import LandingBench.System.RoundIds
import LandingBench.Tag

/-!
# Signatures of a run

A transaction is named by its signature everywhere in the program.  The counter
in its payload makes the message another one each time, whatever the endpoint,
the nonce and the clock are.
-/

namespace LandingBench

open Async Data Ledger

/-- The transaction was built with the payload of the call at `k`. -/
def Handed.FromCall (env : Env) (calls : List PayloadCall) (h : Handed) (k : ℕ) : Prop :=
  ∃ call nonceHash, calls[k]? = some call ∧ call.provider = h.endpoint.name ∧
    buildTransaction env.host h.endpoint env.nonceAccount env.authority nonceHash
      env.config.config.prioFee env.config.config.computeUnitLimit call.now (UInt64.ofNat k) =
        .ok h.tx

theorem Handed.FromCall.append {env : Env} {calls : List PayloadCall} {h : Handed} {k : ℕ}
    (hfrom : h.FromCall env calls k) (later : List PayloadCall) :
    h.FromCall env (calls ++ later) k := by
  obtain ⟨call, nonceHash, hcall, hrest⟩ := hfrom
  refine ⟨call, nonceHash, ?_, hrest⟩
  rw [List.getElem?_append_left (List.getElem?_eq_some_iff.mp hcall).1, hcall]

/-- The payload is found at one place in all messages of a run. -/
theorem payload_eq_of_message_eq {host : Host} (hdoc : host.Documented)
    {front : List Instruction} {memo memo' : Instruction} {tip tip' : List Instruction}
    {authority : Pubkey}
    (h : host.newMessage (front ++ memo :: tip) authority =
      host.newMessage (front ++ memo' :: tip') authority) : memo.data = memo'.data := by
  have hdata : ∀ instructions, (host.newMessage instructions authority).instructions.map
      CompiledInstruction.data = instructions.map Instruction.data := by
    intro instructions
    have hkeeps := hdoc.newMessage_keeps instructions authority
    generalize (host.newMessage instructions authority).instructions = compiled at hkeeps
    generalize host.newMessage instructions authority = message at hkeeps
    induction hkeeps with
    | nil => rfl
    | cons hhead _ ih => rw [List.map_cons, List.map_cons, hhead.1, ih]
  have hlists := hdata (front ++ memo :: tip)
  rw [h, hdata] at hlists
  simp only [List.map_append, List.map_cons] at hlists
  have hcons := List.append_cancel_left hlists
  exact (List.cons.inj hcons).1.symm

theorem getElem?_counted (count : UInt64) {calls : List PayloadCall} {k : ℕ} {call : PayloadCall}
    (h : calls[k]? = some call) :
    (counted count calls)[k]? = some (call, count + UInt64.ofNat k) := by
  induction calls generalizing count k with
  | nil => simp at h
  | cons first rest ih =>
      cases k with
      | zero =>
          obtain rfl : first = call := by simpa using h
          simp [counted]
      | succ k =>
          rw [counted, List.getElem?_cons_succ, ih (count + 1) (by simpa using h), UInt64.ofNat_add,
            UInt64.add_assoc, UInt64.add_comm 1]
          rfl

/-- The seed of the transaction's payload is one of the run's. -/
theorem mem_seeds (host : Host) {calls : List PayloadCall} {k : ℕ} {call : PayloadCall}
    (h : calls[k]? = some call) : call.seed host (UInt64.ofNat k) ∈ seeds host 0 calls := by
  have hentry := List.mem_of_getElem? (getElem?_counted 0 h)
  rw [UInt64.zero_add] at hentry
  exact List.mem_map_of_mem (f := fun entry ↦ entry.1.seed host entry.2) hentry

/-- Equal messages are of one call. -/
theorem Handed.FromCall.index_eq {env : Env} {calls : List PayloadCall} {h h' : Handed} {k k' : ℕ}
    (hdoc : env.host.Documented) (hbase58 : Function.Injective env.host.base58)
    (hcalls : calls.length < 2 ^ 64)
    (hblake3 : ∀ seed ∈ seeds env.host 0 calls, ∀ seed' ∈ seeds env.host 0 calls,
      env.host.blake3 seed.toUTF8 = env.host.blake3 seed'.toUTF8 → seed = seed')
    (hfrom : h.FromCall env calls k) (hfrom' : h'.FromCall env calls k')
    (hmessage : h.tx.message = h'.tx.message) : k = k' := by
  obtain ⟨call, nonceHash, hcall, hname, hbuild⟩ := hfrom
  obtain ⟨call', nonceHash', hcall', hname', hbuild'⟩ := hfrom'
  obtain ⟨tip, htx⟩ := buildTransaction_message env.memoProgram_eq hbuild
  obtain ⟨tip', htx'⟩ := buildTransaction_message env.memoProgram_eq hbuild'
  rw [← hname] at htx
  rw [← hname'] at htx'
  have hpayload : call.payload env.host (UInt64.ofNat k) =
      call'.payload env.host (UInt64.ofNat k') :=
    payload_eq_of_message_eq hdoc (htx.symm.trans (hmessage.trans htx'))
  have hseed : call.seed env.host (UInt64.ofNat k) = call'.seed env.host (UInt64.ofNat k') := by
    apply hblake3 _ (mem_seeds env.host hcall) _ (mem_seeds env.host hcall')
    exact PayloadCall.digest_eq_of_payload_eq hdoc.base58_no_bar hbase58 hpayload
  have hcount := congrArg UInt64.toNat (PayloadCall.count_eq_of_seed_eq hseed)
  have hk := (List.getElem?_eq_some_iff.mp hcall).1
  have hk' := (List.getElem?_eq_some_iff.mp hcall').1
  rwa [UInt64.toNat_ofNat_of_lt' (show k < 2 ^ 64 by omega),
    UInt64.toNat_ofNat_of_lt' (show k' < 2 ^ 64 by omega)] at hcount

namespace World

variable {env : Env} {w w' : World} {calls : List PayloadCall}

/-- The payload that a first poll asks for. -/
def polled? (w : World) : Act → Option PayloadCall
  | .send i (.poll clock) =>
      (w.sends[i]?).bind fun task ↦
        if (w.shutdown.tryRecv task.shutdownRx).1.isOk then none
        else some ⟨task.endpoint.name, clock⟩
  | _ => none

def payloadCalls (env : Env) (as : List Act) : List PayloadCall := env.machine.outputs polled? as

theorem nextCounter_eq (env : Env) (count : UInt64) : nextCounter env.host count = count + 1 := by
  simp [nextCounter, env.memoProgram_eq]

/-- The counter has counted the calls, and every transaction has one of its own. -/
structure Numbered (env : Env) (calls : List PayloadCall) (w : World) : Prop where
  counter : w.randomCounter = UInt64.ofNat calls.length
  numbers : ∃ ks : List ℕ, ks.Pairwise (· < ·) ∧ (∀ k ∈ ks, k < calls.length) ∧
    List.Forall₂ (fun h k ↦ Handed.FromCall env calls h k) w.handed ks

theorem Numbered.congr (h : Numbered env calls w) (hcounter : w'.randomCounter = w.randomCounter)
    (hhanded : w'.handed = w.handed) : Numbered env calls w' where
  counter := hcounter.trans h.counter
  numbers := hhanded ▸ h.numbers

/-- A step that asks for no payload. -/
theorem Numbered.unpolled (h : Numbered env calls w) {act : Act} (hpolled : w.polled? act = none)
    (hcounter : w'.randomCounter = w.randomCounter) (hhanded : w'.handed = w.handed) :
    Numbered env (calls ++ (w.polled? act).toList) w' := by
  rw [hpolled, Option.toList_none, List.append_nil]
  exact h.congr hcounter hhanded

/-- A call whose payload gets nowhere. -/
theorem Numbered.wasted (h : Numbered env calls w) (call : PayloadCall)
    (hcounter : w'.randomCounter = nextCounter env.host w.randomCounter)
    (hhanded : w'.handed = w.handed) : Numbered env (calls ++ [call]) w' := by
  obtain ⟨ks, hsorted, hbound, hall⟩ := h.numbers
  constructor
  · rw [hcounter, nextCounter_eq, h.counter, List.length_append, UInt64.ofNat_add]
    rfl
  · refine ⟨ks, hsorted, fun k hmem ↦ ?_, ?_⟩
    · rw [List.length_append]
      exact Nat.lt_add_right _ (hbound k hmem)
    · rw [hhanded]
      exact hall.imp fun _ _ hfrom ↦ hfrom.append [call]

/-- A call whose payload goes out. -/
theorem Numbered.hand (h : Numbered env calls w) {call : PayloadCall} {entry : Handed}
    {nonceHash : Hash} (hname : call.provider = entry.endpoint.name)
    (hbuild : buildTransaction env.host entry.endpoint env.nonceAccount env.authority nonceHash
      env.config.config.prioFee env.config.config.computeUnitLimit call.now w.randomCounter =
        .ok entry.tx)
    (hcounter : w'.randomCounter = nextCounter env.host w.randomCounter)
    (hhanded : w'.handed = w.handed ++ [entry]) : Numbered env (calls ++ [call]) w' := by
  obtain ⟨ks, hsorted, hbound, hall⟩ := h.numbers
  constructor
  · rw [hcounter, nextCounter_eq, h.counter, List.length_append, UInt64.ofNat_add]
    rfl
  · -- the number of the new one is that of the calls before it
    refine ⟨ks ++ [calls.length], ?_, fun k hmem ↦ ?_, ?_⟩
    · refine List.pairwise_append.mpr ⟨hsorted, List.pairwise_singleton _ _, ?_⟩
      intro k hk k' hk'
      obtain rfl := List.mem_singleton.mp hk'
      exact hbound k hk
    · rw [List.length_append, List.length_singleton]
      rcases List.mem_append.mp hmem with hold | hnew
      · exact Nat.lt_succ_of_lt (hbound k hold)
      · obtain rfl := List.mem_singleton.mp hnew
        exact Nat.lt_succ_self _
    · rw [hhanded]
      refine List.rel_append (hall.imp fun _ _ hfrom ↦ hfrom.append [call]) (.cons ?_ .nil)
      exact ⟨call, nonceHash, by simp, hname, h.counter ▸ hbuild⟩

theorem Numbered.sendMove {i : ℕ} {act : SendAct} (h : Numbered env calls w)
    (hmove : SendMove env w i act w') :
    Numbered env (calls ++ (w.polled? (.send i act)).toList) w' := by
  have hpolled : ∀ task clock, w.sends[i]? = some task →
      (w.shutdown.tryRecv task.shutdownRx).1.isOk = false →
        w.polled? (.send i (.poll clock)) = some ⟨task.endpoint.name, clock⟩ := by
    intro task clock hget hsignal
    simp [polled?, hget, hsignal]
  cases hmove with
  | declined task clock pc get stage signal =>
      exact h.unpolled (by simp [polled?, get, signal]) rfl rfl
  | unbuilt task clock err pc get stage signal build =>
      rw [hpolled task clock get signal]
      exact h.wasted _ rfl rfl
  | clientless task clock tx pc get stage signal build sender =>
      rw [hpolled task clock get signal]
      exact h.wasted _ rfl rfl
  | handed task clock tx client pc get stage signal build sender =>
      rw [hpolled task clock get signal]
      exact h.hand rfl build rfl rfl
  | sent | unsent | recorded | waited => exact h.unpolled rfl rfl rfl

theorem Numbered.move {act : Act} (h : Numbered env calls w) (hmove : Move env w act w') :
    Numbered env (calls ++ (w.polled? act).toList) w' := by
  cases hmove with
  | send move => exact h.sendMove move
  | tick d => exact h.unpolled rfl rfl rfl
  | listener move =>
      rw [move.frame]
      exact h.unpolled rfl rfl rfl
  | memo move =>
      rw [move.frame]
      exact h.unpolled rfl rfl rfl
  | ctrlC move =>
      rw [move.frame]
      exact h.unpolled rfl rfl rfl
  | main move =>
      rw [move.frame]
      exact h.unpolled rfl rfl rfl

theorem numbered {as : List Act} (hrun : env.machine.run as = some w) :
    Numbered env (payloadCalls env as) w := by
  refine env.machine.run_induction (motive := fun as w ↦ Numbered env (payloadCalls env as) w)
    ⟨rfl, [], List.Pairwise.nil, by simp, .nil⟩ ?_ hrun
  intro as a s t hs ih hstep
  rw [payloadCalls, env.machine.outputs_snoc polled? hs]
  exact ih.move (World.move hstep)

/-- No two transactions of a run have one signature, and the book is never told
of one of them twice, as long as the hash function and the key keep apart what
this run gives them. -/
theorem handed_signatures_nodup (env : Env) (as : List Act) (w : World)
    (hrun : env.machine.run as = some w) (hdoc : env.host.Documented)
    (hbase58 : Function.Injective env.host.base58)
    (hcalls : (payloadCalls env as).length < 2 ^ 64)
    (hblake3 : ∀ seed ∈ seeds env.host 0 (payloadCalls env as),
      ∀ seed' ∈ seeds env.host 0 (payloadCalls env as),
        env.host.blake3 seed.toUTF8 = env.host.blake3 seed'.toUTF8 → seed = seed')
    (hsign : ∀ h ∈ w.handed, ∀ h' ∈ w.handed, h.tx.signature = h'.tx.signature →
      h.tx.message = h'.tx.message) :
    (w.handedSignatures env).Nodup ∧ (recordedSignatures w.log).Nodup := by
  suffices hnodup : (w.handedSignatures env).Nodup from
    ⟨hnodup, (traced hrun).nodup_recorded hnodup⟩
  obtain ⟨ks, hsorted, -, hall⟩ := (numbered hrun).numbers
  rw [handedSignatures, List.Nodup, List.pairwise_map, List.pairwise_iff_getElem]
  intro i j hi hj hlt hsame
  have hlength := hall.length_eq
  have hfrom := (List.forall₂_iff_get.mp hall).2
  have hmessage : w.handed[i].tx.message = w.handed[j].tx.message :=
    hsign _ (List.getElem_mem hi) _ (List.getElem_mem hj) (hbase58 hsame)
  have hindex := (hfrom i hi (by omega)).index_eq hdoc hbase58 hcalls hblake3
    (hfrom j hj (by omega)) hmessage
  have hdistinct := List.pairwise_iff_getElem.mp hsorted i j (by omega) (by omega) hlt
  exact absurd hindex hdistinct.ne

theorem handed_signatures_nodup_twoNonces :
    ∃ w, (Sample.rpcEnv 2).machine.run twoNonces = some w ∧
      w.handed.length = 2 ∧ (w.handedSignatures (Sample.rpcEnv 2)).Nodup := by
  have hcalls : payloadCalls (Sample.rpcEnv 2) twoNonces =
      [⟨"rpc", Sample.wallClock⟩, ⟨"rpc", Sample.wallClock⟩] := by decide +kernel
  have hrun : ((Sample.rpcEnv 2).machine.run twoNonces).map (fun w ↦ (w.handed.length,
      decide (∀ h ∈ w.handed, ∀ h' ∈ w.handed, h.tx.signature = h'.tx.signature →
        h.tx.message = h'.tx.message))) = some (2, true) := by decide +kernel
  obtain ⟨w, hw, hpair⟩ := Option.map_eq_some_iff.mp hrun
  obtain ⟨hlength, hsign⟩ := Prod.mk.inj hpair
  refine ⟨w, hw, hlength, ?_⟩
  apply (handed_signatures_nodup _ twoNonces w hw (Host.sdk_documented _ _)
    Sdk.base58_injective ?_ ?_ (of_decide_eq_true hsign)).1
  · rw [hcalls]
    decide
  · rw [hcalls]
    decide +kernel

end World
end LandingBench
