import LandingBench.Senders.SoyasClient

/-!
# What the calls of the Soyas client deliver

The mutex keeps the handshakes apart, so the shared connection only ever gets
newer, and a second attempt goes to a newer connection than the first.  A call
returns `Ok` for the one stream that it finished, and an error if there is none.
-/

namespace LandingBench.Soyas

open Async Data

namespace CallPc

/-- The call owns the guard of `reconnect`. -/
def holds : CallPc → Bool
  | connectWith => true
  | store _ => true
  | called => false
  | openUni _ _ => false
  | writeAll _ _ _ => false
  | tryLock => false
  | loadFull => false
  | returned _ => false

/-- How often the call may still load the connection. -/
def loadsLeft : CallPc → ℕ
  | called => 2
  | openUni .first _ => 1
  | writeAll .first _ _ => 1
  | tryLock => 1
  | connectWith => 1
  | store _ => 1
  | loadFull => 1
  | openUni .second _ => 0
  | writeAll .second _ _ => 0
  | returned _ => 0

/-- The connection on which a stream is being opened. -/
def opening : CallPc → List ℕ
  | openUni _ connection => [connection]
  | _ => []

/-- The transaction has been serialized. -/
def HasPayload : CallPc → Prop
  | called => False
  | returned (.error (.serialize _)) => False
  | _ => True

def isOk : CallPc → Bool
  | returned (.ok ()) => true
  | _ => false

def isTryLock : CallPc → Bool
  | tryLock => true
  | _ => false

theorem isOk_iff {pc : CallPc} : pc.isOk = true ↔ pc = .returned (.ok ()) := by
  cases pc with
  | returned result => rcases result with err | ⟨⟩ <;> simp [isOk]
  | _ => simp [isOk]

theorem isTryLock_iff {pc : CallPc} : pc.isTryLock = true ↔ pc = .tryLock := by
  cases pc <;> simp [isTryLock]

def stepsLeft : CallPc → ℕ
  | called => 9
  | openUni .first _ => 8
  | writeAll .first _ _ => 7
  | tryLock => 6
  | connectWith => 5
  | store _ => 4
  | loadFull => 3
  | openUni .second _ => 2
  | writeAll .second _ _ => 1
  | returned _ => 0

theorem holds_failed (attempt : Attempt) : attempt.failed.holds = false := by
  cases attempt <;> rfl

end CallPc

def Act.ofCall (i : ℕ) : Act → Bool
  | .call _ => false
  | .on j _ => j = i

/-- The payload that a call has delivered according to its result. -/
def Call.delivery (call : Call) : List (List UInt8) :=
  match call.pc with
  | .returned (.ok ()) => [call.serializedTx]
  | _ => []

namespace Client

variable {serialize : Transaction → Except String (List UInt8)} {c c' : Client}

/-- What was finished for the call. -/
def delivered (c : Client) (i : ℕ) : List (List UInt8) :=
  c.streams.filterMap fun s ↦ if s.call = i ∧ s.finished then some s.written else none

/-- The connections on which the call has opened its streams. -/
def openedOn (c : Client) (i : ℕ) : List ℕ :=
  c.streams.filterMap fun s ↦ if s.call = i then some s.connection else none

/-! ## The mutex -/

structure Locked (c : Client) : Prop where
  held : ∀ (i : ℕ) (call : Call), c.calls[i]? = some call → call.pc.holds = true →
    c.reconnect = true
  one : ∀ (i j : ℕ) (call call' : Call), c.calls[i]? = some call → c.calls[j]? = some call' →
    call.pc.holds = true → call'.pc.holds = true → i = j
  owner : c.reconnect = true →
    ∃ (i : ℕ) (call : Call), c.calls[i]? = some call ∧ call.pc.holds = true

theorem getElem?_set_self {i : ℕ} {call : Call} (hget : c.calls[i]? = some call) (new : Call) :
    (c.calls.set i new)[i]? = some new := by
  have hlt := (List.getElem?_eq_some_iff.mp hget).1
  simp [hlt]

section Locked

variable {i : ℕ} {call new : Call}

/-- The call changes neither the lock nor its hold on it. -/
theorem Locked.keep (h : c.Locked) (hget : c.calls[i]? = some call)
    (hholds : new.pc.holds = call.pc.holds) (hcalls : c'.calls = c.calls.set i new)
    (hlock : c'.reconnect = c.reconnect) : c'.Locked := by
  have hback : ∀ (k : ℕ) (call' : Call), c'.calls[k]? = some call' → call'.pc.holds = true →
      ∃ old : Call, c.calls[k]? = some old ∧ old.pc.holds = true := by
    intro k call' hk hk'
    rw [hcalls] at hk
    rcases Lists.getElem?_set_eq_some hk with ⟨rfl, rfl⟩ | ⟨-, hk⟩
    · exact ⟨call, hget, hholds ▸ hk'⟩
    · exact ⟨call', hk, hk'⟩
  refine ⟨fun k call' hk hk' ↦ ?_, fun k l call₁ call₂ hk hl hk' hl' ↦ ?_, fun hlocked ↦ ?_⟩
  · obtain ⟨old, hold, hold'⟩ := hback k call' hk hk'
    exact hlock.trans (h.held k old hold hold')
  · obtain ⟨old₁, hold₁, hold₁'⟩ := hback k call₁ hk hk'
    obtain ⟨old₂, hold₂, hold₂'⟩ := hback l call₂ hl hl'
    exact h.one k l old₁ old₂ hold₁ hold₂ hold₁' hold₂'
  · obtain ⟨k, old, hk, hk'⟩ := h.owner (hlock ▸ hlocked)
    rcases eq_or_ne k i with rfl | hne
    · obtain rfl : call = old := Option.some.inj (hget.symm.trans hk)
      exact ⟨k, new, hcalls ▸ getElem?_set_self hget new, hholds.trans hk'⟩
    · exact ⟨k, old, by rw [hcalls, List.getElem?_set_ne hne.symm, hk], hk'⟩

theorem Locked.acquire (h : c.Locked) (hget : c.calls[i]? = some call)
    (hfree : c.reconnect = false) (hholds : new.pc.holds = true)
    (hcalls : c'.calls = c.calls.set i new) (hlock : c'.reconnect = true) : c'.Locked := by
  have honly : ∀ (k : ℕ) (call' : Call), c'.calls[k]? = some call' → call'.pc.holds = true →
      k = i := by
    intro k call' hk hk'
    rw [hcalls] at hk
    rcases Lists.getElem?_set_eq_some hk with ⟨rfl, -⟩ | ⟨-, hk⟩
    · rfl
    · have hlocked := h.held k call' hk hk'
      simp [hfree] at hlocked
  refine ⟨fun _ _ _ _ ↦ hlock, fun k l _ _ hk hl hk' hl' ↦ ?_, fun _ ↦ ?_⟩
  · exact (honly k _ hk hk').trans (honly l _ hl hl').symm
  · exact ⟨i, new, hcalls ▸ getElem?_set_self hget new, hholds⟩

theorem Locked.release (h : c.Locked) (hget : c.calls[i]? = some call)
    (hholds : call.pc.holds = true) (hnew : new.pc.holds = false)
    (hcalls : c'.calls = c.calls.set i new) (hlock : c'.reconnect = false) : c'.Locked := by
  have hnone : ∀ (k : ℕ) (call' : Call), c'.calls[k]? = some call' → call'.pc.holds = true →
      False := by
    intro k call' hk hk'
    rw [hcalls] at hk
    rcases Lists.getElem?_set_eq_some hk with ⟨-, rfl⟩ | ⟨hne, hk⟩
    · simp [hnew] at hk'
    · exact hne (h.one k i call' call hk hget hk' hholds)
  refine ⟨fun k call' hk hk' ↦ (hnone k call' hk hk').elim,
    fun k _ call' _ hk _ hk' _ ↦ (hnone k call' hk hk').elim, fun hlocked ↦ ?_⟩
  simp [hlock] at hlocked

theorem Locked.move {act : CallAct} (h : c.Locked) (hget : c.calls[i]? = some call)
    (hmove : CallMove serialize c i call act c') : c'.Locked := by
  cases hmove with
  | locked pc free => exact h.acquire hget free rfl rfl rfl
  | unconnected pc => exact h.release hget (by rw [pc]; rfl) rfl rfl rfl
  | stored connection pc => exact h.release hget (by rw [pc]; rfl) rfl rfl rfl
  | unopened attempt connection pc =>
      exact h.keep hget (by rw [pc]; exact CallPc.holds_failed attempt) rfl rfl
  | unfinished attempt connection stream count pc =>
      exact h.keep hget (by rw [pc]; exact CallPc.holds_failed attempt) rfl rfl
  | _ => exact h.keep hget (by rw [‹call.pc = _›]; rfl) rfl rfl

end Locked

/-! ## Connections and streams -/

/-- What is known of the call at index `i`. -/
structure SoundCall (serialize : Transaction → Except String (List UInt8)) (c : Client) (i : ℕ)
    (call : Call) : Prop where
  serialized : call.pc.HasPayload → serialize call.transaction = .ok call.serializedTx
  loads : call.loaded.length + call.pc.loadsLeft ≤ 2
  rising : call.loaded.Pairwise (· < ·)
  known : ∀ connection ∈ call.loaded, connection ≤ c.connection
  renewed : call.pc = .loadFull → ∀ connection ∈ call.loaded, connection < c.connection
  storing : ∀ connection, call.pc = .store connection →
    c.connection < connection ∧ connection < c.handshakes
  writing : ∀ attempt connection stream, call.pc = .writeAll attempt connection stream →
    c.streams[stream]? = some ⟨connection, i, [], false⟩
  opened : (c.openedOn i ++ call.pc.opening).Sublist call.loaded
  delivered : c.delivered i = call.delivery

structure Sound (serialize : Transaction → Except String (List UInt8)) (c : Client) : Prop where
  locked : c.Locked
  connection : c.connection < c.handshakes
  owners : ∀ s ∈ c.streams, s.call < c.calls.length
  calls : ∀ (i : ℕ) (call : Call), c.calls[i]? = some call → SoundCall serialize c i call

theorem sound_init : Sound serialize Client.init where
  locked := ⟨fun _ _ hget ↦ by simp [init] at hget, fun _ _ _ _ hget ↦ by simp [init] at hget,
    fun hlocked ↦ by cases hlocked⟩
  connection := Nat.zero_lt_one
  owners s hmem := by cases hmem
  calls i call hget := by simp [init] at hget

/-- What another call did leaves the facts about this one. -/
theorem SoundCall.congr {i : ℕ} {call : Call} (h : SoundCall serialize c i call)
    (hconnection : c.connection ≤ c'.connection) (hhandshakes : c.handshakes ≤ c'.handshakes)
    (hstoring : ∀ connection, call.pc = .store connection → c'.connection = c.connection)
    (hstreams : ∀ (k : ℕ) (s : UniStream), c.streams[k]? = some s → s.call = i →
      c'.streams[k]? = some s)
    (hopened : c'.openedOn i = c.openedOn i) (hdelivered : c'.delivered i = c.delivered i) :
    SoundCall serialize c' i call where
  serialized := h.serialized
  loads := h.loads
  rising := h.rising
  known connection hmem := (h.known connection hmem).trans hconnection
  renewed hpc connection hmem := (h.renewed hpc connection hmem).trans_le hconnection
  storing connection hpc := by
    rw [hstoring connection hpc]
    exact ⟨(h.storing connection hpc).1, (h.storing connection hpc).2.trans_le hhandshakes⟩
  writing attempt connection stream hpc :=
    hstreams _ _ (h.writing attempt connection stream hpc) rfl
  opened := by
    rw [hopened]
    exact h.opened
  delivered := hdelivered.trans h.delivered

section Step

variable {i : ℕ} {call : Call} {act : CallAct}

theorem CallMove.calls_eq (hmove : CallMove serialize c i call act c') :
    ∃ new : Call, c'.calls = c.calls.set i new ∧ new.transaction = call.transaction := by
  cases hmove <;> exact ⟨_, rfl, rfl⟩

theorem CallMove.handshakes_le (hmove : CallMove serialize c i call act c') :
    c.handshakes ≤ c'.handshakes := by
  cases hmove with
  | connected pc => exact Nat.le_succ _
  | _ => exact le_rfl

theorem CallMove.connection_le (h : SoundCall serialize c i call)
    (hmove : CallMove serialize c i call act c') :
    c.connection ≤ c'.connection ∧
      (c'.connection = c.connection ∨ call.pc.holds = true) := by
  cases hmove with
  | stored connection pc => exact ⟨(h.storing connection pc).1.le, .inr (by rw [pc]; rfl)⟩
  | _ => exact ⟨le_rfl, .inl rfl⟩

/-- The streams of the other calls are left alone. -/
theorem CallMove.other_streams (h : SoundCall serialize c i call)
    (hmove : CallMove serialize c i call act c') {j : ℕ} (hne : j ≠ i) :
    c'.openedOn j = c.openedOn j ∧ c'.delivered j = c.delivered j ∧
      ∀ (k : ℕ) (s : UniStream), c.streams[k]? = some s → s.call = j →
        c'.streams[k]? = some s := by
  have hset : ∀ (attempt : Attempt) (connection stream : ℕ) (s' : UniStream),
      call.pc = .writeAll attempt connection stream → s'.call = i →
      c'.streams = c.streams.set stream s' →
      c'.openedOn j = c.openedOn j ∧ c'.delivered j = c.delivered j ∧
        ∀ (k : ℕ) (s : UniStream), c.streams[k]? = some s → s.call = j →
          c'.streams[k]? = some s := by
    intro attempt connection stream s' hpc hcall hstreams
    have hget := h.writing attempt connection stream hpc
    simp only [openedOn, delivered, hstreams]
    refine ⟨?_, ?_, fun k s hk hs ↦ ?_⟩
    · exact Lists.filterMap_set_of_eq _ hget (by simp [hcall, hne.symm])
    · exact Lists.filterMap_set_of_eq _ hget (by simp [hcall, hne.symm])
    · rw [List.getElem?_set_ne, hk]
      rintro rfl
      obtain rfl := Option.some.inj (hget.symm.trans hk)
      exact hne hs.symm
  cases hmove with
  | opened attempt connection pc =>
      refine ⟨?_, ?_, fun k s hk _ ↦ ?_⟩
      · simp [openedOn, hne.symm]
      · simp [delivered]
      · obtain ⟨hlt, -⟩ := List.getElem?_eq_some_iff.mp hk
        simpa [List.getElem?_append_left hlt] using hk
  | finished attempt connection stream pc => exact hset _ _ _ _ pc rfl rfl
  | unfinished attempt connection stream count pc => exact hset _ _ _ _ pc rfl rfl
  | _ => exact ⟨rfl, rfl, fun _ _ hk _ ↦ hk⟩

/-- The call goes on, and its streams stay what they are, finished ones apart. -/
theorem SoundCall.goto {pc : CallPc} (h : SoundCall serialize c i call)
    (hconnection : c'.connection = c.connection) (hopened : c'.openedOn i = c.openedOn i)
    (hdelivered : c'.delivered i = []) (hpayload : pc.HasPayload → call.pc.HasPayload)
    (hloads : pc.loadsLeft ≤ call.pc.loadsLeft)
    (hplain : pc ≠ .loadFull ∧
      (∀ attempt connection stream, pc ≠ .writeAll attempt connection stream) ∧
        pc ≠ .returned (.ok ()) ∧ pc.opening = [])
    (hstoring : ∀ connection, pc = .store connection →
      c.connection < connection ∧ connection < c'.handshakes) :
    SoundCall serialize c' i { call with pc := pc } where
  serialized hpc := h.serialized (hpayload hpc)
  loads := (Nat.add_le_add_left hloads _).trans h.loads
  rising := h.rising
  known := by
    rw [hconnection]
    exact h.known
  renewed hpc := absurd hpc hplain.1
  storing connection hpc := by
    rw [hconnection]
    exact hstoring connection hpc
  writing attempt connection stream hpc := absurd hpc (hplain.2.1 attempt connection stream)
  opened := by
    have hfront := (List.sublist_append_left (c.openedOn i) call.pc.opening).trans h.opened
    simpa [hopened, hplain.2.2.2] using hfront
  delivered := by
    rw [hdelivered, Call.delivery]
    split
    · exact absurd ‹pc = _› hplain.2.2.1
    · rfl

theorem Attempt.failed_plain (attempt : Attempt) :
    attempt.failed ≠ .loadFull ∧
      (∀ other connection stream, attempt.failed ≠ .writeAll other connection stream) ∧
      attempt.failed ≠ .returned (.ok ()) ∧ attempt.failed.opening = [] := by
  cases attempt <;> simp [Attempt.failed, CallPc.opening]

theorem Attempt.failed_ne_store (attempt : Attempt) (connection : ℕ) :
    attempt.failed ≠ .store connection := by
  cases attempt <;> simp [Attempt.failed]

/-- Writing to the stream that was opened last delivers it or not. -/
theorem SoundCall.delivered_set (h : SoundCall serialize c i call) {attempt : Attempt}
    {connection stream : ℕ} (hpc : call.pc = .writeAll attempt connection stream)
    (written : List UInt8) (finished : Bool) :
    ((c.streams.set stream ⟨connection, i, written, finished⟩).filterMap fun s ↦
        if s.call = i ∧ s.finished then some s.written else none) =
      if finished then [written] else [] := by
  have hperm := Lists.perm_filterMap_set
    (fun s : UniStream ↦ if s.call = i ∧ s.finished then some s.written else none)
    (h.writing attempt connection stream hpc) ⟨connection, i, written, finished⟩
  have hbefore : (c.streams.filterMap fun s : UniStream ↦
      if s.call = i ∧ s.finished then some s.written else none) = [] := by
    have hdelivered := h.delivered
    rw [Call.delivery, hpc] at hdelivered
    exact hdelivered
  rw [hbefore, List.append_nil] at hperm
  cases finished with
  | true => exact List.perm_singleton.mp (by simpa using hperm)
  | false => exact List.perm_nil.mp (by simpa using hperm)

theorem SoundCall.openedOn_set (h : SoundCall serialize c i call) {attempt : Attempt}
    {connection stream : ℕ} (hpc : call.pc = .writeAll attempt connection stream)
    (written : List UInt8) (finished : Bool) :
    ((c.streams.set stream ⟨connection, i, written, finished⟩).filterMap fun s ↦
        if s.call = i then some s.connection else none) = c.openedOn i :=
  Lists.filterMap_set_of_eq _ (h.writing attempt connection stream hpc) (by simp)

theorem SoundCall.move (h : SoundCall serialize c i call)
    (hconnection : c.connection < c.handshakes) (hget : c.calls[i]? = some call)
    (hmove : CallMove serialize c i call act c') {new : Call}
    (hnew : c'.calls[i]? = some new) : SoundCall serialize c' i new := by
  have hself : ∀ other : Call, c'.calls = c.calls.set i other → new = other := by
    intro other hcalls
    rw [hcalls, getElem?_set_self hget] at hnew
    exact (Option.some.inj hnew).symm
  have hundelivered : ∀ pc, call.pc = pc → pc ≠ .returned (.ok ()) → c.delivered i = [] := by
    rintro pc rfl hpc
    rw [h.delivered, Call.delivery]
    split
    · exact absurd ‹call.pc = _› hpc
    · rfl
  cases hmove with
  | unserialized err pc serialized =>
      obtain rfl := hself _ rfl
      exact h.goto rfl rfl (hundelivered _ pc (by simp)) False.elim (Nat.zero_le _)
        (by simp [CallPc.opening]) (by simp)
  | begun serializedTx pc serialized =>
      obtain rfl := hself _ rfl
      have hnone : c.openedOn i = [] := by
        have hloads := h.loads
        have hopened := h.opened
        rw [pc] at hloads hopened
        have hloaded : call.loaded = [] := List.length_eq_zero_iff.mp (by
          simp only [CallPc.loadsLeft] at hloads
          omega)
        simpa [hloaded, CallPc.opening] using hopened
      refine ⟨fun _ ↦ serialized, by simp [CallPc.loadsLeft], by simp, ?_, by simp, by simp,
        by simp, ?_, ?_⟩
      · intro connection hmem
        exact (List.mem_singleton.mp hmem).le
      · change ((c.openedOn i) ++ [c.connection]).Sublist [c.connection]
        rw [hnone]
        exact List.Sublist.refl _
      · exact hundelivered _ pc (by simp)
  | opened attempt connection pc =>
      obtain rfl := hself _ rfl
      have hopened := h.opened
      have hloads := h.loads
      rw [pc] at hopened hloads
      refine ⟨fun _ ↦ h.serialized (by rw [pc]; trivial), ?_, h.rising, h.known, by simp, by simp,
        ?_, ?_, ?_⟩
      · cases attempt <;> exact hloads
      · intro attempt' connection' stream hpc
        obtain ⟨rfl, rfl, rfl⟩ := CallPc.writeAll.inj hpc
        simp
      · simpa [openedOn, CallPc.opening] using hopened
      · have hnone := hundelivered _ pc (by simp)
        simpa [Client.delivered, Call.delivery] using hnone
  | unopened attempt connection pc =>
      obtain rfl := hself _ rfl
      refine h.goto rfl rfl (hundelivered _ pc (by simp)) (fun _ ↦ by rw [pc]; trivial) ?_
        (Attempt.failed_plain attempt) (fun k hpc ↦ absurd hpc (Attempt.failed_ne_store attempt k))
      rw [pc]
      cases attempt <;> exact le_rfl
  | finished attempt connection stream pc =>
      obtain rfl := hself _ rfl
      have hopened := h.opened
      have hloads := h.loads
      rw [pc] at hopened
      refine ⟨fun _ ↦ h.serialized (by rw [pc]; trivial), (Nat.le_add_right _ _).trans hloads,
        h.rising, h.known, by simp, by simp, by simp, ?_, ?_⟩
      · simpa [openedOn, h.openedOn_set pc, CallPc.opening] using hopened
      · simpa [Client.delivered, Call.delivery] using h.delivered_set pc call.serializedTx true
  | unfinished attempt connection stream count pc =>
      obtain rfl := hself _ rfl
      refine h.goto rfl (h.openedOn_set pc _ _) ?_ (fun _ ↦ by rw [pc]; trivial) ?_
        (Attempt.failed_plain attempt) (fun k hpc ↦ absurd hpc (Attempt.failed_ne_store attempt k))
      · exact h.delivered_set pc _ false
      · rw [pc]
        cases attempt <;> exact le_rfl
  | contended pc locked =>
      obtain rfl := hself _ rfl
      exact h.goto rfl rfl (hundelivered _ pc (by simp)) (fun _ ↦ by rw [pc]; trivial)
        (Nat.zero_le _) (by simp [CallPc.opening]) (by simp)
  | locked pc free =>
      obtain rfl := hself _ rfl
      exact h.goto rfl rfl (hundelivered _ pc (by simp)) (fun _ ↦ by rw [pc]; trivial)
        (by rw [pc]; exact le_rfl) (by simp [CallPc.opening]) (by simp)
  | connected pc =>
      obtain rfl := hself _ rfl
      refine h.goto rfl rfl (hundelivered _ pc (by simp)) (fun _ ↦ by rw [pc]; trivial)
        (by rw [pc]; exact le_rfl) (by simp [CallPc.opening]) fun connection hpc ↦ ?_
      obtain rfl := CallPc.store.inj hpc
      exact ⟨hconnection, Nat.lt_succ_self _⟩
  | unconnected pc =>
      obtain rfl := hself _ rfl
      exact h.goto rfl rfl (hundelivered _ pc (by simp)) (fun _ ↦ by rw [pc]; trivial)
        (Nat.zero_le _) (by simp [CallPc.opening]) (by simp)
  | stored connection pc =>
      obtain rfl := hself _ rfl
      have hnewer := (h.storing connection pc).1
      have hopened := h.opened
      have hloads := h.loads
      rw [pc] at hopened hloads
      refine ⟨fun _ ↦ h.serialized (by rw [pc]; trivial), hloads, h.rising, ?_, ?_, by simp,
        by simp, hopened, ?_⟩
      · exact fun k hmem ↦ (h.known k hmem).trans hnewer.le
      · exact fun _ k hmem ↦ (h.known k hmem).trans_lt hnewer
      · exact hundelivered _ pc (by simp)
  | loaded pc =>
      obtain rfl := hself _ rfl
      have hopened := h.opened
      have hloads := h.loads
      rw [pc] at hopened hloads
      refine ⟨fun _ ↦ h.serialized (by rw [pc]; trivial), ?_, ?_, ?_, by simp, by simp, by simp, ?_,
        ?_⟩
      · simpa [CallPc.loadsLeft] using hloads
      · exact List.pairwise_append.mpr ⟨h.rising, by simp, fun k hmem k' hmem' ↦
          List.mem_singleton.mp hmem' ▸ h.renewed pc k hmem⟩
      · intro k hmem
        rcases List.mem_append.mp hmem with hmem | hnew
        · exact h.known k hmem
        · exact (List.mem_singleton.mp hnew).le
      · have hfront : (c.openedOn i).Sublist call.loaded := by simpa [CallPc.opening] using hopened
        exact hfront.append (List.Sublist.refl [c.connection])
      · exact hundelivered _ pc (by simp)

theorem CallMove.owners (h : c.Sound serialize) (hget : c.calls[i]? = some call)
    (hmove : CallMove serialize c i call act c') :
    ∀ s ∈ c'.streams, s.call < c'.calls.length := by
  have hlt := (List.getElem?_eq_some_iff.mp hget).1
  obtain ⟨new, hcalls, -⟩ := hmove.calls_eq
  rw [hcalls, List.length_set]
  cases hmove with
  | opened attempt connection pc =>
      intro s hmem
      rcases List.mem_append.mp hmem with hmem | hnew
      · exact h.owners s hmem
      · exact List.mem_singleton.mp hnew ▸ hlt
  | finished attempt connection stream pc =>
      intro s hmem
      rcases List.mem_or_eq_of_mem_set hmem with hmem | rfl
      · exact h.owners s hmem
      · exact hlt
  | unfinished attempt connection stream count pc =>
      intro s hmem
      rcases List.mem_or_eq_of_mem_set hmem with hmem | rfl
      · exact h.owners s hmem
      · exact hlt
  | _ => exact h.owners

theorem CallMove.connection_lt (h : c.Sound serialize) (hget : c.calls[i]? = some call)
    (hmove : CallMove serialize c i call act c') : c'.connection < c'.handshakes := by
  cases hmove with
  | connected pc => exact h.connection.trans (Nat.lt_succ_self _)
  | stored connection pc => exact ((h.calls i call hget).storing connection pc).2
  | _ => exact h.connection

theorem Sound.on (h : c.Sound serialize) (hget : c.calls[i]? = some call)
    (hmove : CallMove serialize c i call act c') : c'.Sound serialize where
  locked := h.locked.move hget hmove
  connection := hmove.connection_lt h hget
  owners := hmove.owners h hget
  calls j other hother := by
    have hsound := h.calls i call hget
    rcases eq_or_ne j i with rfl | hne
    · exact hsound.move h.connection hget hmove hother
    · obtain ⟨new, hcalls, -⟩ := hmove.calls_eq
      rw [hcalls, List.getElem?_set_ne hne.symm] at hother
      obtain ⟨hopened, hdelivered, hstreams⟩ := hmove.other_streams hsound hne
      obtain ⟨hle, heq⟩ := hmove.connection_le hsound
      refine (h.calls j other hother).congr hle hmove.handshakes_le (fun connection hpc ↦ ?_)
        hstreams hopened hdelivered
      -- a second call with the lock would be the first one
      rcases heq with heq | hholds
      · exact heq
      · exact absurd (h.locked.one j i other call hother hget (by rw [hpc]; rfl) hholds) hne

end Step

theorem Locked.congr (h : c.Locked) (hlock : c'.reconnect = c.reconnect)
    (hcalls : ∀ (k : ℕ) (call : Call), call.pc.holds = true →
      (c'.calls[k]? = some call ↔ c.calls[k]? = some call)) : c'.Locked where
  held k call hk hholds := hlock.trans (h.held k call ((hcalls k call hholds).mp hk) hholds)
  one k l call call' hk hl hholds hholds' :=
    h.one k l call call' ((hcalls k call hholds).mp hk) ((hcalls l call' hholds').mp hl) hholds
      hholds'
  owner hlocked := by
    obtain ⟨k, call, hk, hholds⟩ := h.owner (hlock ▸ hlocked)
    exact ⟨k, call, (hcalls k call hholds).mpr hk, hholds⟩

/-- A new call knows nothing yet. -/
theorem Sound.call (h : c.Sound serialize) (transaction : Transaction) :
    (c.call transaction).Sound serialize where
  locked := by
    refine h.locked.congr rfl fun k call hholds ↦ ⟨fun hk ↦ ?_, fun hk ↦ ?_⟩
    · rcases Lists.getElem?_snoc_eq_some hk with hk | ⟨-, rfl⟩
      · exact hk
      · cases hholds
    · have hlt := (List.getElem?_eq_some_iff.mp hk).1
      exact (List.getElem?_append_left hlt).trans hk
  connection := h.connection
  owners s hmem := (h.owners s hmem).trans (by simp)
  calls k call hk := by
    rcases Lists.getElem?_snoc_eq_some hk with hk | ⟨rfl, rfl⟩
    · exact (h.calls k call hk).congr le_rfl le_rfl (fun _ _ ↦ rfl) (fun _ _ hs _ ↦ hs) rfl rfl
    · have hnobody : ∀ s ∈ c.streams, s.call ≠ c.calls.length := fun s hmem ↦
        (h.owners s hmem).ne
      have hopened : c.openedOn c.calls.length = [] := by
        simpa [openedOn, List.filterMap_eq_nil_iff] using hnobody
      have hdelivered : c.delivered c.calls.length = [] := by
        rw [delivered, List.filterMap_eq_nil_iff]
        intro s hmem
        simp [hnobody s hmem]
      refine ⟨False.elim, by simp [CallPc.loadsLeft], by simp, by simp, by simp, by simp, by simp,
        ?_, hdelivered⟩
      change (c.openedOn c.calls.length ++ []).Sublist []
      rw [hopened]
      exact List.Sublist.refl _

theorem sound {as : List Act} (hrun : (machine serialize).run as = some c) :
    c.Sound serialize := by
  refine (machine serialize).invariant (P := Sound serialize) sound_init ?_ hrun
  intro s act t hs hstep
  rcases step_cases hstep with ⟨transaction, -, rfl⟩ | ⟨i, callAct, call, -, hget, hmove⟩
  · exact hs.call transaction
  · exact hs.on hget hmove

/-- The result of a call is what became of its payload: one stream that was
finished for `Ok`, none for an error.  A second attempt has a newer connection. -/
theorem delivered_once (serialize : Transaction → Except String (List UInt8)) (as : List Act)
    (c : Client) (hrun : (machine serialize).run as = some c) (i : ℕ) (call : Call)
    (hget : c.calls[i]? = some call) :
    (call.pc = .returned (.ok ()) → ∃ payload, serialize call.transaction = .ok payload ∧
        c.delivered i = [payload]) ∧
      (call.pc ≠ .returned (.ok ()) → c.delivered i = []) ∧
      (c.openedOn i).length ≤ 2 ∧ (c.openedOn i).Pairwise (· < ·) := by
  have hsound := (sound hrun).calls i call hget
  have hopened : (c.openedOn i).Sublist call.loaded :=
    (List.sublist_append_left _ _).trans hsound.opened
  refine ⟨fun hpc ↦ ⟨call.serializedTx, ?_, ?_⟩, fun hpc ↦ ?_, ?_, hsound.rising.sublist hopened⟩
  · exact hsound.serialized (by rw [hpc]; trivial)
  · rw [hsound.delivered, Call.delivery, hpc]
  · rw [hsound.delivered, Call.delivery]
    split
    · exact absurd ‹call.pc = _› hpc
    · rfl
  · have hlength := hopened.length_le
    have hloads := hsound.loads
    omega

/-- The first connection breaks off in the middle of the payload. -/
def retriedRun : List Act :=
  [.call Sample.soyasTx, .on 0 .go, .on 0 (.opened true), .on 0 (.wrote (.failed 100)), .on 0 .go,
    .on 0 (.connected true), .on 0 .go, .on 0 .go, .on 0 (.opened true), .on 0 (.wrote .finished)]

theorem delivered_once_retriedRun :
    ∃ c payload, (machine Sample.serialize).run retriedRun = some c ∧
      Sample.serialize Sample.soyasTx = .ok payload ∧ c.delivered 0 = [payload] := by
  have hrun : ((machine Sample.serialize).run retriedRun).map (fun c ↦
      c.calls.map fun call ↦ (decide (call.transaction = Sample.soyasTx), call.pc.isOk)) =
        some [(true, true)] := by decide +kernel
  obtain ⟨c, hc, hcalls⟩ := Option.map_eq_some_iff.mp hrun
  obtain ⟨call, hcall, hfacts⟩ := List.map_eq_singleton_iff.mp hcalls
  obtain ⟨htx, hpc⟩ := Prod.mk.inj hfacts
  have hget : c.calls[0]? = some call := by rw [hcall]; rfl
  obtain ⟨payload, hpayload, hdelivered⟩ :=
    (delivered_once _ _ c hc 0 call hget).1 (CallPc.isOk_iff.mp hpc)
  exact ⟨c, payload, hc, of_decide_eq_true htx ▸ hpayload, hdelivered⟩

theorem connection_le_of_runFrom {as bs : List Act} (hrun : (machine serialize).run as = some c)
    (hrest : (machine serialize).runFrom c bs = some c') : c.connection ≤ c'.connection := by
  have hboth := (machine serialize).invariant_from
    (P := fun d ↦ d.Sound serialize ∧ c.connection ≤ d.connection) ?_ ⟨sound hrun, le_rfl⟩ hrest
  · exact hboth.2
  rintro s act t ⟨hs, hle⟩ hstep
  rcases step_cases hstep with ⟨transaction, -, rfl⟩ | ⟨i, callAct, call, -, hget, hmove⟩
  · exact ⟨hs.call transaction, hle⟩
  · exact ⟨hs.on hget hmove, hle.trans (hmove.connection_le (hs.calls i call hget)).1⟩

/-- One handshake at a time: the shared connection never goes back to an older
one, and a call is turned away exactly while another one is at it. -/
theorem one_handshake (serialize : Transaction → Except String (List UInt8)) (as : List Act)
    (c : Client) (hrun : (machine serialize).run as = some c) :
    (∀ (i j : ℕ) (call call' : Call), c.calls[i]? = some call → c.calls[j]? = some call' →
        call.pc.holds = true → call'.pc.holds = true → i = j) ∧
      (∀ bs c', (machine serialize).runFrom c bs = some c' → c.connection ≤ c'.connection) ∧
      ∀ (i : ℕ) (call : Call), c.calls[i]? = some call → call.pc = .tryLock →
        ((machine serialize).step c (.on i .go) =
            some (c.setCall i { call with pc := .returned (.error .tryLock) }) ↔
          ∃ (j : ℕ) (other : Call), j ≠ i ∧ c.calls[j]? = some other ∧
            other.pc.holds = true) := by
  have hlocked := (sound hrun).locked
  refine ⟨hlocked.one, fun bs c' hrest ↦ connection_le_of_runFrom hrun hrest,
    fun i call hget hpc ↦ ?_⟩
  have hlt := (List.getElem?_eq_some_iff.mp hget).1
  constructor
  · intro hstep
    have hreconnect : c.reconnect = true := by
      by_contra hfree
      simp [machine, step, hget, callStep, goStep, hpc, hfree, setCall] at hstep
    obtain ⟨j, other, hother, hholds⟩ := hlocked.owner hreconnect
    refine ⟨j, other, ?_, hother, hholds⟩
    rintro rfl
    obtain rfl := Option.some.inj (hget.symm.trans hother)
    simp [hpc, CallPc.holds] at hholds
  · rintro ⟨j, other, -, hother, hholds⟩
    have hreconnect := hlocked.held j other hother hholds
    simp [machine, step, hget, callStep, goStep, hpc, hreconnect]

/-- Both first attempts fail, and the second call comes while the first one reconnects. -/
def contendedRun : List Act :=
  [.call Sample.soyasTx, .call Sample.soyasTx, .on 0 .go, .on 1 .go, .on 0 (.opened false),
    .on 1 (.opened false), .on 0 .go]

theorem one_handshake_contendedRun :
    ∃ c call, (machine Sample.serialize).run contendedRun = some c ∧ c.calls[1]? = some call ∧
      (machine Sample.serialize).step c (.on 1 .go) =
        some (c.setCall 1 { call with pc := .returned (.error .tryLock) }) := by
  have hrun : ((machine Sample.serialize).run contendedRun).map (fun c ↦
      c.calls.map fun call ↦ (call.pc.holds, call.pc.isTryLock)) =
        some [(true, false), (false, true)] := by decide +kernel
  obtain ⟨c, hc, hcalls⟩ := Option.map_eq_some_iff.mp hrun
  have hfirst := congrArg (·[0]?) hcalls
  have hsecond := congrArg (·[1]?) hcalls
  simp only [List.getElem?_map] at hfirst hsecond
  obtain ⟨other, hother, hholds⟩ := Option.map_eq_some_iff.mp hfirst
  obtain ⟨call, hcall, hpc⟩ := Option.map_eq_some_iff.mp hsecond
  refine ⟨c, call, hc, hcall, ?_⟩
  exact ((one_handshake _ _ c hc).2.2 1 call hcall
    (CallPc.isTryLock_iff.mp (Prod.mk.inj hpc).2)).mpr
      ⟨0, other, by decide, hother, (Prod.mk.inj hholds).1⟩

/-! ## No call waits for another -/

def stepsLeft (i : ℕ) (c : Client) : ℕ := (c.calls[i]?).elim 9 fun call ↦ call.pc.stepsLeft

theorem CallMove.stepsLeft_lt {i : ℕ} {call : Call} {act : CallAct}
    (hmove : CallMove serialize c i call act c') :
    ∃ new : Call, c'.calls = c.calls.set i new ∧ new.pc.stepsLeft < call.pc.stepsLeft := by
  have hfailed : ∀ (attempt : Attempt) (connection stream : ℕ),
      attempt.failed.stepsLeft < (CallPc.openUni attempt connection).stepsLeft ∧
        attempt.failed.stepsLeft < (CallPc.writeAll attempt connection stream).stepsLeft := by
    intro attempt connection stream
    cases attempt <;> simp [Attempt.failed, CallPc.stepsLeft]
  cases hmove with
  | opened attempt connection pc =>
      refine ⟨_, rfl, ?_⟩
      cases attempt <;> simp [pc, CallPc.stepsLeft]
  | finished attempt connection stream pc =>
      refine ⟨_, rfl, ?_⟩
      cases attempt <;> simp [pc, CallPc.stepsLeft]
  | unopened attempt connection pc => exact ⟨_, rfl, pc ▸ (hfailed attempt connection 0).1⟩
  | unfinished attempt connection stream count pc =>
      exact ⟨_, rfl, pc ▸ (hfailed attempt connection stream).2⟩
  | _ => exact ⟨_, rfl, by rw [‹call.pc = _›]; simp [CallPc.stepsLeft]⟩

theorem stepsLeft_step {i : ℕ} {act : Act} (h : (machine serialize).step c act = some c') :
    c'.stepsLeft i + (if act.ofCall i then 1 else 0) ≤ c.stepsLeft i := by
  rcases step_cases h with ⟨transaction, rfl, rfl⟩ | ⟨j, callAct, call, rfl, hget, hmove⟩
  · rcases lt_trichotomy i c.calls.length with hlt | rfl | hgt
    · simp [stepsLeft, Act.ofCall, List.getElem?_append_left hlt]
    · simp [stepsLeft, Act.ofCall, CallPc.stepsLeft]
    · have hnone : (c.calls ++ [⟨transaction, [], .called, []⟩])[i]? = none :=
        List.getElem?_eq_none (by simpa using hgt)
      simp [stepsLeft, Act.ofCall, hnone, hgt.le]
  · obtain ⟨new, hcalls, hless⟩ := hmove.stepsLeft_lt
    rcases eq_or_ne j i with rfl | hne
    · simp only [stepsLeft, hcalls, getElem?_set_self hget, hget, Option.elim_some, Act.ofCall,
        decide_true, if_true]
      exact hless
    · simp [stepsLeft, hcalls, List.getElem?_set_ne hne, Act.ofCall, hne]

/-- Something can be done for a call that has not returned. -/
theorem exists_step (serialize : Transaction → Except String (List UInt8)) {i : ℕ} {call : Call}
    (hget : c.calls[i]? = some call) (hpc : ∀ result, call.pc ≠ .returned result) :
    ∃ act c', (machine serialize).step c (.on i act) = some c' := by
  suffices hstep : ∃ act, ((machine serialize).step c (.on i act)).isSome = true by
    obtain ⟨act, hact⟩ := hstep
    exact ⟨act, Option.isSome_iff_exists.mp hact⟩
  cases hcall : call.pc with
  | called => exact ⟨.go, by simp [machine, step, hget, callStep, goStep, hcall]⟩
  | openUni attempt connection =>
      exact ⟨.opened true, by simp [machine, step, hget, callStep, hcall]⟩
  | writeAll attempt connection stream =>
      exact ⟨.wrote .finished, by simp [machine, step, hget, callStep, hcall]⟩
  | tryLock =>
      refine ⟨.go, ?_⟩
      by_cases hlock : c.reconnect = true <;>
        simp [machine, step, hget, callStep, goStep, hcall, hlock]
  | connectWith => exact ⟨.connected true, by simp [machine, step, hget, callStep, hcall]⟩
  | store connection => exact ⟨.go, by simp [machine, step, hget, callStep, goStep, hcall]⟩
  | loadFull => exact ⟨.go, by simp [machine, step, hget, callStep, goStep, hcall]⟩
  | returned result => exact absurd hcall (hpc result)

def HasReturned (i : ℕ) (c : Client) : Prop :=
  ∃ (call : Call) (result : Except SendError Unit),
    c.calls[i]? = some call ∧ call.pc = .returned result

/-- A call takes at most nine steps, and it can take them all whatever the
others are at: nobody else has to move for it to return. -/
theorem calls_never_wait (serialize : Transaction → Except String (List UInt8)) (as : List Act)
    (c : Client) (hrun : (machine serialize).run as = some c) (i : ℕ) (hi : i < c.calls.length) :
    as.countP (Act.ofCall i) ≤ 9 ∧
      ∃ bs c', (machine serialize).runFrom c bs = some c' ∧
        (∀ act ∈ bs, act.ofCall i = true) ∧ c'.HasReturned i := by
  constructor
  · have hpaid := (machine serialize).countP_add_le (stepsLeft i) (Act.ofCall i)
      (fun _ _ _ h ↦ stepsLeft_step h) hrun
    have hfirst : (machine serialize).init.stepsLeft i = 9 := by
      simp [machine, Client.init, stepsLeft]
    omega
  · have hprogress : ∀ d : Client, i < d.calls.length → ¬ d.HasReturned i →
        ∃ bs d', (machine serialize).runFrom d bs = some d' ∧
          (∀ act ∈ bs, act.ofCall i = true) ∧ i < d'.calls.length ∧
            d'.stepsLeft i < d.stepsLeft i := by
      intro d hd hwaits
      have hget := List.getElem?_eq_getElem hd
      obtain ⟨act, d', hstep⟩ := exists_step serialize hget
        fun result hpc ↦ hwaits ⟨_, result, hget, hpc⟩
      have hpaid := stepsLeft_step (i := i) hstep
      have hown : (Act.on i act).ofCall i = true := decide_eq_true rfl
      rw [if_pos hown] at hpaid
      refine ⟨[.on i act], d', by simp [hstep], by simp [hown], ?_, hpaid⟩
      rcases step_cases hstep with ⟨transaction, heq, -⟩ | ⟨j, callAct, call, -, -, hmove⟩
      · cases heq
      · obtain ⟨new, hcalls, -⟩ := hmove.calls_eq
        rw [hcalls, List.length_set]
        exact hd
    obtain ⟨bs, c', hrest, hown, -, hreturned⟩ :=
      (machine serialize).exists_runFrom_within (stepsLeft i) hprogress hi
    exact ⟨bs, c', hrest, hown, hreturned⟩

theorem calls_never_wait_contendedRun :
    ∃ c bs c', (machine Sample.serialize).run contendedRun = some c ∧
      (machine Sample.serialize).runFrom c bs = some c' ∧ (∀ act ∈ bs, act.ofCall 1 = true) ∧
        c'.HasReturned 1 := by
  have hrun : ((machine Sample.serialize).run contendedRun).map (·.calls.length) = some 2 := by
    decide +kernel
  obtain ⟨c, hc, hlength⟩ := Option.map_eq_some_iff.mp hrun
  obtain ⟨-, bs, c', hrest⟩ := calls_never_wait _ _ c hc 1 (by omega)
  exact ⟨c, bs, c', hc, hrest⟩

end Client
end LandingBench.Soyas
