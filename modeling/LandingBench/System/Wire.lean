import LandingBench.Senders.SoyasDelivery
import LandingBench.System.Provenance

/-!
# The program on the wire

The world leaves open what a sender answers.  Here every Soyas client is the
machine that it is, and a future for a Soyas endpoint returns what its call has
returned.
-/

namespace LandingBench

open Async Data Ledger

/-- The client of a name, and the call that a future of the round waits for. -/
structure Wired where
  world : World
  clients : String → Soyas.Client
  callOf : ℕ → ℕ

inductive WiredAct where
  | world (act : Act)
  | soyas (name : String) (call : ℕ) (act : Soyas.CallAct)

def Soyas.CallPc.returns (ok : Bool) : Soyas.CallPc → Bool
  | returned (.ok ()) => ok
  | returned (.error _) => !ok
  | _ => false

/-- The transaction that a future has given to its Soyas client. -/
def World.soyasSend (w : World) (i : ℕ) : Option (String × Transaction) :=
  match w.sends[i]? with
  | some task =>
      match task.stage, task.endpoint.kind with
      | .sending tx _, .soyas => some (task.endpoint.name, tx)
      | _, _ => none
  | none => none

namespace Wired

/-- `client.send_transaction(&tx).await` goes on with the result of the call. -/
def allows (s : Wired) : Act → Bool
  | .send i (.returned ok) =>
      match s.world.soyasSend i with
      | some (name, _) => (s.clients name).calls[s.callOf i]?.any (·.pc.returns ok)
      | none => true
  | _ => true

/-- The poll that gives a transaction to a Soyas client makes a call of it. -/
def follow (s : Wired) (w : World) : Act → Wired
  | .send i (.poll _) =>
      match w.soyasSend i with
      | some (name, tx) =>
          { world := w
            clients := Function.update s.clients name ((s.clients name).call tx)
            callOf := Function.update s.callOf i (s.clients name).calls.length }
      | none => { s with world := w }
  | _ => { s with world := w }

def step (env : Env) (serialize : Transaction → Except String (List UInt8)) (s : Wired) :
    WiredAct → Option Wired
  | .world act =>
      if s.allows act then (s.world.step env act).map fun w ↦ s.follow w act else none
  | .soyas name call act =>
      ((Soyas.machine serialize).step (s.clients name) (.on call act)).map fun client ↦
        { s with clients := Function.update s.clients name client }

end Wired

def Env.wired (env : Env) (serialize : Transaction → Except String (List UInt8)) :
    Machine Wired WiredAct where
  init := ⟨World.init env, fun _ ↦ .init, fun _ ↦ 0⟩
  step := Wired.step env serialize

namespace Wired

variable {env : Env} {serialize : Transaction → Except String (List UInt8)} {s t : Wired}

theorem follow_world (s : Wired) (w : World) (act : Act) : (s.follow w act).world = w := by
  unfold follow
  split
  · split <;> rfl
  · rfl

theorem step_cases {a : WiredAct} (h : (env.wired serialize).step s a = some t) :
    (∃ act w, a = .world act ∧ s.allows act = true ∧ env.machine.step s.world act = some w ∧
        t = s.follow w act) ∨
      ∃ name call act client, a = .soyas name call act ∧
        (Soyas.machine serialize).step (s.clients name) (.on call act) = some client ∧
        t = { s with clients := Function.update s.clients name client } := by
  cases a with
  | world act =>
      simp only [Env.wired, step] at h
      split_ifs at h with hallows
      obtain ⟨w, hstep, rfl⟩ := Option.map_eq_some_iff.mp h
      exact .inl ⟨act, w, rfl, hallows, hstep, rfl⟩
  | soyas name call act =>
      obtain ⟨client, hstep, rfl⟩ := Option.map_eq_some_iff.mp h
      exact .inr ⟨name, call, act, client, rfl, hstep, rfl⟩

/-- The program never sees more than the world. -/
def projection (env : Env) (serialize : Transaction → Except String (List UInt8)) :
    Machine.Projection (env.wired serialize) env.machine where
  state := Wired.world
  acts _
    | .world act => [act]
    | .soyas _ _ _ => []
  init := rfl
  step s a t h := by
    rcases step_cases h with ⟨act, w, rfl, -, hstep, rfl⟩ | ⟨name, call, act, client, rfl, -, rfl⟩
    · simp [hstep, follow_world]
    · rfl

theorem world_run {as : List WiredAct} (hrun : (env.wired serialize).run as = some s) :
    ∃ bs, env.machine.run bs = some s.world :=
  (projection env serialize).exists_run hrun

/-! ## Calls that are still going on -/

/-- A call of the client has returned `Ok` for the transaction of this signature. -/
def OnWire (host : Host) (client : Soyas.Client) (signature : String) : Prop :=
  ∃ (k : ℕ) (call : Soyas.Call), client.calls[k]? = some call ∧
    host.base58 call.transaction.signature = signature ∧ call.pc = .returned (.ok ())

/-- What stands in a client stays there, and what has returned stays as it is. -/
def Extends (client client' : Soyas.Client) : Prop :=
  ∀ (k : ℕ) (call : Soyas.Call), client.calls[k]? = some call →
    ∃ call' : Soyas.Call, client'.calls[k]? = some call' ∧
      call'.transaction = call.transaction ∧ (∀ result, call.pc = .returned result → call' = call)

theorem OnWire.extends {client client' : Soyas.Client} {signature : String}
    (h : OnWire env.host client signature) (hext : Extends client client') :
    OnWire env.host client' signature := by
  obtain ⟨k, call, hk, hsignature, hpc⟩ := h
  obtain ⟨call', hk', -, hsame⟩ := hext k call hk
  obtain rfl := hsame _ hpc
  exact ⟨k, call', hk', hsignature, hpc⟩

theorem extends_refl (client : Soyas.Client) : Extends client client :=
  fun _ call hk ↦ ⟨call, hk, rfl, fun _ _ ↦ rfl⟩

theorem extends_call (client : Soyas.Client) (tx : Transaction) :
    Extends client (client.call tx) := by
  intro k call hk
  have hlt := (List.getElem?_eq_some_iff.mp hk).1
  exact ⟨call, (List.getElem?_append_left hlt).trans hk, rfl, fun _ _ ↦ rfl⟩

theorem extends_on {client client' : Soyas.Client} {j : ℕ} {act : Soyas.CallAct}
    (h : (Soyas.machine serialize).step client (.on j act) = some client') :
    Extends client client' := by
  rcases Soyas.Client.step_cases h with ⟨tx, heq, -⟩ | ⟨i, callAct, moved, heq, hget, hmove⟩
  · cases heq
  · intro k call hk
    obtain ⟨new, hcalls, htransaction⟩ := hmove.calls_eq
    rcases eq_or_ne k i with rfl | hne
    · obtain rfl := Option.some.inj (hget.symm.trans hk)
      refine ⟨new, hcalls ▸ Soyas.Client.getElem?_set_self hget new, htransaction,
        fun result hpc ↦ ?_⟩
      -- a call that has returned has no step
      cases hmove <;> simp_all
    · exact ⟨call, by rw [hcalls, List.getElem?_set_ne hne.symm, hk], rfl, fun _ _ ↦ rfl⟩

theorem extends_update (clients : String → Soyas.Client) {name : String} {client : Soyas.Client}
    (h : Extends (clients name) client) (other : String) :
    Extends (clients other) (Function.update clients name client other) := by
  rcases eq_or_ne other name with rfl | hne
  · rw [Function.update_self]
    exact h
  · rw [Function.update_of_ne hne]
    exact extends_refl _

theorem sound_update {clients : String → Soyas.Client} {name : String} {client : Soyas.Client}
    (h : ∀ other, (clients other).Sound serialize) (hclient : client.Sound serialize)
    (other : String) : (Function.update clients name client other).Sound serialize := by
  rcases eq_or_ne other name with rfl | hne
  · rw [Function.update_self]
    exact hclient
  · rw [Function.update_of_ne hne]
    exact h other

structure Sound (env : Env) (serialize : Transaction → Except String (List UInt8)) (s : Wired) :
    Prop where
  clients : ∀ name, (s.clients name).Sound serialize
  sending : ∀ i name tx, s.world.soyasSend i = some (name, tx) →
    ∃ call : Soyas.Call, (s.clients name).calls[s.callOf i]? = some call ∧ call.transaction = tx
  recording : ∀ task ∈ s.world.sends, ∀ signature sendElapsed,
    task.stage = .recording signature sendElapsed → task.endpoint.kind = .soyas →
      OnWire env.host (s.clients task.endpoint.name) signature
  recorded : ∀ signature provider sentElapsed roundId,
    .recordSend signature provider sentElapsed roundId ∈ s.world.log →
      ∃ ep ∈ env.config.endpoint, ep.name = provider ∧
        (ep.kind = .soyas → OnWire env.host (s.clients provider) signature)

theorem sound_init : Sound env serialize (env.wired serialize).init where
  clients _ := Soyas.Client.sound_init
  sending i name tx h := by simp [Env.wired, World.init, World.soyasSend] at h
  recording task hmem := by cases hmem
  recorded signature provider sentElapsed roundId hmem := by cases hmem

theorem Sound.soyas (h : s.Sound env serialize) {name : String} {call : ℕ} {act : Soyas.CallAct}
    {client : Soyas.Client}
    (hstep : (Soyas.machine serialize).step (s.clients name) (.on call act) = some client) :
    Sound env serialize { s with clients := Function.update s.clients name client } where
  clients := by
    apply sound_update h.clients
    rcases Soyas.Client.step_cases hstep with ⟨tx, -, rfl⟩ | ⟨i, callAct, moved, -, hget, hmove⟩
    · exact (h.clients name).call tx
    · exact (h.clients name).on hget hmove
  sending i other tx hsend := by
    obtain ⟨old, hold, rfl⟩ := h.sending i other tx hsend
    obtain ⟨new, hnew, htransaction, -⟩ := extends_update _ (extends_on hstep) other _ _ hold
    exact ⟨new, hnew, htransaction⟩
  recording task hmem signature sendElapsed hstage hkind :=
    (h.recording task hmem signature sendElapsed hstage hkind).extends
      (extends_update _ (extends_on hstep) _)
  recorded signature provider sentElapsed roundId hmem := by
    obtain ⟨ep, hep, hname, hwire⟩ := h.recorded _ _ _ _ hmem
    exact ⟨ep, hep, hname, fun hkind ↦ (hwire hkind).extends
      (extends_update _ (extends_on hstep) _)⟩

/-- A step of the world that no future gives or gets anything by. -/
theorem Sound.congr (h : s.Sound env serialize) {w : World}
    (hsends : ∀ (i : ℕ) (task : SendTask), w.sends[i]? = some task → s.world.sends[i]? = some task ∨
      (∀ tx sendElapsed, task.stage ≠ .sending tx sendElapsed) ∧
        ∀ signature sendElapsed, task.stage ≠ .recording signature sendElapsed)
    (hlog : ∀ signature provider sentElapsed roundId,
      .recordSend signature provider sentElapsed roundId ∈ w.log →
        .recordSend signature provider sentElapsed roundId ∈ s.world.log) :
    Sound env serialize { s with world := w } where
  clients := h.clients
  sending i name tx hsend := by
    apply h.sending i name tx
    simp only [World.soyasSend] at hsend ⊢
    cases hget : w.sends[i]? with
    | none => simp [hget] at hsend
    | some task =>
        rcases hsends i task hget with hold | ⟨hother, -⟩
        · rw [hget] at hsend
          rw [hold]
          exact hsend
        · cases hstage : task.stage with
          | sending tx' sendElapsed => exact absurd hstage (hother tx' sendElapsed)
          | _ => simp [hget, hstage] at hsend
  recording task hmem signature sendElapsed hstage hkind := by
    obtain ⟨i, hget⟩ := List.mem_iff_getElem?.mp hmem
    rcases hsends i task hget with hold | ⟨-, hother⟩
    · exact h.recording task (List.mem_of_getElem? hold) signature sendElapsed hstage hkind
    · exact absurd hstage (hother signature sendElapsed)
  recorded signature provider sentElapsed roundId hmem := h.recorded _ _ _ _ (hlog _ _ _ _ hmem)

theorem soyasSend_eq_some {w : World} {i : ℕ} {name : String} {tx : Transaction} :
    w.soyasSend i = some (name, tx) ↔ ∃ (task : SendTask) (sendElapsed : Duration),
      w.sends[i]? = some task ∧ task.stage = .sending tx sendElapsed ∧
        task.endpoint.kind = .soyas ∧ task.endpoint.name = name := by
  unfold World.soyasSend
  constructor
  · intro h
    split at h
    · rename_i task hget
      split at h
      · rename_i tx' sendElapsed hstage hkind
        obtain ⟨rfl, rfl⟩ := Prod.mk.inj (Option.some.inj h)
        exact ⟨task, sendElapsed, hget, hstage, hkind, rfl⟩
      · cases h
    · cases h
  · rintro ⟨task, sendElapsed, hget, hstage, hkind, rfl⟩
    simp only [hget, hstage, hkind]

/-- A future that goes on to a stage in which it has nothing on the wire. -/
theorem Sound.settle (h : s.Sound env serialize) {w : World} {i : ℕ} {task : SendTask}
    {stage : SendStage} (hstage : (∀ tx sendElapsed, stage ≠ .sending tx sendElapsed) ∧
      ∀ signature sendElapsed, stage ≠ .recording signature sendElapsed)
    (hsends : w.sends = s.world.sends.set i { task with stage := stage })
    (hlog : ∀ signature provider sentElapsed roundId,
      .recordSend signature provider sentElapsed roundId ∈ w.log →
        .recordSend signature provider sentElapsed roundId ∈ s.world.log) :
    Sound env serialize { s with world := w } := by
  refine h.congr (fun k task' hget ↦ ?_) hlog
  rw [hsends] at hget
  rcases Lists.getElem?_set_eq_some hget with ⟨-, rfl⟩ | ⟨-, hget⟩
  · exact .inr hstage
  · exact .inl hget

section Futures

variable {w : World} {i : ℕ} {task : SendTask} {tx : Transaction} {sendElapsed : Duration}

/-- The poll that gives the transaction away. -/
theorem Sound.handed (h : s.Sound env serialize) (clock : Duration)
    (hget : s.world.sends[i]? = some task)
    (hsends : w.sends = s.world.sends.set i { task with stage := .sending tx sendElapsed })
    (hlog : w.log = s.world.log) :
    Sound env serialize (s.follow w (.send i (.poll clock))) := by
  have hlt := (List.getElem?_eq_some_iff.mp hget).1
  have hself : w.sends[i]? = some { task with stage := .sending tx sendElapsed } := by
    rw [hsends]
    simp [hlt]
  have hrecording : ∀ task' ∈ w.sends, ∀ signature sendElapsed,
      task'.stage = .recording signature sendElapsed → task' ∈ s.world.sends := by
    intro task' hmem signature sendElapsed' hstage
    rw [hsends] at hmem
    rcases List.mem_or_eq_of_mem_set hmem with hmem | rfl
    · exact hmem
    · cases hstage
  have hsending : ∀ j name tx', j ≠ i → w.soyasSend j = some (name, tx') →
      s.world.soyasSend j = some (name, tx') := by
    intro j name tx' hne hsend
    obtain ⟨task', sendElapsed', hget', hrest⟩ := soyasSend_eq_some.mp hsend
    rw [hsends, List.getElem?_set_ne hne.symm] at hget'
    exact soyasSend_eq_some.mpr ⟨task', sendElapsed', hget', hrest⟩
  by_cases hkind : task.endpoint.kind = .soyas
  · have hsend : w.soyasSend i = some (task.endpoint.name, tx) :=
      soyasSend_eq_some.mpr ⟨_, sendElapsed, hself, rfl, hkind, rfl⟩
    have hext := fun name ↦
      extends_update s.clients (extends_call (s.clients task.endpoint.name) tx) name
    simp only [follow, hsend]
    have hcall : (Function.update s.clients task.endpoint.name
        ((s.clients task.endpoint.name).call tx) task.endpoint.name).calls[
          Function.update s.callOf i (s.clients task.endpoint.name).calls.length i]? =
        some ⟨tx, [], .called, []⟩ := by
      rw [Function.update_self, Function.update_self]
      simp
    refine ⟨sound_update h.clients ((h.clients _).call tx), fun j name tx' hsend' ↦ ?_,
      fun task' hmem signature e hstage hsoyas ↦ ?_,
      fun signature provider sentElapsed roundId hmem ↦ ?_⟩
    · rcases eq_or_ne j i with rfl | hne
      · obtain ⟨rfl, rfl⟩ := Prod.mk.inj (Option.some.inj (hsend.symm.trans hsend'))
        exact ⟨_, hcall, rfl⟩
      · obtain ⟨old, hold, htransaction⟩ := h.sending j name tx' (hsending j name tx' hne hsend')
        obtain ⟨new, hnew, hsame, -⟩ := hext name _ _ hold
        have hsameCall : Function.update s.callOf i (s.clients task.endpoint.name).calls.length j =
            s.callOf j := Function.update_of_ne hne _ _
        exact ⟨new, (congrArg _ hsameCall).trans hnew, hsame.trans htransaction⟩
    · have hold := hrecording task' hmem signature e hstage
      exact (h.recording task' hold signature e hstage hsoyas).extends (hext _)
    · obtain ⟨ep, hep, hname, hwire⟩ := h.recorded _ _ _ _ (hlog ▸ hmem)
      exact ⟨ep, hep, hname, fun hsoyas ↦ (hwire hsoyas).extends (hext _)⟩
  · have hsend : w.soyasSend i = none := by
      by_contra hsome
      obtain ⟨⟨name, tx'⟩, hsome⟩ := Option.ne_none_iff_exists'.mp hsome
      obtain ⟨task', e, hget', -, hkind', -⟩ := soyasSend_eq_some.mp hsome
      obtain rfl := Option.some.inj (hself.symm.trans hget')
      exact hkind hkind'
    simp only [follow, hsend]
    refine ⟨h.clients, fun j name tx' hsend' ↦ ?_, fun task' hmem signature e hstage ↦ ?_, ?_⟩
    · rcases eq_or_ne j i with rfl | hne
      · exact absurd (hsend.symm.trans hsend') (by simp)
      · exact h.sending j name tx' (hsending j name tx' hne hsend')
    · exact h.recording task' (hrecording task' hmem signature e hstage) signature e hstage
    · rw [hlog]
      exact h.recorded

/-- The sender has taken the transaction, so that its call has returned `Ok`. -/
theorem Sound.sent (h : s.Sound env serialize) (hget : s.world.sends[i]? = some task)
    (hstage : task.stage = .sending tx sendElapsed)
    (hallows : s.allows (.send i (.returned true)) = true)
    (hsends : w.sends = s.world.sends.set i
      { task with stage := .recording (env.host.base58 tx.signature) sendElapsed })
    (hlog : w.log = s.world.log) : Sound env serialize { s with world := w } where
  clients := h.clients
  sending j name tx' hsend := by
    obtain ⟨task', e, hget', hstage', hrest⟩ := soyasSend_eq_some.mp hsend
    rw [hsends] at hget'
    rcases Lists.getElem?_set_eq_some hget' with ⟨-, rfl⟩ | ⟨-, hget'⟩
    · cases hstage'
    · exact h.sending j name tx' (soyasSend_eq_some.mpr ⟨task', e, hget', hstage', hrest⟩)
  recording task' hmem signature e hstage' hkind := by
    rw [hsends] at hmem
    rcases List.mem_or_eq_of_mem_set hmem with hmem | rfl
    · exact h.recording task' hmem signature e hstage' hkind
    · obtain ⟨rfl, rfl⟩ := SendStage.recording.inj hstage'
      have hsend : s.world.soyasSend i = some (task.endpoint.name, tx) :=
        soyasSend_eq_some.mpr ⟨task, _, hget, hstage, hkind, rfl⟩
      obtain ⟨call, hcall, rfl⟩ := h.sending i _ _ hsend
      simp only [allows, hsend, hcall, Option.any_some] at hallows
      refine ⟨s.callOf i, call, hcall, rfl, ?_⟩
      cases hpc : call.pc with
      | returned result =>
          rcases result with err | ⟨⟩
          · rw [hpc] at hallows
            cases hallows
          · rfl
      | _ =>
          rw [hpc] at hallows
          cases hallows
  recorded := by
    rw [hlog]
    exact h.recorded

/-- The send is recorded under the name of its endpoint. -/
theorem Sound.noted (h : s.Sound env serialize) {signature : String} {stage : SendStage}
    (hentry : task.endpoint ∈ env.config.endpoint) (hget : s.world.sends[i]? = some task)
    (hstage : task.stage = .recording signature sendElapsed)
    (hnew : (∀ tx sendElapsed, stage ≠ .sending tx sendElapsed) ∧
      ∀ signature sendElapsed, stage ≠ .recording signature sendElapsed)
    (hsends : w.sends = s.world.sends.set i { task with stage := stage })
    (hlog : w.log = s.world.log ++
      [.recordSend signature task.endpoint.name sendElapsed task.roundId]) :
    Sound env serialize { s with world := w } := by
  have hsettled := h.settle (w := { w with log := s.world.log }) hnew hsends fun _ _ _ _ hmem ↦ hmem
  refine ⟨h.clients, hsettled.sending, hsettled.recording, fun sig provider e roundId hmem ↦ ?_⟩
  rw [hlog] at hmem
  rcases List.mem_append.mp hmem with hmem | hlast
  · exact h.recorded _ _ _ _ hmem
  · obtain ⟨rfl, rfl, rfl, rfl⟩ := BookOp.recordSend.inj (List.mem_singleton.mp hlast)
    exact ⟨task.endpoint, hentry, rfl,
      h.recording task (List.mem_of_getElem? hget) _ _ hstage⟩

end Futures

theorem follow_of_ne_poll (s : Wired) (w : World) {act : Act}
    (h : ∀ i clock, act ≠ .send i (.poll clock)) : s.follow w act = { s with world := w } := by
  unfold follow
  split
  · exact absurd rfl (h _ _)
  · rfl

/-- A poll after which nothing is on its way. -/
theorem follow_of_settled (s : Wired) {w : World} {i : ℕ} {clock : Duration} {task : SendTask}
    (stage : SendStage) (hstage : ∀ tx sendElapsed, stage ≠ .sending tx sendElapsed)
    (hsends : w.sends = s.world.sends.set i { task with stage := stage }) :
    s.follow w (.send i (.poll clock)) = { s with world := w } := by
  have hnone : w.soyasSend i = none := by
    by_contra hsome
    obtain ⟨⟨name, tx⟩, hsome⟩ := Option.ne_none_iff_exists'.mp hsome
    obtain ⟨task', sendElapsed, hget, hstage', -⟩ := soyasSend_eq_some.mp hsome
    rw [hsends] at hget
    rcases Lists.getElem?_set_eq_some hget with ⟨-, rfl⟩ | ⟨hne, -⟩
    · exact hstage _ _ hstage'
    · exact hne rfl
  simp only [follow, hnone]

theorem Sound.sendMove (h : s.Sound env serialize)
    (hentries : ∀ task ∈ s.world.sends, task.endpoint ∈ env.config.endpoint) {i : ℕ}
    {act : SendAct} {w : World} (hallows : s.allows (.send i act) = true)
    (hmove : World.SendMove env s.world i act w) :
    Sound env serialize (s.follow w (.send i act)) := by
  cases hmove with
  | declined task clock pc get stage signal =>
      rw [follow_of_settled s (.finished (.ok ())) (by simp) rfl]
      exact h.settle (by simp) rfl fun _ _ _ _ hmem ↦ hmem
  | unbuilt task clock err pc get stage signal build =>
      rw [follow_of_settled s (.finished (.error err)) (by simp) rfl]
      exact h.settle (by simp) rfl fun _ _ _ _ hmem ↦ hmem
  | clientless task clock tx pc get stage signal build sender =>
      rw [follow_of_settled s (.finished _) (by simp) rfl]
      exact h.settle (by simp) rfl fun _ _ _ _ hmem ↦ hmem
  | handed task clock tx client pc get stage signal build sender => exact h.handed clock get rfl rfl
  | sent task tx sendElapsed pc get stage =>
      rw [follow_of_ne_poll s _ (by simp)]
      exact h.sent get stage hallows rfl rfl
  | unsent task tx sendElapsed pc get stage =>
      rw [follow_of_ne_poll s _ (by simp)]
      exact h.settle (by simp) rfl fun _ _ _ _ hmem ↦ hmem
  | recorded task signature sendElapsed pc get stage =>
      rw [follow_of_ne_poll s _ (by simp)]
      exact h.noted (hentries task (List.mem_of_getElem? get)) get stage (by simp) rfl rfl
  | waited task pair deadline outcome pc get stage ready =>
      rw [follow_of_ne_poll s _ (by simp)]
      exact h.settle (by simp) rfl fun _ _ _ _ hmem ↦ hmem

theorem Sound.mainMove (h : s.Sound env serialize) {act : MainAct} {w : World}
    (hmove : World.MainMove env s.world act w) : Sound env serialize { s with world := w } := by
  cases hmove with
  | began nonceHash pc =>
      refine h.congr (fun i task hget ↦ .inl hget) fun _ _ _ _ hmem ↦ ?_
      rcases List.mem_append.mp hmem with hmem | hnew
      · exact hmem
      · cases List.mem_singleton.mp hnew
  | dispatched nonceHash ep index rest pc =>
      refine h.congr (fun i task hget ↦ ?_) fun _ _ _ _ hmem ↦ hmem
      rcases Lists.getElem?_snoc_eq_some hget with hget | ⟨-, rfl⟩
      · exact .inl hget
      · exact .inr ⟨by simp [World.newSend], by simp [World.newSend]⟩
  | collected pc finished =>
      exact h.congr (fun i task hget ↦ by simp at hget) fun _ _ _ _ hmem ↦ hmem
  | _ => exact h.congr (fun i task hget ↦ .inl hget) fun _ _ _ _ hmem ↦ hmem

theorem Sound.worldMove (h : s.Sound env serialize)
    (hentries : ∀ task ∈ s.world.sends, task.endpoint ∈ env.config.endpoint) {act : Act}
    {w : World} (hallows : s.allows act = true) (hmove : World.Move env s.world act w) :
    Sound env serialize (s.follow w act) := by
  cases hmove with
  | tick d => exact h.congr (fun i task hget ↦ .inl hget) fun _ _ _ _ hmem ↦ hmem
  | listener move =>
      rw [follow_of_ne_poll s _ (by simp), move.frame]
      exact h.congr (fun i task hget ↦ .inl hget) fun _ _ _ _ hmem ↦ hmem
  | memo move =>
      rw [follow_of_ne_poll s _ (by simp)]
      cases move with
      | received | ended => exact h.congr (fun i task hget ↦ .inl hget) fun _ _ _ _ hmem ↦ hmem
      | recorded obs pc =>
          refine h.congr (fun i task hget ↦ .inl hget) fun _ _ _ _ hmem ↦ ?_
          rcases List.mem_append.mp hmem with hmem | hnew
          · exact hmem
          · cases List.mem_singleton.mp hnew
  | ctrlC move =>
      rw [follow_of_ne_poll s _ (by simp), move.frame]
      exact h.congr (fun i task hget ↦ .inl hget) fun _ _ _ _ hmem ↦ hmem
  | main move =>
      rw [follow_of_ne_poll s _ (by simp)]
      exact h.mainMove move
  | send move => exact h.sendMove hentries hallows move

theorem sound {as : List WiredAct} (hrun : (env.wired serialize).run as = some s) :
    s.Sound env serialize := by
  refine (env.wired serialize).run_induction (motive := fun _ s ↦ s.Sound env serialize)
    sound_init ?_ hrun
  intro as a s t hs ih hstep
  rcases step_cases hstep with ⟨act, w, -, hallows, hworld, rfl⟩ | ⟨name, call, act, client, -,
    hclient, rfl⟩
  · obtain ⟨bs, hbs⟩ := world_run hs
    refine ih.worldMove (fun task hmem ↦ ?_) hallows (World.move hworld)
    exact List.mem_of_getElem? ((World.traced hbs).sends task hmem).entry
  · exact ih.soyas hclient

/-! ## What the program knows of the wire -/

/-- A future for a Soyas endpoint learns what became of its transaction, and what
the book records as sent by such an endpoint was finished on a stream of its
client, once and in full. -/
theorem wire_is_reported (env : Env) (serialize : Transaction → Except String (List UInt8))
    (as : List WiredAct) (s : Wired) (hrun : (env.wired serialize).run as = some s) :
    (∀ i ok t name tx, s.world.soyasSend i = some (name, tx) →
        (env.wired serialize).step s (.world (.send i (.returned ok))) = some t →
          if ok then ∃ payload, serialize tx = .ok payload ∧
            (s.clients name).delivered (s.callOf i) = [payload]
          else (s.clients name).delivered (s.callOf i) = []) ∧
      ∀ signature provider sentElapsed roundId,
        .recordSend signature provider sentElapsed roundId ∈ s.world.log →
          ∃ ep ∈ env.config.endpoint, ep.name = provider ∧ (ep.kind = .soyas →
            ∃ (k : ℕ) (call : Soyas.Call) (payload : List UInt8),
              (s.clients provider).calls[k]? = some call ∧
                env.host.base58 call.transaction.signature = signature ∧
                serialize call.transaction = .ok payload ∧
                (s.clients provider).delivered k = [payload]) := by
  have hsound := sound hrun
  have hok : ∀ (name : String) (k : ℕ) (call : Soyas.Call),
      (s.clients name).calls[k]? = some call → call.pc = .returned (.ok ()) →
        serialize call.transaction = .ok call.serializedTx ∧
          (s.clients name).delivered k = [call.serializedTx] := by
    intro name k call hk hpc
    have hcall := (hsound.clients name).calls k call hk
    refine ⟨hcall.serialized (by rw [hpc]; trivial), ?_⟩
    rw [hcall.delivered, Soyas.Call.delivery, hpc]
  refine ⟨fun i ok t name tx hsend hstep ↦ ?_, fun signature provider sentElapsed roundId hmem ↦ ?_⟩
  · obtain ⟨call, hget, rfl⟩ := hsound.sending i name tx hsend
    rcases step_cases hstep with ⟨act, w, heq, hallows, -, -⟩ | ⟨_, _, _, _, heq, -, -⟩
    · obtain rfl := WiredAct.world.inj heq
      simp only [allows, hsend, hget, Option.any_some] at hallows
      cases hpc : call.pc with
      | returned result =>
          rw [hpc] at hallows
          rcases result with err | ⟨⟩
          · obtain rfl : ok = false := by simpa [Soyas.CallPc.returns] using hallows
            have hcall := (hsound.clients name).calls _ call hget
            rw [hcall.delivered, Soyas.Call.delivery, hpc]
            simp
          · obtain rfl : ok = true := by simpa [Soyas.CallPc.returns] using hallows
            exact ⟨call.serializedTx, hok name _ call hget hpc⟩
      | _ =>
          rw [hpc] at hallows
          cases hallows
    · cases heq
  · obtain ⟨ep, hep, hname, hwire⟩ := hsound.recorded _ _ _ _ hmem
    refine ⟨ep, hep, hname, fun hkind ↦ ?_⟩
    obtain ⟨k, call, hk, hsignature, hpc⟩ := hwire hkind
    exact ⟨k, call, call.serializedTx, hk, hsignature, hok provider k call hk hpc⟩

def soyasEnv : Env := Sample.env 1 [Sample.soyasFra "soyas"] rfl

/-- Up to the call of the only sender. -/
def soyasPoll : List Act :=
  Sample.startup ++ [.main (.connected true), .main .go] ++ Sample.openRound Sample.nonce₀ ++
    [.send 0 (.poll Sample.wallClock)]

/-- One transaction goes out on the first connection, and is recorded. -/
def soyasRun : List WiredAct :=
  soyasPoll.map .world ++
    [.soyas "soyas" 0 .go, .soyas "soyas" 0 (.opened true), .soyas "soyas" 0 (.wrote .finished),
      .world (.send 0 (.returned true)), .world (.send 0 .record)]

def soyasSignature : String := soyasEnv.host.base58 Sample.soyasTx.signature

def soyasLog : List BookOp :=
  [.startRound (soyasEnv.host.base58 Sample.nonce₀.bytes),
    .recordSend soyasSignature "soyas" 0 (soyasEnv.host.base58 Sample.nonce₀.bytes)]

theorem wire_is_reported_soyasRun :
    ∃ s, (soyasEnv.wired Sample.serialize).run soyasRun = some s ∧
      ∃ (k : ℕ) (call : Soyas.Call) (payload : List UInt8),
        (s.clients "soyas").calls[k]? = some call ∧
          soyasEnv.host.base58 call.transaction.signature = soyasSignature ∧
          Sample.serialize call.transaction = .ok payload ∧
          (s.clients "soyas").delivered k = [payload] := by
  have hrun : ((soyasEnv.wired Sample.serialize).run soyasRun).map (fun s ↦
      decide (s.world.log = soyasLog)) = some true := by decide +kernel
  obtain ⟨s, hs, hlog⟩ := Option.map_eq_some_iff.mp hrun
  have hmem : .recordSend soyasSignature "soyas" 0 (soyasEnv.host.base58 Sample.nonce₀.bytes) ∈
      s.world.log := by
    rw [of_decide_eq_true hlog]
    exact List.mem_cons_of_mem _ List.mem_cons_self
  obtain ⟨ep, hep, -, hwire⟩ :=
    (wire_is_reported soyasEnv Sample.serialize soyasRun s hs).2 _ _ _ _ hmem
  obtain rfl : ep = Sample.soyasFra "soyas" := List.mem_singleton.mp hep
  exact ⟨s, hs, hwire rfl⟩

end Wired
end LandingBench
