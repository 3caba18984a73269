import LandingBench.System.Facts

/-!
# Where everything comes from

Every future, every transaction handed to a sender and every send that the book
records goes back to one entry of the configuration.  No transaction is
recorded more often than it was handed over.
-/

namespace LandingBench

open Async Data Ledger

/-- The client was created for a Soyas entry of this name. -/
def SoyasClient.CreatedFor (client : SoyasClient) (endpoints : List Endpoint) (name : String) :
    Prop :=
  ∃ ep ∈ endpoints, ep.kind = .soyas ∧ ep.name = name ∧ ep.url = client.endpointAddr ∧
    ep.apiKey = some client.apiKey

/-- The client comes from the entry's own URL, or from a Soyas entry of its name. -/
def Client.CreatedFor (endpoints : List Endpoint) (ep : Endpoint) : Client → Prop
  | .rpc client => ep.kind ≠ .soyas ∧ client.url = ep.url
  | .soyas client => ep.kind = .soyas ∧ client.CreatedFor endpoints ep.name

def Handed.signature (host : Host) (h : Handed) : String := host.base58 h.tx.signature

/-- The signature of a transaction that has been handed over, but is neither
recorded nor refused. -/
def SendTask.pending (host : Host) (task : SendTask) : Option String :=
  match task.stage with
  | .sending tx _ => some (host.base58 tx.signature)
  | .recording signature _ => some signature
  | .created | .waiting _ _ | .finished _ => none

structure SendTask.FromEntry (endpoints : List Endpoint) (task : SendTask) : Prop where
  entry : endpoints[task.index]? = some task.endpoint
  rpcClient : task.rpcClient.url = task.endpoint.url
  soyasClient : ∀ client, task.soyasClient = some client →
    client.CreatedFor endpoints task.endpoint.name

namespace World

variable {env : Env} {w w' : World}

def handedSignatures (env : Env) (w : World) : List String :=
  w.handed.map (·.signature env.host)

def pendingSignatures (env : Env) (w : World) : List String :=
  w.sends.filterMap (SendTask.pending env.host)

structure Traced (env : Env) (w : World) : Prop where
  connecting : ∀ rest, w.main.pc = .connecting rest → ∀ ep ∈ rest, ep ∈ env.config.endpoint
  clients : ∀ name client, w.main.soyasClients.lookup name = some client →
    client.CreatedFor env.config.endpoint name
  dispatching : ∀ nonceHash rest, w.main.pc = .dispatching nonceHash rest →
    ∀ entry ∈ rest, env.config.endpoint[entry.2]? = some entry.1
  sends : ∀ task ∈ w.sends, task.FromEntry env.config.endpoint
  handed : ∀ h ∈ w.handed, env.config.endpoint[h.index]? = some h.endpoint ∧
    h.client.CreatedFor env.config.endpoint h.endpoint
  pending : ∀ task ∈ w.sends, ∀ signature, task.pending env.host = some signature →
    ∃ h ∈ w.handed, h.signature env.host = signature ∧ h.endpoint = task.endpoint ∧
      h.roundId = task.roundId
  recorded : ∀ signature provider sentElapsed roundId,
    .recordSend signature provider sentElapsed roundId ∈ w.log →
      ∃ h ∈ w.handed, h.signature env.host = signature ∧ h.endpoint.name = provider ∧
        h.roundId = roundId
  counted : ∀ signature, (recordedSignatures w.log).count signature +
    (w.pendingSignatures env).count signature ≤ (w.handedSignatures env).count signature

theorem traced_init (env : Env) : (World.init env).Traced env where
  connecting rest h := by cases h
  clients name client h := by cases h
  dispatching nonceHash rest h := by cases h
  sends task h := by cases h
  handed h hmem := by cases hmem
  pending task h := by cases h
  recorded signature provider sentElapsed roundId h := by cases h
  counted signature := by simp [World.init, recordedSignatures, pendingSignatures]

theorem Traced.congr (h : w.Traced env) (hmain : w'.main = w.main) (hsends : w'.sends = w.sends)
    (hhanded : w'.handed = w.handed) (hlog : w'.log = w.log) : w'.Traced env where
  connecting := hmain ▸ h.connecting
  clients := hmain ▸ h.clients
  dispatching := hmain ▸ h.dispatching
  sends := hsends ▸ h.sends
  handed := hhanded ▸ h.handed
  pending := by
    rw [hsends, hhanded]
    exact h.pending
  recorded := by
    rw [hlog, hhanded]
    exact h.recorded
  counted := by
    simp only [pendingSignatures, handedSignatures, hsends, hhanded, hlog]
    exact h.counted

/-! ## The futures -/

section Futures

variable {i : ℕ} {task : SendTask}

theorem fromEntry_setSend (h : w.Traced env) (hget : w.sends[i]? = some task) (stage : SendStage) :
    ∀ task' ∈ (w.setSend i task stage).sends, task'.FromEntry env.config.endpoint := by
  intro task' hmem
  rcases List.mem_or_eq_of_mem_set hmem with hold | rfl
  · exact h.sends task' hold
  · have hfrom := h.sends task (List.mem_of_getElem? hget)
    exact ⟨hfrom.entry, hfrom.rpcClient, hfrom.soyasClient⟩

theorem count_pending_setSend (env : Env) (hget : w.sends[i]? = some task) (stage : SendStage)
    (signature : String) :
    ((w.setSend i task stage).pendingSignatures env).count signature +
        (task.pending env.host).toList.count signature =
      (w.pendingSignatures env).count signature +
        (SendTask.pending env.host { task with stage := stage }).toList.count signature :=
  Lists.count_filterMap_set (SendTask.pending env.host) hget _ signature

/-- A future that goes on to a stage with nothing pending. -/
theorem Traced.settle (h : w.Traced env) (hget : w.sends[i]? = some task) {stage : SendStage}
    (hpending : SendTask.pending env.host { task with stage := stage } = none) :
    (w.setSend i task stage).Traced env where
  connecting := h.connecting
  clients := h.clients
  dispatching := h.dispatching
  sends := fromEntry_setSend h hget stage
  handed := h.handed
  pending task' hmem signature hsignature := by
    rcases List.mem_or_eq_of_mem_set hmem with hold | rfl
    · exact h.pending task' hold signature hsignature
    · rw [hpending] at hsignature
      cases hsignature
  recorded := h.recorded
  counted signature := by
    have hcount := h.counted signature
    have hset := count_pending_setSend env hget stage signature
    rw [hpending] at hset
    change (recordedSignatures w.log).count signature +
      ((w.setSend i task stage).pendingSignatures env).count signature ≤
        (w.handedSignatures env).count signature
    simp only [Option.toList_none, List.count_nil] at hset
    omega

/-- The signature of the transaction is what the book will record. -/
theorem Traced.sent (h : w.Traced env) {tx : Transaction} {sendElapsed : Duration}
    (hget : w.sends[i]? = some task) (hstage : task.stage = .sending tx sendElapsed) :
    (w.setSend i task (.recording (env.host.base58 tx.signature) sendElapsed)).Traced env where
  connecting := h.connecting
  clients := h.clients
  dispatching := h.dispatching
  sends := fromEntry_setSend h hget _
  handed := h.handed
  pending task' hmem signature hsignature := by
    rcases List.mem_or_eq_of_mem_set hmem with hold | rfl
    · exact h.pending task' hold signature hsignature
    · apply h.pending task (List.mem_of_getElem? hget) signature
      rw [SendTask.pending, hstage]
      exact hsignature
  recorded := h.recorded
  counted signature := by
    have hcount := h.counted signature
    have hset := count_pending_setSend env hget
      (.recording (env.host.base58 tx.signature) sendElapsed) signature
    have hsame : task.pending env.host = some (env.host.base58 tx.signature) := by
      rw [SendTask.pending, hstage]
    rw [hsame] at hset
    change (recordedSignatures w.log).count signature + List.count signature
      ((w.setSend i task (.recording (env.host.base58 tx.signature) sendElapsed)).pendingSignatures
        env) ≤ (w.handedSignatures env).count signature
    simp only [SendTask.pending] at hset
    omega

/-- One more transaction is out, and its future waits for the sender. -/
theorem Traced.hand (h : w.Traced env) {tx : Transaction} {client : Client}
    (hget : w.sends[i]? = some task) (hstage : task.stage = .created)
    (hclient : task.client = some client) :
    ({ w.setSend i task (.sending tx w.now) with
      handed := w.handed ++ [⟨task.index, task.endpoint, client, tx, task.roundId⟩] } :
        World).Traced env where
  connecting := h.connecting
  clients := h.clients
  dispatching := h.dispatching
  sends := fromEntry_setSend h hget _
  handed handed hmem := by
    rcases List.mem_append.mp hmem with hold | hnew
    · exact h.handed handed hold
    · obtain rfl := List.mem_singleton.mp hnew
      have hfrom := h.sends task (List.mem_of_getElem? hget)
      refine ⟨hfrom.entry, ?_⟩
      unfold SendTask.client at hclient
      split at hclient
      · rename_i hkind
        obtain ⟨soyas, hsoyas, rfl⟩ := Option.map_eq_some_iff.mp hclient
        exact ⟨hkind, hfrom.soyasClient soyas hsoyas⟩
      · rename_i hkind
        obtain rfl := Option.some.inj hclient
        exact ⟨by simp [hkind], hfrom.rpcClient⟩
      · rename_i hkind
        obtain rfl := Option.some.inj hclient
        exact ⟨by simp [hkind], hfrom.rpcClient⟩
  pending task' hmem signature hsignature := by
    rcases List.mem_or_eq_of_mem_set hmem with hold | rfl
    · obtain ⟨handed, hmem', hsame⟩ := h.pending task' hold signature hsignature
      exact ⟨handed, List.mem_append_left _ hmem', hsame⟩
    · exact ⟨_, List.mem_append_right _ (List.mem_singleton.mpr rfl),
        Option.some.inj hsignature, rfl, rfl⟩
  recorded signature provider sentElapsed roundId hmem := by
    obtain ⟨handed, hmem', hsame⟩ := h.recorded signature provider sentElapsed roundId hmem
    exact ⟨handed, List.mem_append_left _ hmem', hsame⟩
  counted signature := by
    have hcount := h.counted signature
    have hset := count_pending_setSend env hget (.sending tx w.now) signature
    have hnone : task.pending env.host = none := by
      rw [SendTask.pending, hstage]
    rw [hnone] at hset
    change (recordedSignatures w.log).count signature +
      ((w.setSend i task (.sending tx w.now)).pendingSignatures env).count signature ≤
        List.count signature (List.map (·.signature env.host) (w.handed ++
          [⟨task.index, task.endpoint, client, tx, task.roundId⟩]))
    rw [List.map_append, List.count_append]
    simp only [SendTask.pending, handedSignatures, Option.toList_none, Option.toList_some,
      List.count_nil, List.map_cons, List.map_nil, Handed.signature] at hset hcount ⊢
    omega

/-- What was pending is recorded now. -/
theorem Traced.record (h : w.Traced env) {signature : String} {sendElapsed deadline : Duration}
    {pair : WaitPair} {book : LandingBook} (hget : w.sends[i]? = some task)
    (hstage : task.stage = .recording signature sendElapsed) :
    ({ w.setSend i task (.waiting pair deadline) with
      book := book
      log := w.log ++ [.recordSend signature task.endpoint.name sendElapsed task.roundId] } :
        World).Traced env where
  connecting := h.connecting
  clients := h.clients
  dispatching := h.dispatching
  sends := fromEntry_setSend h hget _
  handed := h.handed
  pending task' hmem signature' hsignature := by
    rcases List.mem_or_eq_of_mem_set hmem with hold | rfl
    · exact h.pending task' hold signature' hsignature
    · cases hsignature
  recorded signature' provider sentElapsed roundId hmem := by
    rcases List.mem_append.mp hmem with hold | hnew
    · exact h.recorded signature' provider sentElapsed roundId hold
    · obtain ⟨rfl, rfl, rfl, rfl⟩ := BookOp.recordSend.inj (List.mem_singleton.mp hnew)
      have hpending : task.pending env.host = some signature' := by
        rw [SendTask.pending, hstage]
      obtain ⟨handed, hmem', hsame, hendpoint, hround⟩ :=
        h.pending task (List.mem_of_getElem? hget) signature' hpending
      exact ⟨handed, hmem', hsame, congrArg Endpoint.name hendpoint, hround⟩
  counted signature' := by
    have hcount := h.counted signature'
    have hset := count_pending_setSend env hget (.waiting pair deadline) signature'
    have hpending : task.pending env.host = some signature := by
      rw [SendTask.pending, hstage]
    rw [hpending] at hset
    change (recordedSignatures (w.log ++ [_])).count signature' +
      ((w.setSend i task (.waiting pair deadline)).pendingSignatures env).count signature' ≤
        (w.handedSignatures env).count signature'
    rw [recordedSignatures_snoc, List.count_append]
    simp only [SendTask.pending, BookOp.recorded?, Option.toList_none, Option.toList_some,
      List.count_nil] at hset ⊢
    omega

theorem Traced.sendMove {act : SendAct} (h : w.Traced env) (hmove : SendMove env w i act w') :
    w'.Traced env := by
  cases hmove with
  | declined task clock pc get stage signal => exact h.settle get rfl
  | unbuilt task clock err pc get stage signal build =>
      exact (h.settle get rfl).congr rfl rfl rfl rfl
  | clientless task clock tx pc get stage signal build sender =>
      exact (h.settle get rfl).congr rfl rfl rfl rfl
  | handed task clock tx client pc get stage signal build sender =>
      exact (h.hand get stage sender).congr rfl rfl rfl rfl
  | sent task tx sendElapsed pc get stage => exact h.sent get stage
  | unsent task tx sendElapsed pc get stage => exact h.settle get rfl
  | recorded task signature sendElapsed pc get stage => exact h.record get stage
  | waited task pair deadline outcome pc get stage ready =>
      exact (h.settle get rfl).congr rfl rfl rfl rfl

end Futures

/-! ## Main -/

theorem newSend_fromEntry (h : w.Traced env) (nonceHash : Hash) {ep : Endpoint} {index : ℕ}
    (hentry : env.config.endpoint[index]? = some ep) :
    (w.newSend env nonceHash ep index).FromEntry env.config.endpoint where
  entry := hentry
  rpcClient := by simp [newSend, rpcClients, hentry]
  soyasClient client hclient := h.clients ep.name client hclient

theorem Traced.mainMove {act : MainAct} (h : w.Traced env) (hmove : MainMove env w act w') :
    w'.Traced env := by
  cases hmove with
  | ready pc value =>
      refine ⟨fun rest hpc ep hmem ↦ ?_, h.clients, fun _ _ hpc ↦ (by cases hpc), h.sends,
        h.handed, h.pending, h.recorded, h.counted⟩
      obtain rfl := MainPc.connecting.inj hpc
      exact hmem
  | skipped ep rest pc kind =>
      refine ⟨fun rest' hpc ep' hmem ↦ ?_, h.clients, fun _ _ hpc ↦ (by cases hpc), h.sends,
        h.handed, h.pending, h.recorded, h.counted⟩
      obtain rfl := MainPc.connecting.inj hpc
      exact h.connecting _ pc ep' (List.mem_cons_of_mem ep hmem)
  | connected ep rest apiKey pc kind key =>
      have hep := h.connecting _ pc ep List.mem_cons_self
      refine ⟨fun rest' hpc ep' hmem ↦ ?_, fun name client hlookup ↦ ?_,
        fun _ _ hpc ↦ (by cases hpc), h.sends, h.handed, h.pending, h.recorded, h.counted⟩
      · obtain rfl := MainPc.connecting.inj hpc
        exact h.connecting _ pc ep' (List.mem_cons_of_mem ep hmem)
      · rcases HashMap.eq_or_of_lookup_insert hlookup with ⟨rfl, rfl⟩ | ⟨-, hlookup⟩
        · exact ⟨ep, hep, kind, rfl, rfl, key⟩
        · exact h.clients name client hlookup
  | began nonceHash pc =>
      refine ⟨fun _ hpc ↦ (by cases hpc), h.clients, fun nonceHash' rest hpc entry hmem ↦ ?_,
        h.sends, h.handed, h.pending, fun signature provider sentElapsed roundId hmem ↦ ?_,
        fun signature ↦ ?_⟩
      · obtain ⟨rfl, rfl⟩ := MainPc.dispatching.inj hpc
        exact List.mem_zipIdx_iff_getElem?.mp hmem
      · rcases List.mem_append.mp hmem with hold | hnew
        · exact h.recorded signature provider sentElapsed roundId hold
        · cases List.mem_singleton.mp hnew
      · change (recordedSignatures (w.log ++ [_])).count signature +
          (w.pendingSignatures env).count signature ≤ (w.handedSignatures env).count signature
        rw [recordedSignatures_snoc, BookOp.recorded?, Option.toList_none, List.append_nil]
        exact h.counted signature
  | dispatched nonceHash ep index rest pc =>
      have hentry := h.dispatching _ _ pc (ep, index) List.mem_cons_self
      refine ⟨fun _ hpc ↦ (by cases hpc), h.clients, fun nonceHash' rest' hpc entry hmem ↦ ?_,
        fun task hmem ↦ ?_, h.handed, fun task hmem signature hsignature ↦ ?_, h.recorded,
        fun signature ↦ ?_⟩
      · obtain ⟨rfl, rfl⟩ := MainPc.dispatching.inj hpc
        exact h.dispatching _ _ pc entry (List.mem_cons_of_mem _ hmem)
      · rcases List.mem_append.mp hmem with hold | hnew
        · exact h.sends task hold
        · obtain rfl := List.mem_singleton.mp hnew
          exact newSend_fromEntry h nonceHash hentry
      · rcases List.mem_append.mp hmem with hold | hnew
        · exact h.pending task hold signature hsignature
        · obtain rfl := List.mem_singleton.mp hnew
          cases hsignature
      · have hnew : [w.newSend env nonceHash ep index].filterMap (SendTask.pending env.host) = [] :=
          rfl
        change (recordedSignatures w.log).count signature +
          List.count signature ((w.sends ++ [w.newSend env nonceHash ep index]).filterMap
            (SendTask.pending env.host)) ≤ (w.handedSignatures env).count signature
        rw [List.filterMap_append, hnew, List.append_nil]
        exact h.counted signature
  | collected pc finished =>
      refine ⟨fun _ hpc ↦ (by cases hpc), h.clients, fun _ _ hpc ↦ (by cases hpc),
        fun task hmem ↦ (by cases hmem), h.handed, fun task hmem ↦ (by cases hmem), h.recorded,
        fun signature ↦ ?_⟩
      have hcount := h.counted signature
      change (recordedSignatures w.log).count signature + List.count signature [] ≤
        (w.handedSignatures env).count signature
      rw [List.count_nil]
      omega
  | _ =>
      exact ⟨fun _ hpc ↦ (by cases hpc), h.clients, fun _ _ hpc ↦ (by cases hpc), h.sends,
        h.handed, h.pending, h.recorded, h.counted⟩

theorem Traced.memoMove (h : w.Traced env) (hmove : MemoMove w w') : w'.Traced env := by
  cases hmove with
  | received obs rest pc buffer => exact h.congr rfl rfl rfl rfl
  | ended pc buffer senders => exact h.congr rfl rfl rfl rfl
  | recorded obs pc =>
      refine ⟨h.connecting, h.clients, h.dispatching, h.sends, h.handed, h.pending,
        fun signature provider sentElapsed roundId hmem ↦ ?_, fun signature ↦ ?_⟩
      · rcases List.mem_append.mp hmem with hold | hnew
        · exact h.recorded signature provider sentElapsed roundId hold
        · cases List.mem_singleton.mp hnew
      · change (recordedSignatures (w.log ++ [_])).count signature +
          (w.pendingSignatures env).count signature ≤ (w.handedSignatures env).count signature
        rw [recordedSignatures_snoc, BookOp.recorded?, Option.toList_none, List.append_nil]
        exact h.counted signature

theorem Traced.move {act : Act} (h : w.Traced env) (hmove : Move env w act w') :
    w'.Traced env := by
  cases hmove with
  | tick d => exact h.congr rfl rfl rfl rfl
  | listener move =>
      rw [move.frame]
      exact h.congr rfl rfl rfl rfl
  | memo move => exact h.memoMove move
  | ctrlC move =>
      rw [move.frame]
      exact h.congr rfl rfl rfl rfl
  | main move => exact h.mainMove move
  | send move => exact h.sendMove move

theorem traced {as : List Act} (hrun : env.machine.run as = some w) : w.Traced env :=
  env.machine.invariant (traced_init env) (fun _ _ _ h hstep ↦ h.move (move hstep)) hrun

/-- Nothing is recorded twice if no two transactions have one signature. -/
theorem Traced.nodup_recorded (h : w.Traced env) (hdistinct : (w.handedSignatures env).Nodup) :
    (recordedSignatures w.log).Nodup := by
  rw [List.nodup_iff_count_le_one] at hdistinct ⊢
  intro signature
  have hcount := h.counted signature
  have hone := hdistinct signature
  omega

end World
end LandingBench
