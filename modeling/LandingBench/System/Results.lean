import LandingBench.System.Provenance
import LandingBench.Validation

/-!
# Results that nobody looks at

`main` collects the results of a round's futures and drops them.  A future
fails where its transaction cannot be built or where its Soyas client is
missing; `main` does not get to its loop without the clients.
-/

namespace LandingBench

open Async Data Ledger

namespace World

variable {env : Env} {w w' : World}

/-- Every Soyas endpoint has a client as soon as `main` is in its loop. -/
structure Connected (env : Env) (w : World) : Prop where
  connecting : ∀ rest, w.main.pc = .connecting rest → ∀ ep ∈ env.config.endpoint,
    ep.kind = .soyas → ep ∈ rest ∨ (w.main.soyasClients.lookup ep.name).isSome
  inLoop : w.main.pc.InLoop → ¬ w.main.pc.BeforeLoop → ∀ ep ∈ env.config.endpoint,
    ep.kind = .soyas → (w.main.soyasClients.lookup ep.name).isSome
  tasks : ∀ task ∈ w.sends, task.client.isSome

theorem connected_init (env : Env) : (World.init env).Connected env where
  connecting rest hpc := by cases hpc
  inLoop _ hlate := absurd trivial hlate
  tasks task hmem := by cases hmem

/-- A future for a Soyas endpoint takes the client of its name, any other has its own. -/
theorem newSend_client (w : World) (nonceHash : Hash) {ep : Endpoint} (index : ℕ)
    (h : ep.kind = .soyas → (w.main.soyasClients.lookup ep.name).isSome) :
    (w.newSend env nonceHash ep index).client.isSome := by
  unfold SendTask.client
  cases hkind : ep.kind with
  | soyas => simpa [newSend, hkind] using h hkind
  | rpc => simp [newSend, hkind]
  | custom => simp [newSend, hkind]

theorem Connected.mainMove {act : MainAct} (h : w.Connected env) (htraced : w.Traced env)
    (hmove : MainMove env w act w') : w'.Connected env := by
  have hlater : ∀ pc, w.main.pc = pc → pc.InLoop → ¬ pc.BeforeLoop →
      ∀ ep ∈ env.config.endpoint, ep.kind = .soyas →
        (w.main.soyasClients.lookup ep.name).isSome := by
    rintro pc rfl hloop hlate
    exact h.inLoop hloop hlate
  cases hmove with
  | ready pc value =>
      refine ⟨fun rest hpc ep hep _ ↦ ?_, fun _ hlate ↦ absurd trivial hlate, h.tasks⟩
      obtain rfl := MainPc.connecting.inj hpc
      exact .inl hep
  | skipped ep rest pc kind =>
      refine ⟨fun rest' hpc ep' hep' hsoyas ↦ ?_, fun _ hlate ↦ absurd trivial hlate, h.tasks⟩
      obtain rfl := MainPc.connecting.inj hpc
      rcases h.connecting _ pc ep' hep' hsoyas with hmem | hclient
      · rcases List.mem_cons.mp hmem with rfl | hmem
        · exact absurd hsoyas kind
        · exact .inl hmem
      · exact .inr hclient
  | connected ep rest apiKey pc kind key =>
      refine ⟨fun rest' hpc ep' hep' hsoyas ↦ ?_, fun _ hlate ↦ absurd trivial hlate, h.tasks⟩
      obtain rfl := MainPc.connecting.inj hpc
      rcases eq_or_ne ep'.name ep.name with heq | hne
      · exact .inr (AList.lookup_isSome.mpr ((AList.mem_insert _).mpr (.inl heq)))
      · rcases h.connecting _ pc ep' hep' hsoyas with hmem | hclient
        · rcases List.mem_cons.mp hmem with rfl | hmem
          · exact absurd rfl hne
          · exact .inl hmem
        · exact .inr (by simpa [AList.lookup_insert_ne hne] using hclient)
  | entered pc =>
      refine ⟨fun rest hpc ↦ (by cases hpc), fun _ _ ep hep hsoyas ↦ ?_, h.tasks⟩
      rcases h.connecting _ pc ep hep hsoyas with hmem | hclient
      · cases hmem
      · exact hclient
  | dispatched nonceHash ep index rest pc =>
      have hclients := hlater _ pc trivial id
      have hep := List.mem_of_getElem?
        (htraced.dispatching _ _ pc (ep, index) List.mem_cons_self)
      refine ⟨fun rest hpc ↦ (by cases hpc), fun _ _ ↦ hclients, fun task hmem ↦ ?_⟩
      rcases List.mem_append.mp hmem with hmem | hnew
      · exact h.tasks task hmem
      · obtain rfl := List.mem_singleton.mp hnew
        exact newSend_client w nonceHash index (hclients ep hep)
  | collected pc finished =>
      exact ⟨fun rest hpc ↦ (by cases hpc), fun _ _ ↦ hlater _ pc trivial id,
        fun task hmem ↦ (by cases hmem)⟩
  | fetched pc | woken _ _ pc | fresh _ _ _ pc | stale _ _ pc | began _ pc | filled _ pc
  | delayed _ pc =>
      exact ⟨fun rest hpc ↦ (by cases hpc), fun _ _ ↦ hlater _ pc trivial id, h.tasks⟩
  | _ => exact ⟨fun rest hpc ↦ (by cases hpc), fun hloop ↦ hloop.elim, h.tasks⟩

theorem Connected.move {act : Act} (h : w.Connected env) (htraced : w.Traced env)
    (hmove : Move env w act w') : w'.Connected env := by
  rcases hmove.main_eq with ⟨mainAct, rfl, hmain⟩ | ⟨hmain, hother⟩
  · exact h.mainMove htraced hmain
  · refine ⟨hmain ▸ h.connecting, hmain ▸ h.inLoop, fun task hmem ↦ ?_⟩
    obtain ⟨old, hold, stage, rfl⟩ := hmove.mem_sends hother hmem
    exact h.tasks old hold

theorem connected {as : List Act} (hrun : env.machine.run as = some w) : w.Connected env := by
  refine env.machine.run_induction (motive := fun _ w ↦ w.Connected env)
    (connected_init env) ?_ hrun
  intro as act w w' hw ih hstep
  exact ih.move (traced hw) (move hstep)

/-- No future has failed. -/
def AllSucceed (w : World) : Prop := ∀ task ∈ w.sends, ∀ err, task.stage ≠ .finished (.error err)

theorem AllSucceed.set {i : ℕ} {task : SendTask} {stage : SendStage} (h : w.AllSucceed)
    (hstage : ∀ err, stage ≠ .finished (.error err)) : (w.setSend i task stage).AllSucceed := by
  intro task' hmem
  rcases List.mem_or_eq_of_mem_set hmem with hmem | rfl
  · exact h task' hmem
  · exact hstage

theorem AllSucceed.sendMove {i : ℕ} {act : SendAct} (h : w.AllSucceed)
    (hclients : ∀ task ∈ w.sends, task.client.isSome)
    (hbuilds : ∀ task ∈ w.sends, task.endpoint.Builds env.host)
    (hmove : SendMove env w i act w') : w'.AllSucceed := by
  cases hmove with
  | unbuilt task clock err pc get stage signal build =>
      obtain ⟨instructions, hbuild⟩ := hbuilds task (List.mem_of_getElem? get) env.nonceAccount
        env.authority task.endpoint.name env.config.config.prioFee
        env.config.config.computeUnitLimit clock w.randomCounter
      rw [buildTransaction, hbuild] at build
      cases build
  | clientless task clock tx pc get stage signal build sender =>
      have hclient := hclients task (List.mem_of_getElem? get)
      rw [sender] at hclient
      cases hclient
  | declined | handed | sent | unsent | recorded | waited => exact h.set (by simp)

theorem AllSucceed.mainMove {act : MainAct} (h : w.AllSucceed) (hmove : MainMove env w act w') :
    w'.AllSucceed := by
  cases hmove with
  | dispatched nonceHash ep index rest pc =>
      intro task hmem
      rcases List.mem_append.mp hmem with hmem | hnew
      · exact h task hmem
      · obtain rfl := List.mem_singleton.mp hnew
        simp [newSend]
  | collected pc finished => exact fun task hmem ↦ by cases hmem
  | _ => exact h

theorem AllSucceed.move {act : Act} (h : w.AllSucceed)
    (hclients : ∀ task ∈ w.sends, task.client.isSome)
    (hbuilds : ∀ task ∈ w.sends, task.endpoint.Builds env.host) (hmove : Move env w act w') :
    w'.AllSucceed := by
  cases hmove with
  | tick d => exact h
  | listener move =>
      rw [move.frame]
      exact h
  | memo move =>
      rw [move.frame]
      exact h
  | ctrlC move =>
      rw [move.frame]
      exact h
  | main move => exact h.mainMove move
  | send move => exact h.sendMove hclients hbuilds move

theorem allSucceed {as : List Act} (hrun : env.machine.run as = some w)
    (hbuilds : ∀ ep ∈ env.config.endpoint, ep.Builds env.host) : w.AllSucceed := by
  refine env.machine.run_induction (motive := fun _ w ↦ w.AllSucceed) ?_ ?_ hrun
  · exact fun task hmem ↦ by cases hmem
  · intro as act w w' hw ih hstep
    apply ih.move (connected hw).tasks _ (move hstep)
    intro task hmem
    exact hbuilds _ (List.mem_of_getElem? ((traced hw).sends task hmem).entry)

end World

/-- Whatever is accepted can be built, and no future of any run fails unseen. -/
structure NoLateFailures (host : Host) (config : ConfigToml) : Prop where
  builds : ∀ endpoint ∈ config.endpoint, endpoint.Builds host
  succeeds : ∀ env : Env, env.host = host → env.config = config → ∀ as w,
    env.machine.run as = some w → w.AllSucceed

/-- An accepted configuration has no late failures exactly when all of its tips
go to keys. -/
theorem no_late_failures_iff (host : Host) (hkeys : host.ParsesKeys) (config : ConfigToml)
    (hvalid : validateConfig config = .ok ()) :
    NoLateFailures host config ↔ ∀ endpoint ∈ config.endpoint, endpoint.TipsKey := by
  have hendpoints := ((validateConfig_ok_iff config).mp hvalid).2
  constructor
  · intro h endpoint hmem
    exact (builds_iff hkeys (hendpoints endpoint hmem)).mp (h.builds endpoint hmem)
  · intro h
    have hbuilds : ∀ endpoint ∈ config.endpoint, endpoint.Builds host := fun endpoint hmem ↦
      (builds_iff hkeys (hendpoints endpoint hmem)).mpr (h endpoint hmem)
    refine ⟨hbuilds, ?_⟩
    rintro env rfl rfl as w hrun
    exact World.allSucceed hrun hbuilds

theorem no_late_failures_iff_mixed :
    NoLateFailures Sample.host (Sample.config 1 [Sample.rpc "rpc", Sample.soyasFra "soyas"]) := by
  apply (no_late_failures_iff Sample.host (Sdk.parsesKeys _ _) _ rfl).mpr
  intro endpoint hmem hkind
  obtain rfl : endpoint = Sample.soyasFra "soyas" := by
    rcases List.mem_cons.mp hmem with rfl | hmem
    · exact absurd rfl hkind
    · exact List.mem_singleton.mp hmem
  have hdecode : (Base58.decode "soyascXFW5wEEYiwfEmHy2pNwomqzvggJosGVD6TJdY").map List.length =
      some 32 := by decide +kernel
  exact ⟨_, rfl, Option.map_eq_some_iff.mp hdecode⟩

/-- A tip wallet that is mistyped at its end, where `0` is no symbol. -/
def mistypedTip : Endpoint :=
  ⟨"falcon", "http://fra.falcon.wtf", .custom, some 1000000,
    some "Fa1con1zUzb6qJVFz5tNkPq1Ahm8H1qKW7Q48252Qbk0", none⟩

/-- The validator lets it pass, and its endpoint never sends. -/
theorem mistypedTip_fails_late :
    ¬ ∀ host config, Host.ParsesKeys host → validateConfig config = .ok () →
      NoLateFailures host config := by
  intro h
  have hlate := h Sample.host (Sample.config 1 [mistypedTip]) (Sdk.parsesKeys _ _) rfl
  obtain ⟨instructions, hbuild⟩ := hlate.builds mistypedTip List.mem_cons_self
    Sample.authority Sample.authority "falcon" (.finite 0) 1000000 0 0
  have herror : (buildInstructions Sample.host mistypedTip Sample.authority Sample.authority
      "falcon" (.finite 0) 1000000 0 0).isOk = false := by decide +kernel
  rw [hbuild] at herror
  cases herror

end LandingBench
