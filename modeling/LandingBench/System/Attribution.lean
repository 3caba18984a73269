import LandingBench.System.Provenance
import LandingBench.System.Report

/-!
# One sender and one row for every entry

RPC clients are found by the entry's position, Soyas clients and the rows of
the summary by its name.  Position and name agree when no two entries of the
configuration have the same name, which the validator does not ask for.
-/

namespace LandingBench

open Async Data Ledger

/-- The client that is made from the entry itself. -/
def Endpoint.ownClient (ep : Endpoint) : Option Client :=
  match ep.kind with
  | .soyas => ep.apiKey.map fun apiKey ↦ .soyas ⟨ep.url, apiKey⟩
  | .rpc => some (.rpc ⟨ep.url⟩)
  | .custom => some (.rpc ⟨ep.url⟩)

theorem Client.CreatedFor.ownClient {endpoints : List Endpoint} {ep : Endpoint} {client : Client}
    (h : client.CreatedFor endpoints ep) (hep : ep ∈ endpoints)
    (hnames : (endpoints.map Endpoint.name).Nodup) : ep.ownClient = some client := by
  cases client with
  | rpc client =>
      obtain ⟨hkind, hurl⟩ := h
      cases client
      obtain rfl := hurl
      cases hk : ep.kind with
      | soyas => exact absurd hk hkind
      | rpc => simp [Endpoint.ownClient, hk]
      | custom => simp [Endpoint.ownClient, hk]
  | soyas client =>
      obtain ⟨hkind, ep', hep', -, hname, hurl, hkey⟩ := h
      obtain rfl : ep' = ep := List.inj_on_of_nodup_map hnames hep' hep hname
      cases client
      simp only at hurl hkey
      simp [Endpoint.ownClient, hkind, hkey, hurl]

namespace World

variable {env : Env} {w : World}

/-- The landing is one of a transaction that was sent for the entry at `index`. -/
def SentFor (env : Env) (w : World) (index : ℕ) (landing : Landing) : Prop :=
  ∃ h ∈ w.handed, h.index = index ∧ h.signature env.host = landing.obs.signature

/-- Every transaction goes to its own entry's client; and if signing never gave
two transactions one signature, no row of a summary counts landings of two
entries. -/
def EntriesApart (env : Env) (as : List Act) : Prop :=
  ∀ w, env.machine.run as = some w →
    (∀ h ∈ w.handed, ∃ ep, env.config.endpoint[h.index]? = some ep ∧ h.endpoint = ep ∧
      ep.ownClient = some h.client) ∧
    ∀ summary, w.main.pc = .done summary → summary.Reports w.log ∧
      ((w.handedSignatures env).Nodup → ∀ row ∈ summary.providers,
        ∀ landing ∈ row.counts w.log, ∀ landing' ∈ row.counts w.log,
          ∀ i j, w.SentFor env i landing → w.SentFor env j landing' → i = j)

/-- The record of an accepted landing is that of the transaction with its signature. -/
theorem Traced.provider_of_sentFor (h : w.Traced env) (hdistinct : (w.handedSignatures env).Nodup)
    {landing : Landing} (hlanding : landing ∈ LandingBook.accepted w.log) {index : ℕ}
    (hsent : w.SentFor env index landing) :
    ∃ ep, env.config.endpoint[index]? = some ep ∧ ep.name = landing.record.provider := by
  rw [LandingBook.accepted_eq_landings] at hlanding
  obtain ⟨pre, post, hlog, hopen, -⟩ := mem_landings_iff.mp hlanding
  obtain ⟨earlier, since, hpre, -⟩ := openSend_eq_some_iff.mp hopen
  obtain ⟨recorded, hrecorded, hsignature, hname, -⟩ := h.recorded landing.obs.signature
    landing.record.provider landing.record.sentElapsed landing.record.roundId
    (by simp [hlog, hpre])
  obtain ⟨handed, hhanded, rfl, hsame⟩ := hsent
  obtain rfl : handed = recorded := List.inj_on_of_nodup_map hdistinct hhanded hrecorded
    (hsame.trans hsignature.symm)
  exact ⟨handed.endpoint, (h.handed handed hhanded).1, hname⟩

/-- Entries with names of their own are kept apart in every run. -/
theorem entries_apart (env : Env) (hnames : (env.config.endpoint.map Endpoint.name).Nodup)
    (as : List Act) : EntriesApart env as := by
  intro w hrun
  have htraced := traced hrun
  refine ⟨fun h hmem ↦ ?_, fun summary hdone ↦ ⟨reports hrun hdone, ?_⟩⟩
  · obtain ⟨hentry, hclient⟩ := htraced.handed h hmem
    exact ⟨h.endpoint, hentry, rfl, hclient.ownClient (List.mem_of_getElem? hentry) hnames⟩
  · intro hdistinct row _ landing hlanding landing' hlanding' i j hi hj
    obtain ⟨haccepted, hrow⟩ := List.mem_filter.mp hlanding
    obtain ⟨haccepted', hrow'⟩ := List.mem_filter.mp hlanding'
    obtain ⟨ep, hep, hname⟩ := htraced.provider_of_sentFor hdistinct haccepted hi
    obtain ⟨ep', hep', hname'⟩ := htraced.provider_of_sentFor hdistinct haccepted' hj
    have hsame : (env.config.endpoint.map Endpoint.name)[i]? =
        (env.config.endpoint.map Endpoint.name)[j]? := by
      have hrecords : landing.record.provider = landing'.record.provider :=
        (of_decide_eq_true hrow).trans (of_decide_eq_true hrow').symm
      rw [List.getElem?_map, List.getElem?_map, hep, hep', Option.map_some, Option.map_some,
        hname, hname', hrecords]
    have hlt : i < (env.config.endpoint.map Endpoint.name).length := by
      rw [List.length_map]
      exact (List.getElem?_eq_some_iff.mp hep).1
    exact (List.getElem?_inj hlt hnames).mp hsame

/-- Two entries, whose clients `connects` makes, send once each. -/
def twoSends (connects : List Act) : List Act :=
  Sample.startup ++ connects ++
    [.main .go, .main .go, .main (.answer (.nonce Sample.nonce₀)), .main .go, .main .go, .main .go,
      .main .go, .send 0 (.poll Sample.wallClock), .send 1 (.poll Sample.wallClock)]

/-- An RPC entry and a Soyas entry. -/
def mixedEnv : Env := Sample.env 1 [Sample.rpc "rpc", Sample.soyasFra "soyas"] rfl

theorem entries_apart_mixedEnv :
    EntriesApart mixedEnv (twoSends [.main .go, .main (.connected true)]) ∧
      (mixedEnv.machine.run (twoSends [.main .go, .main (.connected true)])).map
        (·.handed.length) = some 2 :=
  ⟨entries_apart mixedEnv (by decide) _, by decide +kernel⟩

/-- Two Soyas entries of one name, with their own addresses and keys. -/
def namesakes : Env := Sample.env 1 [Sample.soyasFra "soyas", Sample.soyasAms "soyas"] rfl

/-- The first of two namesakes sends through the second one's client. -/
theorem namesakes_share_client : ¬ ∀ env as, EntriesApart env as := by
  intro h
  let acts := twoSends [.main (.connected true), .main (.connected true)]
  have hrun : (namesakes.machine.run acts).map
      (fun w ↦ w.handed.map fun h ↦ (h.index, some h.client)) =
      some [(0, (Sample.soyasAms "soyas").ownClient),
        (1, (Sample.soyasAms "soyas").ownClient)] := by
    decide +kernel
  obtain ⟨w, hw, hhanded⟩ := Option.map_eq_some_iff.mp hrun
  obtain ⟨first, hmem, hfirst⟩ : ∃ h ∈ w.handed,
      (h.index, some h.client) = (0, (Sample.soyasAms "soyas").ownClient) := by
    apply List.mem_map.mp
    rw [hhanded]
    exact List.mem_cons_self
  obtain ⟨hindex, hclient⟩ := Prod.mk.inj hfirst
  obtain ⟨ep, hep, -, hown⟩ := (h namesakes acts w hw).1 first hmem
  rw [hindex] at hep
  obtain rfl : Sample.soyasFra "soyas" = ep := Option.some.inj hep
  rw [hclient] at hown
  exact absurd hown (by decide +kernel)

end World
end LandingBench
