import LandingBench.System.Budget
import LandingBench.System.Handshake
import LandingBench.Winners

/-!
# What the report says about the chain

The program knows of landings only what the stream shows.  If the stream shows
a transaction no earlier than it has landed, then every win of the report is a
transaction on the chain, and no round has two of them.
-/

namespace LandingBench

open Async Data Ledger

namespace World

variable {env : Env} {w w' : World}

/-- The wins of a summary are the landings that the book has accepted. -/
theorem wins_eq_accepted {as : List Act} (hrun : env.machine.run as = some w)
    {summary : LandingSummary} (hdone : w.main.pc = .done summary) :
    (summary.providers.map ProviderSummary.landed).sum = (LandingBook.accepted w.log).length := by
  obtain ⟨iter, hiter, rfl⟩ := summary_eq hrun hdone
  have hmetrics : w.book.records.metrics = (LandingBook.replay w.log).records.metrics :=
    congrArg Accounts.metrics (replayed hrun)
  rw [LandingBook.finalize_congr (replayed hrun) iter, LandingBook.accepted_eq_landings]
  exact wins_eq_landings w.log (hmetrics ▸ hiter)

/-- A landing was observed, and is of a transaction that was given away. -/
theorem Conserved.exists_of_accepted (h : w.Conserved) (htraced : w.Traced env)
    {landing : Landing} (hmem : landing ∈ LandingBook.accepted w.log) :
    landing.obs ∈ w.delivered ∧
      ∃ given ∈ w.handed, given.signature env.host = landing.obs.signature ∧
        given.endpoint.name = landing.record.provider ∧ given.roundId = landing.record.roundId := by
  rw [LandingBook.accepted_eq_landings] at hmem
  obtain ⟨pre, post, hlog, hopen, -⟩ := mem_landings_iff.mp hmem
  obtain ⟨earlier, since, rfl, -⟩ := openSend_eq_some_iff.mp hopen
  constructor
  · have hobserved : landing.obs ∈ observations w.log :=
      List.mem_filterMap.mpr ⟨.recordLanding landing.obs, by simp [hlog], rfl⟩
    rw [h.pieces]
    exact List.mem_append_left _ (List.mem_append_left _ hobserved)
  · exact htraced.recorded landing.obs.signature landing.record.provider
      landing.record.sentElapsed landing.record.roundId (by simp [hlog])

end World

namespace OnChain

variable {env : Env} {first : Hash} {s t : OnChain} {signatures : List String}

/-- What has been seen of one of these transactions was on the chain. -/
def Confirms (env : Env) (signatures : List String) (s : OnChain) (signature : String) : Prop :=
  signature ∈ signatures → ∃ tx ∈ s.account.landed, env.host.base58 tx.signature = signature

/-- The stream shows one of these transactions only after it has landed. -/
def Honest (env : Env) (signatures : List String) (s : OnChain) (a : OnChainAct) : Prop :=
  ∀ txMsg found, a = .program (.listener (.next (.update (some (.transaction txMsg))))) →
    Geyser.extractMemo env.host txMsg env.memoProgram = some found →
      Confirms env signatures s found.1

/-- What the listener reads of a message in its loop is of this kind. -/
def Shows (env : Env) (kind : NonceAccount → MemoObservation → Prop) (s : OnChain)
    (a : OnChainAct) : Prop :=
  ∀ txMsg obs, a = .program (.listener (.next (.update (some (.transaction txMsg))))) →
    s.world.observe env txMsg = some obs → kind s.account obs

/-- All that the listener has got is of this kind. -/
structure Backed (kind : NonceAccount → MemoObservation → Prop) (s : OnChain) : Prop where
  delivering : ∀ obs, s.world.listener.pc = .delivering obs → kind s.account obs
  delivered : ∀ obs ∈ s.world.delivered, kind s.account obs

section Backed

variable {kind : NonceAccount → MemoObservation → Prop}

theorem Backed.listenerMove {act : ListenerAct} {w : World} (h : Backed kind s)
    (hshows : Shows env kind s (.program (.listener act)))
    (hmove : World.ListenerMove env s.world act w) : Backed kind { s with world := w } := by
  cases hmove with
  | stagePassed stage rest pc =>
      refine ⟨fun obs hpc ↦ ?_, h.delivered⟩
      simp only [World.setListener] at hpc
      split_ifs at hpc
  | observed txMsg obs pc quiet memo =>
      refine ⟨fun obs' hpc ↦ ?_, h.delivered⟩
      obtain rfl := ListenerPc.delivering.inj hpc
      exact hshows txMsg obs rfl memo
  | delivered obs pc receiver room =>
      refine ⟨fun obs' hpc ↦ (by cases hpc), fun obs' hmem ↦ ?_⟩
      rcases List.mem_append.mp hmem with hmem | hnew
      · exact h.delivered obs' hmem
      · obtain rfl := List.mem_singleton.mp hnew
        exact h.delivering _ pc
  | passed item pc quiet goesOn => exact ⟨h.delivering, h.delivered⟩
  | _ => exact ⟨fun obs hpc ↦ (by cases hpc), h.delivered⟩

theorem Backed.move {a : OnChainAct} (h : Backed kind s)
    (hgrows : ∀ account account' tx next obs, NonceAccount.land account tx next = some account' →
      kind account obs → kind account' obs)
    (hshows : Shows env kind s a) (hmove : Move env s a t) : Backed kind t := by
  cases hmove with
  | @program act w move =>
      by_cases hlistener : ∃ a, act = .listener a
      · obtain ⟨a, rfl⟩ := hlistener
        cases move with
        | listener move => exact h.listenerMove hshows move
      · have hother : ∀ a, act ≠ .listener a := fun a ha ↦ hlistener ⟨a, ha⟩
        have hpc := (move.ready_eq hother).2
        have hdelivered := move.delivered_eq hother
        exact ⟨fun obs hobs ↦ h.delivering obs (hpc ▸ hobs),
          fun obs hmem ↦ h.delivered obs (hdelivered ▸ hmem)⟩
  | landed k next handed account get land =>
      exact ⟨fun obs hpc ↦ hgrows _ _ _ _ obs land (h.delivering obs hpc),
        fun obs hmem ↦ hgrows _ _ _ _ obs land (h.delivered obs hmem)⟩

theorem backed {as : List OnChainAct} (hrun : (env.onChain first).run as = some s)
    (hgrows : ∀ account account' tx next obs, NonceAccount.land account tx next = some account' →
      kind account obs → kind account' obs)
    (hshows : (env.onChain first).Along (Shows env kind) as) : Backed kind s :=
  (env.onChain first).invariant_of_along (P := Backed kind)
    ⟨fun _ hpc ↦ (by cases hpc), fun _ hmem ↦ by cases hmem⟩
    (fun _ _ _ h hgood hstep ↦ h.move hgrows hgood (move hstep)) hshows hrun

end Backed

/-- Whatever has landed stays. -/
theorem landed_subset {account account' : NonceAccount} {tx : Transaction} {next : Hash}
    (h : account.land tx next = some account') : account.landed ⊆ account'.landed := by
  unfold NonceAccount.land at h
  split_ifs at h
  obtain rfl := Option.some.inj h
  exact List.subset_append_left _ _

theorem confirms_of_delivered {as : List OnChainAct}
    (hrun : (env.onChain first).run as = some s)
    (hhonest : (env.onChain first).Along (Honest env signatures) as) {obs : MemoObservation}
    (hmem : obs ∈ s.world.delivered) : Confirms env signatures s obs.signature := by
  have hbacked : Backed (fun account obs ↦ obs.signature ∈ signatures →
      ∃ tx ∈ account.landed, env.host.base58 tx.signature = obs.signature) s := by
    apply backed hrun
    · intro account account' tx next obs hland hconfirms hours
      obtain ⟨tx', hlanded, hsignature⟩ := hconfirms hours
      exact ⟨tx', landed_subset hland hlanded, hsignature⟩
    · intro pre a post s has hs txMsg obs ha hobs
      obtain ⟨found, hfound, rfl⟩ := Option.map_eq_some_iff.mp hobs
      exact hhonest pre a post s has hs txMsg found ha hfound
  exact hbacked.delivered obs hmem

/-- The landed transactions that were sent for an entry of this name. -/
def landedFor (s : OnChain) (name : String) : List Transaction :=
  s.account.landed.filter fun tx ↦
    s.world.handed.any fun h ↦ decide (h.tx = tx) && decide (h.endpoint.name = name)

theorem nodup_accepted_signatures {as : List OnChainAct}
    (hrun : (env.onChain first).run as = some s)
    (hdistinct : (s.world.handedSignatures env).Nodup) :
    ((LandingBook.accepted s.world.log).map (·.obs.signature)).Nodup := by
  obtain ⟨bs, hbs⟩ := world_run hrun
  rw [LandingBook.accepted_eq_landings]
  exact nodup_landed_signatures ((World.traced hbs).nodup_recorded hdistinct)

section Accepted

variable {as : List OnChainAct} (hrun : (env.onChain first).run as = some s)
  (hdistinct : (s.world.handedSignatures env).Nodup)
  (hhonest : (env.onChain first).Along (Honest env (s.world.handedSignatures env)) as)

include hrun hdistinct hhonest

/-- An accepted landing is of one transaction that was given away and has landed. -/
theorem exists_landed {landing : Landing}
    (hmem : landing ∈ LandingBook.accepted s.world.log) :
    ∃ h ∈ s.world.handed, h.tx ∈ s.account.landed ∧
      h.signature env.host = landing.obs.signature ∧
      h.endpoint.name = landing.record.provider ∧
      env.host.base58 h.tx.recentBlockhash.bytes = landing.record.roundId := by
  obtain ⟨bs, hbs⟩ := world_run hrun
  obtain ⟨hobs, given, hgiven, hsignature, hname, hround⟩ :=
    (World.conserved hbs).exists_of_accepted (World.traced hbs) hmem
  have hours : landing.obs.signature ∈ s.world.handedSignatures env :=
    hsignature ▸ List.mem_map_of_mem hgiven
  obtain ⟨tx, hlanded, htx⟩ := confirms_of_delivered hrun hhonest hobs hours
  obtain ⟨other, hother, rfl⟩ := (settled hrun).given tx hlanded
  -- no other transaction has the signature
  obtain rfl : other = given :=
    List.inj_on_of_nodup_map hdistinct hother hgiven (htx.trans hsignature.symm)
  obtain ⟨⟨clock, count, hbuilt, -⟩, -⟩ := (World.priced hbs).handed other hother
  exact ⟨other, hother, hlanded, hsignature, hname, hbuilt.trans hround⟩

/-- Landings of one round would be of one transaction. -/
theorem nodup_accepted_rounds (hbase58 : Function.Injective env.host.base58) :
    ((LandingBook.accepted s.world.log).map (·.record.roundId)).Nodup := by
  have hsignatures := nodup_accepted_signatures hrun hdistinct
  refine (List.nodup_map_iff_inj_on (List.Nodup.of_map _ hsignatures)).mpr ?_
  intro landing hmem landing' hmem' hround
  obtain ⟨h, -, hlanded, hsignature, -, hid⟩ := exists_landed hrun hdistinct hhonest hmem
  obtain ⟨h', -, hlanded', hsignature', -, hid'⟩ := exists_landed hrun hdistinct hhonest hmem'
  have hnonce : h.tx.recentBlockhash = h'.tx.recentBlockhash :=
    Hash.bytes_injective (hbase58 (hid.trans (hround.trans hid'.symm)))
  have htx : h.tx = h'.tx := List.inj_on_of_nodup_map (settled hrun).used hlanded hlanded' hnonce
  apply List.inj_on_of_nodup_map hsignatures hmem hmem'
  rw [← hsignature, ← hsignature', Handed.signature, Handed.signature, htx]

end Accepted

/-- If the stream shows what was sent only after it has landed, the report never
makes a win up: the wins are the landed rounds, there are no more of them than
transactions on the chain, nor in a row than such transactions of its entries. -/
theorem wins_are_landed (env : Env) (hbase58 : Function.Injective env.host.base58) (first : Hash)
    (as : List OnChainAct) (s : OnChain) (summary : LandingSummary)
    (hrun : (env.onChain first).run as = some s) (hdone : s.world.main.pc = .done summary)
    (hdistinct : (s.world.handedSignatures env).Nodup)
    (hhonest : (env.onChain first).Along (Honest env (s.world.handedSignatures env)) as) :
    (summary.providers.map ProviderSummary.landed).sum = summary.totalLanded ∧
      summary.totalLanded ≤ s.account.landed.length ∧
      s.account.landed.length ≤ summary.rounds ∧
      ∀ row ∈ summary.providers, row.landed ≤ (s.landedFor row.name).length := by
  obtain ⟨bs, hbs⟩ := world_run hrun
  have hreports := World.reports hbs hdone
  have hsignatures := nodup_accepted_signatures hrun hdistinct
  have hwins := World.wins_eq_accepted hbs hdone
  have htotal : summary.totalLanded = (LandingBook.accepted s.world.log).length := by
    rw [hreports.totalLanded,
      List.toFinset_card_of_nodup (nodup_accepted_rounds hrun hdistinct hhonest hbase58),
      List.length_map]
  -- accepted landings have signatures of their own, each of a landed transaction
  have hcover : ∀ (landings : List Landing) (txs : List Transaction),
      landings.Sublist (LandingBook.accepted s.world.log) →
      (∀ landing ∈ landings, ∃ tx ∈ txs,
        env.host.base58 tx.signature = landing.obs.signature) →
      landings.length ≤ txs.length := by
    intro landings txs hsublist hall
    have hnodup := hsignatures.sublist (hsublist.map (·.obs.signature))
    have hsubset : landings.map (·.obs.signature) ⊆
        txs.map fun tx ↦ env.host.base58 tx.signature := by
      intro signature hmem
      obtain ⟨landing, hlanding, rfl⟩ := List.mem_map.mp hmem
      obtain ⟨tx, htx, hsignature⟩ := hall landing hlanding
      exact List.mem_map.mpr ⟨tx, htx, hsignature⟩
    have hlength := (hnodup.subperm hsubset).length_le
    simpa using hlength
  refine ⟨hwins.trans htotal.symm, ?_, ?_, fun row hrow ↦ ?_⟩
  · rw [htotal]
    refine hcover _ _ (List.Sublist.refl _) fun landing hmem ↦ ?_
    obtain ⟨h, -, hlanded, hsignature, -⟩ := exists_landed hrun hdistinct hhonest hmem
    exact ⟨h.tx, hlanded, hsignature⟩
  · rw [hreports.rounds]
    exact (settled hrun).length_le hbase58 (World.priced hbs)
  · rw [(hreports.rows row hrow).1]
    refine hcover _ _ List.filter_sublist fun landing hmem ↦ ?_
    obtain ⟨haccepted, hname⟩ := List.mem_filter.mp hmem
    obtain ⟨h, hgiven, hlanded, hsignature, hprovider, -⟩ :=
      exists_landed hrun hdistinct hhonest haccepted
    refine ⟨h.tx, List.mem_filter.mpr ⟨hlanded, ?_⟩, hsignature⟩
    have hrowname : h.endpoint.name = row.name := hprovider.trans (of_decide_eq_true hname)
    exact List.any_eq_true.mpr ⟨h, hgiven, by simp [hrowname]⟩

/-- A round that is observed once its transaction is on the chain. -/
def honestRun : List OnChainAct :=
  List.map .program (Sample.startup ++ [.main .go, .main .go] ++
      Sample.openRound Sample.nonce₀ ++ Sample.sendOne) ++
    [.land 0 Sample.nonce₁] ++
    List.map .program (Sample.observeOne (Sample.report "rpc" 0) ++
      [.send 0 (.wait .selfLanded)] ++ Sample.closeRound ++ Sample.shutDown ++
        [.main (.finalize [("rpc", ⟨1, [5]⟩)])])

/-- Whatever is shown has landed. -/
def showsLanded (env : Env) (s : OnChain) : OnChainAct → Bool
  | .program (.listener (.next (.update (some (.transaction txMsg))))) =>
      (Geyser.extractMemo env.host txMsg env.memoProgram).all fun found ↦
        s.account.landed.any fun tx ↦ env.host.base58 tx.signature = found.1
  | _ => true

theorem honest_of_showsLanded (env : Env) (signatures : List String) (s : OnChain)
    (a : OnChainAct) (h : showsLanded env s a = true) : Honest env signatures s a := by
  rintro txMsg found rfl hfound -
  rw [showsLanded, hfound, Option.all_some, List.any_eq_true] at h
  obtain ⟨tx, hlanded, hsignature⟩ := h
  exact ⟨tx, hlanded, of_decide_eq_true hsignature⟩

theorem wins_are_landed_honestRun :
    ∃ s summary, ((Sample.rpcEnv 1).onChain Sample.nonce₀).run honestRun = some s ∧
      s.world.main.pc = .done summary ∧
      (summary.providers.map ProviderSummary.landed).sum = summary.totalLanded ∧
      summary.totalLanded ≤ s.account.landed.length := by
  have hrun : (((Sample.rpcEnv 1).onChain Sample.nonce₀).run honestRun).map (fun s ↦
      (s.world.main.pc.isDone, decide (s.world.handedSignatures (Sample.rpcEnv 1)).Nodup)) =
        some (true, true) := by decide +kernel
  obtain ⟨s, hs, hpair⟩ := Option.map_eq_some_iff.mp hrun
  simp only [Prod.mk.injEq, decide_eq_true_eq] at hpair
  obtain ⟨summary, hdone⟩ := MainPc.isDone_iff.mp hpair.1
  have hhonest : ((Sample.rpcEnv 1).onChain Sample.nonce₀).Along (Honest (Sample.rpcEnv 1)
      (s.world.handedSignatures (Sample.rpcEnv 1))) honestRun :=
    Machine.along_of_check _ (showsLanded (Sample.rpcEnv 1)) (honest_of_showsLanded _ _)
      (by decide +kernel)
  have hwins := wins_are_landed _ Sdk.base58_injective _ _ s summary hs hdone hpair.2 hhonest
  exact ⟨s, summary, hs, hdone, hwins.1, hwins.2.1⟩

end OnChain
end LandingBench
