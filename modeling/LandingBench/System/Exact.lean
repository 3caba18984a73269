import LandingBench.System.Verdict
import LandingBench.Tag

/-!
# What the report leaves out

If the stream shows landed transactions as they are, the report counts those
that it showed after their sends were recorded, and no others.  What has landed
and is not counted was never shown to the book, or too early.
-/

namespace LandingBench

open Async Data Ledger

namespace Ledger

/-- The signature was observed after its send had been recorded. -/
def seenAfterSend (signature : String) (log : List BookOp) : Bool :=
  log.tails.any fun
    | .recordSend s _ _ _ :: post => s = signature && !(observationsOf signature post).isEmpty
    | _ => false

theorem seenAfterSend_iff {signature : String} {log : List BookOp} :
    seenAfterSend signature log = true ↔ ∃ pre post, ∃ send : SendRecord, log = pre ++
        .recordSend signature send.provider send.sentElapsed send.roundId :: post ∧
      observationsOf signature post ≠ [] := by
  rw [seenAfterSend, List.any_eq_true]
  constructor
  · rintro ⟨tail, hmem, hseen⟩
    obtain ⟨pre, rfl⟩ := (List.mem_tails _ _).mp hmem
    split at hseen
    · rename_i s provider sentElapsed roundId post
      simp only [Bool.and_eq_true, decide_eq_true_eq, Bool.not_eq_true',
        List.isEmpty_eq_false_iff] at hseen
      obtain ⟨rfl, hlater⟩ := hseen
      exact ⟨pre, post, ⟨provider, sentElapsed, roundId⟩, rfl, hlater⟩
    · cases hseen
  · rintro ⟨pre, post, send, rfl, hlater⟩
    refine ⟨_, (List.mem_tails _ _).mpr (List.suffix_append pre _), ?_⟩
    simpa using hlater

theorem seenAfterSend_of_landing {log : List BookOp} {landing : Landing}
    (h : landing ∈ landings log) : seenAfterSend landing.obs.signature log = true := by
  obtain ⟨pre, post, rfl, hopen, -⟩ := mem_landings_iff.mp h
  obtain ⟨earlier, since, rfl, -⟩ := openSend_eq_some_iff.mp hopen
  refine seenAfterSend_iff.mpr ⟨earlier, since ++ .recordLanding landing.obs :: post,
    landing.record, by simp, ?_⟩
  have hmem : landing.obs ∈ observationsOf landing.obs.signature
      (since ++ .recordLanding landing.obs :: post) := by
    simp [observationsOf, observations]
  exact List.ne_nil_of_mem hmem

/-- With its own tag on all that is seen of it, a signature that is seen after
its send has a landing. -/
theorem exists_landing_of_seen {log : List BookOp} {signature provider : String}
    (hdistinct : (recordedSignatures log).Nodup)
    (hprovider : ∀ send : SendRecord,
      .recordSend signature send.provider send.sentElapsed send.roundId ∈ log →
        send.provider = provider)
    (htags : ∀ obs ∈ observations log, obs.signature = signature →
      observedProvider obs.memo = provider)
    (hseen : seenAfterSend signature log = true) :
    ∃ landing ∈ landings log, landing.obs.signature = signature ∧
      landing.record.provider = provider := by
  obtain ⟨pre, post, send, rfl, hlater⟩ := seenAfterSend_iff.mp hseen
  obtain ⟨hpre, hpost⟩ := Data.Lists.nodup_filterMap_append_cons hdistinct rfl
  obtain ⟨obs, rest, hfirst⟩ := List.exists_cons_of_ne_nil hlater
  obtain ⟨hobs, hsame⟩ := List.mem_filter.mp
    (show obs ∈ observationsOf signature post by simp [hfirst])
  have hsignature : obs.signature = signature := of_decide_eq_true hsame
  have hsend : send.provider = provider := hprovider send (by simp)
  have htag : observedProvider obs.memo = send.provider := by
    rw [hsend]
    obtain ⟨op, hop, hread⟩ := List.mem_filterMap.mp hobs
    exact htags obs (List.mem_filterMap.mpr ⟨op, by simp [hop], hread⟩) hsignature
  have hsettled : settled send obs = some ⟨send, obs⟩ := by
    rw [observedProvider_eq] at htag
    simp [settled, htag]
  have hfilter := @filter_landings_of_recorded_once pre post signature send hpre hpost
  rw [hfirst, List.head?_cons, Option.bind_some, hsettled] at hfilter
  have hlanding : (⟨send, obs⟩ : Landing) ∈ (some (⟨send, obs⟩ : Landing)).toList := by simp
  rw [← hfilter] at hlanding
  exact ⟨⟨send, obs⟩, (List.mem_filter.mp hlanding).1, hsignature, hsend⟩

end Ledger

namespace OnChain

variable {env : Env} {first : Hash} {s t : OnChain} {signatures : List String}

/-- What the stream shows of these transactions is the update of one that has landed. -/
def Faithful (env : Env) (signatures : List String) (s : OnChain) (a : OnChainAct) : Prop :=
  ∀ txMsg found, a = .program (.listener (.next (.update (some (.transaction txMsg))))) →
    Geyser.extractMemo env.host txMsg env.memoProgram = some found → found.1 ∈ signatures →
      ∃ tx ∈ s.account.landed, txMsg = Geyser.update tx

/-- The book was told of the transaction. -/
def shown (env : Env) (s : OnChain) (tx : Transaction) : Bool :=
  !(observationsOf (env.host.base58 tx.signature) s.world.log).isEmpty

/-- The book was told of it when it knew of the send. -/
def seen (env : Env) (s : OnChain) (tx : Transaction) : Bool :=
  seenAfterSend (env.host.base58 tx.signature) s.world.log

/-- What has landed, and the book was never told of. -/
def unshown (env : Env) (s : OnChain) : List Transaction :=
  s.account.landed.filter fun tx ↦ !s.shown env tx

/-- What has landed, and the book was told of, but not after the send was recorded. -/
def overtaken (env : Env) (s : OnChain) : List Transaction :=
  s.account.landed.filter fun tx ↦ s.shown env tx && !s.seen env tx

theorem shown_of_seen {tx : Transaction} (h : s.seen env tx = true) : s.shown env tx = true := by
  obtain ⟨pre, post, send, hlog, hlater⟩ := seenAfterSend_iff.mp h
  obtain ⟨obs, hobs⟩ := List.exists_mem_of_ne_nil _ hlater
  have hmem : obs ∈ observationsOf (env.host.base58 tx.signature) s.world.log := by
    obtain ⟨hpost, hsame⟩ := List.mem_filter.mp hobs
    obtain ⟨op, hop, hread⟩ := List.mem_filterMap.mp hpost
    exact List.mem_filter.mpr ⟨List.mem_filterMap.mpr ⟨op, by simp [hlog, hop], hread⟩, hsame⟩
  simpa [shown] using List.ne_nil_of_mem hmem

/-- The landed transactions are counted, unshown or overtaken. -/
theorem length_landed_eq (env : Env) (s : OnChain) : s.account.landed.length =
    (s.account.landed.filter (s.seen env)).length + (s.unshown env).length +
      (s.overtaken env).length := by
  rw [unshown, overtaken]
  induction s.account.landed with
  | nil => rfl
  | cons tx rest ih =>
      cases hseen : s.seen env tx with
      | true => simp [hseen, shown_of_seen hseen, ih]; omega
      | false => cases hshown : s.shown env tx <;> simp [hseen, hshown, ih] <;> omega

theorem fst_of_extractMemo_update {host : Host} {tx : Transaction} {memoProgram : Pubkey}
    {found : String × String}
    (h : Geyser.extractMemo host (Geyser.update tx) memoProgram = some found) :
    found.1 = host.base58 tx.signature := by
  have hsignature : tx.signatures.head? = some tx.signature := List.head?_eq_some_head tx.signed
  simp only [Geyser.extractMemo, Geyser.update, Option.bind_some, hsignature] at h
  obtain ⟨memo, -, rfl⟩ := Option.map_eq_some_iff.mp h
  rfl

theorem honest_of_faithful {a : OnChainAct} (h : Faithful env signatures s a) :
    Honest env signatures s a := by
  intro txMsg found ha hfound hours
  obtain ⟨tx, hlanded, rfl⟩ := h txMsg found ha hfound hours
  exact ⟨tx, hlanded, (fst_of_extractMemo_update hfound).symm⟩

section Report

variable {as : List OnChainAct} (hdoc : env.host.Documented)
  (htags : ∀ ep ∈ env.config.endpoint, '|' ∉ ep.name.toList)
  (hrun : (env.onChain first).run as = some s)
  (hdistinct : (s.world.handedSignatures env).Nodup)
  (hfaithful : (env.onChain first).Along (Faithful env (s.world.handedSignatures env)) as)

include hfaithful in
theorem honest : (env.onChain first).Along (Honest env (s.world.handedSignatures env)) as :=
  fun pre a post s has hs ↦ honest_of_faithful (hfaithful pre a post s has hs)

include hdoc htags hrun hdistinct hfaithful in
/-- Whatever the book was told of a transaction carries the name of its entry. -/
theorem observedProvider_of_observed {h : Handed} (hgiven : h ∈ s.world.handed)
    {obs : MemoObservation} (hobs : obs ∈ observations s.world.log)
    (hsignature : obs.signature = h.signature env.host) :
    observedProvider obs.memo = h.endpoint.name := by
  obtain ⟨bs, hbs⟩ := world_run hrun
  have hdelivered : obs ∈ s.world.delivered := by
    rw [(World.conserved hbs).pieces]
    exact List.mem_append_left _ (List.mem_append_left _ hobs)
  have hbacked : Backed (fun account obs ↦ obs.signature ∈ s.world.handedSignatures env →
      ∃ tx ∈ account.landed, Geyser.extractMemo env.host (Geyser.update tx) env.memoProgram =
        some (obs.signature, obs.memo)) s := by
    apply backed hrun
    · intro account account' tx next obs hland hkind hours
      obtain ⟨tx', hlanded, hread⟩ := hkind hours
      exact ⟨tx', landed_subset hland hlanded, hread⟩
    · intro pre a post u has hu txMsg obs ha hread hours
      obtain ⟨found, hfound, rfl⟩ := Option.map_eq_some_iff.mp hread
      obtain ⟨tx, hlanded, rfl⟩ := hfaithful pre a post u has hu txMsg found ha hfound hours
      exact ⟨tx, hlanded, hfound⟩
  have hours : obs.signature ∈ s.world.handedSignatures env :=
    hsignature ▸ List.mem_map_of_mem hgiven
  obtain ⟨tx, hlanded, hread⟩ := hbacked.delivered obs hdelivered hours
  obtain ⟨other, hother, rfl⟩ := (settled hrun).given tx hlanded
  obtain rfl : other = h := List.inj_on_of_nodup_map hdistinct hother hgiven
    ((fst_of_extractMemo_update hread).symm.trans hsignature)
  -- the update is read as it was written
  obtain ⟨⟨clock, count, -, hbuild⟩, -⟩ := (World.priced hbs).handed other hother
  obtain ⟨random, hwritten⟩ := extractMemo_update hdoc env.memoProgram_eq hbuild
  rw [hread] at hwritten
  rw [(Prod.mk.inj (Option.some.inj hwritten)).2]
  have hentry := List.mem_of_getElem? ((World.traced hbs).handed other hother).1
  exact (observedProvider_payload_iff _ _).mpr (htags other.endpoint hentry)

include hdoc htags hrun hdistinct hfaithful in
/-- The accepted landings of some names are the landed transactions for their
entries that were seen. -/
theorem accepted_perm_seen (name : String → Bool) :
    (((LandingBook.accepted s.world.log).filter fun landing ↦
      name landing.record.provider).map (·.obs.signature)).Perm
      ((s.account.landed.filter fun tx ↦ s.seen env tx && s.world.handed.any fun h ↦
        decide (h.tx = tx) && name h.endpoint.name).map fun tx ↦
          env.host.base58 tx.signature) := by
  obtain ⟨bs, hbs⟩ := world_run hrun
  have hhonest := honest hfaithful
  have hsignatures := nodup_accepted_signatures hrun hdistinct
  have hrecorded := (World.traced hbs).nodup_recorded hdistinct
  have hlandedNodup : (s.account.landed.map fun tx ↦ env.host.base58 tx.signature).Nodup := by
    refine (List.nodup_map_iff_inj_on (List.Nodup.of_map _ (settled hrun).used)).mpr ?_
    intro tx htx tx' htx' hsame
    obtain ⟨h, hgiven, rfl⟩ := (settled hrun).given tx htx
    obtain ⟨h', hgiven', rfl⟩ := (settled hrun).given tx' htx'
    exact congrArg Handed.tx (List.inj_on_of_nodup_map hdistinct hgiven hgiven' hsame)
  refine (List.perm_ext_iff_of_nodup (hsignatures.sublist (List.filter_sublist.map _))
    (hlandedNodup.sublist (List.filter_sublist.map _))).mpr fun signature ↦ ?_
  constructor
  · intro hmem
    obtain ⟨landing, hlanding, rfl⟩ := List.mem_map.mp hmem
    obtain ⟨haccepted, hname⟩ := List.mem_filter.mp hlanding
    obtain ⟨h, hgiven, hlanded, hsignature, hprovider, -⟩ :=
      exists_landed hrun hdistinct hhonest haccepted
    rw [LandingBook.accepted_eq_landings] at haccepted
    have hseen : s.seen env h.tx = true := by
      have hafter := seenAfterSend_of_landing haccepted
      rwa [← hsignature] at hafter
    have hany : (s.world.handed.any fun h' ↦
        decide (h'.tx = h.tx) && name h'.endpoint.name) = true :=
      List.any_eq_true.mpr ⟨h, hgiven, by simpa [hprovider] using hname⟩
    exact List.mem_map.mpr ⟨h.tx, List.mem_filter.mpr ⟨hlanded, by rw [hseen, hany]; rfl⟩,
      hsignature⟩
  · intro hmem
    obtain ⟨tx, htx, rfl⟩ := List.mem_map.mp hmem
    obtain ⟨-, hboth⟩ := List.mem_filter.mp htx
    obtain ⟨hseen, hany⟩ := (Bool.and_eq_true _ _).mp hboth
    obtain ⟨h, hgiven, hh⟩ := List.any_eq_true.mp hany
    simp only [Bool.and_eq_true, decide_eq_true_eq] at hh
    obtain ⟨rfl, hname⟩ := hh
    have hprovided : ∀ send : SendRecord, .recordSend (env.host.base58 h.tx.signature)
        send.provider send.sentElapsed send.roundId ∈ s.world.log →
          send.provider = h.endpoint.name := by
      intro send hsend
      obtain ⟨h', hgiven', hsignature, hname', -⟩ := (World.traced hbs).recorded _ _ _ _ hsend
      obtain rfl : h' = h := List.inj_on_of_nodup_map hdistinct hgiven' hgiven hsignature
      exact hname'.symm
    obtain ⟨landing, hlanding, hsignature, hprovider⟩ := exists_landing_of_seen hrecorded
      hprovided (fun obs hobs hsignature ↦ observedProvider_of_observed hdoc htags hrun hdistinct
        hfaithful hgiven hobs hsignature) hseen
    rw [← LandingBook.accepted_eq_landings] at hlanding
    exact List.mem_map.mpr ⟨landing, List.mem_filter.mpr ⟨hlanding, by rw [hprovider, hname]⟩,
      hsignature⟩

end Report

/-- The wins of the report, and of each row, are the landed transactions that the
book was told of after their sends; the other landed transactions were not shown
to the book, or it was told of them too early or had no record of their send. -/
theorem report_is_exact (env : Env) (hdoc : env.host.Documented)
    (hbase58 : Function.Injective env.host.base58)
    (htags : ∀ ep ∈ env.config.endpoint, '|' ∉ ep.name.toList) (first : Hash)
    (as : List OnChainAct) (s : OnChain) (summary : LandingSummary)
    (hrun : (env.onChain first).run as = some s) (hdone : s.world.main.pc = .done summary)
    (hdistinct : (s.world.handedSignatures env).Nodup)
    (hfaithful : (env.onChain first).Along (Faithful env (s.world.handedSignatures env)) as) :
    summary.totalLanded = (s.account.landed.filter (s.seen env)).length ∧
      (∀ row ∈ summary.providers,
        row.landed = ((s.landedFor row.name).filter (s.seen env)).length) ∧
      s.account.landed.length =
        summary.totalLanded + (s.unshown env).length + (s.overtaken env).length := by
  obtain ⟨bs, hbs⟩ := world_run hrun
  have hreports := World.reports hbs hdone
  have hperm := accepted_perm_seen hdoc htags hrun hdistinct hfaithful
  have htotal : summary.totalLanded = (s.account.landed.filter (s.seen env)).length := by
    have hall : (s.account.landed.filter fun tx ↦ s.seen env tx && s.world.handed.any fun h ↦
        decide (h.tx = tx) && true) = s.account.landed.filter (s.seen env) := by
      refine List.filter_congr fun tx hlanded ↦ ?_
      obtain ⟨h, hgiven, rfl⟩ := (settled hrun).given tx hlanded
      have hany : (s.world.handed.any fun h' ↦ decide (h'.tx = h.tx) && true) = true :=
        List.any_eq_true.mpr ⟨h, hgiven, by simp⟩
      rw [hany, Bool.and_true]
    have hlength := (hperm fun _ ↦ true).length_eq
    rw [hall, List.filter_true, List.length_map, List.length_map] at hlength
    rw [hreports.totalLanded, List.toFinset_card_of_nodup (nodup_accepted_rounds hrun hdistinct
      (honest hfaithful) hbase58), List.length_map, hlength]
  refine ⟨htotal, fun row hrow ↦ ?_, ?_⟩
  · have hlength := (hperm fun name ↦ decide (name = row.name)).length_eq
    rw [List.length_map, List.length_map] at hlength
    rw [(hreports.rows row hrow).1, ProviderSummary.counts, hlength, landedFor, List.filter_filter]
  · rw [length_landed_eq env s, htotal]

deriving instance DecidableEq for Geyser.Message, Geyser.Transaction,
  Geyser.SubscribeUpdateTransactionInfo, Geyser.SubscribeUpdateTransaction

/-- Whatever is shown is the update of a transaction that has landed. -/
def showsUpdates (s : OnChain) : OnChainAct → Bool
  | .program (.listener (.next (.update (some (.transaction txMsg))))) =>
      s.account.landed.any fun tx ↦ txMsg = Geyser.update tx
  | _ => true

theorem faithful_of_showsUpdates (env : Env) (signatures : List String) (s : OnChain)
    (a : OnChainAct) (h : showsUpdates s a = true) : Faithful env signatures s a := by
  rintro txMsg found rfl - -
  obtain ⟨tx, hlanded, hupdate⟩ := List.any_eq_true.mp h
  exact ⟨tx, hlanded, of_decide_eq_true hupdate⟩

theorem report_is_exact_honestRun :
    ∃ s summary, ((Sample.rpcEnv 1).onChain Sample.nonce₀).run honestRun = some s ∧
      s.world.main.pc = .done summary ∧
      summary.totalLanded = (s.account.landed.filter (s.seen (Sample.rpcEnv 1))).length ∧
      s.account.landed.length = 1 ∧ (s.unshown (Sample.rpcEnv 1)).length = 0 := by
  have hrun : (((Sample.rpcEnv 1).onChain Sample.nonce₀).run honestRun).map (fun s ↦
      (s.world.main.pc.isDone, decide (s.world.handedSignatures (Sample.rpcEnv 1)).Nodup,
        s.account.landed.length, (s.unshown (Sample.rpcEnv 1)).length)) =
        some (true, true, 1, 0) := by decide +kernel
  obtain ⟨s, hs, hread⟩ := Option.map_eq_some_iff.mp hrun
  simp only [Prod.mk.injEq, decide_eq_true_eq] at hread
  obtain ⟨hisDone, hdistinct, hlanded, hunshown⟩ := hread
  obtain ⟨summary, hdone⟩ := MainPc.isDone_iff.mp hisDone
  have hfaithful : ((Sample.rpcEnv 1).onChain Sample.nonce₀).Along (Faithful (Sample.rpcEnv 1)
      (s.world.handedSignatures (Sample.rpcEnv 1))) honestRun :=
    Machine.along_of_check _ showsUpdates (faithful_of_showsUpdates _ _) (by decide +kernel)
  have hexact := report_is_exact _ (Host.sdk_documented _ _) Sdk.base58_injective (by decide) _ _ s
    summary hs hdone hdistinct hfaithful
  exact ⟨s, summary, hs, hdone, hexact.1, hlanded, hunshown⟩

end OnChain
end LandingBench
