import LandingBench.Display
import LandingBench.Sdk
import LandingBench.Summary

/-!
# The printed report

Of every URL the report shows the host, and it shows no token and no key of an
API.  So whether anything else of the configuration's URLs gets into it depends
on what `Url::parse` accepts.
-/

namespace LandingBench

open Data

def EndpointKind.asStr : EndpointKind → String
  | rpc => "rpc"
  | custom => "custom"
  | soyas => "soyas"

def formatOptMs : Option ℚ → String
  | some ms => fixed 0 ms ++ " ms"
  | none => "-"

/-- What is pushed behind a custom endpoint. -/
def renderTip (ep : Endpoint) : String :=
  if ep.kind = .custom then
    match ep.tipLamports, ep.tipWallet with
    | some tip, some wallet => s!" tip={tip} to {wallet}"
    | _, _ => ""
  else ""

/-- An endpoint in the list of all endpoints. -/
def renderEndpoint (parse : String → Option Url.Parsed) (ep : Endpoint) : String :=
  s!"{ep.name} ({displayEndpointHost parse ep.url}) [{ep.kind.asStr}]" ++ renderTip ep

/-- The rounds that landed in percent; the code divides `f64`s. -/
def LandingSummary.landedPct (summary : LandingSummary) : ℚ :=
  if 0 < summary.rounds then (summary.totalLanded : ℚ) / summary.rounds * 100 else 0

/-- A line of the table, with the digit of the exact percentage. -/
def renderRow (parse : String → Option Url.Parsed) (summary : LandingSummary)
    (config : ConfigToml) (provider : ProviderSummary) : String :=
  s!"  {provider.name} : {provider.landed} wins ({fixed 1 (summary.winPct provider)}%) " ++
    s!"[{lookupUrl parse config provider.name}]"

/-- What `render_summary` prints, call by call. -/
def renderSummary (parse : String → Option Url.Parsed) (summary : LandingSummary)
    (config : ConfigToml) (testId : String) : List String :=
  let rpcList := String.intercalate ", " (config.endpoint.map (renderEndpoint parse))
  let overall := summary.overall
  [s!"\nFinished Test ID      : {testId}",
    "Utility RPC Host      : " ++ displayEndpointHost parse config.config.utilityRpc,
    "gRPC Endpoint         : " ++ displayEndpointHost parse config.grpc.url,
    "RPC Send Endpoints    : " ++ rpcList,
    "Nonce Account         : " ++ config.config.nonceAccount,
    s!"Transactions Count    : {summary.rounds}",
    s!"Send Interval         : {config.config.delayMs}ms",
    s!"Compute Unit Limit    : {config.config.computeUnitLimit}",
    s!"Priority Fee/CU       : {config.config.prioFee.fixed 6} Lamports",
    s!"Transactions Landed   : {summary.totalLanded}/{summary.rounds} " ++
      s!"({fixed 1 summary.landedPct}%)",
    "Min Tx Landing Time   : " ++ formatOptMs overall.minMs,
    "Max Tx Landing Time   : " ++ formatOptMs overall.maxMs,
    "Avg Tx Landing Time   : " ++ formatOptMs overall.avgMs,
    "Median Tx Landing Time: " ++ formatOptMs overall.p50Ms,
    "P90 Tx Landing Time   : " ++ formatOptMs overall.p90Ms,
    "P95 Tx Landing Time   : " ++ formatOptMs overall.p95Ms,
    "P99 Tx Landing Time   : " ++ formatOptMs overall.p99Ms,
    "\nEndpoint Landing Results:"] ++
    summary.providers.map (renderRow parse summary config)

/-! ## A configuration and its secrets -/

/-- A configuration whose URLs are taken apart. -/
structure Plan where
  config : Config
  grpc : GrpcEndpoint
  utilitySite : Site
  grpcSite : Site
  endpoint : List (Endpoint × Site)

/-- What stands in the configuration and is to stay there. -/
structure Keys where
  utility : Secrets := .bare
  grpc : Secrets := .bare
  xToken : Option String := none
  endpoint : ℕ → Secrets := fun _ ↦ .bare
  apiKey : ℕ → Option String := fun _ ↦ none

/-- There is no reverse solidus in front of an `@`. -/
structure Keys.Unescaped (keys : Keys) : Prop where
  utility : '\\' ∉ keys.utility.credentials.toList
  grpc : '\\' ∉ keys.grpc.credentials.toList
  endpoint : ∀ i, '\\' ∉ (keys.endpoint i).credentials.toList

namespace Plan

def fillEndpoint (keys : Keys) (entry : (Endpoint × Site) × ℕ) : Endpoint :=
  { entry.1.1 with
    url := entry.1.2.text (keys.endpoint entry.2)
    apiKey := keys.apiKey entry.2 }

def fill (plan : Plan) (keys : Keys) : ConfigToml where
  config := { plan.config with utilityRpc := plan.utilitySite.text keys.utility }
  grpc := { plan.grpc with url := plan.grpcSite.text keys.grpc, xToken := keys.xToken }
  endpoint := plan.endpoint.zipIdx.map (fillEndpoint keys)

variable {parse : String → Option Url.Parsed} {hosts : Url.HostParser} {plan : Plan}
  {summary : LandingSummary} {testId : String} {keys keys' : Keys}

/-- Nothing of the secrets is shown but what the display leaves of the URL. -/
theorem frames_renderEndpoint (parse : String → Option Url.Parsed)
    (entry : (Endpoint × Site) × ℕ) : ∃ frame, Text.Frames frame ∧ ∀ keys,
      renderEndpoint parse (fillEndpoint keys entry) =
        frame (entry.1.2.shown parse (keys.endpoint entry.2)) := by
  let front := entry.1.1.name ++ " ("
  let back := ") [" ++ entry.1.1.kind.asStr ++ "]" ++ renderTip entry.1.1
  refine ⟨fun shown ↦ front ++ shown ++ back, ⟨front, back, fun _ ↦ rfl⟩, fun keys ↦ ?_⟩
  have hshown : displayEndpointHost parse (fillEndpoint keys entry).url =
      entry.1.2.shown parse (keys.endpoint entry.2) := rfl
  have htip : renderTip (fillEndpoint keys entry) = renderTip entry.1.1 := rfl
  simp only [renderEndpoint, hshown, htip, front, back, String.append_assoc]
  rfl

theorem lookupUrl_eq (config : ConfigToml) (name : String) :
    lookupUrl parse config name = (((config.endpoint.map fun ep ↦
      (ep.name, displayEndpointHost parse ep.url)).find? (·.1 = name)).map Prod.snd).getD "-" := by
  rw [lookupUrl, List.find?_map, Option.map_map]
  rfl

/-- The report depends on what is shown of the URLs. -/
theorem renderSummary_congr
    (hutility : plan.utilitySite.shown parse keys.utility =
      plan.utilitySite.shown parse keys'.utility)
    (hgrpc : plan.grpcSite.shown parse keys.grpc = plan.grpcSite.shown parse keys'.grpc)
    (hendpoint : ∀ entry ∈ plan.endpoint, ∀ i, entry.2.shown parse (keys.endpoint i) =
      entry.2.shown parse (keys'.endpoint i)) :
    renderSummary parse summary (plan.fill keys) testId =
      renderSummary parse summary (plan.fill keys') testId := by
  have hshown : ∀ entry ∈ plan.endpoint.zipIdx,
      entry.1.2.shown parse (keys.endpoint entry.2) =
        entry.1.2.shown parse (keys'.endpoint entry.2) := fun entry hmem ↦
    hendpoint entry.1 (List.fst_mem_of_mem_zipIdx hmem) entry.2
  have hentries : (plan.fill keys).endpoint.map (renderEndpoint parse) =
      (plan.fill keys').endpoint.map (renderEndpoint parse) := by
    simp only [fill, List.map_map]
    refine List.map_congr_left fun entry hmem ↦ ?_
    obtain ⟨frame, -, hframe⟩ := frames_renderEndpoint parse entry
    simp only [Function.comp_apply, hframe, hshown entry hmem]
  have hlookup : ∀ name, lookupUrl parse (plan.fill keys) name =
      lookupUrl parse (plan.fill keys') name := by
    intro name
    have hpairs : (plan.fill keys).endpoint.map (fun ep ↦
        (ep.name, displayEndpointHost parse ep.url)) = (plan.fill keys').endpoint.map fun ep ↦
          (ep.name, displayEndpointHost parse ep.url) := by
      simp only [fill, List.map_map]
      refine List.map_congr_left fun entry hmem ↦ ?_
      exact congrArg (Prod.mk entry.1.1.name) (hshown entry hmem)
    rw [lookupUrl_eq, lookupUrl_eq, hpairs]
  have hrows : renderRow parse summary (plan.fill keys) =
      renderRow parse summary (plan.fill keys') := by
    funext provider
    rw [renderRow, renderRow, hlookup]
  have hutility' : displayEndpointHost parse (plan.fill keys).config.utilityRpc =
      displayEndpointHost parse (plan.fill keys').config.utilityRpc := hutility
  have hgrpc' : displayEndpointHost parse (plan.fill keys).grpc.url =
      displayEndpointHost parse (plan.fill keys').grpc.url := hgrpc
  simp only [renderSummary, hentries, hrows, hutility', hgrpc']
  rfl

theorem bare_unescaped : '\\' ∉ Secrets.bare.credentials.toList := by
  simp [Secrets.bare, Secrets.credentials, ended]

theorem marked_unescaped (name : String) : '\\' ∉ (Secrets.marked name).credentials.toList := by
  simp [Secrets.marked, Secrets.credentials, ended]

/-- A name behind an `@` in the URL of one endpoint. -/
def markedAt (i : ℕ) (name : String) : Keys where
  endpoint j := if j = i then .marked name else .bare

theorem markedAt_unescaped (i : ℕ) (name : String) : (markedAt i name).Unescaped where
  utility := bare_unescaped
  grpc := bare_unescaped
  endpoint j := by
    by_cases hj : j = i
    · simpa [markedAt, hj] using marked_unescaped name
    · simpa [markedAt, hj] using bare_unescaped

/-- In the list of all endpoints one of them stands as it is shown. -/
theorem frames_markedAt (parse : String → Option Url.Parsed) {entry : (Endpoint × Site) × ℕ}
    (hmem : entry ∈ plan.endpoint.zipIdx) : ∃ frame, Text.Frames frame ∧ ∀ name,
      String.intercalate ", " ((plan.fill (markedAt entry.2 name)).endpoint.map
        (renderEndpoint parse)) = frame (entry.1.2.shown parse (.marked name)) := by
  obtain ⟨pre, post, hsplit⟩ := List.append_of_mem hmem
  have hindices : (plan.endpoint.zipIdx.map Prod.snd).Nodup := List.nodup_zipIdx_map_snd _
  rw [hsplit, List.map_append, List.map_cons, List.nodup_middle, List.nodup_cons,
    ← List.map_append] at hindices
  -- the other endpoints are filled with bare secrets
  have hothers : ∀ name, ∀ other ∈ pre ++ post,
      fillEndpoint (markedAt entry.2 name) other = fillEndpoint {} other := by
    intro name other hother
    have hne : other.2 ≠ entry.2 := fun heq ↦ hindices.1 (heq ▸ List.mem_map_of_mem hother)
    simp [fillEndpoint, markedAt, hne]
  let plain (entry : (Endpoint × Site) × ℕ) : String :=
    renderEndpoint parse (fillEndpoint {} entry)
  obtain ⟨inner, hinner, hentry⟩ := frames_renderEndpoint parse entry
  refine ⟨_, (Text.frames_intercalate ", " (pre.map plain) (post.map plain)).comp hinner,
    fun name ↦ ?_⟩
  have hpre : pre.map (renderEndpoint parse ∘ fillEndpoint (markedAt entry.2 name)) =
      pre.map plain := List.map_congr_left fun other hother ↦
    congrArg (renderEndpoint parse) (hothers name other (List.mem_append_left _ hother))
  have hpost : post.map (renderEndpoint parse ∘ fillEndpoint (markedAt entry.2 name)) =
      post.map plain := List.map_congr_left fun other hother ↦
    congrArg (renderEndpoint parse) (hothers name other (List.mem_append_right _ hother))
  have hmarked : (markedAt entry.2 name).endpoint entry.2 = .marked name := if_pos rfl
  simp only [fill, hsplit, List.map_map, List.map_append, List.map_cons, hpre, hpost,
    Function.comp_apply, hentry, hmarked]

/-- The report shows nothing of the configuration's keys exactly if `Url::parse`
accepts every URL in it, and none of them is a file. -/
theorem render_confined_iff (hparse : FollowsStandard parse hosts) (plan : Plan)
    (summary : LandingSummary) (testId : String) :
    (∀ keys keys' : Keys, keys.Unescaped → keys'.Unescaped →
      renderSummary parse summary (plan.fill keys) testId =
        renderSummary parse summary (plan.fill keys') testId) ↔
      plan.utilitySite.ReadsAuthority parse ∧ plan.grpcSite.ReadsAuthority parse ∧
        ∀ entry ∈ plan.endpoint, entry.2.ReadsAuthority parse := by
  constructor
  · intro hsame
    refine ⟨?_, ?_, fun entry hmem ↦ ?_⟩
    · by_contra hreads
      apply Site.shown_ne_of_marked hparse hreads
      have hreport := hsame { utility := .marked "x" } { utility := .marked "y" }
        ⟨marked_unescaped _, bare_unescaped, fun _ ↦ bare_unescaped⟩
        ⟨marked_unescaped _, bare_unescaped, fun _ ↦ bare_unescaped⟩
      have hline := congrArg (fun lines ↦ lines[1]?) hreport
      simpa [renderSummary, fill, Site.shown] using hline
    · by_contra hreads
      apply Site.shown_ne_of_marked hparse hreads
      have hreport := hsame { grpc := .marked "x" } { grpc := .marked "y" }
        ⟨bare_unescaped, marked_unescaped _, fun _ ↦ bare_unescaped⟩
        ⟨bare_unescaped, marked_unescaped _, fun _ ↦ bare_unescaped⟩
      have hline := congrArg (fun lines ↦ lines[2]?) hreport
      simpa [renderSummary, fill, Site.shown] using hline
    · by_contra hreads
      apply Site.shown_ne_of_marked hparse hreads
      obtain ⟨i, hi⟩ := List.mem_iff_getElem?.mp hmem
      obtain ⟨frame, hframe, hlist⟩ := frames_markedAt parse
        (List.mk_mem_zipIdx_iff_getElem?.mpr hi)
      have hreport := hsame (markedAt i "x") (markedAt i "y") (markedAt_unescaped i "x")
        (markedAt_unescaped i "y")
      have hline := congrArg (fun lines ↦ lines[3]?) hreport
      apply hframe.injective
      rw [← hlist, ← hlist]
      simpa [renderSummary] using hline
  · rintro ⟨hutility, hgrpc, hendpoint⟩ keys keys' hkeys hkeys'
    have hshown := fun site hreads ↦ (Site.shown_eq_iff_of_unescaped hparse site).mpr hreads
    exact renderSummary_congr (hshown _ hutility _ _ hkeys.utility hkeys'.utility)
      (hshown _ hgrpc _ _ hkeys.grpc hkeys'.grpc) fun entry hmem i ↦
        hshown _ (hendpoint entry hmem) _ _ (hkeys.endpoint i) (hkeys'.endpoint i)

/-- One endpoint, whose key is in its path. -/
def zeroSlotPlan : Plan where
  config := (Sample.config 1 []).config
  grpc := (Sample.config 1 []).grpc
  utilitySite := zeroSlot
  grpcSite := zeroSlot
  endpoint := [(Sample.rpc "0slot", zeroSlot)]

theorem render_confined_iff_zeroSlotPlan :
    renderSummary plainParse (LandingBook.empty.finalize [])
        (zeroSlotPlan.fill { endpoint := fun _ ↦ keyed }) "1700000000000" =
      renderSummary plainParse (LandingBook.empty.finalize []) (zeroSlotPlan.fill {})
        "1700000000000" := by
  have hreads : zeroSlot.ReadsAuthority plainParse :=
    ⟨"https", rfl, by decide, by decide +kernel⟩
  have hkeyed : '\\' ∉ keyed.credentials.toList := by decide
  exact (render_confined_iff plainParse_followsStandard zeroSlotPlan _ _).mpr
    ⟨hreads, hreads, fun entry hmem ↦ by rw [List.mem_singleton.mp hmem]; exact hreads⟩ _ _
    ⟨bare_unescaped, bare_unescaped, fun _ ↦ hkeyed⟩
    ⟨bare_unescaped, bare_unescaped, fun _ ↦ bare_unescaped⟩

end Plan
end LandingBench
