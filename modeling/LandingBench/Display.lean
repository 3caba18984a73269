import LandingBench.Config
import LandingBench.Data.Url

/-!
# Hosts on display

The summary shows the host of an endpoint's URL in place of the URL.  What
`Url::parse` rejects is cut by hand.
-/

namespace LandingBench

open Data

/-- `display_endpoint_host` where `Url::parse` rejects the text. -/
def cutByHand (rawUrl : String) : String :=
  let trimmed := Text.beforeFirst '?' rawUrl
  let trimmed := Text.beforeFirst '#' trimmed
  let hostPart := Text.afterFirst "://" trimmed
  let hostPart := Text.afterLast '@' hostPart
  let host := Text.beforeFirst '/' hostPart
  if host.isEmpty then "-" else host

def displayEndpointHost (parse : String → Option Url.Parsed) (rawUrl : String) : String :=
  match parse rawUrl with
  | some parsed =>
      let host := parsed.host.getD "-"
      match parsed.port with
      | some port => s!"{host}:{port}"
      | none => host
  | none => cutByHand rawUrl

def lookupUrl (parse : String → Option Url.Parsed) (config : ConfigToml) (name : String) : String :=
  ((config.endpoint.find? (·.name = name)).map fun ep ↦ displayEndpointHost parse ep.url).getD "-"

/-- What the program relies on in `Url::parse`: it reads what the URL standard
reads, whatever its host parser makes of unusual names. -/
structure FollowsStandard (parse : String → Option Url.Parsed) (hosts : Url.HostParser) : Prop where
  parse_eq : ∀ raw, parse raw = Url.parse hosts raw.toList
  hosts_standard : hosts.Standard

/-- `Url::parse` on plain host names. -/
def plainParse (raw : String) : Option Url.Parsed := Url.parse Url.plainHosts raw.toList

theorem plainParse_followsStandard : FollowsStandard plainParse Url.plainHosts :=
  ⟨fun _ ↦ rfl, Url.plainHosts_standard⟩

example : displayEndpointHost plainParse "https://de1.0slot.trade?api-key=redacted" =
    "de1.0slot.trade" := by
  decide +kernel

/-! ## What a URL is made of -/

/-- The parts that may be shown. -/
structure Site where
  scheme : Option String
  host : String
  port : Option String
  scheme_ok : ∀ s ∈ scheme, Url.isScheme s.toList
  host_ne : host.toList ≠ []
  host_ok : ∀ c ∈ host.toList, Url.IsSolid c ∧ c ≠ '@' ∧ Url.isTerminator true c = false
  /-- Only an address in brackets has colons. -/
  host_last : ':' ∈ host.toList → host.toList.head? = some '[' ∧ host.toList.getLast? = some ']'
  port_ok : ∀ p ∈ port, p.toList ≠ [] ∧ p.toList.all Char.isDigit

/-- The parts around them, where keys stand. -/
structure Secrets where
  userinfo : Option String := none
  path : Option String := none
  query : Option String := none
  fragment : Option String := none
  userinfo_ok : ∀ u ∈ userinfo, ∀ c ∈ u.toList, Url.isPathStart c = false

/-- A part in front of its mark, if it is there. -/
def ended (mark : String) : Option String → String
  | none => ""
  | some text => text ++ mark

/-- A part behind its mark, if it is there. -/
def begun (mark : Char) : Option String → String
  | none => ""
  | some text => String.singleton mark ++ text

theorem head?_begun_append (mark : Char) (part : Option String) (rest : String) :
    ∀ c ∈ (begun mark part ++ rest).toList.head?, c = mark ∨ c ∈ rest.toList.head? := by
  intro c hc
  cases part with
  | none => exact .inr (by simpa [begun] using hc)
  | some text => exact .inl (by simpa [begun, eq_comm] using hc)

namespace Secrets

def bare : Secrets := ⟨none, none, none, none, fun _ hu ↦ by simp at hu⟩

/-- A name behind an `@` in the path. -/
def marked (name : String) : Secrets where
  userinfo := some "1"
  path := some ("@" ++ name)
  query := none
  fragment := none
  userinfo_ok u hu := by
    obtain rfl : "1" = u := Option.some.inj hu
    simp [Url.isPathStart]

/-- A name in front of a reverse solidus. -/
def escaped (c : Char) (hc : c.isLower) : Secrets where
  userinfo := some (String.ofList [c, '\\'])
  path := none
  query := none
  fragment := none
  userinfo_ok u hu := by
    have halpha : c.isAlphanum = true := by simp [Char.isAlphanum, Char.isAlpha, hc]
    have hstart := (Bool.or_eq_false_iff.mp (Url.not_isTerminator_of_isAlphanum halpha false)).1
    obtain rfl : String.ofList [c, '\\'] = u := Option.some.inj hu
    simpa [hstart] using (by decide : Url.isPathStart '\\' = false)

def credentials (secrets : Secrets) : String := ended "@" secrets.userinfo

def tail (secrets : Secrets) : String :=
  begun '/' secrets.path ++ (begun '?' secrets.query ++ begun '#' secrets.fragment)

/-- The path with its first slash, as far as the first `?` or `#`. -/
def shownPath (secrets : Secrets) : List Char :=
  ((begun '/' secrets.path).toList.takeWhile (· ≠ '?')).takeWhile (· ≠ '#')

theorem not_isPathStart_of_mem_credentials (secrets : Secrets) :
    ∀ c ∈ secrets.credentials.toList, Url.isPathStart c = false := by
  intro c hc
  cases huser : secrets.userinfo with
  | none => simp [credentials, huser, ended] at hc
  | some userinfo =>
      simp only [credentials, huser, ended, String.toList_append, List.mem_append] at hc
      rcases hc with hc | hc
      · exact secrets.userinfo_ok userinfo huser c hc
      · obtain rfl : c = '@' := by simpa using hc
        decide

theorem getLast?_credentials (secrets : Secrets) :
    ∀ c ∈ secrets.credentials.toList.getLast?, c = '@' := by
  intro c hc
  cases huser : secrets.userinfo with
  | none => simp [credentials, huser, ended] at hc
  | some userinfo => simpa [credentials, huser, ended, eq_comm] using hc

theorem head?_query_fragment (secrets : Secrets) :
    ∀ c ∈ (begun '?' secrets.query ++ begun '#' secrets.fragment).toList.head?,
      c = '?' ∨ c = '#' := by
  intro c hc
  apply (head?_begun_append '?' secrets.query _ c hc).imp_right
  intro hfragment
  rw [← String.append_empty (s := begun '#' secrets.fragment)] at hfragment
  exact (head?_begun_append '#' secrets.fragment "" c hfragment).resolve_right (by simp)

theorem isPathStart_head?_tail (secrets : Secrets) :
    ∀ c ∈ secrets.tail.toList.head?, Url.isPathStart c = true := by
  intro c hc
  rcases head?_begun_append '/' secrets.path _ c hc with rfl | hrest
  · decide
  · rcases secrets.head?_query_fragment c hrest with rfl | rfl
    · decide
    · decide

/-- Of what follows the address, the first two cuts leave the path. -/
theorem takeWhile_tail (secrets : Secrets) :
    (secrets.tail.toList.takeWhile (· ≠ '?')).takeWhile (· ≠ '#') = secrets.shownPath := by
  rw [tail, shownPath, String.toList_append, List.takeWhile_takeWhile, List.takeWhile_takeWhile]
  apply Text.takeWhile_append_stop
  intro c hc
  rcases secrets.head?_query_fragment c hc with rfl | rfl
  · decide
  · decide

theorem head?_shownPath (secrets : Secrets) : ∀ c ∈ secrets.shownPath.head?, c = '/' := by
  intro c hc
  cases hpath : secrets.path with
  | none => simp [shownPath, hpath, begun] at hc
  | some path => simpa [shownPath, hpath, begun, eq_comm] using hc

theorem shownPath_of_at {secrets : Secrets} {name : String}
    (hpath : secrets.path = some ("@" ++ name)) (hletters : ∀ c ∈ name.toList, c.isAlphanum) :
    secrets.shownPath = ['/', '@'] ++ name.toList := by
  have hkept : ∀ mark : Char, mark ∈ ['?', '#'] →
      (['/', '@'] ++ name.toList).takeWhile (· ≠ mark) = ['/', '@'] ++ name.toList := by
    intro mark hmark
    refine List.takeWhile_eq_self_iff.mpr fun c hc ↦ decide_eq_true ?_
    rcases List.mem_append.mp hc with hc | hc
    · have hmarks : ∀ mark ∈ ['?', '#'], ∀ c ∈ ['/', '@'], c ≠ mark := by simp
      exact hmarks mark hmark c hc
    · have hmarks : ∀ mark ∈ ['?', '#'], mark.isAlphanum = false := by simp
      exact Url.ne_of_isAlphanum (hletters c hc) (hmarks mark hmark)
  have hslash : (begun '/' secrets.path).toList = ['/', '@'] ++ name.toList := by
    simp [hpath, begun]
  rw [shownPath, hslash, hkept '?' (by simp), hkept '#' (by simp)]

end Secrets

namespace Site

def start (site : Site) : String := ended "://" site.scheme

def address (site : Site) : String := site.host ++ begun ':' site.port

def text (site : Site) (secrets : Secrets) : String :=
  site.start ++ secrets.credentials ++ site.address ++ secrets.tail

theorem address_ne (site : Site) : site.address.toList ≠ [] := by
  simp [address, site.host_ne]

theorem address_ok (site : Site) :
    ∀ c ∈ site.address.toList, Url.IsSolid c ∧ c ≠ '@' ∧ Url.isTerminator true c = false := by
  intro c hc
  rw [address, String.toList_append, List.mem_append] at hc
  rcases hc with hc | hc
  · exact site.host_ok c hc
  · cases hport : site.port with
    | none => simp [hport, begun] at hc
    | some port =>
        simp only [hport, begun, String.toList_append, List.mem_append] at hc
        rcases hc with hc | hc
        · obtain rfl : c = ':' := by simpa using hc
          simp [Url.IsSolid, Url.isTerminator, Url.isPathStart]
        · have halnum : c.isAlphanum = true := by
            simp [Char.isAlphanum, List.all_eq_true.mp (site.port_ok port hport).2 c hc]
          exact ⟨Url.isSolid_of_isAlphanum halnum, Url.ne_of_isAlphanum halnum rfl,
            Url.not_isTerminator_of_isAlphanum halnum true⟩

theorem getLast?_address (site : Site) : ∀ c ∈ site.address.toList.getLast?, c ≠ ':' := by
  rintro c hc rfl
  cases hport : site.port with
  | none =>
      simp only [address, hport, begun, String.append_empty] at hc
      obtain ⟨-, hlast⟩ := site.host_last (List.mem_of_mem_getLast? hc)
      rw [hlast] at hc
      simp at hc
  | some port =>
      obtain ⟨hne, hdigits⟩ := site.port_ok port hport
      rw [address, hport, begun, ← String.append_assoc, String.toList_append,
        List.getLast?_append_of_ne_nil _ hne] at hc
      exact absurd (List.all_eq_true.mp hdigits ':' (List.mem_of_mem_getLast? hc)) (by decide)

theorem ne_of_mem_front (site : Site) (secrets : Secrets) :
    ∀ c ∈ (site.start ++ secrets.credentials ++ site.address).toList, c ≠ '?' ∧ c ≠ '#' := by
  intro c hc
  have hmark : Url.isPathStart c = false ∨ c = '/' := by
    rw [String.toList_append, String.toList_append, List.mem_append, List.mem_append] at hc
    rcases hc with (hc | hc) | hc
    · cases hscheme : site.scheme with
      | none => simp [start, hscheme, ended] at hc
      | some scheme =>
          simp only [start, hscheme, ended, String.toList_append, List.mem_append] at hc
          rcases hc with hc | hc
          · exact .inl (Url.not_isPathStart_of_isSchemeChar
              (Url.isSchemeChar_of_isScheme (site.scheme_ok scheme hscheme) hc))
          · have hmarks : c = ':' ∨ c = '/' := by simpa using hc
            exact hmarks.imp_left fun h ↦ by rw [h]; decide
    · exact .inl (secrets.not_isPathStart_of_mem_credentials c hc)
    · exact .inl (Bool.or_eq_false_iff.mp (site.address_ok c hc).2.2).1
  rcases hmark with h | rfl
  · constructor
    · rintro rfl
      exact absurd h (by decide)
    · rintro rfl
      exact absurd h (by decide)
  · decide

theorem toList_trimmed (site : Site) (secrets : Secrets) :
    (Text.beforeFirst '#' (Text.beforeFirst '?' (site.text secrets))).toList =
      site.start.toList ++ (secrets.credentials.toList ++
        (site.address.toList ++ secrets.shownPath)) := by
  have hfront := site.ne_of_mem_front secrets
  rw [Text.toList_beforeFirst, Text.toList_beforeFirst, text, String.toList_append,
    List.takeWhile_append_of_pos fun c hc ↦ decide_eq_true (hfront c hc).1,
    List.takeWhile_append_of_pos fun c hc ↦ decide_eq_true (hfront c hc).2,
    secrets.takeWhile_tail]
  simp

/-- Behind the scheme, if there is one. -/
theorem toList_hostPart (site : Site) {secrets : Secrets}
    (hpath : site.scheme = none → ¬[':', '/', '/'] <:+: secrets.shownPath) :
    (Text.afterFirst "://" (Text.beforeFirst '#'
      (Text.beforeFirst '?' (site.text secrets)))).toList =
        secrets.credentials.toList ++ (site.address.toList ++ secrets.shownPath) := by
  have hsep : "://".toList = [':', '/', '/'] := by decide
  rw [Text.toList_afterFirst, toList_trimmed, hsep]
  cases hscheme : site.scheme with
  | none =>
      have hstart : site.start.toList = [] := by simp [start, hscheme, ended]
      have hnone : Text.dropPast [':', '/', '/'] (secrets.credentials.toList ++
          (site.address.toList ++ secrets.shownPath)) = none := by
        rw [Text.dropPast_eq_none (by simp)]
        intro hoccurs
        have hslash : '/' ∉ secrets.credentials.toList ++ site.address.toList := by
          intro hmem
          rcases List.mem_append.mp hmem with hmem | hmem
          · exact absurd (secrets.not_isPathStart_of_mem_credentials _ hmem) (by decide)
          · exact absurd (site.address_ok _ hmem).2.2 (by decide)
        have hlast : ∀ c ∈ (secrets.credentials.toList ++ site.address.toList).getLast?,
            c ≠ ':' := by
          rw [List.getLast?_append_of_ne_nil _ site.address_ne]
          exact site.getLast?_address
        rw [← List.append_assoc] at hoccurs
        exact hpath hscheme (Text.infix_of_infix_append hslash hlast hoccurs)
      rw [hstart, List.nil_append, hnone, Option.getD_none]
  | some scheme =>
      have hstart : site.start.toList = scheme.toList ++ [':', '/', '/'] := by
        simp [start, hscheme, ended]
      have hcolon := Url.colon_notMem_of_isScheme (site.scheme_ok scheme hscheme)
      rw [hstart, Text.dropPast_append hcolon, Option.getD_some]

end Site

/-- What is shown stands between the last `@` and the first slash behind it. -/
theorem toList_cutByHand {rawUrl : String} {front name back : List Char}
    (hpart : (Text.afterFirst "://" (Text.beforeFirst '#' (Text.beforeFirst '?' rawUrl))).toList =
      front ++ (name ++ back))
    (hfront : ∀ c ∈ front.getLast?, c = '@') (hname : ∀ c ∈ name, c ≠ '@' ∧ c ≠ '/')
    (hne : name ≠ []) (hback : '@' ∉ back) (hslash : ∀ c ∈ back.head?, c = '/') :
    (cutByHand rawUrl).toList = name := by
  have hlast : ∀ c ∈ name ++ back, decide (c ≠ '@') = true := by
    intro c hc
    rcases List.mem_append.mp hc with hc | hc
    · exact decide_eq_true (hname c hc).1
    · exact decide_eq_true fun heq ↦ hback (heq ▸ hc)
  have hhost : (Text.beforeFirst '/' (Text.afterLast '@' (Text.afterFirst "://"
      (Text.beforeFirst '#' (Text.beforeFirst '?' rawUrl))))).toList = name := by
    rw [Text.toList_beforeFirst, Text.toList_afterLast, hpart,
      Text.rtakeWhile_stop (fun c hc ↦ by simp [hfront c hc]) hlast,
      Text.takeWhile_stop (fun c hc ↦ decide_eq_true (hname c hc).2) fun c hc ↦ by
        simp [hslash c hc]]
  have hempty : ¬(Text.beforeFirst '/' (Text.afterLast '@' (Text.afterFirst "://"
      (Text.beforeFirst '#' (Text.beforeFirst '?' rawUrl))))).isEmpty = true := by
    rw [String.isEmpty_iff, ← String.toList_eq_nil_iff, hhost]
    exact hne
  rw [cutByHand, if_neg hempty, hhost]

/-! ## What is shown -/

namespace Site

variable {parse : String → Option Url.Parsed} {hosts : Url.HostParser}

def shown (parse : String → Option Url.Parsed) (site : Site) (secrets : Secrets) : String :=
  displayEndpointHost parse (site.text secrets)

/-- A URL that `Url::parse` rejects is shown as host and port, unless there is
an `@` behind them. -/
theorem shown_of_rejected {site : Site} {secrets : Secrets}
    (hparse : parse (site.text secrets) = none) (hat : '@' ∉ secrets.shownPath)
    (hpath : site.scheme = none → ¬[':', '/', '/'] <:+: secrets.shownPath) :
    site.shown parse secrets = site.address := by
  have haddress : ∀ c ∈ site.address.toList, c ≠ '@' ∧ c ≠ '/' := by
    intro c hc
    obtain ⟨-, hat, hstop⟩ := site.address_ok c hc
    refine ⟨hat, ?_⟩
    rintro rfl
    exact absurd hstop (by decide)
  have hcut := toList_cutByHand (site.toList_hostPart hpath) secrets.getLast?_credentials haddress
    site.address_ne hat secrets.head?_shownPath
  rw [shown, displayEndpointHost, hparse]
  exact String.toList_inj.mp hcut

/-- If there is one, what is shown is what follows it. -/
theorem shown_of_at {site : Site} {secrets : Secrets} {name : String}
    (hparse : parse (site.text secrets) = none) (hname : secrets.path = some ("@" ++ name))
    (hne : name.toList ≠ []) (hletters : ∀ c ∈ name.toList, c.isAlphanum) :
    site.shown parse secrets = name := by
  have hshown := secrets.shownPath_of_at hname hletters
  have hletter : ∀ c ∈ name.toList, c ≠ '@' ∧ c ≠ '/' := fun c hc ↦
    ⟨Url.ne_of_isAlphanum (hletters c hc) rfl, Url.ne_of_isAlphanum (hletters c hc) rfl⟩
  have hpath : site.scheme = none → ¬[':', '/', '/'] <:+: secrets.shownPath := by
    intro _ hoccurs
    have hcolon : ':' ∈ secrets.shownPath := hoccurs.subset (by simp)
    rw [hshown, List.mem_append] at hcolon
    rcases hcolon with hcolon | hcolon
    · simp at hcolon
    · exact absurd (hletters ':' hcolon) (by decide)
  have hpart := site.toList_hostPart hpath
  rw [hshown, ← List.append_assoc, ← List.append_assoc, ← List.append_nil name.toList] at hpart
  have hcut := toList_cutByHand hpart (by simp) hletter hne (by simp) (by simp)
  rw [shown, displayEndpointHost, hparse]
  exact String.toList_inj.mp hcut

/-- Two URLs with one scheme are read alike, if no reverse solidus ends the
authority early. -/
theorem parse_text (hparse : FollowsStandard parse hosts) {site : Site} {scheme : String}
    (hscheme : site.scheme = some scheme)
    (hkind : Url.kindOf (scheme.toList.map Char.toLower) ≠ .file) {secrets : Secrets}
    (hback : Url.kindOf (scheme.toList.map Char.toLower) ≠ .other →
      '\\' ∉ secrets.credentials.toList) :
    parse (site.text secrets) = parse (site.text .bare) := by
  have hstart : site.start.toList = scheme.toList ++ [':', '/', '/'] := by
    simp [start, hscheme, ended]
  have htext : (site.text secrets).toList = scheme.toList ++ ':' :: '/' :: '/' ::
      (secrets.credentials.toList ++ site.address.toList ++ secrets.tail.toList) := by
    simp [text, hstart]
  have hbare : (site.text .bare).toList = scheme.toList ++ ':' :: '/' :: '/' ::
      site.address.toList := by
    simp [text, hstart, Secrets.bare, Secrets.credentials, Secrets.tail, ended, begun]
  rw [hparse.parse_eq, hparse.parse_eq, htext, hbare]
  exact Url.parse_append hosts (site.scheme_ok scheme hscheme) hkind
    secrets.not_isPathStart_of_mem_credentials hback secrets.getLast?_credentials
    site.address_ne site.address_ok secrets.isPathStart_head?_tail

/-- The site has a scheme other than `file`, and `Url::parse` accepts it. -/
def ReadsAuthority (parse : String → Option Url.Parsed) (site : Site) : Prop :=
  ∃ scheme, site.scheme = some scheme ∧
    Url.kindOf (scheme.toList.map Char.toLower) ≠ .file ∧ (parse (site.text .bare)).isSome

theorem parse_marked (hparse : FollowsStandard parse hosts) {site : Site}
    (hreads : ¬site.ReadsAuthority parse) (name : String) :
    parse (site.text (.marked name)) = none := by
  have hcredentials : (Secrets.marked name).credentials.toList = ['1', '@'] := by
    simp [Secrets.credentials, Secrets.marked, ended]
  cases hs : site.scheme with
  | none =>
      have htext : (site.text (.marked name)).toList =
          '1' :: '@' :: (site.address.toList ++ (Secrets.marked name).tail.toList) := by
        simp [text, start, hs, ended, hcredentials]
      rw [hparse.parse_eq, htext]
      exact Url.parse_eq_none_of_head hosts (by simp [Url.IsSolid]) (by decide) _
  | some scheme =>
      by_cases hkind : Url.kindOf (scheme.toList.map Char.toLower) = .file
      · have htext : (site.text (.marked name)).toList = scheme.toList ++ ':' :: '/' :: '/' ::
            (['1', '@'] ++ site.address.toList ++ (Secrets.marked name).tail.toList) := by
          simp [text, start, hs, ended, hcredentials]
        rw [hparse.parse_eq, htext]
        exact Url.parse_file_eq_none hparse.hosts_standard (site.scheme_ok scheme hs) hkind
          (by decide) site.address_ne (fun c hc ↦ (site.address_ok c hc).1) _
      · have hbare : parse (site.text .bare) = none := by
          by_contra hsome
          exact hreads ⟨scheme, hs, hkind, Option.isSome_iff_ne_none.mpr hsome⟩
        rw [parse_text hparse hs hkind (by simp [hcredentials])]
        exact hbare

theorem shown_escaped (hparse : FollowsStandard parse hosts) {site : Site} {scheme : String}
    (hscheme : site.scheme = some scheme)
    (hkind : Url.kindOf (scheme.toList.map Char.toLower) ≠ .other) {c : Char} (hc : c.isLower) :
    site.shown parse (.escaped c hc) = String.singleton c := by
  have htext : (site.text (.escaped c hc)).toList =
      scheme.toList ++ ':' :: '/' :: '/' :: c :: '\\' :: ('@' :: site.address.toList) := by
    simp [text, start, hscheme, ended, begun, Secrets.credentials, Secrets.tail, Secrets.escaped]
  have hsolid : ∀ c ∈ '@' :: site.address.toList, Url.IsSolid c := by
    intro c hc
    rcases List.mem_cons.mp hc with rfl | hc
    · simp [Url.IsSolid]
    · exact (site.address_ok c hc).1
  have hread := Url.parse_backslash hparse.hosts_standard (site.scheme_ok scheme hscheme) hkind hc
    hsolid
  rw [shown, displayEndpointHost, hparse.parse_eq, htext, hread]
  rfl

/-- A URL that `Url::parse` accepts is shown as if it had no secrets. -/
theorem shown_of_accepted (hparse : FollowsStandard parse hosts) {site : Site} {scheme : String}
    (hscheme : site.scheme = some scheme)
    (hkind : Url.kindOf (scheme.toList.map Char.toLower) ≠ .file) {secrets : Secrets}
    (hback : Url.kindOf (scheme.toList.map Char.toLower) ≠ .other →
      '\\' ∉ secrets.credentials.toList)
    (haccepted : (parse (site.text .bare)).isSome) :
    site.shown parse secrets = site.shown parse .bare := by
  obtain ⟨parsed, hbare⟩ := Option.isSome_iff_exists.mp haccepted
  have htext := (parse_text hparse hscheme hkind hback).trans hbare
  rw [shown, shown, displayEndpointHost, displayEndpointHost, htext, hbare]

theorem shown_ne_of_marked (hparse : FollowsStandard parse hosts) {site : Site}
    (hreads : ¬site.ReadsAuthority parse) :
    site.shown parse (.marked "x") ≠ site.shown parse (.marked "y") := by
  rw [shown_of_at (parse_marked hparse hreads "x") rfl (by simp) (by simp),
    shown_of_at (parse_marked hparse hreads "y") rfl (by simp) (by simp)]
  decide

theorem shown_ne_of_escaped (hparse : FollowsStandard parse hosts) {site : Site}
    {scheme : String} (hscheme : site.scheme = some scheme)
    (hkind : Url.kindOf (scheme.toList.map Char.toLower) ≠ .other) :
    site.shown parse (.escaped 'x' (by decide)) ≠ site.shown parse (.escaped 'y' (by decide)) := by
  rw [shown_escaped hparse hscheme hkind, shown_escaped hparse hscheme hkind]
  decide

/-- Without a reverse solidus in the credentials, host and port alone decide what
is shown, exactly for the sites that `Url::parse` reads. -/
theorem shown_eq_iff_of_unescaped (hparse : FollowsStandard parse hosts) (site : Site) :
    (∀ secrets secrets', '\\' ∉ secrets.credentials.toList →
      '\\' ∉ secrets'.credentials.toList →
        site.shown parse secrets = site.shown parse secrets') ↔ site.ReadsAuthority parse := by
  constructor
  · intro hsame
    by_contra hreads
    have hunescaped : ∀ name, '\\' ∉ (Secrets.marked name).credentials.toList := by
      simp [Secrets.credentials, Secrets.marked, ended]
    exact shown_ne_of_marked hparse hreads (hsame _ _ (hunescaped "x") (hunescaped "y"))
  · rintro ⟨scheme, hscheme, hkind, haccepted⟩ secrets secrets' hback hback'
    rw [shown_of_accepted hparse hscheme hkind (fun _ ↦ hback) haccepted,
      shown_of_accepted hparse hscheme hkind (fun _ ↦ hback') haccepted]

theorem shown_eq_iff (hparse : FollowsStandard parse hosts) (site : Site) :
    (∀ secrets secrets', site.shown parse secrets = site.shown parse secrets') ↔
      site.ReadsAuthority parse ∧ ∀ scheme, site.scheme = some scheme →
        Url.kindOf (scheme.toList.map Char.toLower) = .other := by
  constructor
  · intro hsame
    refine ⟨?_, fun scheme hscheme ↦ ?_⟩
    · exact (shown_eq_iff_of_unescaped hparse site).mp fun secrets secrets' _ _ ↦
        hsame secrets secrets'
    · by_contra hkind
      exact shown_ne_of_escaped hparse hscheme hkind (hsame _ _)
  · rintro ⟨⟨scheme, hscheme, hkind, haccepted⟩, hother⟩ secrets secrets'
    have hbare : ∀ secrets, site.shown parse secrets = site.shown parse .bare := fun secrets ↦
      shown_of_accepted hparse hscheme hkind (fun hne ↦ absurd (hother scheme hscheme) hne)
        haccepted
    rw [hbare secrets, hbare secrets']

/-- Only host and port are shown: of all URLs of a site, exactly if it is accepted
and its scheme has no rules of its own; of those without a reverse solidus in
the credentials, exactly if it is accepted and no file; and of a URL that is
rejected, if no `@` (nor, without a scheme, a `://`) follows. -/
theorem shown_confined (hparse : FollowsStandard parse hosts) (site : Site) :
    ((∀ secrets secrets', displayEndpointHost parse (site.text secrets) =
        displayEndpointHost parse (site.text secrets')) ↔
      site.ReadsAuthority parse ∧ ∀ scheme, site.scheme = some scheme →
        Url.kindOf (scheme.toList.map Char.toLower) = .other) ∧
      ((∀ secrets secrets', '\\' ∉ secrets.credentials.toList →
        '\\' ∉ secrets'.credentials.toList → displayEndpointHost parse (site.text secrets) =
          displayEndpointHost parse (site.text secrets')) ↔ site.ReadsAuthority parse) ∧
      ∀ secrets, parse (site.text secrets) = none → '@' ∉ secrets.shownPath →
        (site.scheme = none → ¬[':', '/', '/'] <:+: secrets.shownPath) →
          displayEndpointHost parse (site.text secrets) = site.address := by
  refine ⟨shown_eq_iff hparse site, shown_eq_iff_of_unescaped hparse site, ?_⟩
  intro secrets hrejected hat hpath
  exact shown_of_rejected hrejected hat hpath

end Site

/-! ## A key in a path -/

def keyed : Secrets where
  userinfo := none
  path := some "v2/key@7f3a"
  query := none
  fragment := none
  userinfo_ok := by simp

def zeroSlot : Site where
  scheme := some "https"
  host := "de1.0slot.trade"
  port := none
  scheme_ok := by simp [Url.isScheme, Url.isSchemeChar]
  host_ne := by simp
  host_ok := by simp [Url.IsSolid, Url.isTerminator, Url.isPathStart]
  host_last := by simp
  port_ok := by simp

/-- Behind a scheme that is read, the same key stays hidden. -/
theorem Site.shown_confined_zeroSlot :
    displayEndpointHost plainParse (zeroSlot.text keyed) =
      displayEndpointHost plainParse (zeroSlot.text .bare) :=
  (Site.shown_confined plainParse_followsStandard zeroSlot).2.1.mpr
    ⟨"https", rfl, by decide, by decide +kernel⟩ keyed .bare (by decide) (by decide)

/-- A node on the same machine, given without a scheme. -/
def localNode : Site where
  scheme := none
  host := "127.0.0.1"
  port := some "8899"
  scheme_ok := by simp
  host_ne := by simp
  host_ok := by simp [Url.IsSolid, Url.isTerminator, Url.isPathStart]
  host_last := by simp
  port_ok := by simp

/-- The text is cut at the `@` before it is cut at the slash. -/
theorem pathKey_is_shown :
    localNode.text keyed = "127.0.0.1:8899/v2/key@7f3a" ∧
      displayEndpointHost plainParse (localNode.text keyed) = "7f3a" ∧
        displayEndpointHost plainParse (localNode.text .bare) = "127.0.0.1:8899" := by
  decide +kernel

end LandingBench
