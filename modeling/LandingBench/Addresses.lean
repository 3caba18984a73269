import LandingBench.Display

/-!
# Addresses on display

A Soyas endpoint is given by a socket address in the place of a URL.  The
letters of a host name in front of a colon are a scheme to `Url::parse`.
-/

namespace LandingBench

open Data

/-- What `SoyasClient::connect` can take: a DNS name or an IPv4 address, and a
port. -/
structure Address where
  host : String
  port : String
  host_ne : host.toList ≠ []
  host_ok : ∀ c ∈ host.toList, c.isAlphanum ∨ c ∈ ['-', '.', '_']
  port_ne : port.toList ≠ []
  port_ok : port.toList.all Char.isDigit
  port_le : Url.ofDigits 10 port.toList ≤ 65535

namespace Address

def text (address : Address) : String := address.host ++ ":" ++ address.port

theorem toList_text (address : Address) :
    address.text.toList = address.host.toList ++ ':' :: address.port.toList := by
  simp [text]

theorem isAlphanum_of_mem_port (address : Address) : ∀ c ∈ address.port.toList, c.isAlphanum := by
  intro c hc
  simp [Char.isAlphanum, List.all_eq_true.mp address.port_ok c hc]

/-- The characters of an address mark nothing but the port. -/
theorem mem_text (address : Address) {c : Char} (hc : c ∈ address.text.toList) :
    c.isAlphanum ∨ c ∈ ['-', '.', '_', ':'] := by
  rw [toList_text, List.mem_append, List.mem_cons] at hc
  rcases hc with hc | rfl | hc
  · exact (address.host_ok c hc).imp_right fun h ↦ List.mem_append_left [':'] h
  · exact .inr (by decide)
  · exact .inl (address.isAlphanum_of_mem_port c hc)

theorem ne_of_mem_text (address : Address) {c d : Char} (hc : c ∈ address.text.toList)
    (halnum : d.isAlphanum = false) (hmark : d ∉ ['-', '.', '_', ':']) : c ≠ d := by
  rintro rfl
  rcases address.mem_text hc with h | h
  · exact Bool.false_ne_true (halnum.symm.trans h)
  · exact hmark h

theorem isSolid_of_mem_text (address : Address) : ∀ c ∈ address.text.toList, Url.IsSolid c := by
  intro c hc
  rcases address.mem_text hc with h | h
  · exact Url.isSolid_of_isAlphanum h
  · have hmarks : ∀ c ∈ ['-', '.', '_', ':'], Url.IsSolid c := by
      simp [Url.IsSolid]
    exact hmarks c h

theorem colon_notMem_host (address : Address) : ':' ∉ address.host.toList := by
  intro hc
  rcases address.host_ok ':' hc with h | h
  · exact absurd h (by decide)
  · exact absurd h (by decide)

/-- Where `Url::parse` rejects an address, there is nothing to cut. -/
theorem cutByHand_text (address : Address) : cutByHand address.text = address.text := by
  have hcut : ∀ mark : Char, mark.isAlphanum = false → mark ∉ ['-', '.', '_', ':'] →
      mark ∉ address.text.toList := fun mark halnum hmark hc ↦
    address.ne_of_mem_text hc halnum hmark rfl
  have hnone : Text.dropPast [':', '/', '/'] address.text.toList = none := by
    rw [Text.dropPast_eq_none (by simp)]
    exact fun hoccurs ↦ hcut '/' (by decide) (by decide) (hoccurs.subset (by simp))
  have hsep : "://".toList = [':', '/', '/'] := by decide
  have hpart : (Text.afterFirst "://" (Text.beforeFirst '#'
      (Text.beforeFirst '?' address.text))).toList = [] ++ (address.text.toList ++ []) := by
    rw [Text.beforeFirst_of_notMem (hcut '?' (by decide) (by decide)),
      Text.beforeFirst_of_notMem (hcut '#' (by decide) (by decide)), Text.toList_afterFirst, hsep,
      hnone, Option.getD_none, List.nil_append, List.append_nil]
  have hname : ∀ c ∈ address.text.toList, c ≠ '@' ∧ c ≠ '/' := fun c hc ↦
    ⟨address.ne_of_mem_text hc (by decide) (by decide),
      address.ne_of_mem_text hc (by decide) (by decide)⟩
  refine String.toList_inj.mp (toList_cutByHand hpart (by simp) hname ?_ (by simp) (by simp))
  simp [toList_text]

variable {parse : String → Option Url.Parsed} {hosts : Url.HostParser}

theorem parse_text (hparse : FollowsStandard parse hosts) (address : Address) :
    parse address.text =
      if Url.isScheme address.host.toList then
        Url.parseRest hosts (address.host.toList.map Char.toLower) address.port.toList
      else none := by
  have hclean := Url.clean_solid address.isSolid_of_mem_text
  rw [toList_text] at hclean
  rw [hparse.parse_eq, toList_text, Url.parse_of_clean hosts hclean address.colon_notMem_host]

/-- Behind a scheme, only a scheme of the web reads the port, and takes it for a
host. -/
theorem parseRest_port (hparse : FollowsStandard parse hosts) (address : Address)
    (scheme : List Char) :
    Url.parseRest hosts scheme address.port.toList =
      match Url.kindOf scheme with
      | .special _ => (Url.ipv4 address.port.toList).map fun host ↦ ⟨some host, none⟩
      | _ => some ⟨none, none⟩ := by
  obtain ⟨c, cs, hport⟩ := List.exists_cons_of_ne_nil address.port_ne
  have halnum := address.isAlphanum_of_mem_port
  have hfirst : c.isAlphanum := halnum c (by simp [hport])
  have hslash : Url.isSlash c = false := by
    have hforward : c ≠ '/' := Url.ne_of_isAlphanum hfirst rfl
    have hback : c ≠ '\\' := Url.ne_of_isAlphanum hfirst rfl
    simp [Url.isSlash, hforward, hback]
  have hdrop : address.port.toList.dropWhile Url.isSlash = address.port.toList := by
    rw [hport, List.dropWhile_cons_of_neg (by simp [hslash])]
  unfold Url.parseRest
  cases hkind : Url.kindOf scheme with
  | special defaultPort =>
      have hhost : ∀ c ∈ address.port.toList,
          Url.isTerminator true c = false ∧ c ≠ '@' ∧ c ≠ ':' := fun c hc ↦
        ⟨Url.not_isTerminator_of_isAlphanum (halnum c hc) true,
          Url.ne_of_isAlphanum (halnum c hc) rfl, Url.ne_of_isAlphanum (halnum c hc) rfl⟩
      have hauthority : Url.authority hosts true (some defaultPort)
          (address.port.toList ++ []) = _ :=
        Url.authority_of_host hosts (some defaultPort) address.port_ne hhost (by simp)
      rw [List.append_nil, hparse.hosts_standard.digits _ address.port_ne address.port_ok]
        at hauthority
      simp only [hdrop, hauthority]
  | file =>
      have htwo : (address.port.toList.take 2).all Url.isSlash = false := by
        rw [hport, List.take_succ_cons, List.all_cons, hslash, Bool.false_and]
      simp only [Url.fileHost, htwo, Bool.not_false, Bool.true_or, if_true]
  | other =>
      have hother : c ≠ '/' := Url.ne_of_isAlphanum hfirst rfl
      simp only [hport]
      split
      · rename_i heq
        exact absurd (List.cons.inj heq).1 hother
      · rfl

theorem colon_mem_text (address : Address) : ':' ∈ address.text.toList := by
  simp [toList_text]

theorem displayEndpointHost_text_iff (hparse : FollowsStandard parse hosts) (address : Address) :
    displayEndpointHost parse address.text = address.text ↔
      Url.isScheme address.host.toList = false ∨
        (∃ defaultPort, Url.kindOf (address.host.toList.map Char.toLower) = .special defaultPort) ∧
          Url.ipv4 address.port.toList = none := by
  have hread := address.parse_text hparse
  have hne : ∀ host : String, ':' ∉ host.toList → host ≠ address.text := by
    rintro host hcolon rfl
    exact hcolon address.colon_mem_text
  cases hscheme : Url.isScheme address.host.toList with
  | false =>
      rw [hscheme] at hread
      refine iff_of_true ?_ (.inl rfl)
      rw [displayEndpointHost, hread]
      exact address.cutByHand_text
  | true =>
      rw [hscheme, if_pos rfl, address.parseRest_port hparse] at hread
      simp only [Bool.true_eq_false, false_or]
      cases hkind : Url.kindOf (address.host.toList.map Char.toLower) with
      | special defaultPort =>
          rw [hkind] at hread
          cases hipv4 : Url.ipv4 address.port.toList with
          | none =>
              simp only [hipv4, Option.map_none] at hread
              refine iff_of_true ?_ ⟨⟨defaultPort, rfl⟩, rfl⟩
              rw [displayEndpointHost, hread]
              exact address.cutByHand_text
          | some host =>
              simp only [hipv4, Option.map_some] at hread
              refine iff_of_false ?_ fun h ↦ absurd h.2 (by simp)
              rw [displayEndpointHost, hread]
              exact hne host (Url.colon_notMem_ipv4 hipv4)
      | file =>
          rw [hkind] at hread
          refine iff_of_false ?_ (by simp)
          rw [displayEndpointHost, hread]
          exact hne "-" (by decide)
      | other =>
          rw [hkind] at hread
          refine iff_of_false ?_ (by simp)
          rw [displayEndpointHost, hread]
          exact hne "-" (by decide)

/-- An address is shown as it is configured, exactly if its host does not look
like a scheme, or is one of the web and the port is no number to it. -/
theorem shown_iff (hparse : FollowsStandard parse hosts) (address : Address) :
    (displayEndpointHost parse address.text = address.text ∧
      ∀ config name ep, config.endpoint.find? (fun ep ↦ decide (ep.name = name)) = some ep →
        ep.url = address.text → lookupUrl parse config name = address.text) ↔
      Url.isScheme address.host.toList = false ∨
        (∃ defaultPort, Url.kindOf (address.host.toList.map Char.toLower) = .special defaultPort) ∧
          ∃ rest, address.port.toList = '0' :: rest ∧ ∃ c ∈ rest, '8' ≤ c := by
  rw [← Url.ipv4_eq_none_iff (address.port_le.trans_lt (by decide)),
    ← address.displayEndpointHost_text_iff hparse]
  refine ⟨And.left, fun hshown ↦ ⟨hshown, ?_⟩⟩
  intro config name ep hfound hurl
  rw [lookupUrl, hfound, Option.map_some, Option.getD_some, hurl, hshown]

def soyas : Address where
  host := "fra.landing.soyas.xyz"
  port := "9000"
  host_ne := by simp
  host_ok := by simp
  port_ne := by simp
  port_ok := by simp
  port_le := by decide

/-- The host in front of the port is a scheme. -/
theorem soyas_not_shown : soyas.text = "fra.landing.soyas.xyz:9000" ∧
    displayEndpointHost plainParse soyas.text = "-" := by
  decide +kernel

def lanNode : Address where
  host := "10.0.0.1"
  port := "9000"
  host_ne := by simp
  host_ok := by simp
  port_ne := by simp
  port_ok := by simp
  port_le := by decide

theorem shown_iff_lanNode :
    displayEndpointHost plainParse "10.0.0.1:9000" = "10.0.0.1:9000" :=
  ((shown_iff plainParse_followsStandard lanNode).mpr (.inl (by decide))).1

end Address

end LandingBench
