import LandingBench.Data.Text
import Mathlib

/-!
# URLs

What the URL standard reads as the host and the port of an absolute URL.  The
host parser (domain names, IP addresses) is a parameter.
-/

namespace Data.Url

/-- There is no host where it is missing or empty, and no port where it is the
default one of the scheme. -/
structure Parsed where
  host : Option String
  port : Option ℕ
  deriving DecidableEq, Repr

/-- What a text denotes as the host of a special URL, or of another one. -/
abbrev HostParser := Bool → List Char → Option String

inductive Kind where
  | special (defaultPort : ℕ)
  | file
  | other
  deriving DecidableEq, Repr

def kindOf (scheme : List Char) : Kind :=
  if scheme = "http".toList ∨ scheme = "ws".toList then .special 80
  else if scheme = "https".toList ∨ scheme = "wss".toList then .special 443
  else if scheme = "ftp".toList then .special 21
  else if scheme = "file".toList then .file
  else .other

def isControlOrSpace (c : Char) : Bool := c.toNat ≤ 32

def isTabOrNewline (c : Char) : Bool := [9, 10, 13].contains c.toNat

/-- What the parser reads of its input. -/
def clean (cs : List Char) : List Char :=
  ((cs.dropWhile isControlOrSpace).rdropWhile isControlOrSpace).filter (!isTabOrNewline ·)

def isSchemeChar (c : Char) : Bool := c.isAlphanum || ['+', '-', '.'].contains c

def isScheme : List Char → Bool
  | [] => false
  | c :: cs => c.isAlpha && cs.all isSchemeChar

def splitScheme (cs : List Char) : Option (List Char × List Char) :=
  match cs.dropWhile (· ≠ ':') with
  | [] => none
  | _ :: rest =>
      let scheme := cs.takeWhile (· ≠ ':')
      if isScheme scheme then some (scheme.map Char.toLower, rest) else none

def isSlash (c : Char) : Bool := ['/', '\\'].contains c

def isPathStart (c : Char) : Bool := ['/', '?', '#'].contains c

/-- The end of the authority. -/
def isTerminator (special : Bool) (c : Char) : Bool := isPathStart c || (special && c = '\\')

/-- The text before the first colon outside brackets, and the text after it. -/
def cutPort : Bool → List Char → List Char × Option (List Char)
  | _, [] => ([], none)
  | inside, c :: cs =>
      if c = ':' ∧ inside = false then ([], some cs)
      else
        let (host, port) := cutPort (if c = '[' then true else if c = ']' then false else inside) cs
        (c :: host, port)

def ofDigits (base : ℕ) (digits : List Char) : ℕ :=
  digits.foldl (fun n c ↦ n * base + (c.toNat - 48)) 0

def parsePort (defaultPort : Option ℕ) (digits : List Char) : Option (Option ℕ) :=
  if !digits.all Char.isDigit then none
  else if digits = [] then some none
  else if 65535 < ofDigits 10 digits then none
  else if defaultPort = some (ofDigits 10 digits) then some none
  else some (some (ofDigits 10 digits))

/-- What follows the two slashes, up to the path. -/
def authority (hosts : HostParser) (special : Bool) (defaultPort : Option ℕ) (cs : List Char) :
    Option Parsed :=
  let text := cs.takeWhile (!isTerminator special ·)
  match cutPort false (text.rtakeWhile (· ≠ '@')) with
  | ([], port) =>
      if special || port.isSome || text.contains '@' then none else some ⟨none, none⟩
  | (host, port) =>
      (hosts special host).bind fun host ↦
        (parsePort defaultPort (port.getD [])).map fun port ↦ ⟨some host, port⟩

def isDriveLetter : List Char → Bool
  | [c, d] => c.isAlpha && [':', '|'].contains d
  | _ => false

/-- A file has no credentials and no port. -/
def fileHost (hosts : HostParser) (cs : List Char) : Option Parsed :=
  let text := (cs.drop 2).takeWhile (!isTerminator true ·)
  if !(cs.take 2).all isSlash || text.isEmpty || isDriveLetter text then some ⟨none, none⟩
  else (hosts true text).map fun host ↦
    ⟨if host = "localhost" then none else some host, none⟩

def parseRest (hosts : HostParser) (scheme rest : List Char) : Option Parsed :=
  match kindOf scheme with
  | .special defaultPort => authority hosts true (some defaultPort) (rest.dropWhile isSlash)
  | .file => fileHost hosts rest
  | .other =>
      match rest with
      | '/' :: '/' :: rest => authority hosts false none rest
      | _ => some ⟨none, none⟩

def parse (hosts : HostParser) (raw : List Char) : Option Parsed :=
  (splitScheme (clean raw)).bind fun (scheme, rest) ↦ parseRest hosts scheme rest

/-! ## Hosts -/

/-- A number, in octal behind a leading zero. -/
def number : List Char → Option ℕ
  | '0' :: c :: cs => if (c :: cs).all (· < '8') then some (ofDigits 8 (c :: cs)) else none
  | cs => some (ofDigits 10 cs)

def dotted (n : ℕ) : String :=
  s!"{n / 256 ^ 3}.{n / 256 ^ 2 % 256}.{n / 256 % 256}.{n % 256}"

/-- Digits alone are an IPv4 address. -/
def ipv4 (digits : List Char) : Option String :=
  (number digits).bind fun n ↦ if n < 256 ^ 4 then some (dotted n) else none

theorem ofDigits_le (digits : List Char) : ofDigits 8 digits ≤ ofDigits 10 ('0' :: digits) := by
  have hfold : ∀ m n, m ≤ n → digits.foldl (fun n c ↦ n * 8 + (c.toNat - 48)) m ≤
      digits.foldl (fun n c ↦ n * 10 + (c.toNat - 48)) n := by
    induction digits with
    | nil => exact fun _ _ h ↦ h
    | cons c digits ih =>
        intro m n h
        have hstep : m * 8 + (c.toNat - 48) ≤ n * 10 + (c.toNat - 48) := by omega
        exact ih _ _ hstep
  exact hfold 0 _ (Nat.zero_le _)

/-- A small number is an address, unless it is no octal one behind a zero. -/
theorem ipv4_eq_none_iff {digits : List Char} (h : ofDigits 10 digits < 256 ^ 4) :
    ipv4 digits = none ↔ ∃ rest, digits = '0' :: rest ∧ ∃ c ∈ rest, '8' ≤ c := by
  unfold ipv4 number
  split
  · rename_i c cs
    have hlt := (ofDigits_le (c :: cs)).trans_lt h
    by_cases hoctal : (c :: cs).all (· < '8') = true
    · have hno : ¬∃ c' ∈ c :: cs, '8' ≤ c' := by simpa using hoctal
      simp only [hoctal, if_true, Option.bind_some, hlt, reduceCtorEq, false_iff]
      rintro ⟨rest, heq, hrest⟩
      obtain ⟨-, rfl⟩ := List.cons.inj heq
      exact hno hrest
    · have hyes : ∃ c' ∈ c :: cs, '8' ≤ c' := by
        by_contra hno
        exact hoctal (List.all_eq_true.mpr fun c' hc ↦ by
          simpa using fun hle ↦ hno ⟨c', hc, hle⟩)
      simp only [hoctal, Bool.false_eq_true, if_false, Option.bind_none, true_iff]
      exact ⟨c :: cs, rfl, hyes⟩
  · rename_i hshape
    simp only [Option.bind_some, h, if_true, reduceCtorEq, false_iff]
    rintro ⟨rest, rfl, c, hc, -⟩
    cases rest with
    | nil => simp at hc
    | cons d rest => exact hshape d rest rfl

theorem colon_notMem_dotted (n : ℕ) : ':' ∉ (dotted n).toList := by
  have hdigits : ∀ k : ℕ, ':' ∉ Nat.toDigits 10 k := fun k hk ↦
    absurd (Nat.isDigit_of_mem_toDigits (by decide) (by decide) hk) (by decide)
  have hdot : ':' ∉ (toString ".").toList := by decide
  simp [dotted, hdigits, hdot]

theorem colon_notMem_ipv4 {digits : List Char} {host : String} (h : ipv4 digits = some host) :
    ':' ∉ host.toList := by
  obtain ⟨n, -, hn⟩ := Option.bind_eq_some_iff.mp h
  split_ifs at hn
  obtain rfl : dotted n = host := Option.some.inj hn
  exact colon_notMem_dotted n

/-- Names of letters, digits, `-`, `.` and `_`, and numbers. -/
def plainHosts : HostParser := fun special cs ↦
  if !cs.all fun c ↦ c.isAlphanum || ['-', '.', '_'].contains c then none
  else if !special then some (String.ofList cs)
  else if cs.all Char.isDigit then ipv4 cs
  else some (String.ofList (cs.map Char.toLower))

/-- What the standard says of three kinds of hosts. -/
structure HostParser.Standard (hosts : HostParser) : Prop where
  forbidden : ∀ cs : List Char, '@' ∈ cs → hosts true cs = none
  letter : ∀ c : Char, c.isLower → hosts true [c] = some (String.singleton c)
  digits : ∀ cs : List Char, cs ≠ [] → cs.all Char.isDigit → hosts true cs = ipv4 cs

theorem plainHosts_standard : plainHosts.Standard where
  forbidden cs hat := by
    have hplain : ¬cs.all (fun c ↦ c.isAlphanum || ['-', '.', '_'].contains c) = true :=
      fun hall ↦ absurd (List.all_eq_true.mp hall '@' hat) (by decide)
    simp only [plainHosts, hplain, Bool.not_false, if_true]
  letter c hc := by
    have hall : ∀ n < 128, (Char.ofNat n).isLower →
        (Char.ofNat n).isDigit = false ∧ (Char.ofNat n).toLower = Char.ofNat n := by decide
    have hlt : c.toNat < 128 := by
      simp only [Char.isLower, Bool.and_eq_true, decide_eq_true_eq, UInt32.le_iff_toNat_le] at hc
      exact hc.2.trans_lt (by decide)
    obtain ⟨hdigit, hlower⟩ := hall c.toNat hlt (by rwa [Char.ofNat_toNat])
    rw [Char.ofNat_toNat] at hdigit hlower
    have halpha : c.isAlphanum = true := by simp [Char.isAlphanum, Char.isAlpha, hc]
    simp [plainHosts, halpha, hdigit, hlower]
  digits cs _ hcs := by
    have hplain : cs.all (fun c ↦ c.isAlphanum || ['-', '.', '_'].contains c) = true :=
      List.all_eq_true.mpr fun c hc ↦ by simp [Char.isAlphanum, List.all_eq_true.mp hcs c hc]
    simp only [plainHosts, hplain, hcs, Bool.not_true, Bool.false_eq_true, if_false, if_true]

example (hosts : HostParser) (h : hosts.Standard) :
    hosts true "8080".toList = some "0.0.31.144" := by
  rw [h.digits _ (by decide) (by decide)]
  decide +kernel

/-! ## The parts of a URL -/

/-- Characters that the parser keeps wherever they stand. -/
def IsSolid (c : Char) : Prop := 32 < c.toNat

theorem IsSolid.isControlOrSpace {c : Char} (h : IsSolid c) : isControlOrSpace c = false :=
  decide_eq_false (Nat.not_le.mpr h)

theorem IsSolid.isTabOrNewline {c : Char} (h : IsSolid c) : isTabOrNewline c = false := by
  unfold IsSolid at h
  simp only [Url.isTabOrNewline, List.contains_eq_mem, List.mem_cons, List.not_mem_nil, or_false,
    decide_eq_false_iff_not]
  omega

theorem filter_solid {cs : List Char} (h : ∀ c ∈ cs, IsSolid c) :
    cs.filter (!isTabOrNewline ·) = cs :=
  List.filter_eq_self.mpr fun c hc ↦ by simp [(h c hc).isTabOrNewline]

/-- What stands between two solid characters is not trimmed. -/
theorem clean_append {front : List Char} (hne : front ≠ [])
    (hfirst : ∀ c ∈ front.head?, IsSolid c) (hlast : ∀ c ∈ front.getLast?, IsSolid c)
    (back : List Char) :
    clean (front ++ back) = front.filter (!isTabOrNewline ·) ++
      (back.rdropWhile isControlOrSpace).filter (!isTabOrNewline ·) := by
  have hdrop : (front ++ back).dropWhile isControlOrSpace = front ++ back := by
    cases front with
    | nil => exact absurd rfl hne
    | cons c front =>
        have hc : ¬isControlOrSpace c = true := by simp [(hfirst c rfl).isControlOrSpace]
        rw [List.cons_append, List.dropWhile_cons_of_neg hc]
  rw [clean, hdrop, Text.rdropWhile_append fun c hc ↦ (hlast c hc).isControlOrSpace,
    List.filter_append]

theorem clean_solid {cs : List Char} (h : ∀ c ∈ cs, IsSolid c) : clean cs = cs := by
  by_cases hne : cs = []
  · subst hne
    rfl
  · have hclean := clean_append hne (fun c hc ↦ h c (List.mem_of_mem_head? hc))
      (fun c hc ↦ h c (List.mem_of_mem_getLast? hc)) []
    simpa [filter_solid h] using hclean

theorem splitScheme_append {scheme : List Char} (h : ':' ∉ scheme) (rest : List Char) :
    splitScheme (scheme ++ ':' :: rest) =
      if isScheme scheme then some (scheme.map Char.toLower, rest) else none := by
  have hscheme : ∀ c ∈ scheme, decide (c ≠ ':') = true := fun c hc ↦ by
    simpa using fun hcolon : c = ':' ↦ h (hcolon ▸ hc)
  simp only [splitScheme]
  rw [Text.takeWhile_stop hscheme (by simp), Text.dropWhile_stop hscheme (by simp)]

theorem isSolid_of_isAlphanum {c : Char} (h : c.isAlphanum) : IsSolid c := by
  simp only [Char.isAlphanum, Char.isAlpha, Char.isUpper, Char.isLower, Char.isDigit,
    Bool.or_eq_true, Bool.and_eq_true, decide_eq_true_eq, UInt32.le_iff_toNat_le, ge_iff_le] at h
  change 32 < c.val.toNat
  rcases h with (⟨hle, -⟩ | ⟨hle, -⟩) | ⟨hle, -⟩
  · exact lt_of_lt_of_le (by decide) hle
  · exact lt_of_lt_of_le (by decide) hle
  · exact lt_of_lt_of_le (by decide) hle

theorem isSolid_of_isSchemeChar {c : Char} (h : isSchemeChar c) : IsSolid c := by
  simp only [isSchemeChar, Bool.or_eq_true, List.contains_eq_mem, decide_eq_true_eq,
    List.mem_cons, List.not_mem_nil, or_false] at h
  rcases h with h | rfl | rfl | rfl
  · exact isSolid_of_isAlphanum h
  · simp [IsSolid]
  · simp [IsSolid]
  · simp [IsSolid]

theorem isSchemeChar_of_isScheme {scheme : List Char} (h : isScheme scheme) {c : Char}
    (hc : c ∈ scheme) : isSchemeChar c := by
  cases scheme with
  | nil => exact absurd h Bool.false_ne_true
  | cons first rest =>
      obtain ⟨hfirst, hrest⟩ := (Bool.and_eq_true _ _).mp h
      rcases List.mem_cons.mp hc with rfl | hc
      · simp [isSchemeChar, Char.isAlphanum, hfirst]
      · exact List.all_eq_true.mp hrest c hc

theorem not_isPathStart_of_isSchemeChar {c : Char} (h : isSchemeChar c) :
    isPathStart c = false := by
  refine Bool.eq_false_iff.mpr fun hstart ↦ ?_
  simp only [isPathStart, List.contains_eq_mem, List.mem_cons, List.not_mem_nil, or_false,
    decide_eq_true_eq] at hstart
  rcases hstart with rfl | rfl | rfl
  · exact absurd h (by decide)
  · exact absurd h (by decide)
  · exact absurd h (by decide)

theorem colon_notMem_of_isScheme {scheme : List Char} (h : isScheme scheme) : ':' ∉ scheme :=
  fun hc ↦ absurd (isSchemeChar_of_isScheme h hc) (by decide)

theorem parse_of_clean (hosts : HostParser) {raw scheme rest : List Char}
    (hclean : clean raw = scheme ++ ':' :: rest) (hcolon : ':' ∉ scheme) :
    parse hosts raw =
      if isScheme scheme then parseRest hosts (scheme.map Char.toLower) rest else none := by
  rw [parse, hclean, splitScheme_append hcolon]
  split_ifs
  · rfl
  · rfl

/-- What does not begin like a scheme is rejected. -/
theorem parse_eq_none_of_head (hosts : HostParser) {c : Char} (hsolid : IsSolid c)
    (hc : c.isAlpha = false) (rest : List Char) : parse hosts (c :: rest) = none := by
  have hne : [c] ≠ [] := by simp
  have hclean := clean_append hne (by simpa using hsolid) (by simpa using hsolid) rest
  rw [List.filter_cons_of_pos (by simp [hsolid.isTabOrNewline]), List.filter_nil,
    List.singleton_append, List.singleton_append] at hclean
  have hscheme : ∀ cs, isScheme ((c :: cs).takeWhile (· ≠ ':')) = false := by
    intro cs
    by_cases hcolon : c = ':'
    · subst hcolon
      rfl
    · rw [List.takeWhile_cons_of_pos (by simpa using hcolon), isScheme, hc, Bool.false_and]
  simp only [parse, hclean, splitScheme, hscheme]
  split
  · rfl
  · rfl

/-- Letters and digits mark nothing. -/
theorem ne_of_isAlphanum {c d : Char} (h : c.isAlphanum) (hd : d.isAlphanum = false) : c ≠ d := by
  rintro rfl
  exact Bool.false_ne_true (hd.symm.trans h)

theorem not_isTerminator_of_isAlphanum {c : Char} (h : c.isAlphanum) (special : Bool) :
    isTerminator special c = false := by
  have hslash : c ≠ '/' := ne_of_isAlphanum h rfl
  have hquestion : c ≠ '?' := ne_of_isAlphanum h rfl
  have hhash : c ≠ '#' := ne_of_isAlphanum h rfl
  have hback : c ≠ '\\' := ne_of_isAlphanum h rfl
  simp [isTerminator, isPathStart, hslash, hquestion, hhash, hback]

/-- Neither the credentials before a host nor what follows it are read. -/
theorem authority_append (hosts : HostParser) {special : Bool} (defaultPort : Option ℕ)
    {user core rest : List Char} (huser : ∀ c ∈ user, isTerminator special c = false)
    (hat : ∀ c ∈ user.getLast?, c = '@') (hne : core ≠ [])
    (hcore : ∀ c ∈ core, c ≠ '@' ∧ isTerminator special c = false)
    (hrest : ∀ c ∈ rest.head?, isTerminator special c = true) :
    authority hosts special defaultPort (user ++ core ++ rest) =
      authority hosts special defaultPort core := by
  have hinside : ∀ c ∈ user ++ core, (!isTerminator special c) = true := by
    intro c hc
    rcases List.mem_append.mp hc with hc | hc
    · simp [huser c hc]
    · simp [(hcore c hc).2]
  have htext : (user ++ core ++ rest).takeWhile (!isTerminator special ·) = user ++ core :=
    Text.takeWhile_stop hinside fun c hc ↦ by simp [hrest c hc]
  have hself : core.takeWhile (!isTerminator special ·) = core :=
    List.takeWhile_eq_self_iff.mpr fun c hc ↦ hinside c (List.mem_append_right _ hc)
  have hlast : ∀ c ∈ core, decide (c ≠ '@') = true := fun c hc ↦ by simp [(hcore c hc).1]
  have hpast : (user ++ core).rtakeWhile (· ≠ '@') = core :=
    Text.rtakeWhile_stop (fun c hc ↦ by simp [hat c hc]) hlast
  have hcut : core.rtakeWhile (· ≠ '@') = core := List.rtakeWhile_eq_self_iff.mpr hlast
  simp only [authority, htext, hself, hpast, hcut]
  -- without a host only a port can follow, which is an error in both
  cases core with
  | nil => exact absurd rfl hne
  | cons c cs =>
      by_cases hc : c = ':'
      · simp [cutPort, hc]
      · simp [cutPort, hc]

theorem head_filter_rdropWhile {P : Char → Prop} {rest : List Char}
    (h : ∀ c ∈ rest.head?, IsSolid c ∧ P c) :
    ∀ c ∈ ((rest.rdropWhile isControlOrSpace).filter (!isTabOrNewline ·)).head?, P c := by
  obtain ⟨trimmed, htrimmed⟩ := List.rdropWhile_prefix (p := isControlOrSpace) (l := rest)
  cases hkept : rest.rdropWhile isControlOrSpace with
  | nil => simp
  | cons c kept =>
      obtain ⟨hsolid, hP⟩ := h c (by rw [← htrimmed, hkept]; rfl)
      intro c' hc'
      rw [List.filter_cons_of_pos (by simp [hsolid.isTabOrNewline])] at hc'
      obtain rfl : c = c' := by simpa using hc'
      exact hP

theorem cutPort_of_notMem {cs : List Char} (h : ':' ∉ cs) (inside : Bool) :
    cutPort inside cs = (cs, none) := by
  induction cs generalizing inside with
  | nil => rfl
  | cons c cs ih =>
      rw [List.mem_cons, not_or] at h
      rw [cutPort, if_neg fun hc ↦ h.1 hc.1.symm, ih h.2]

/-- A host on its own has no port. -/
theorem authority_of_host (hosts : HostParser) {special : Bool} (defaultPort : Option ℕ)
    {host rest : List Char} (hne : host ≠ [])
    (hhost : ∀ c ∈ host, isTerminator special c = false ∧ c ≠ '@' ∧ c ≠ ':')
    (hrest : ∀ c ∈ rest.head?, isTerminator special c = true) :
    authority hosts special defaultPort (host ++ rest) =
      (hosts special host).map fun host ↦ ⟨some host, none⟩ := by
  have hcore : ∀ c ∈ host, c ≠ '@' ∧ isTerminator special c = false := fun c hc ↦
    ⟨(hhost c hc).2.1, (hhost c hc).1⟩
  have hbare : authority hosts special defaultPort ([] ++ host ++ rest) =
      authority hosts special defaultPort host :=
    authority_append hosts defaultPort (by simp) (by simp) hne hcore hrest
  have htext : host.takeWhile (!isTerminator special ·) = host :=
    List.takeWhile_eq_self_iff.mpr fun c hc ↦ by simp [(hhost c hc).1]
  have hpast : host.rtakeWhile (· ≠ '@') = host :=
    List.rtakeWhile_eq_self_iff.mpr fun c hc ↦ by simp [(hhost c hc).2.1]
  have hcut := cutPort_of_notMem (fun hc ↦ (hhost ':' hc).2.2 rfl) false
  rw [List.nil_append] at hbare
  rw [hbare]
  simp only [authority, htext, hpast, hcut]
  cases host with
  | nil => exact absurd rfl hne
  | cons c host => cases hosts special (c :: host) <;> rfl

theorem dropWhile_isSlash {cs : List Char} (hne : cs ≠ [])
    (h : ∀ c ∈ cs, isTerminator true c = false) (rest : List Char) :
    ('/' :: '/' :: (cs ++ rest)).dropWhile isSlash = cs ++ rest := by
  have hslash : ∀ c, isTerminator true c = false → isSlash c = false := by
    intro c hc
    simp only [isTerminator, isPathStart, List.contains_eq_mem, List.mem_cons, List.not_mem_nil,
      or_false, Bool.true_and, Bool.or_eq_false_iff, decide_eq_false_iff_not, not_or] at hc
    simp [isSlash, hc.1.1, hc.2]
  have hhead : ∀ c ∈ (cs ++ rest).head?, isSlash c = false := by
    cases cs with
    | nil => exact absurd rfl hne
    | cons first cs => simpa using hslash first (h first List.mem_cons_self)
  have hslashes : ∀ c ∈ ['/', '/'], isSlash c = true := by simp [isSlash]
  exact Text.dropWhile_stop hslashes hhead

theorem parseRest_append (hosts : HostParser) {scheme user core rest : List Char}
    (hkind : kindOf scheme ≠ .file) (huser : ∀ c ∈ user, isPathStart c = false)
    (hspecial : kindOf scheme ≠ .other → '\\' ∉ user) (hat : ∀ c ∈ user.getLast?, c = '@')
    (hne : core ≠ []) (hcore : ∀ c ∈ core, c ≠ '@' ∧ isTerminator true c = false)
    (hrest : ∀ c ∈ rest.head?, isPathStart c = true) :
    parseRest hosts scheme ('/' :: '/' :: (user ++ core ++ rest)) =
      parseRest hosts scheme ('/' :: '/' :: core) := by
  have hend : ∀ special, ∀ c ∈ rest.head?, isTerminator special c = true := fun special c hc ↦ by
    rw [isTerminator, hrest c hc, Bool.true_or]
  cases hk : kindOf scheme with
  | file => exact absurd hk hkind
  | other =>
      have hinside : ∀ c ∈ user, isTerminator false c = false := fun c hc ↦ by
        rw [isTerminator, huser c hc, Bool.false_and, Bool.or_false]
      have hcore' : ∀ c ∈ core, c ≠ '@' ∧ isTerminator false c = false := fun c hc ↦ by
        obtain ⟨hat, hstop⟩ := hcore c hc
        refine ⟨hat, ?_⟩
        rw [isTerminator, (Bool.or_eq_false_iff.mp hstop).1, Bool.false_and, Bool.or_false]
      simp only [parseRest, hk]
      exact authority_append hosts none hinside hat hne hcore' (hend false)
  | special defaultPort =>
      have hinside : ∀ c ∈ user, isTerminator true c = false := fun c hc ↦ by
        have hback : c ≠ '\\' := fun heq ↦ hspecial (by simp [hk]) (heq ▸ hc)
        rw [isTerminator, huser c hc, Bool.false_or, Bool.true_and, decide_eq_false hback]
      have hboth : ∀ c ∈ user ++ core, isTerminator true c = false := fun c hc ↦
        (List.mem_append.mp hc).elim (hinside c) fun hc ↦ (hcore c hc).2
      have hslashes := dropWhile_isSlash (by simp [hne]) hboth rest
      have hslashes' := dropWhile_isSlash hne (fun c hc ↦ (hcore c hc).2) []
      rw [List.append_nil] at hslashes'
      simp only [parseRest, hk, hslashes, hslashes']
      exact authority_append hosts (some defaultPort) hinside hat hne hcore (hend true)

theorem isSolid_of_isPathStart {c : Char} (h : isPathStart c) : IsSolid c := by
  simp only [isPathStart, List.contains_eq_mem, List.mem_cons, List.not_mem_nil, or_false,
    decide_eq_true_eq] at h
  rcases h with rfl | rfl | rfl
  · simp [IsSolid]
  · simp [IsSolid]
  · simp [IsSolid]

theorem clean_url {scheme core : List Char} (hscheme : isScheme scheme) (user : List Char)
    (hne : core ≠ []) (hcore : ∀ c ∈ core, IsSolid c) (rest : List Char) :
    clean (scheme ++ ':' :: '/' :: '/' :: (user ++ core ++ rest)) =
      scheme ++ ':' :: '/' :: '/' :: (user.filter (!isTabOrNewline ·) ++ core ++
        (rest.rdropWhile isControlOrSpace).filter (!isTabOrNewline ·)) := by
  have hsolid : ∀ c ∈ scheme, IsSolid c := fun c hc ↦
    isSolid_of_isSchemeChar (isSchemeChar_of_isScheme hscheme hc)
  have hmarks : ∀ c ∈ [':', '/', '/'], IsSolid c := by simp [IsSolid]
  have hfront : scheme ++ [':', '/', '/'] ++ user ++ core ≠ [] := by simp
  have hfirst : ∀ c ∈ (scheme ++ [':', '/', '/'] ++ user ++ core).head?, IsSolid c := by
    intro c hc
    cases scheme with
    | nil => exact absurd hscheme Bool.false_ne_true
    | cons first scheme =>
        obtain rfl : first = c := by simpa using hc
        exact hsolid first List.mem_cons_self
  have hlast : ∀ c ∈ (scheme ++ [':', '/', '/'] ++ user ++ core).getLast?, IsSolid c := by
    intro c hc
    rw [List.getLast?_append_of_ne_nil _ hne] at hc
    exact hcore c (List.mem_of_mem_getLast? hc)
  have hclean := clean_append hfront hfirst hlast rest
  simp only [List.filter_append, filter_solid hsolid, filter_solid hmarks,
    filter_solid hcore] at hclean
  simpa using hclean

/-- Two URLs with one authority up to its credentials have the same host and
port, unless they are files. -/
theorem parse_append (hosts : HostParser) {scheme user core rest : List Char}
    (hscheme : isScheme scheme) (hkind : kindOf (scheme.map Char.toLower) ≠ .file)
    (huser : ∀ c ∈ user, isPathStart c = false)
    (hspecial : kindOf (scheme.map Char.toLower) ≠ .other → '\\' ∉ user)
    (hat : ∀ c ∈ user.getLast?, c = '@') (hne : core ≠ [])
    (hcore : ∀ c ∈ core, IsSolid c ∧ c ≠ '@' ∧ isTerminator true c = false)
    (hrest : ∀ c ∈ rest.head?, isPathStart c = true) :
    parse hosts (scheme ++ ':' :: '/' :: '/' :: (user ++ core ++ rest)) =
      parse hosts (scheme ++ ':' :: '/' :: '/' :: core) := by
  have hcolon := colon_notMem_of_isScheme hscheme
  have hclean := clean_url hscheme user hne (fun c hc ↦ (hcore c hc).1) rest
  have hbare := clean_url hscheme [] hne (fun c hc ↦ (hcore c hc).1) []
  simp only [List.filter_nil, List.rdropWhile_nil, List.nil_append, List.append_nil] at hbare
  rw [parse_of_clean hosts hclean hcolon, parse_of_clean hosts hbare hcolon, if_pos hscheme,
    if_pos hscheme]
  have hat' : ∀ c ∈ (user.filter (!isTabOrNewline ·)).getLast?, c = '@' := by
    rcases List.eq_nil_or_concat user with rfl | ⟨user, last, rfl⟩
    · simp
    · obtain rfl : last = '@' := hat last (by simp)
      intro c hc
      rw [List.concat_eq_append, List.filter_append,
        List.filter_cons_of_pos (by decide), List.filter_nil, List.getLast?_append] at hc
      simpa using hc.symm
  exact parseRest_append hosts hkind (fun c hc ↦ huser c (List.mem_filter.mp hc).1)
    (fun hother hc ↦ hspecial hother (List.mem_filter.mp hc).1) hat' hne
    (fun c hc ↦ (hcore c hc).2)
    (head_filter_rdropWhile fun c hc ↦ ⟨isSolid_of_isPathStart (hrest c hc), hrest c hc⟩)

/-- A reverse solidus ends the authority, and with it what is read as the host. -/
theorem parse_backslash {hosts : HostParser} (hstandard : hosts.Standard) {scheme : List Char}
    (hscheme : isScheme scheme) (hkind : kindOf (scheme.map Char.toLower) ≠ .other) {c : Char}
    (hc : c.isLower) {rest : List Char} (hrest : ∀ c ∈ rest, IsSolid c) :
    parse hosts (scheme ++ ':' :: '/' :: '/' :: c :: '\\' :: rest) =
      some ⟨some (String.singleton c), none⟩ := by
  have halpha : c.isAlphanum = true := by simp [Char.isAlphanum, Char.isAlpha, hc]
  have hstop := not_isTerminator_of_isAlphanum halpha true
  have hsolid := isSolid_of_isAlphanum halpha
  have hback : IsSolid '\\' := by simp [IsSolid]
  have hcore : ∀ c' ∈ c :: '\\' :: rest, IsSolid c' := by simpa [hsolid, hback] using hrest
  have hclean := clean_url hscheme [] (by simp) hcore []
  simp only [List.filter_nil, List.rdropWhile_nil, List.nil_append, List.append_nil] at hclean
  have htext : ([c] ++ '\\' :: rest).takeWhile (!isTerminator true ·) = [c] :=
    Text.takeWhile_stop (by simpa using hstop) (by simp [isTerminator])
  rw [List.singleton_append] at htext
  rw [parse_of_clean hosts hclean (colon_notMem_of_isScheme hscheme), if_pos hscheme]
  cases hk : kindOf (scheme.map Char.toLower) with
  | other => exact absurd hk hkind
  | file =>
      have hlocal : String.singleton c ≠ "localhost" := by
        intro heq
        have hlength := congrArg (List.length ∘ String.toList) heq
        simp at hlength
      simp [parseRest, hk, fileHost, htext, isSlash, isDriveLetter, hstandard.letter c hc, hlocal]
  | special defaultPort =>
      have hdrop : ('/' :: '/' :: ([c] ++ '\\' :: rest)).dropWhile isSlash =
          [c] ++ '\\' :: rest := dropWhile_isSlash (by simp) (by simpa using hstop) _
      have hhost : ∀ c' ∈ [c], isTerminator true c' = false ∧ c' ≠ '@' ∧ c' ≠ ':' := by
        simpa using ⟨hstop, ne_of_isAlphanum halpha rfl, ne_of_isAlphanum halpha rfl⟩
      have hauthority : authority hosts true (some defaultPort) ([c] ++ '\\' :: rest) = _ :=
        authority_of_host hosts (some defaultPort) (by simp) hhost (by simp [isTerminator])
      rw [List.singleton_append] at hdrop
      simpa only [parseRest, hk, hdrop, List.singleton_append, hstandard.letter c hc,
        Option.map_some] using hauthority

/-- A file with credentials is rejected. -/
theorem parse_file_eq_none {hosts : HostParser} (hstandard : hosts.Standard)
    {scheme core : List Char} (hscheme : isScheme scheme)
    (hkind : kindOf (scheme.map Char.toLower) = .file) {c : Char} (hc : c.isAlphanum)
    (hne : core ≠ []) (hcore : ∀ c ∈ core, IsSolid c) (rest : List Char) :
    parse hosts (scheme ++ ':' :: '/' :: '/' :: ([c, '@'] ++ core ++ rest)) = none := by
  have hclean := clean_url hscheme [c, '@'] hne hcore rest
  have hsolid := isSolid_of_isAlphanum hc
  have hstop := not_isTerminator_of_isAlphanum hc true
  have huser : [c, '@'].filter (!isTabOrNewline ·) = [c, '@'] := by
    refine filter_solid fun c' hc' ↦ ?_
    rcases List.mem_cons.mp hc' with rfl | hc'
    · exact hsolid
    · obtain rfl := List.mem_singleton.mp hc'
      simp [IsSolid]
  rw [huser] at hclean
  have htext : ∀ more, (c :: '@' :: more).takeWhile (!isTerminator true ·) =
      c :: '@' :: more.takeWhile (!isTerminator true ·) := by
    intro more
    have hat : isTerminator true '@' = false := by decide
    rw [List.takeWhile_cons_of_pos (by simp [hstop]), List.takeWhile_cons_of_pos (by simp [hat])]
  have hdrive : ∀ more, isDriveLetter (c :: '@' :: more) = false := by
    intro more
    cases more with
    | nil => simp [isDriveLetter]
    | cons d more => rfl
  rw [parse_of_clean hosts hclean (colon_notMem_of_isScheme hscheme), if_pos hscheme]
  simp [parseRest, hkind, fileHost, isSlash, htext, hdrive, hstandard.forbidden]

end Data.Url
