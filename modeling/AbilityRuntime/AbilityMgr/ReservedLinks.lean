import AbilityRuntime.AbilityMgr.DeepLinkReserveConfig

/-! What a configuration says of a link with its parts, and when comparing the texts gives the same
answer. -/

namespace AbilityRuntime.DeepLink
open Separators List

def portText : Option Text → Text
  | none => []
  | some port => ':' :: port

def pathText : Option Text → Text
  | none => []
  | some path => '/' :: path

def queryText : Option Text → Text
  | none => []
  | some query => '?' :: query

def isName (host : Text) : Bool := host.all fun c => c ≠ '[' && c ≠ ':' && c ≠ '/'

def IsHost (host : Text) : Prop :=
  isName host = true ∨ ∃ address, host = '[' :: (address ++ [']']) ∧ ']' ∉ address

/-- A link `scheme://host[:port][/path][?query]`. -/
structure Link where
  scheme : Text
  host : Text
  port : Option Text
  path : Option Text
  query : Option Text
  scheme_plain : ':' ∉ scheme
  isHost : IsHost host
  port_plain : ∀ p ∈ port, '/' ∉ p
  no_query : paramSeparator ∉ scheme ++ host ++ portText port ++ pathText path

namespace Link
variable {link : Link}

def base (link : Link) : Text :=
  link.scheme ++ schemeSeparator ++ link.host ++ (portText link.port ++ pathText link.path)

def text (link : Link) : Text := link.base ++ queryText link.query

end Link

namespace ReserveUri

def port? (item : ReserveUri) : Option Text := if item.port = [] then none else some item.port

def hasPathRule (item : ReserveUri) : Bool :=
  item.path ≠ [] || item.pathStartWith ≠ [] || item.pathRegex ≠ []

variable (regexMatch : Text → Text → Bool)

def takesPath (item : ReserveUri) (path : Text) : Bool :=
  (item.path ≠ [] && path = item.path) ||
    (item.pathStartWith ≠ [] && item.pathStartWith.isPrefixOf path) ||
    (item.pathRegex ≠ [] && regexMatch item.pathRegex path)

/-- The rule of an item: a part it does not give is free, save that the path rules are about the
links with the same port. -/
def reserves (item : ReserveUri) (link : Link) : Bool :=
  item.scheme ≠ [] && item.scheme = link.scheme && (item.host = [] || item.host = link.host &&
    if item.hasPathRule
    then item.port? = link.port && link.path.any (item.takesPath regexMatch)
    else item.port = [] || item.port? = link.port)

structure Plain (item : ReserveUri) : Prop where
  scheme : ':' ∉ item.scheme
  isHost : IsHost item.host
  port : '/' ∉ item.port

def LiteralPrefix (item : ReserveUri) : Prop :=
  ∀ text, regexMatch (item.reservedUriString ++ pathSeparator ++ item.pathRegex) text = true ↔
    ∃ path, text = item.reservedUriString ++ pathSeparator ++ path ∧
      regexMatch item.pathRegex path = true

end ReserveUri

open ReserveUri

def configuredItem (jsonUriObject : JsonValue) : ReserveUri where
  scheme := textAt schemeName jsonUriObject
  host := textAt hostName jsonUriObject
  port := textAt portName jsonUriObject
  path := textAt pathName jsonUriObject
  pathStartWith := textAt pathStartWithName jsonUriObject
  pathRegex := textAt pathRegexName jsonUriObject
  type := textAt typeName jsonUriObject
  utd := textAt utdName jsonUriObject

def bundle? (jsonObject : JsonValue) : Option (String × List JsonValue) :=
  match jsonObject.stringAt bundleNameName, jsonObject.arrayAt urisName with
  | some bundleName, some uris => some (bundleName, uris)
  | _, _ => none

def bundles? (object : JsonValue) : Option (List (String × List JsonValue)) :=
  (object.find? deepLinkReservedUriName).bind fun list => list.items.mapM bundle?

def Reserves (regexMatch : Text → Text → Bool) (bundles : List (String × List JsonValue))
    (link : Link) (bundleName : String) : Prop :=
  ∃ uris, (bundleName, uris) ∈ bundles ∧
    ∃ uri ∈ uris, (configuredItem uri).reserves regexMatch link = true

lemma startsWith_iff {source target : Text} :
    startsWith source target = true ↔ ∃ rest, target ++ rest = source :=
  isPrefixOf_iff_prefix

/-- What an item with a host and the scheme of the link has to be like. -/
structure Comparable (uri : JsonValue) (link : Link) : Prop where
  path : ∀ path, uri.stringAt pathName = some path → path = pathName
  isHost : IsHost (textAt hostName uri)
  port : '/' ∉ textAt portName uri
  query : ∀ q ∈ link.query, paramSeparator ∉ q

structure Supported (regexMatch : Text → Text → Bool) (link : Link) (uri : JsonValue) : Prop where
  scheme : ':' ∉ textAt schemeName uri
  regex : textAt hostName uri ≠ [] → textAt pathRegexName uri ≠ [] →
    (configuredItem uri).LiteralPrefix regexMatch
  same : textAt hostName uri ≠ [] → textAt schemeName uri = link.scheme → Comparable uri link

section Texts
variable {s s' l l' t t' : Text} {p p' q q' : Option Text}

lemma breaks_portText_append (ht : Breaks (fun c => c = ':' ∨ c = '/') t) (p : Option Text) :
    Breaks (fun c => c = ':' ∨ c = '/') (portText p ++ t) := by
  cases p with
  | none => exact ht
  | some port => exact breaks_cons (.inl rfl)

lemma breaks_pathText (q : Option Text) : Breaks (fun c => c = ':' ∨ c = '/') (pathText q) := by
  cases q with
  | none => exact breaks_nil
  | some path => exact breaks_cons (.inr rfl)

lemma isName_iff : isName l = true ↔ ∀ c ∈ l, c ≠ '[' ∧ ¬ (c = ':' ∨ c = '/') := by
  rw [isName, all_eq_true]
  refine forall₂_congr fun c _ => ?_
  simp [and_assoc]

lemma head?_append_ne_bracket (hl : isName l = true)
    (ht : Breaks (fun c => c = ':' ∨ c = '/') t) : (l ++ t).head? ≠ some '[' := by
  cases l with
  | nil =>
    intro hhead
    rcases ht '[' hhead with h | h <;> exact absurd h (by decide)
  | cons c l =>
    intro hhead
    exact (isName_iff.mp hl c mem_cons_self).1 (Option.some.inj hhead)

lemma IsHost.append_inj (h : IsHost l) (h' : IsHost l')
    (ht : Breaks (fun c => c = ':' ∨ c = '/') t) (ht' : Breaks (fun c => c = ':' ∨ c = '/') t')
    (heq : l ++ t = l' ++ t') : l = l' ∧ t = t' := by
  rcases h with h | ⟨a, rfl, ha⟩ <;> rcases h' with h' | ⟨a', rfl, ha'⟩
  · exact append_inj_of_breaks (fun c hc => (isName_iff.mp h c hc).2)
      (fun c hc => (isName_iff.mp h' c hc).2) ht ht' heq
  · exact absurd (congrArg head? heq) (head?_append_ne_bracket h ht)
  · exact absurd (congrArg head? heq).symm (head?_append_ne_bracket h' ht')
  · have hcut : a ++ ']' :: t = a' ++ ']' :: t' := by simpa using heq
    obtain ⟨rfl, rfl⟩ := append_cons_inj ha ha' hcut
    exact ⟨rfl, rfl⟩

lemma portText_append_inj (hp : ∀ x ∈ p, '/' ∉ x) (hp' : ∀ x ∈ p', '/' ∉ x) :
    portText p ++ pathText q = portText p' ++ pathText q' ↔ p = p' ∧ q = q' := by
  constructor
  · intro heq
    have hslash : ∀ {o : Option Text}, (∀ x ∈ o, '/' ∉ x) → ∀ c ∈ portText o, ¬ c = '/' := by
      rintro (_ | x) ho c hc rfl
      · cases hc
      · rcases mem_cons.mp hc with h | h
        · exact absurd h (by decide)
        · exact ho x rfl h
    have hbreaks : ∀ o, Breaks (fun c => c = '/') (pathText o) := by
      rintro (_ | x)
      · exact breaks_nil
      · exact breaks_cons rfl
    obtain ⟨hport, hpath⟩ :=
      append_inj_of_breaks (hslash hp) (hslash hp') (hbreaks q) (hbreaks q') heq
    have hinj {f : Option Text → Text} {c : Char} (hnone : f none = [])
        (hsome : ∀ x, f (some x) = c :: x) : Function.Injective f := by
      rintro (_ | x) (_ | y) h <;> simp_all
    exact ⟨hinj rfl (fun _ => rfl) hport, hinj rfl (fun _ => rfl) hpath⟩
  · rintro ⟨rfl, rfl⟩
    rfl

lemma schemeHost_inj (hs : ':' ∉ s) (hs' : ':' ∉ s') (hl : IsHost l) (hl' : IsHost l')
    (ht : Breaks (fun c => c = ':' ∨ c = '/') t) (ht' : Breaks (fun c => c = ':' ∨ c = '/') t') :
    s ++ schemeSeparator ++ l ++ t = s' ++ schemeSeparator ++ l' ++ t' ↔
      s = s' ∧ l = l' ∧ t = t' := by
  constructor
  · intro heq
    have hcut : s ++ ':' :: ('/' :: '/' :: (l ++ t)) = s' ++ ':' :: ('/' :: '/' :: (l' ++ t')) := by
      simpa [schemeSeparator] using heq
    obtain ⟨hscheme, hrest⟩ := append_cons_inj hs hs' hcut
    have hafter : l ++ t = l' ++ t' := by simpa using hrest
    obtain ⟨hhost, htail⟩ := hl.append_inj hl' ht ht' hafter
    exact ⟨hscheme, hhost, htail⟩
  · rintro ⟨rfl, rfl, rfl⟩
    rfl

end Texts

namespace ReserveUri
variable {regexMatch : Text → Text → Bool} {item : ReserveUri} {link : Link}

lemma reservedUriString_eq (item : ReserveUri) : item.reservedUriString =
      item.scheme ++ schemeSeparator ++ item.host ++ portText item.port? := by
  unfold reservedUriString port?
  by_cases hport : item.port = []
  · simp [hport, portText]
  · simp [hport, portText, portSeparator]

lemma scheme_matches (h : ':' ∉ item.scheme) (link : Link) :
    (link.text = item.scheme ∨ startsWith link.text (item.scheme ++ portSeparator) = true) ↔
      item.scheme = link.scheme := by
  have htext : link.text = link.scheme ++ ':' :: ('/' :: '/' :: (link.host ++
      (portText link.port ++ pathText link.path) ++ queryText link.query)) := by
    simp [Link.text, Link.base, schemeSeparator]
  rw [startsWith_iff, htext]
  constructor
  · rintro (heq | ⟨rest, heq⟩)
    · have hcolon : ':' ∈ item.scheme := by
        rw [← heq]
        exact mem_append_right _ mem_cons_self
      exact absurd hcolon h
    · have hcolon : item.scheme ++ portSeparator ++ rest = item.scheme ++ ':' :: rest := by
        simp [portSeparator]
      rw [hcolon] at heq
      exact (append_cons_inj h link.scheme_plain heq).1
  · intro heq
    refine .inr ⟨'/' :: '/' :: (link.host ++ (portText link.port ++ pathText link.path) ++
      queryText link.query), ?_⟩
    simp [heq, portSeparator]

section
variable (h : item.Plain)
include h

lemma Plain.port?_plain : ∀ x ∈ item.port?, '/' ∉ x := by
  intro x hx
  unfold port? at hx
  split at hx
  · cases hx
  · cases hx
    exact h.port

lemma Plain.reserved_append_eq (link : Link) (path : Option Text) :
    item.reservedUriString ++ pathText path = link.base ↔
      item.scheme = link.scheme ∧ item.host = link.host ∧ item.port? = link.port ∧
        path = link.path := by
  rw [reservedUriString_eq, append_assoc, Link.base,
    schemeHost_inj h.scheme link.scheme_plain h.isHost link.isHost
      (breaks_portText_append (breaks_pathText path) _)
      (breaks_portText_append (breaks_pathText link.path) _),
    portText_append_inj h.port?_plain link.port_plain]

lemma Plain.base_eq_iff : link.base = item.reservedUriString ↔
    item.scheme = link.scheme ∧ item.host = link.host ∧ item.port? = link.port ∧
      link.path = none := by
  have hparts := h.reserved_append_eq link none
  rw [pathText, append_nil] at hparts
  rw [eq_comm, hparts, eq_comm (a := none)]

lemma Plain.base_path_iff (path : Text) :
    item.reservedUriString ++ pathSeparator ++ path = link.base ↔
      item.scheme = link.scheme ∧ item.host = link.host ∧ item.port? = link.port ∧
        link.path = some path := by
  have hparts := h.reserved_append_eq link (some path)
  rw [append_assoc, pathSeparator, singleton_append]
  rw [pathText] at hparts
  rw [hparts, eq_comm (a := some path)]

lemma Plain.base_port_iff (hport : item.port = []) :
    startsWith link.base (item.reservedUriString ++ portSeparator) = true ↔
      item.scheme = link.scheme ∧ item.host = link.host ∧ link.port ≠ none := by
  have huri : item.reservedUriString = item.scheme ++ schemeSeparator ++ item.host := by
    simp [reservedUriString, hport]
  rw [startsWith_iff, huri]
  have hparts : ∀ rest, item.scheme ++ schemeSeparator ++ item.host ++ portSeparator ++ rest =
      link.base ↔ item.scheme = link.scheme ∧ item.host = link.host ∧
        ':' :: rest = portText link.port ++ pathText link.path := by
    intro rest
    rw [append_assoc _ portSeparator]
    exact schemeHost_inj h.scheme link.scheme_plain h.isHost link.isHost (breaks_cons (.inl rfl))
      (breaks_portText_append (breaks_pathText link.path) _)
  simp only [hparts]
  constructor
  · rintro ⟨rest, hscheme, hhost, hrest⟩
    refine ⟨hscheme, hhost, fun hnone => ?_⟩
    rw [hnone] at hrest
    cases hpath : link.path <;> simp [hpath, portText, pathText] at hrest
  · rintro ⟨hscheme, hhost, hsome⟩
    obtain ⟨port, hlink⟩ := Option.ne_none_iff_exists'.mp hsome
    exact ⟨port ++ pathText link.path, hscheme, hhost, by rw [hlink]; rfl⟩

end

lemma path_rules_iff (hregex : item.pathRegex ≠ [] → item.LiteralPrefix regexMatch) (text : Text) :
    ((item.path ≠ [] ∧ text = item.reservedUriString ++ pathSeparator ++ item.path) ∨
      (item.pathStartWith ≠ [] ∧
        startsWith text (item.reservedUriString ++ pathSeparator ++ item.pathStartWith) = true) ∨
      (item.pathRegex ≠ [] ∧
        regexMatch (item.reservedUriString ++ pathSeparator ++ item.pathRegex) text = true)) ↔
    ∃ path, item.reservedUriString ++ pathSeparator ++ path = text ∧
      item.takesPath regexMatch path = true := by
  have htakes : ∀ path, item.takesPath regexMatch path = true ↔
      (item.path ≠ [] ∧ path = item.path) ∨
      (item.pathStartWith ≠ [] ∧ item.pathStartWith <+: path) ∨
      (item.pathRegex ≠ [] ∧ regexMatch item.pathRegex path = true) := by
    simp [takesPath, or_assoc]
  simp only [htakes]
  constructor
  · rintro (⟨hne, heq⟩ | ⟨hne, hstart⟩ | ⟨hne, hmatch⟩)
    · exact ⟨item.path, heq.symm, .inl ⟨hne, rfl⟩⟩
    · obtain ⟨rest, hrest⟩ := startsWith_iff.mp hstart
      rw [append_assoc] at hrest
      exact ⟨item.pathStartWith ++ rest, hrest, .inr (.inl ⟨hne, prefix_append _ _⟩)⟩
    · obtain ⟨path, heq, hpath⟩ := (hregex hne text).mp hmatch
      exact ⟨path, heq.symm, .inr (.inr ⟨hne, hpath⟩)⟩
  · rintro ⟨path, rfl, (⟨hne, rfl⟩ | ⟨hne, rest, rfl⟩ | ⟨hne, hpath⟩)⟩
    · exact .inl ⟨hne, rfl⟩
    · refine .inr (.inl ⟨hne, startsWith_iff.mpr ⟨rest, ?_⟩⟩)
      rw [append_assoc]
    · exact .inr (.inr ⟨hne, (hregex hne _).mpr ⟨path, rfl, hpath⟩⟩)

lemma hasPathRule_eq_false : item.hasPathRule = false ↔
    item.path = [] ∧ item.pathStartWith = [] ∧ item.pathRegex = [] := by
  simp [hasPathRule, and_assoc]

lemma reserves_host (hscheme : item.scheme ≠ []) (hhost : item.host ≠ []) :
    item.reserves regexMatch link = true ↔ item.scheme = link.scheme ∧ item.host = link.host ∧
      if item.hasPathRule
      then item.port? = link.port ∧
        ∃ path, link.path = some path ∧ item.takesPath regexMatch path = true
      else item.port = [] ∨ item.port? = link.port := by
  unfold reserves
  by_cases hrule : item.hasPathRule = true
  · simp [hscheme, hhost, Option.any_eq_true]
  · simp [hscheme, hhost, hrule]

end ReserveUri

lemma Link.getOptParamUri_text (link : Link) (hquery : ∀ q ∈ link.query, paramSeparator ∉ q) :
    getOptParamUri link.text = link.base := by
  have hbase : paramSeparator ∉ link.base := by
    have hparts := link.no_query
    have hseparator : paramSeparator ∉ schemeSeparator := by decide
    simp only [mem_append, not_or] at hparts
    simp only [Link.base, mem_append, not_or]
    exact ⟨⟨⟨hparts.1.1.1, hseparator⟩, hparts.1.1.2⟩, hparts.1.2, hparts.2⟩
  unfold Link.text getOptParamUri
  cases hq : link.query with
  | none =>
    rw [queryText, append_nil]
    exact cutLast_of_notMem hbase
  | some q => exact cutLast_append_cons link.base (hquery q hq)

section Comparison
variable {regexMatch : Text → Text → Bool} {item : ReserveUri} {link : Link}

lemma host_matches (h : item.Plain) (link : Link) : (link.base = item.reservedUriString ∨
      startsWith link.base (item.reservedUriString ++ pathSeparator) = true) ∨
      (item.port = [] ∧ startsWith link.base (item.reservedUriString ++ portSeparator) = true) ↔
    item.scheme = link.scheme ∧ item.host = link.host ∧
      (item.port = [] ∨ item.port? = link.port) := by
  rw [h.base_eq_iff, startsWith_iff]
  simp only [h.base_path_iff]
  constructor
  · rintro ((⟨hs, hh, hp, -⟩ | ⟨_, hs, hh, hp, -⟩) | ⟨hport, hstart⟩)
    · exact ⟨hs, hh, .inr hp⟩
    · exact ⟨hs, hh, .inr hp⟩
    · obtain ⟨hs, hh, -⟩ := (h.base_port_iff hport).mp hstart
      exact ⟨hs, hh, .inl hport⟩
  · rintro ⟨hs, hh, hport⟩
    by_cases hsame : item.port? = link.port
    · cases hpath : link.path with
      | none => exact .inl (.inl ⟨hs, hh, hsame, rfl⟩)
      | some path => exact .inl (.inr ⟨path, hs, hh, hsame, rfl⟩)
    · -- a port that the item leaves open
      have hempty : item.port = [] := hport.resolve_right hsame
      have hlink : link.port ≠ none := by
        intro hnone
        exact hsame (by simp [port?, hempty, hnone])
      exact .inr ⟨hempty, (h.base_port_iff hempty).mpr ⟨hs, hh, hlink⟩⟩

lemma isUriMatched_eq (h : item.Plain) (hhost : item.host ≠ [])
    (hregex : item.pathRegex ≠ [] → item.LiteralPrefix regexMatch)
    (hquery : ∀ q ∈ link.query, paramSeparator ∉ q) :
    isUriMatched regexMatch item link.text = item.reserves regexMatch link := by
  rw [Bool.eq_iff_iff]
  by_cases hscheme : item.scheme = []
  · simp [isUriMatched, reserves, hscheme]
  rw [reserves_host hscheme hhost]
  unfold isUriMatched
  rw [if_neg hscheme, if_neg hhost, link.getOptParamUri_text hquery]
  cases hrule : item.hasPathRule with
  | false =>
    have hhosts := host_matches h link
    rw [if_pos (hasPathRule_eq_false.mp hrule)]
    simp only [Bool.or_eq_true, Bool.and_eq_true, decide_eq_true_eq]
    exact hhosts
  | true =>
    have hsome : ¬ (item.path = [] ∧ item.pathStartWith = [] ∧ item.pathRegex = []) := by
      rw [← hasPathRule_eq_false, hrule]
      decide
    have hpaths := path_rules_iff hregex link.base
    simp only [h.base_path_iff] at hpaths
    rw [if_neg hsome]
    simp only [Bool.or_eq_true, Bool.and_eq_true, decide_eq_true_eq, or_assoc]
    rw [hpaths]
    constructor
    · rintro ⟨path, ⟨hs, hh, hp, hpath⟩, htakes⟩
      exact ⟨hs, hh, hp, path, hpath, htakes⟩
    · rintro ⟨hs, hh, hp, path, hpath, htakes⟩
      exact ⟨path, ⟨hs, hh, hp, hpath⟩, htakes⟩

lemma isUriMatched_of_scheme_ne (h : ':' ∉ item.scheme) (hne : item.scheme ≠ link.scheme)
    (hhost : item.host ≠ []) (hregex : item.pathRegex ≠ [] → item.LiteralPrefix regexMatch) :
    isUriMatched regexMatch item link.text = false := by
  -- every comparison asks for a text that begins with the scheme of the item
  have hno (rest : Text) : item.reservedUriString ++ rest ≠ getOptParamUri link.text := by
    intro heq
    obtain ⟨cut, hcut⟩ := exists_cutLast_append paramSeparator link.text
    refine hne ((scheme_matches h link).mp (.inr (startsWith_iff.mpr ?_)))
    rw [← hcut, ← getOptParamUri, ← heq, reservedUriString_eq]
    exact ⟨'/' :: '/' :: (item.host ++ portText item.port? ++ rest ++ cut), by
      simp [schemeSeparator, portSeparator]⟩
  have hstarts (t : Text) :
      startsWith (getOptParamUri link.text) (item.reservedUriString ++ t) = false := by
    refine Bool.eq_false_iff.mpr fun hstart => ?_
    obtain ⟨rest, hrest⟩ := startsWith_iff.mp hstart
    exact hno _ ((append_assoc ..).symm.trans hrest)
  have hequal (t : Text) : getOptParamUri link.text ≠ item.reservedUriString ++ t :=
    fun heq => hno t heq.symm
  have hself : getOptParamUri link.text ≠ item.reservedUriString := by
    simpa using hequal []
  have hmatch : item.pathRegex ≠ [] → regexMatch (item.reservedUriString ++
      (pathSeparator ++ item.pathRegex)) (getOptParamUri link.text) = false := by
    refine fun hsome => Bool.eq_false_iff.mpr fun hmatch => ?_
    rw [← append_assoc] at hmatch
    obtain ⟨path, heq, -⟩ := (hregex hsome _).mp hmatch
    exact hequal _ (heq.trans (append_assoc ..))
  unfold isUriMatched
  by_cases hsome : item.pathRegex = []
  · simp [hhost, hstarts, hequal, hself, hsome]
  · simp [hhost, hstarts, hequal, hmatch hsome, hsome]

def loadedItem (jsonUriObject : JsonValue) : ReserveUri :=
  { configuredItem jsonUriObject with
    path := if (jsonUriObject.stringAt pathName).isSome then pathName.toList else [] }

lemma isUriMatched_loadedItem {uri : JsonValue} (h : Supported regexMatch link uri) :
    isUriMatched regexMatch (loadedItem uri) link.text =
      (configuredItem uri).reserves regexMatch link := by
  by_cases hhost : textAt hostName uri = []
  · have hscheme := @scheme_matches (configuredItem uri) h.scheme link
    by_cases hempty : textAt schemeName uri = []
    · simp [isUriMatched, reserves, loadedItem, configuredItem, hempty]
    · rw [Bool.eq_iff_iff]
      simpa [isUriMatched, reserves, loadedItem, configuredItem, hhost, hempty] using hscheme
  by_cases hsame : textAt schemeName uri = link.scheme
  · obtain ⟨hpath, hisHost, hport, hquery⟩ := h.same hhost hsame
    have hcopied : loadedItem uri = configuredItem uri := by
      unfold loadedItem configuredItem
      cases hgiven : uri.stringAt pathName with
      | none => simp [textAt, hgiven]
      | some path => simp [textAt, hgiven, hpath path hgiven]
    rw [hcopied]
    exact isUriMatched_eq ⟨h.scheme, hisHost, hport⟩ hhost (h.regex hhost) hquery
  · have hnone : isUriMatched regexMatch (loadedItem uri) link.text = false :=
      isUriMatched_of_scheme_ne h.scheme hsame hhost (h.regex hhost)
    rw [hnone]
    simp [reserves, configuredItem, hsame]

end Comparison

namespace DeepLinkReserveConfig
variable {regexMatch : Text → Text → Bool} {config : DeepLinkReserveConfig} {uris : List JsonValue}

lemma loadReservedUris_eq : loadReservedUris uris = uris.map loadedItem := by
  unfold loadReservedUris loadReservedUrilItem
  rw [foldl_append_eq_append, nil_append, ← flatMap_def, ← map_eq_flatMap]
  rfl

lemma loadBundles_cons {entry : JsonValue} {name : String}
    (hentry : bundle? entry = some (name, uris)) (rest : List JsonValue) :
    config.loadBundles (entry :: rest) =
      (config.insert name (loadReservedUris uris)).loadBundles rest := by
  unfold bundle? at hentry
  rw [loadBundles]
  split at hentry
  · cases hentry
    simp_all
  · cases hentry

variable {bundles : List (String × List JsonValue)}

lemma loadBundles_spec {entries : List JsonValue}
    (hentries : entries.mapM bundle? = some bundles) (hnames : (bundles.map Prod.fst).Nodup)
    (hnew : ∀ b ∈ bundles, config.deepLinkReserveUris.find? b.1 = none) :
    (config.loadBundles entries).1 = true ∧ ∀ name items,
      (config.loadBundles entries).2.deepLinkReserveUris.find? name = some items ↔
        config.deepLinkReserveUris.find? name = some items ∨
          ∃ uris, (name, uris) ∈ bundles ∧ loadReservedUris uris = items := by
  induction entries generalizing config bundles with
  | nil =>
    cases hentries
    simp [loadBundles]
  | cons entry entries ih =>
    rw [mapM_cons] at hentries
    obtain ⟨⟨name, uris⟩, hentry, htail⟩ := Option.bind_eq_some_iff.mp hentries
    obtain ⟨rest, hrest, heq⟩ := Option.bind_eq_some_iff.mp htail
    cases heq
    obtain ⟨hfresh, hnodup⟩ := nodup_cons.mp hnames
    have hnone := hnew (name, uris) mem_cons_self
    have hput : ∀ k, (config.insert name (loadReservedUris uris)).deepLinkReserveUris.find? k =
        if name = k then some (loadReservedUris uris) else config.deepLinkReserveUris.find? k := by
      intro k
      rw [DeepLinkReserveConfig.insert, SortedMap.find?_emplace, hnone, Option.getD_none]
    have hnext : ∀ b ∈ rest,
        (config.insert name (loadReservedUris uris)).deepLinkReserveUris.find? b.1 = none := by
      intro b hb
      have hne : name ≠ b.1 := fun heq => hfresh (mem_map.mpr ⟨b, hb, heq.symm⟩)
      rw [hput, if_neg hne]
      exact hnew b (mem_cons_of_mem _ hb)
    obtain ⟨hloaded, hfind⟩ := ih hrest hnodup hnext
    rw [loadBundles_cons hentry]
    refine ⟨hloaded, fun k items => ?_⟩
    rw [hfind, hput]
    by_cases hk : name = k
    · subst hk
      simp [hnone]
    · simp [hk, Ne.symm hk]

lemma loadReservedUriList_spec {object : JsonValue} (hbundles : bundles? object = some bundles)
    (hnames : (bundles.map Prod.fst).Nodup) :
    (loadReservedUriList {} object).1 = true ∧ ∀ name items,
      (loadReservedUriList {} object).2.deepLinkReserveUris.find? name = some items ↔
        ∃ uris, (name, uris) ∈ bundles ∧ uris.map loadedItem = items := by
  obtain ⟨list, hlist, hentries⟩ := Option.bind_eq_some_iff.mp hbundles
  have hload : loadReservedUriList {} object = loadBundles {} list.items := by
    rw [loadReservedUriList, hlist]
  obtain ⟨hloaded, hfind⟩ := @loadBundles_spec {} _ _ hentries hnames fun _ _ => rfl
  rw [hload]
  refine ⟨hloaded, fun name items => ?_⟩
  rw [hfind]
  simp only [loadReservedUris_eq]
  exact or_iff_right nofun

section Configured
variable {object : JsonValue} {bundles : List (String × List JsonValue)} {link : Link}
  (hbundles : bundles? object = some bundles) (hnames : (bundles.map Prod.fst).Nodup)
  (hitems : ∀ b ∈ bundles, ∀ uri ∈ b.2, Supported regexMatch link uri)
include hbundles hnames hitems

lemma exists_matched_iff (name : String) :
    (∃ items, (name, items) ∈ (loadReservedUriList {} object).2.deepLinkReserveUris.entries ∧
      (items.any fun item => isUriMatched regexMatch item link.text) = true) ↔
    Reserves regexMatch bundles link name := by
  obtain ⟨-, hfind⟩ := loadReservedUriList_spec hbundles hnames
  simp only [SortedMap.mem_entries, hfind]
  have hany : ∀ uris, (name, uris) ∈ bundles →
      ((uris.map loadedItem).any (fun item => isUriMatched regexMatch item link.text) = true ↔
        ∃ uri ∈ uris, (configuredItem uri).reserves regexMatch link = true) := by
    intro uris hmem
    rw [any_map, any_eq_true]
    refine exists_congr fun uri => and_congr_right fun huri => ?_
    rw [Function.comp_apply, isUriMatched_loadedItem (hitems _ hmem uri huri)]
  constructor
  · rintro ⟨items, ⟨uris, hmem, rfl⟩, hmatched⟩
    exact ⟨uris, hmem, (hany uris hmem).mp hmatched⟩
  · rintro ⟨uris, hmem, hreserved⟩
    exact ⟨_, ⟨uris, hmem, rfl⟩, (hany uris hmem).mpr hreserved⟩

lemma isLinkReserved_eq_some (name : String) :
    isLinkReserved regexMatch (loadReservedUriList {} object).2 link.text = some name ↔
      Reserves regexMatch bundles link name ∧
        ∀ other, Reserves regexMatch bundles link other → name ≤ other := by
  have hmatched := exists_matched_iff hbundles hnames hitems
  have hsorted := (loadReservedUriList {} object).2.deepLinkReserveUris.sorted
  unfold isLinkReserved
  rw [Option.map_eq_some_iff]
  simp only [KeyList.findFirst_eq_some hsorted, ← hmatched]
  constructor
  · rintro ⟨⟨_, items⟩, ⟨hmem, htest, hfirst⟩, rfl⟩
    refine ⟨⟨items, hmem, htest⟩, ?_⟩
    rintro other ⟨others, hother, htest'⟩
    exact hfirst (other, others) hother htest'
  · rintro ⟨⟨items, hmem, htest⟩, hfirst⟩
    refine ⟨(name, items), ⟨hmem, htest, ?_⟩, rfl⟩
    rintro ⟨other, others⟩ hother htest'
    exact hfirst other ⟨others, hother, htest'⟩

end Configured

def literalMatch (expression text : Text) : Bool := expression = text

lemma literalPrefix_literalMatch (item : ReserveUri) : item.LiteralPrefix literalMatch := by
  intro text
  simp only [literalMatch, decide_eq_true_eq]
  constructor
  · rintro rfl
    exact ⟨item.pathRegex, rfl, rfl⟩
  · rintro ⟨path, rfl, rfl⟩
    rfl

def shopItem (fields : List (String × JsonValue)) : JsonValue :=
  .object ([("scheme", .string "https"), ("host", .string "shop.com")] ++ fields)

def mailItem : JsonValue := .object [("scheme", .string "mailto")]

def shopConfig (items : List JsonValue) : JsonValue :=
  .object [("deepLinkReservedUri", .array [
    .object [("bundleName", .string "com.shop"), ("uris", .array items)],
    .object [("bundleName", .string "com.mail"), ("uris", .array [mailItem])]])]

def shopBundles (items : List JsonValue) : List (String × List JsonValue) :=
  [("com.shop", items), ("com.mail", [mailItem])]

def shopLink (path query : Option Text)
    (no_query : paramSeparator ∉ "https".toList ++ "shop.com".toList ++ portText none ++
      pathText path) : Link where
  scheme := "https".toList
  host := "shop.com".toList
  port := none
  path := path
  query := query
  scheme_plain := by decide
  isHost := .inl (by decide)
  port_plain := nofun
  no_query := no_query

def cartLink (query : Option Text) : Link := shopLink (some "cart".toList) query (by decide)

def fromMail : Option Text := some "from=mail".toList

def nestedLink : Link := shopLink none (some "next=a?b".toList) (by decide)

def cartItem : JsonValue := shopItem [("path", .string "cart")]

def prefixItem : JsonValue := shopItem [("pathStartWith", .string "cart")]

def regexItem : JsonValue := shopItem [("pathRegex", .string "pay")]

def prefixConfig : DeepLinkReserveConfig :=
  (loadReservedUriList {} (shopConfig [prefixItem, regexItem])).2

end DeepLinkReserveConfig

end AbilityRuntime.DeepLink
