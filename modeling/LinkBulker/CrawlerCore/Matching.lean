import LinkBulker.CrawlerCore.Parser

/-! Which elements of a document `parseDonorHtml` reports. -/

namespace LinkBulker.Parser

open Db Shared Crawler

abbrev Element := LinkTagSelector × Node

/-- In the order of the two loops. -/
def elements (document : Document) : List Element :=
  LINK_TAG_SELECTORS.flatMap fun tag =>
    (document.querySelectorAll tag.selector).map fun node => (tag, node)

def Element.url (p : Platform) (baseUrl : String) (e : Element) : Option ParsedURL :=
  (e.2.getAttribute e.1.attr).bind fun rawHref => resolveURL p rawHref baseUrl

def ParseInput.document (p : Platform) (input : ParseInput) : Document :=
  p.parseHTML (if input.html = "" then "<html></html>" else input.html)

def reportedHref (p : Platform) (input : ParseInput) (e : Element) : Option String :=
  matchedHref p (parseDonorHtml p input).baseUrl input.acceptorHost e.1 e.2

/-- A URL is parsed back from its text. -/
def Serializes (p : Platform) : Prop :=
  ∀ s base u, p.newURLFrom s base = some u → p.newURL u.href = some u

section Laws

variable {p : Platform} {baseUrl acceptorHost : String} {tag : LinkTagSelector} {node : Node}
  {e : Element} {u : ParsedURL}

def occurrencesFrom (p : Platform) (baseUrl acceptorHost : String) (es : List Element)
    (position : ℕ) : List LinkOccurrence :=
  ((es.filterMap fun e => (matchedHref p baseUrl acceptorHost e.1 e.2).map fun abs =>
    (e, abs)).zipIdx position).map fun x => occurrence x.1.1.1 x.1.1.2 x.1.2 x.2

theorem occurrencesFrom_cons (es : List Element) (position : ℕ) :
    occurrencesFrom p baseUrl acceptorHost (e :: es) position =
      match matchedHref p baseUrl acceptorHost e.1 e.2 with
      | none => occurrencesFrom p baseUrl acceptorHost es position
      | some abs => occurrence e.1 e.2 abs position ::
          occurrencesFrom p baseUrl acceptorHost es (position + 1) := by
  unfold occurrencesFrom
  rw [List.filterMap_cons]
  cases matchedHref p baseUrl acceptorHost e.1 e.2 with
  | none => rfl
  | some abs => rfl

theorem occurrencesFrom_append (es es' : List Element) (position : ℕ) :
    occurrencesFrom p baseUrl acceptorHost (es ++ es') position =
      occurrencesFrom p baseUrl acceptorHost es position ++
        occurrencesFrom p baseUrl acceptorHost es'
          (position + (occurrencesFrom p baseUrl acceptorHost es position).length) := by
  simp [occurrencesFrom, List.zipIdx_append]

theorem scanNodes_eq (nodes : List Node) (occurrences : List LinkOccurrence) (position : ℕ) :
    scanNodes p baseUrl acceptorHost tag (occurrences, position) nodes =
      (occurrences ++ occurrencesFrom p baseUrl acceptorHost (nodes.map fun node => (tag, node))
          position,
        position + (occurrencesFrom p baseUrl acceptorHost (nodes.map fun node => (tag, node))
          position).length) := by
  induction nodes generalizing occurrences position with
  | nil => simp [scanNodes, occurrencesFrom]
  | cons node nodes ih =>
    rw [scanNodes, List.foldl_cons, ← scanNodes, List.map_cons, occurrencesFrom_cons]
    cases matchedHref p baseUrl acceptorHost tag node with
    | none => exact ih occurrences position
    | some abs =>
      simp only [ih, List.append_assoc, List.singleton_append, List.length_cons]
      rw [Nat.add_assoc, Nat.add_comm 1]

theorem scan_eq (document : Document) (tags : List LinkTagSelector)
    (occurrences : List LinkOccurrence) (position : ℕ) :
    tags.foldl (fun scan tag => scanNodes p baseUrl acceptorHost tag scan
        (document.querySelectorAll tag.selector)) (occurrences, position) =
      (occurrences ++ occurrencesFrom p baseUrl acceptorHost (tags.flatMap fun tag =>
          (document.querySelectorAll tag.selector).map fun node => (tag, node)) position,
        position + (occurrencesFrom p baseUrl acceptorHost (tags.flatMap fun tag =>
          (document.querySelectorAll tag.selector).map fun node => (tag, node)) position).length) := by
  induction tags generalizing occurrences position with
  | nil => simp [occurrencesFrom]
  | cons tag tags ih =>
    rw [List.foldl_cons, scanNodes_eq, ih, List.flatMap_cons, occurrencesFrom_append]
    simp only [List.append_assoc, List.length_append, Nat.add_assoc]

theorem occurrences_eq (p : Platform) (input : ParseInput) :
    (parseDonorHtml p input).occurrences =
      occurrencesFrom p (parseDonorHtml p input).baseUrl input.acceptorHost
        (elements (input.document p)) 0 := by
  exact congrArg Prod.fst (scan_eq (input.document p) LINK_TAG_SELECTORS [] 0)

theorem parser_of_resolveURL (hs : Serializes p) {href : String}
    (h : resolveURL p href baseUrl = some u) : p.parser u.href = some u.toURL := by
  unfold resolveURL at h
  split at h
  · cases h
  · dsimp only at h
    split at h
    · cases h
    · split at h
      · cases h
      · rw [Platform.parser, hs _ _ _ (Option.filter_eq_some_iff.mp h).1, Option.map_some]

theorem matchedHref_isSome_iff (hw : Whatwg p.parser) (hs : Serializes p)
    (hu : e.url p baseUrl = some u) : (matchedHref p baseUrl acceptorHost e.1 e.2).isSome ↔
      normalizeHost u.hostname ≠ "" ∧ normalizeHost u.hostname = acceptorHost := by
  obtain ⟨rawHref, hraw, hresolve⟩ := Option.bind_eq_some_iff.mp hu
  have hparser := parser_of_resolveURL hs hresolve
  have hraw' : rawHref ≠ "" := by
    rintro rfl
    cases hresolve
  have hhref : u.href ≠ "" := by
    intro hempty
    rw [hempty, hw.scheme (by decide)] at hparser
    cases hparser
  have habs : resolveHref p rawHref baseUrl = some u.href := by
    rw [resolveHref, hresolve, Option.map_some]
  have hhost : safeHost p.parser u.href = some (normalizeHost u.hostname) := by
    rw [safeHost, hparser, Option.map_some]
  simp only [matchedHref, hraw, habs, hhost]
  by_cases hne : normalizeHost u.hostname = ""
  · simp [hne]
  · by_cases heq : normalizeHost u.hostname = acceptorHost
    · simp [heq, heq ▸ hne]
    · simp [hne, heq]

/-- What is reported are the elements that `reportedHref` picks, each once and in order.  Of an
element with an http(s) URL that is decided by the equality of the two bare hosts exactly when the
hosts are tellable. -/
theorem parseDonorHtml_matches_iff (p : Platform) (hw : Whatwg p.parser) (hs : Serializes p)
    (input : ParseInput) {acceptor : String}
    (hok : normalizeAcceptor p.parser acceptor = .ok input.acceptorHost) :
    (parseDonorHtml p input).occurrences =
        (((elements (input.document p)).filterMap fun e =>
          (reportedHref p input e).map fun abs => (e, abs)).zipIdx).map
            (fun x => occurrence x.1.1.1 x.1.1.2 x.1.2 x.2) ∧
      ∃ a, acceptorURL p.parser acceptor = some a ∧
        ∀ e ∈ elements (input.document p), ∀ u,
          e.url p (parseDonorHtml p input).baseUrl = some u →
            (((reportedHref p input e).isSome ↔ bareHost u.hostname = bareHost a.hostname) ↔
              Tellable u.hostname a.hostname) := by
  obtain ⟨a, ha, -, ⟨s, hparsed⟩, hhost⟩ := extractAcceptorHost_eq_ok hok
  refine ⟨occurrences_eq p input, a, ha, fun e _ u hu => ?_⟩
  obtain ⟨rawHref, -, hresolve⟩ := Option.bind_eq_some_iff.mp hu
  rw [reportedHref, matchedHref_isSome_iff hw hs hu, hhost]
  exact normalizeHost_test_iff (hw.form (parser_of_resolveURL hs hresolve)) (hw.form hparsed)

def linkNode (href : String) : Node where
  getAttribute name := if name = "href" then some href else none

def knownPlatform (hosts : List String) (href : String) : Platform where
  newURL s := (knownURL hosts s).map fun u =>
    ⟨u, String.ofList ((s.toList.drop 8).dropWhile (· ≠ '/')), s⟩
  newURLFrom s _ := (knownURL hosts s).map fun u =>
    ⟨u, String.ofList ((s.toList.drop 8).dropWhile (· ≠ '/')), s⟩
  parseHTML _ := ⟨none, fun selector => if selector = "a[href]" then [linkNode href] else []⟩

theorem parser_knownPlatform (hosts : List String) (href : String) :
    (knownPlatform hosts href).parser = knownURL hosts := by
  funext s
  simp only [Platform.parser, knownPlatform, Option.map_map]
  exact Option.map_id' ..

theorem serializes_knownPlatform (hosts : List String) (href : String) :
    Serializes (knownPlatform hosts href) := by
  intro s base u h
  obtain ⟨v, hv, rfl⟩ := Option.map_eq_some_iff.mp h
  exact h

theorem elements_knownPlatform (hosts : List String) (href : String) (input : ParseInput) :
    elements (input.document (knownPlatform hosts href)) =
      [(⟨"a[href]", "a", "href"⟩, linkNode href)] := by
  simp [elements, LINK_TAG_SELECTORS, ParseInput.document, knownPlatform]

def exampleInput (acceptorHost : String) : ParseInput where
  html := "<a>"
  finalUrl := "https://donor.example/"
  responseHeaders := []
  acceptorHost := acceptorHost

theorem parseDonorHtml_matches_sample :
    (reportedHref (knownPlatform exampleHosts "https://www.acceptor.example/page")
      (exampleInput "acceptor.example")
        (⟨"a[href]", "a", "href"⟩, linkNode "https://www.acceptor.example/page")).isSome := by
  have hw : Whatwg (knownPlatform exampleHosts "https://www.acceptor.example/page").parser := by
    rw [parser_knownPlatform]
    exact whatwg_knownURL knownHosts_example
  have hok : normalizeAcceptor (knownPlatform exampleHosts "https://www.acceptor.example/page").parser
      "acceptor.example" = .ok (exampleInput "acceptor.example").acceptorHost := by decide +kernel
  have hs := serializes_knownPlatform exampleHosts "https://www.acceptor.example/page"
  obtain ⟨-, a, ha, hmatches⟩ := parseDonorHtml_matches_iff _ hw hs _ hok
  have ha' : acceptorURL (knownPlatform exampleHosts "https://www.acceptor.example/page").parser
      "acceptor.example" = some ⟨"https:", "acceptor.example"⟩ := by decide +kernel
  obtain rfl := Option.some.inj (ha'.symm.trans ha)
  have htell : Tellable "www.acceptor.example" "acceptor.example" :=
    ⟨by decide +kernel, fun hcolon => absurd hcolon (by decide)⟩
  exact ((hmatches _ (by rw [elements_knownPlatform]; exact List.mem_cons_self)
    ⟨⟨"https:", "www.acceptor.example"⟩, "/page", "https://www.acceptor.example/page"⟩
    (by decide +kernel)).mpr htell).mpr (by decide +kernel)

/-- A link to one address is taken for a link to another one. -/
theorem address_matches_another : ∃ p : Platform, Whatwg p.parser ∧ Serializes p ∧
    normalizeAcceptor p.parser "https://[2001:db8::1]/" = .ok "[2001" ∧
      (parseDonorHtml p (exampleInput "[2001")).occurrences.map LinkOccurrence.href =
        ["https://[2001:db8::2]/"] ∧ bareHost "[2001:db8::2]" ≠ bareHost "[2001:db8::1]" := by
  refine ⟨knownPlatform addressHosts "https://[2001:db8::2]/", ?_,
    serializes_knownPlatform addressHosts _, by decide +kernel, by decide +kernel,
    by decide +kernel⟩
  rw [parser_knownPlatform]
  exact whatwg_knownURL knownHosts_address

end Laws

end LinkBulker.Parser
