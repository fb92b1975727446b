import LinkBulker.CrawlerCore.Matching
import LinkBulker.Web.Status
import LinkBulker.Worker.CrawlErrors
import LinkBulker.Worker.LinkRepository

/-! What the table shows of a link, in terms of the page that was crawled. -/

namespace LinkBulker.Parser

open Db Shared Crawler LinkRepository Web

variable {p : Platform} {input : ParseInput}

def Stands (word : List Char) (afterWord : Bool) (cs : List Char) : Prop :=
  ∃ pre post, cs = pre ++ word ++ post ∧ (pre.getLast?.map isWordChar).getD afterWord = false ∧
    ∀ c ∈ post.head?, isWordChar c = false

theorem Stands.cons {word : List Char} {afterWord : Bool} {c : Char} {cs : List Char}
    (h : Stands word (isWordChar c) cs) : Stands word afterWord (c :: cs) := by
  obtain ⟨pre, post, rfl, hpre, hpost⟩ := h
  refine ⟨c :: pre, post, rfl, ?_, hpost⟩
  cases pre with
  | nil => exact hpre
  | cons d pre => rwa [List.getLast?_cons_cons]

theorem hasWord_iff {word : List Char} (hne : word ≠ []) (afterWord : Bool) (cs : List Char) :
    hasWord word afterWord cs ↔ Stands word afterWord cs := by
  induction cs generalizing afterWord with
  | nil =>
    constructor
    · intro h
      cases h
    · rintro ⟨pre, post, hcs, -⟩
      exact absurd (List.append_eq_nil_iff.mp (List.append_eq_nil_iff.mp hcs.symm).1).2 hne
  | cons c cs ih =>
    rw [hasWord, Bool.or_eq_true, ih]
    constructor
    · intro h
      cases h with
      | inl h =>
        simp only [Bool.and_eq_true, Bool.not_eq_true', List.isPrefixOf_iff_prefix,
          Option.any_eq_false] at h
        obtain ⟨⟨hbefore, post, hpost⟩, hafter⟩ := h
        rw [← hpost, List.drop_left] at hafter
        exact ⟨[], post, hpost.symm, hbefore, fun d hd => by simpa using hafter d hd⟩
      | inr h => exact h.cons
    · rintro ⟨pre, post, hcs, hpre, hpost⟩
      cases pre with
      | nil =>
        refine .inl ?_
        have hstart : word.isPrefixOf (c :: cs) := by
          rw [List.isPrefixOf_iff_prefix, hcs]
          exact List.prefix_append word post
        have hdrop : (c :: cs).drop word.length = post := by rw [hcs]; exact List.drop_left
        have hbefore : afterWord = false := hpre
        have hafter : (post.head?.any isWordChar) = false := by
          rw [Option.any_eq_false]
          exact fun d hd => by simpa using hpost d hd
        simp [hbefore, hstart, hdrop, hafter]
      | cons d pre =>
        rw [List.cons_append, List.cons_append, List.cons.injEq] at hcs
        obtain ⟨rfl, rfl⟩ := hcs
        refine .inr ⟨pre, post, rfl, ?_, hpost⟩
        cases pre with
        | nil => exact hpre
        | cons e pre => rwa [List.getLast?_cons_cons] at hpre

theorem isWordChar_of_space {c : Char} (hc : isWhiteSpace c) : isWordChar c = false := by
  have hspace : c.toNat ≤ 32 ∨ 160 ≤ c.toNat := by
    simp [isWhiteSpace] at hc
    omega
  have hunder : c ≠ '_' := by
    rintro rfl
    revert hspace
    decide
  have hval : c.val.toNat = c.toNat := rfl
  simp [isWordChar, Char.isAlphanum, Char.isAlpha, Char.isUpper, Char.isLower, Char.isDigit,
    hunder, UInt32.le_iff_toNat_le]
  omega

section Trimming

variable {word : List Char} (hword : ∀ c ∈ word, isWhiteSpace c = false)

include hword

theorem not_prefix_cons_space (hne : word ≠ []) {c : Char} (hc : isWhiteSpace c) (cs : List Char) :
    word.isPrefixOf (c :: cs) = false := by
  cases word with
  | nil => exact absurd rfl hne
  | cons d word =>
    have hcd : d ≠ c := by
      rintro rfl
      rw [hword d List.mem_cons_self] at hc
      cases hc
    simp [List.isPrefixOf, hcd]

theorem isPrefixOf_append_space {c : Char} (hc : isWhiteSpace c) (cs : List Char) :
    word.isPrefixOf (cs ++ [c]) = word.isPrefixOf cs := by
  rw [Bool.eq_iff_iff, List.isPrefixOf_iff_prefix, List.isPrefixOf_iff_prefix,
    List.prefix_concat_iff]
  refine ⟨fun h => h.resolve_left fun heq => ?_, .inr⟩
  rw [hword c (heq ▸ List.mem_concat_self)] at hc
  cases hc

theorem hasWord_cons_space (hne : word ≠ []) {c : Char} (hc : isWhiteSpace c) (afterWord : Bool)
    (cs : List Char) : hasWord word afterWord (c :: cs) = hasWord word false cs := by
  rw [hasWord, not_prefix_cons_space hword hne hc, isWordChar_of_space hc, Bool.and_false,
    Bool.false_and, Bool.false_or]

theorem hasWord_append_space (hne : word ≠ []) {c : Char} (hc : isWhiteSpace c) (afterWord : Bool)
    (cs : List Char) : hasWord word afterWord (cs ++ [c]) = hasWord word afterWord cs := by
  induction cs generalizing afterWord with
  | nil => exact hasWord_cons_space hword hne hc afterWord []
  | cons d cs ih =>
    rw [List.cons_append, hasWord, hasWord, ih, ← List.cons_append, isPrefixOf_append_space hword hc]
    cases hstart : word.isPrefixOf (d :: cs) with
    | false => simp
    | true =>
      have hlength : word.length ≤ (d :: cs).length :=
        (List.isPrefixOf_iff_prefix.mp hstart).length_le
      rw [List.drop_append_of_le_length hlength]
      cases (d :: cs).drop word.length with
      | nil => simp [isWordChar_of_space hc]
      | cons e rest => rfl

end Trimming

theorem hasWord_trimChars {word : List Char} (hword : ∀ c ∈ word, isWhiteSpace c = false)
    (hne : word ≠ []) (cs : List Char) :
    hasWord word false (trimChars cs) = hasWord word false cs := by
  have hfront : ∀ cs, hasWord word false (cs.dropWhile isWhiteSpace) = hasWord word false cs := by
    intro cs
    induction cs with
    | nil => rfl
    | cons c cs ih =>
      cases hc : isWhiteSpace c with
      | false => rw [List.dropWhile_cons_of_neg (by simp [hc])]
      | true => rw [List.dropWhile_cons_of_pos hc, ih, hasWord_cons_space hword hne hc]
  have hback : ∀ cs, hasWord word false (cs.rdropWhile isWhiteSpace) = hasWord word false cs := by
    intro cs
    induction cs using List.reverseRecOn with
    | nil => rfl
    | append_singleton cs c ih =>
      cases hc : isWhiteSpace c with
      | false => rw [List.rdropWhile_concat_neg _ _ _ (by simp [hc])]
      | true =>
        rw [List.rdropWhile_concat_pos _ _ _ hc, ih, hasWord_append_space hword hne hc]
  rw [trimChars, hback, hfront]

def SaysNoindex (text : String) : Prop := Stands "noindex".toList false (lowerText text).toList

theorem toList_trim (s : String) : (trim s).toList = trimChars s.toList := String.toList_ofList

theorem isUpper_lowerText {s : String} : ∀ c ∈ (lowerText s).toList, c.isUpper = false := by
  intro c hc
  rw [lowerText, String.toList_ofList] at hc
  obtain ⟨d, -, hd⟩ := List.mem_flatMap.mp hc
  unfold lowerChar at hd
  split at hd
  · obtain rfl | rfl : c = 'i' ∨ c = '\u0307' := by simpa using hd
    · rfl
    · rfl
  · split at hd
    · rw [List.mem_singleton.mp hd]
      rfl
    · rw [List.mem_singleton.mp hd]
      exact Char.isUpper_toLower_eq_false d

theorem spaceless_noindex : ∀ c ∈ "noindex".toList, isWhiteSpace c = false := by
  intro c hc
  have hname : "noindex".toList.all isNameChar := by decide
  exact (of_isNameChar (List.all_eq_true.mp hname c hc)).1

theorem not_saysNoindex_empty : ¬ SaysNoindex "" := by
  rw [SaysNoindex, ← hasWord_iff (by decide)]
  exact Bool.false_ne_true

theorem isNoindex_iff {value : Option String} :
    isNoindex value ↔ ∃ text ∈ value, Stands "noindex".toList false (toLowerCase text).toList := by
  unfold isNoindex
  split
  · exact ⟨nofun, fun ⟨_, h, _⟩ => by cases h⟩
  · refine ⟨nofun, fun ⟨text, htext, pre, post, hcs, _⟩ => ?_⟩
    cases htext
    have hempty := List.append_eq_nil_iff.mp (List.append_eq_nil_iff.mp hcs.symm).1
    exact absurd hempty.2 (by decide)
  · rename_i text hne
    rw [hasWord_iff (by decide)]
    exact ⟨fun h => ⟨text, rfl, h⟩, fun ⟨_, htext, h⟩ => by cases htext; exact h⟩

theorem isNoindex_lowerText {text : String} :
    isNoindex (some (lowerText text)) ↔ SaysNoindex text := by
  rw [isNoindex_iff]
  simp only [Option.mem_def, Option.some.injEq, exists_eq_left', SaysNoindex,
    toLowerCase_eq_self isUpper_lowerText]

theorem isNoindex_trim {text : String} :
    isNoindex (some (trim (lowerText text))) ↔ SaysNoindex text := by
  have hlower : toLowerCase (trim (lowerText text)) = trim (lowerText text) := by
    apply toLowerCase_eq_self
    intro c hc
    rw [toList_trim] at hc
    exact isUpper_lowerText c
      ((List.dropWhile_suffix _).subset ((List.rdropWhile_prefix _ _).subset hc))
  rw [isNoindex_iff]
  simp only [Option.mem_def, Option.some.injEq, exists_eq_left', hlower, SaysNoindex]
  rw [← hasWord_iff (by decide), ← hasWord_iff (by decide), toList_trim,
    hasWord_trimChars spaceless_noindex (by decide)]

section Page

def pageRun (p : Platform) (response : CrawlResponse) (acceptorHost : String) : CrawlRun :=
  .parsed response (parseDonorHtml p
    ⟨response.html, response.finalUrl, response.headers, acceptorHost⟩).toParsedDonor

def Element.LeadsTo (p : Platform) (input : ParseInput) (e : Element) : Prop :=
  ∃ u, e.url p (parseDonorHtml p input).baseUrl = some u ∧
    normalizeHost u.hostname ≠ "" ∧ normalizeHost u.hostname = input.acceptorHost

def Element.Followed (e : Element) : Prop :=
  ∀ r ∈ relTokens (e.2.getAttribute "rel"), toLowerCase r ∉ NOFOLLOW_RELS

def headAttribute (p : Platform) (input : ParseInput) (selector name : String) : Option String :=
  ((input.document p).head.bind fun head => head selector).bind fun el => el.getAttribute name

def Barred (p : Platform) (input : ParseInput) : Prop :=
  ∃ text, SaysNoindex text ∧
    (headAttribute p input "meta[name=\"robots\" i]" "content" = some text ∨
      (input.responseHeaders.lookup "x-robots-tag").or
        (input.responseHeaders.lookup "X-Robots-Tag") = some text)

def SamePage (p : Platform) (u : ParsedURL) (address : String) : Prop :=
  match p.newURL address with
  | some v => bareHost u.hostname = bareHost v.hostname ∧
      replaceSlashes u.pathname = replaceSlashes v.pathname
  | none => u.href = address

def CanonicalAgrees (p : Platform) (input : ParseInput) : Prop :=
  ∀ raw, headAttribute p input "link[rel=\"canonical\" i][href]" "href" = some raw →
    ∀ u, resolveURL p raw (parseDonorHtml p input).baseUrl = some u → SamePage p u input.finalUrl

theorem leadsTo_iff (hw : Whatwg p.parser) (hs : Serializes p) {e : Element} :
    (matchedHref p (parseDonorHtml p input).baseUrl input.acceptorHost e.1 e.2).isSome ↔
      e.LeadsTo p input := by
  cases hu : e.url p (parseDonorHtml p input).baseUrl with
  | some u =>
    rw [matchedHref_isSome_iff hw hs hu]
    exact ⟨fun h => ⟨u, hu, h⟩, fun ⟨v, hv, h⟩ => Option.some.inj (hu.symm.trans hv) ▸ h⟩
  | none =>
    refine ⟨fun h => ?_, fun ⟨v, hv, _⟩ => ?_⟩
    · rw [Element.url, Option.bind_eq_none_iff] at hu
      unfold matchedHref at h
      split at h
      · cases h
      · cases h
      · rename_i rawHref _ hraw
        rw [resolveHref, hu rawHref hraw] at h
        cases h
    · rw [hu] at hv
      cases hv

theorem rel_occurrencesFrom (baseUrl acceptorHost : String) (es : List Element) (position : ℕ) :
    (occurrencesFrom p baseUrl acceptorHost es position).map LinkOccurrence.rel =
      (es.filter fun e => (matchedHref p baseUrl acceptorHost e.1 e.2).isSome).map fun e =>
        relTokens (e.2.getAttribute "rel") := by
  induction es generalizing position with
  | nil => rfl
  | cons e es ih =>
    rw [occurrencesFrom_cons, List.filter_cons]
    cases matchedHref p baseUrl acceptorHost e.1 e.2 with
    | none => exact ih position
    | some abs =>
      rw [List.map_cons, ih]
      rfl

theorem exists_occurrence_iff (hw : Whatwg p.parser) (hs : Serializes p) (input : ParseInput)
    (P : List String → Prop) : (∃ o ∈ (parseDonorHtml p input).occurrences, P o.rel) ↔
      ∃ e ∈ elements (input.document p), e.LeadsTo p input ∧
        P (relTokens (e.2.getAttribute "rel")) := by
  have hrels : (parseDonorHtml p input).occurrences.map LinkOccurrence.rel = _ :=
    (congrArg _ (occurrences_eq p input)).trans
      (rel_occurrencesFrom (parseDonorHtml p input).baseUrl input.acceptorHost _ 0)
  have hmem : ∀ rel, (∃ o ∈ (parseDonorHtml p input).occurrences, o.rel = rel) ↔
      ∃ e ∈ elements (input.document p), e.LeadsTo p input ∧
        relTokens (e.2.getAttribute "rel") = rel := by
    intro rel
    rw [← List.mem_map, hrels, List.mem_map]
    simp only [List.mem_filter, and_assoc, leadsTo_iff hw hs]
  constructor
  · rintro ⟨o, ho, hP⟩
    obtain ⟨e, he, hlead, hrel⟩ := (hmem o.rel).mp ⟨o, ho, rfl⟩
    exact ⟨e, he, hlead, hrel ▸ hP⟩
  · rintro ⟨e, he, hlead, hP⟩
    obtain ⟨o, ho, hrel⟩ := (hmem _).mpr ⟨e, he, hlead, rfl⟩
    exact ⟨o, ho, hrel ▸ hP⟩

theorem indexable_iff : (parseDonorHtml p input).indexable ↔ ¬ Barred p input := by
  have hhead : ∀ value : Option String,
      isNoindex (value.map fun content => trim (lowerText content)) ↔
        ∃ text, SaysNoindex text ∧ value = some text := by
    intro value
    cases value with
    | none => simp [isNoindex]
    | some text =>
      rw [Option.map_some, isNoindex_trim]
      simp
  have hheader : ∀ value : Option String,
      isNoindex ((value.filter (· ≠ "")).map lowerText) ↔
        ∃ text, SaysNoindex text ∧ value = some text := by
    intro value
    cases value with
    | none => simp [isNoindex]
    | some text =>
      by_cases hempty : text = ""
      · rw [hempty, Option.filter_some_neg (by simp)]
        simp [isNoindex, not_saysNoindex_empty]
      · rw [Option.filter_some_pos (by simpa using hempty), Option.map_some, isNoindex_lowerText]
        simp
  have hindexable : (parseDonorHtml p input).indexable =
      (!isNoindex ((headAttribute p input "meta[name=\"robots\" i]" "content").map fun content =>
          trim (lowerText content)) &&
        !isNoindex ((((input.responseHeaders.lookup "x-robots-tag").or
          (input.responseHeaders.lookup "X-Robots-Tag")).filter (· ≠ "")).map lowerText)) := rfl
  rw [hindexable, Barred, Bool.and_eq_true, Bool.not_eq_true', Bool.not_eq_true',
    ← Bool.not_eq_true, ← Bool.not_eq_true, hhead, hheader, ← not_or]
  simp only [and_or_left, exists_or]

theorem toLowerCase_replaceWww (hostname : String) :
    toLowerCase (replaceWww hostname) = bareHost hostname := by
  unfold replaceWww bareHost dropWww
  split
  · rw [toLowerCase, String.toList_ofList, toList_toLowerCase, List.map_drop]
  · rw [String.ofList_toList]

theorem urlsEqualForCanonical_iff {u : ParsedURL} (hu : p.newURL u.href = some u)
    (address : String) : urlsEqualForCanonical p u.href address ↔ SamePage p u address := by
  unfold urlsEqualForCanonical SamePage
  rw [hu]
  cases p.newURL address with
  | none => exact decide_eq_true_iff
  | some v => simp [toLowerCase_replaceWww]

theorem newURL_of_resolveURL (hs : Serializes p) {href baseUrl : String} {u : ParsedURL}
    (h : resolveURL p href baseUrl = some u) : p.newURL u.href = some u := by
  unfold resolveURL at h
  split at h
  · cases h
  · dsimp only at h
    split at h
    · cases h
    · split at h
      · cases h
      · exact hs _ _ _ (Option.filter_eq_some_iff.mp h).1

theorem href_ne_empty (hw : Whatwg p.parser) {u : ParsedURL} (hu : p.newURL u.href = some u) :
    u.href ≠ "" := by
  intro hempty
  have hnone : p.parser u.href = none := hw.scheme (by rw [hempty]; decide)
  rw [Platform.parser, hu] at hnone
  cases hnone

theorem canonicalMatches_iff (hw : Whatwg p.parser) (hs : Serializes p) :
    (parseDonorHtml p input).canonicalMatches ↔ CanonicalAgrees p input := by
  have hmatches : (parseDonorHtml p input).canonicalMatches =
      (((((headAttribute p input "link[rel=\"canonical\" i][href]" "href").filter
        (· ≠ "")).bind fun raw => resolveHref p raw (parseDonorHtml p input).baseUrl).filter
          (· ≠ "")).elim true fun canonical => urlsEqualForCanonical p canonical input.finalUrl) := rfl
  rw [hmatches, CanonicalAgrees]
  cases headAttribute p input "link[rel=\"canonical\" i][href]" "href" with
  | none => simp
  | some raw =>
    by_cases hraw : raw = ""
    · subst hraw
      simp [Option.filter_some, resolveURL]
    · cases hu : resolveURL p raw (parseDonorHtml p input).baseUrl with
      | none => simp [Option.filter_some, hraw, resolveHref, hu]
      | some u =>
        have hparsed := newURL_of_resolveURL hs hu
        simp [Option.filter_some, hraw, resolveHref, hu, href_ne_empty hw hparsed,
          urlsEqualForCanonical_iff hparsed]

def Sound (p : Platform) (input : ParseInput) (statusCode : ℤ) : Prop :=
  200 ≤ statusCode ∧ statusCode < 300 ∧
    (∃ e ∈ elements (input.document p), e.LeadsTo p input) ∧ ¬ Barred p input

theorem isOk_iff {statusCode : ℤ} :
    isOk (some statusCode) ↔ 200 ≤ statusCode ∧ statusCode < 300 := by simp [isOk]

section Row

variable (response : CrawlResponse) (donor : ParsedDonor) (durationMs now : ℤ) (l : Link)

def parsedRow : LinkRow :=
  linkRow (saveResultData ((CrawlRun.parsed response donor).result durationMs) now l)

def ParsedDonor.sound (donor : ParsedDonor) (statusCode : ℤ) : Bool :=
  isOk (some statusCode) && decide (0 < donor.occurrences.length) && donor.indexable

theorem computeRowStatus_parsedRow : computeRowStatus (parsedRow response donor durationMs now l) =
    match ParsedDonor.sound donor response.statusCode, donor.canonicalMatches with
    | true, true => .GREEN
    | true, false => .YELLOW
    | false, _ => .PROBLEM := by
  simp only [computeRowStatus, parsedRow, linkRow, saveResultData, CrawlRun.result, if_true,
    ParsedDonor.sound]
  cases isOk (some response.statusCode) <;> cases decide (0 < donor.occurrences.length) <;>
    cases donor.indexable <;> cases donor.canonicalMatches <;> rfl

theorem computeFollowKind_parsedRow : computeFollowKind (parsedRow response donor durationMs now l) =
    match decide (0 < donor.occurrences.length), donor.occurrences.any isDofollow with
    | _, true => some .dofollow
    | true, false => some .nofollow
    | false, false => none := by
  have hkind : computeFollowKind (parsedRow response donor durationMs now l) =
    if donor.occurrences.length = 0 then none
    else if donor.occurrences.any isDofollow then some .dofollow else some .nofollow := rfl
  rw [hkind]
  cases donor.occurrences with
  | nil => rfl
  | cons o os => cases (o :: os).any isDofollow <;> rfl

end Row

/-- The row that the table shows after a check whose response parsed: its colour and its kind of
link are those of the page. -/
theorem verdict_of_page (p : Platform) (hw : Whatwg p.parser) (hs : Serializes p) (l : Link)
    {acceptorHost : String} (hacceptor : extractAcceptorHost p.parser l.acceptorRaw = .ok acceptorHost)
    (hdonor : donorHost p.parser l.donorUrl ≠ "") (response : CrawlResponse) (durationMs now : ℤ) :
    let page : ParseInput := ⟨response.html, response.finalUrl, response.headers, acceptorHost⟩
    let row := linkRow (saveResultData (crawlAndAnalyze p.parser l.donorUrl l.acceptorRaw
      (pageRun p response acceptorHost) durationMs) now l)
    (computeRowStatus row = .GREEN ↔
        Sound p page response.statusCode ∧ CanonicalAgrees p page) ∧
      (computeRowStatus row = .YELLOW ↔
        Sound p page response.statusCode ∧ ¬ CanonicalAgrees p page) ∧
      (computeRowStatus row = .PROBLEM ↔ ¬ Sound p page response.statusCode) ∧
      (computeFollowKind row = some .dofollow ↔
        ∃ e ∈ elements (page.document p), e.LeadsTo p page ∧ e.Followed) ∧
      (computeFollowKind row = some .nofollow ↔
        (∃ e ∈ elements (page.document p), e.LeadsTo p page) ∧
          ∀ e ∈ elements (page.document p), e.LeadsTo p page → ¬ e.Followed) := by
  intro page row
  have hrow : row = parsedRow response (parseDonorHtml p page).toParsedDonor durationMs now l := by
    rw [parsedRow, ← crawlAndAnalyze_of_valid _ _ hacceptor hdonor]
    rfl
  have hfound : decide (0 < (parseDonorHtml p page).occurrences.length) ↔
      ∃ e ∈ elements (page.document p), e.LeadsTo p page := by
    rw [decide_eq_true_iff, List.length_pos_iff_exists_mem]
    simpa using exists_occurrence_iff hw hs page fun _ => True
  have hfollow : (parseDonorHtml p page).occurrences.any isDofollow ↔
      ∃ e ∈ elements (page.document p), e.LeadsTo p page ∧ e.Followed := by
    rw [List.any_eq_true]
    simpa [isDofollow, Element.Followed] using exists_occurrence_iff hw hs page
      fun rel => ∀ r ∈ rel, toLowerCase r ∉ NOFOLLOW_RELS
  have hsound : ParsedDonor.sound (parseDonorHtml p page).toParsedDonor response.statusCode ↔
      Sound p page response.statusCode := by
    rw [ParsedDonor.sound, Bool.and_eq_true, Bool.and_eq_true, isOk_iff, hfound, indexable_iff, Sound,
      and_assoc, and_assoc]
  have hnone : (∀ e ∈ elements (page.document p), e.LeadsTo p page → ¬ e.Followed) ↔
      ¬ (parseDonorHtml p page).occurrences.any isDofollow := by
    rw [hfollow]
    simp only [not_exists, not_and]
  rw [hrow, computeRowStatus_parsedRow, computeFollowKind_parsedRow, hnone, ← hsound,
    ← canonicalMatches_iff hw hs, ← hfollow, ← hfound]
  generalize ParsedDonor.sound (parseDonorHtml p page).toParsedDonor response.statusCode = sound,
    (parseDonorHtml p page).canonicalMatches = agrees,
    decide (0 < (parseDonorHtml p page).occurrences.length) = found,
    (parseDonorHtml p page).occurrences.any isDofollow = follow
  cases sound <;> cases agrees <;> cases found <;> cases follow <;> simp

def linkingPlatform : Platform := knownPlatform exampleHosts "https://acceptor.example/page"

def linkingResponse : CrawlResponse := ⟨"https://www.acceptor.example/", [], 200, [], "<a>"⟩

def linkingLink : Link :=
  sheetsLink "task" "project" "link" ⟨"https://www.acceptor.example/", "acceptor.example",
    "acceptor.example"⟩

theorem verdict_of_page_sample :
    computeRowStatus (linkRow (saveResultData (crawlAndAnalyze linkingPlatform.parser
      linkingLink.donorUrl linkingLink.acceptorRaw
      (pageRun linkingPlatform linkingResponse "acceptor.example") 5) 7 linkingLink)) = .GREEN := by
  have hw : Whatwg linkingPlatform.parser := by
    rw [linkingPlatform, parser_knownPlatform]
    exact whatwg_knownURL knownHosts_example
  have hacceptor : extractAcceptorHost linkingPlatform.parser linkingLink.acceptorRaw =
      .ok "acceptor.example" := by decide +kernel
  have hdonor : donorHost linkingPlatform.parser linkingLink.donorUrl ≠ "" := by decide +kernel
  obtain ⟨hgreen, -⟩ := verdict_of_page linkingPlatform hw (serializes_knownPlatform _ _) linkingLink
    hacceptor hdonor linkingResponse 5 7
  refine hgreen.mpr ⟨⟨by decide, by decide, ?_, ?_⟩, ?_⟩
  · rw [linkingPlatform, elements_knownPlatform]
    exact ⟨_, List.mem_cons_self,
      ⟨⟨"https:", "acceptor.example"⟩, "/page", "https://acceptor.example/page"⟩,
      by decide +kernel, by decide +kernel, by decide +kernel⟩
  · rintro ⟨text, -, htext | htext⟩ <;> cases htext
  · intro raw hraw
    cases hraw

end Page

end LinkBulker.Parser
