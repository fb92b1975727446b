import LinkBulker.Worker.Crawler

/-! `packages/crawler-core/src/providers/firecrawl.ts`.  What the SDK answers, or the message it
throws, is a parameter of each of the two attempts. -/

namespace LinkBulker.Firecrawl

open Shared Crawler

def BOT_TRAP_HTML_BYTES : ℕ := 30000

/-- `/word/i.test(s)`, for a word of lower-case ASCII characters. -/
def includesWord (s word : String) : Bool :=
  (toLowerCase s).toList.tails.any word.toList.isPrefixOf

/-- A match of `/<a\s+[^>]*href/i`, the one anchor that `BOT_TRAP_MIN_ANCHORS` asks for. -/
def hasAnchor (html : String) : Bool :=
  (toLowerCase html).toList.tails.any fun
    | '<' :: 'a' :: c :: cs =>
      isWhiteSpace c && (cs.takeWhile (· ≠ '>')).tails.any "href".toList.isPrefixOf
    | _ => false

def isBotTrap (html : String) : Bool :=
  html = "" || (utf16Length html < BOT_TRAP_HTML_BYTES && !hasAnchor html)

def classifyAntibotError (msg : String) : Option String :=
  if includesWord msg "document_antibot" then some "Site blocks crawlers (anti-bot protection)"
  else if ["cloudflare", "datadome", "akamai", "imperva", "perimeterx"].any (includesWord msg) then
    some "Site behind anti-bot CDN"
  else if ["timeout", "timed out"].any (includesWord msg) then some "Site did not respond in time"
  else none

/-- `result.data ?? result`, with the fields of its `metadata`. -/
structure Document where
  rawHtml : Option String := none
  html : Option String := none
  sourceURL : Option String := none
  url : Option String := none
  statusCode : Option ℤ := none
  headers : List (String × String) := []
  redirectChain : Option (List String) := none
  deriving DecidableEq

def Document.text (data : Document) : String := (data.rawHtml.or data.html).getD ""

structure ScrapeResult where
  success : Option Bool := none
  error : Option String := none
  data : Document
  deriving DecidableEq

inductive Attempt
  | threw (message : String)
  | answered (result : Option ScrapeResult)
  deriving DecidableEq

inductive Failure
  | known (reason : String)
  | failed (message : String)
  | unsuccessful (error : Option String)
  deriving DecidableEq

def Failure.message (url : String) : Failure → String
  | .known reason => reason
  | .failed message => "Firecrawl scrape failed for " ++ url ++ ": " ++ message
  | .unsuccessful error =>
    "Firecrawl scrape unsuccessful for " ++ url ++ ": " ++ error.getD "unknown error"

def accepted : Option ScrapeResult → Except Failure ScrapeResult
  | none => .error (.unsuccessful none)
  | some result =>
    if result.success = some false then .error (.unsuccessful result.error) else .ok result

def ScrapeResult.improved (result : ScrapeResult) : Option ScrapeResult → ScrapeResult
  | none => result
  | some stealthResult =>
    let html0 := result.data.text
    let html1 := stealthResult.data.text
    if stealthResult.success ≠ some false ∧
        (utf16Length html1 > utf16Length html0 ∨ isBotTrap html1 = false) then stealthResult
    else result

def fetch (basic stealth : Attempt) : Except Failure ScrapeResult :=
  match basic with
  | .threw message =>
    match stealth with
    | .threw stealthMessage =>
      match (classifyAntibotError stealthMessage).or (classifyAntibotError message) with
      | some reason => .error (.known reason)
      | none => .error (.failed stealthMessage)
    | .answered result => accepted result
  | .answered result =>
    match accepted result with
    | .error failure => .error failure
    | .ok result =>
      if isBotTrap result.data.text then
        match stealth with
        | .threw stealthMessage => .error (.known ((classifyAntibotError stealthMessage).getD
            "Site blocks crawlers (anti-bot protection)"))
        | .answered stealthResult =>
          let result := result.improved stealthResult
          if isBotTrap result.data.text then
            .error (.known "Site returned a bot-trap page (no anchors in tiny HTML response)")
          else .ok result
      else .ok result

/-- `headers[k] = v` on an object. -/
def setHeader (headers : List (String × String)) (k v : String) : List (String × String) :=
  if headers.any fun h => h.1 = k then headers.map fun h => if h.1 = k then (k, v) else h
  else headers ++ [(k, v)]

def response (url : String) (data : Document) : CrawlResponse :=
  let finalUrl := (data.sourceURL.or data.url).getD url
  { finalUrl
    redirectChain := data.redirectChain.getD (if url = finalUrl then [url] else [url, finalUrl])
    statusCode := data.statusCode.getD 200
    headers := data.headers.foldl (fun hs h => setHeader hs (toLowerCase h.1) h.2) []
    html := data.text }

def scrape (url : String) (basic stealth : Attempt) : Except String CrawlResponse :=
  match fetch basic stealth with
  | .error failure => .error (failure.message url)
  | .ok result => .ok (response url result.data)

theorem fetch_ok {result : Option ScrapeResult} {stealth : Attempt} {r : ScrapeResult}
    (h : fetch (.answered result) stealth = .ok r) : isBotTrap r.data.text = false := by
  simp only [fetch] at h
  split at h
  · cases h
  · split at h
    · split at h
      · cases h
      · split at h
        · cases h
        · rename_i htrap
          cases h
          exact Bool.eq_false_iff.mpr htrap
    · rename_i htrap
      cases h
      exact Bool.eq_false_iff.mpr htrap

theorem accepted_eq_ok {result : Option ScrapeResult} {r : ScrapeResult} :
    accepted result = .ok r ↔ result = some r ∧ r.success ≠ some false := by
  cases result with
  | none => simp [accepted]
  | some result =>
    simp only [accepted, Option.some.injEq]
    split
    · rename_i hfailed
      simp only [reduceCtorEq, false_iff, not_and, not_not]
      rintro rfl
      exact hfailed
    · rename_i hfine
      simp only [Except.ok.injEq]
      exact ⟨fun h => ⟨h, h ▸ hfine⟩, And.left⟩

theorem scrape_eq_ok {url : String} {basic stealth : Attempt} {page : CrawlResponse} :
    scrape url basic stealth = .ok page ↔
      ∃ r, fetch basic stealth = .ok r ∧ page = response url r.data := by
  unfold scrape
  cases fetch basic stealth with
  | error failure => simp
  | ok r => simp [eq_comm]

/-- A page is what its html says it is, except where the basic attempt threw and nobody looks at what
the stealth attempt answers. -/
theorem scrape_no_bot_trap_iff (url : String) (basic stealth : Attempt) :
    (∀ page, scrape url basic stealth = .ok page → isBotTrap page.html = false) ↔
      ¬ ∃ message r, basic = .threw message ∧ stealth = .answered (some r) ∧
        r.success ≠ some false ∧ isBotTrap r.data.text := by
  constructor
  · rintro hall ⟨message, r, rfl, rfl, hsuccess, htrap⟩
    have hfetch : fetch (.threw message) (.answered (some r)) = .ok r :=
      accepted_eq_ok.mpr ⟨rfl, hsuccess⟩
    have hpage := hall _ (scrape_eq_ok.mpr ⟨r, hfetch, rfl⟩)
    exact absurd (htrap.symm.trans hpage) (by decide)
  · intro hnone page hpage
    obtain ⟨r, hfetch, rfl⟩ := scrape_eq_ok.mp hpage
    cases basic with
    | answered result => exact fetch_ok hfetch
    | threw message =>
      cases stealth with
      | threw stealthMessage =>
        simp only [fetch] at hfetch
        split at hfetch <;> cases hfetch
      | answered result =>
        obtain ⟨rfl, hsuccess⟩ := accepted_eq_ok.mp hfetch
        by_contra htrap
        exact hnone ⟨message, r, rfl, rfl, hsuccess, by simpa [response] using htrap⟩

/-- The basic attempt is blocked, the stealth one brings in an empty page. -/
theorem bot_trap_passed_off : ¬ ∀ url basic stealth page,
    scrape url basic stealth = .ok page → isBotTrap page.html = false := by
  intro hall
  have hpage := hall "https://d.com" (.threw "document_antibot")
    (.answered (some { success := some true, data := { rawHtml := some "" } })) _ rfl
  revert hpage
  decide +kernel

theorem surround_inj {a b c s t : String} : a ++ s ++ b ++ c = a ++ t ++ b ++ c ↔ s = t := by
  rw [String.append_left_inj, String.append_left_inj, String.append_right_inj]

theorem Failure.message_inj {failure : Failure} {url url' : String} :
    failure.message url = failure.message url' ↔
      (∃ reason, failure = .known reason) ∨ url = url' := by
  cases failure with
  | known reason => exact iff_of_true rfl (.inl ⟨reason, rfl⟩)
  | failed message | unsuccessful error =>
    rw [or_iff_right (by simp)]
    exact surround_inj

example : classifyAntibotError "Request Timed Out" = some "Site did not respond in time" := by
  decide +kernel

example : isBotTrap "<A\nclass='x' HREF='/'>home</A>" = false := by decide +kernel

end LinkBulker.Firecrawl
