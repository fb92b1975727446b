import LinkBulker.Shared.Url
import LinkBulker.Db.Schema

/-! `apps/worker/src/modules/crawler/`: the result record and what `crawlAndAnalyze` puts into it
for every way its awaited calls can end. -/

namespace LinkBulker.Crawler

open Db Shared

structure CrawlAndAnalyzeResult where
  ok : Bool
  donorStatusCode : Option ℤ
  donorFinalUrl : Option String
  donorRedirectChain : Option (List String)
  donorIndexable : Option Bool
  donorMetaRobots : Option String
  donorXRobotsTag : Option String
  donorCanonical : Option String
  canonicalMatches : Option Bool
  linkFound : Option Bool
  occurrences : Option (List LinkOccurrence)
  occurrencesCount : ℕ
  error : Option String
  durationMs : ℤ
  deriving DecidableEq

def baseResult : CrawlAndAnalyzeResult where
  ok := false
  donorStatusCode := none
  donorFinalUrl := none
  donorRedirectChain := none
  donorIndexable := none
  donorMetaRobots := none
  donorXRobotsTag := none
  donorCanonical := none
  canonicalMatches := none
  linkFound := none
  occurrences := none
  occurrencesCount := 0
  error := none
  durationMs := 0

instance : Inhabited CrawlAndAnalyzeResult := ⟨baseResult⟩

structure CrawlResponse where
  finalUrl : String
  redirectChain : List String
  statusCode : ℤ
  headers : List (String × String)
  html : String
  deriving DecidableEq

/-- The fields of `ParsedDonor` that `crawlAndAnalyze` copies. -/
structure ParsedDonor where
  metaRobots : Option String
  xRobotsTag : Option String
  indexable : Bool
  canonical : Option String
  canonicalMatches : Bool
  occurrences : List LinkOccurrence
  deriving DecidableEq

inductive CrawlRun
  | rateLimitFailed (message : String)
  | noSlot
  | thrown (message : String)
  | unparsed (response : CrawlResponse) (message : String)
  | parsed (response : CrawlResponse) (donor : ParsedDonor)
  deriving DecidableEq

def CrawlRun.result (durationMs : ℤ) : CrawlRun → CrawlAndAnalyzeResult
  | .rateLimitFailed message =>
    { baseResult with error := some ("Rate limit wait failed: " ++ message), durationMs }
  | .noSlot => { baseResult with error := some "Could not acquire crawler slot", durationMs }
  | .thrown message => { baseResult with error := some message, durationMs }
  | .unparsed response message =>
    { baseResult with
      donorStatusCode := some response.statusCode
      donorFinalUrl := some response.finalUrl
      donorRedirectChain := some response.redirectChain
      error := some ("Parse error: " ++ message)
      durationMs }
  | .parsed response donor =>
    { ok := true
      donorStatusCode := some response.statusCode
      donorFinalUrl := some response.finalUrl
      donorRedirectChain := some response.redirectChain
      donorIndexable := some donor.indexable
      donorMetaRobots := donor.metaRobots
      donorXRobotsTag := donor.xRobotsTag
      donorCanonical := donor.canonical
      canonicalMatches := some donor.canonicalMatches
      linkFound := some (decide (0 < donor.occurrences.length))
      occurrences := some donor.occurrences
      occurrencesCount := donor.occurrences.length
      error := none
      durationMs }

def validate (newURL : UrlParser) (donorUrl acceptorRaw : String) (durationMs : ℤ) :
    Except CrawlAndAnalyzeResult String :=
  match extractAcceptorHost newURL acceptorRaw with
  | .error message =>
    .error { baseResult with error := some ("Invalid acceptor: " ++ message), durationMs }
  | .ok _ =>
    match safeHost newURL donorUrl with
    | none => .error { baseResult with error := some ("Invalid donor URL: " ++ donorUrl), durationMs }
    | some host =>
      if host = "" then
        .error { baseResult with error := some ("Invalid donor URL: " ++ donorUrl), durationMs }
      else .ok host

def crawlAndAnalyze (newURL : UrlParser) (donorUrl acceptorRaw : String) (run : CrawlRun)
    (durationMs : ℤ) : CrawlAndAnalyzeResult :=
  match validate newURL donorUrl acceptorRaw durationMs with
  | .error result => result
  | .ok _ => run.result durationMs

structure CrawlAndAnalyzeResult.WellFormed (r : CrawlAndAnalyzeResult) : Prop where
  occurrences : r.occurrences.isSome = r.ok
  count : r.occurrencesCount = (r.occurrences.getD []).length
  found : r.linkFound = r.occurrences.map fun os => decide (0 < os.length)
  chain : r.ok → r.donorRedirectChain.isSome
  error : r.error.isSome = !r.ok

theorem CrawlRun.result_wellFormed (run : CrawlRun) (durationMs : ℤ) :
    (run.result durationMs).WellFormed := by
  cases run <;> constructor <;> simp [CrawlRun.result, baseResult]

theorem validate_error {newURL : UrlParser} {donorUrl acceptorRaw : String} {durationMs : ℤ}
    {r : CrawlAndAnalyzeResult} (h : validate newURL donorUrl acceptorRaw durationMs = .error r) :
    ∃ message, r = { baseResult with error := some message, durationMs } := by
  unfold validate at h
  split at h
  · cases h; exact ⟨_, rfl⟩
  · split at h
    · cases h; exact ⟨_, rfl⟩
    · split at h
      · cases h; exact ⟨_, rfl⟩
      · cases h

theorem crawlAndAnalyze_wellFormed (newURL : UrlParser) (donorUrl acceptorRaw : String)
    (run : CrawlRun) (durationMs : ℤ) :
    (crawlAndAnalyze newURL donorUrl acceptorRaw run durationMs).WellFormed := by
  unfold crawlAndAnalyze
  split
  · rename_i h
    obtain ⟨message, rfl⟩ := validate_error h
    constructor <;> simp [baseResult]
  · exact run.result_wellFormed durationMs

def exampleURL : UrlParser := fun s =>
  if s = "https://donor.example/post" then some ⟨"https:", "donor.example"⟩
  else if s = "https://acceptor.example" then some ⟨"https:", "acceptor.example"⟩
  else none

def exampleOccurrence : LinkOccurrence where
  href := "https://acceptor.example/"
  anchor := "acceptor"
  rel := []
  target := none
  tag := "a"
  position := 1

def foundRun : CrawlRun :=
  .parsed ⟨"https://donor.example/post", [], 200, [], ""⟩
    ⟨none, none, true, none, true, [exampleOccurrence]⟩

end LinkBulker.Crawler
