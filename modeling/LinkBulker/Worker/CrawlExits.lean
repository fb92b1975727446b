import LinkBulker.CrawlerCore.Firecrawl
import LinkBulker.Foundations.Traced

/-! The exits of `crawlAndAnalyze`: its `try`, `catch` and `finally` for anything that its calls can
throw. -/

namespace LinkBulker.Crawler

open Foundations Shared

/-- What `err.message` is: a text, `null` or `undefined`, or anything else, with what it gives in a
template or the text of the `TypeError` that asking for it ends in. -/
inductive Message
  | text (s : String)
  | nullish (literal : String)
  | other (string : Except String String)

/-- `${message}`. -/
def Message.string : Message → Except String String
  | .text s | .nullish s => .ok s
  | .other string => string

/-- A thrown value as the handlers look at it: `err instanceof Error`, `err.message` and
`String(err)`. -/
structure Thrown where
  instanceofError : Bool
  message : Except String Message
  string : Except String String

def Thrown.error (name message : String) : Thrown :=
  ⟨true, .ok (.text message), .ok (name ++ ": " ++ message)⟩

/-- `${(err as Error).message}`. -/
def Thrown.template (err : Thrown) : Except String String := err.message.bind Message.string

/-- `err instanceof Error ? err.message : String(err)`. -/
def Thrown.shown (err : Thrown) : Except String Message :=
  if err.instanceofError then err.message else err.string.map .text

inductive CrawlEvent
  | granted (host : String)
  | acquired
  | scraped
  | released
  deriving DecidableEq

abbrev Crawling := Traced CrawlEvent Thrown

def read {α : Type} (value : Except String α) : Crawling α :=
  match value with
  | .ok a => pure a
  | .error message => .throw (.error "TypeError" message)

inductive Returned
  | result (r : CrawlAndAnalyzeResult)
  | untyped (error : Message) (durationMs : ℤ)

/-- `{ ...result, error: message, durationMs }`. -/
def Message.returned (durationMs : ℤ) : Message → Returned
  | .text s => .result ((CrawlRun.thrown s).result durationMs)
  | message => .untyped message durationMs

structure Awaited where
  consume : Except Thrown Unit
  acquire : Except Thrown Unit
  breakerOpen : Bool
  scrape : Except Thrown CrawlResponse
  parse : Except Thrown ParsedDonor
  release : Except Thrown Unit
  durationMs : ℤ

namespace Awaited

variable (a : Awaited)

/-- `breaker.exec(() => provider.scrape(..))`. -/
def exec : Crawling CrawlResponse :=
  if a.breakerOpen then .throw (.error "CircuitOpenError" "Circuit is OPEN")
  else .call .scraped a.scrape

def returned (run : CrawlRun) : Returned := .result (run.result a.durationMs)

def analyze (response : CrawlResponse) : Crawling Returned :=
  Traced.handle
    (do
      let donor ← ⟨a.parse, []⟩
      return a.returned (.parsed response donor))
    fun err => do
      return a.returned (.unparsed response (← read err.template))

def scrapeAndAnalyze : Crawling Returned :=
  Traced.handle
    (do
      let response ← a.exec
      a.analyze response)
    fun err => do
      return (← read err.shown).returned a.durationMs

def releaseLease : Crawling Unit :=
  (Traced.call .released a.release).handle fun err => do
    let _ ← read err.template

def withSlot : Crawling Returned := do
  match ← (Traced.gained .acquired a.acquire).attempt with
  | .error err =>
    let _ ← read err.template
    return a.returned .noSlot
  | .ok _ => a.scrapeAndAnalyze.finally_ a.releaseLease

def withToken (donorHost : String) : Crawling Returned := do
  match ← (Traced.gained (.granted donorHost) a.consume).attempt with
  | .error err => return a.returned (.rateLimitFailed (← read err.template))
  | .ok _ => a.withSlot

def perform (newURL : UrlParser) (donorUrl acceptorRaw : String) : Crawling Returned :=
  match validate newURL donorUrl acceptorRaw a.durationMs with
  | .error result => return .result result
  | .ok donorHost => a.withToken donorHost

end Awaited

section Trace

variable (a : Awaited)

theorem trace_read_bind {α β : Type} (value : Except String α) (f : α → β) :
    (read value >>= fun x => pure (f x) : Crawling β).trace = [] := by
  cases value <;> rfl

def Awaited.scrapes : List CrawlEvent := if a.breakerOpen then [] else [.scraped]

theorem trace_analyze (response : CrawlResponse) : (a.analyze response).trace = [] := by
  unfold Awaited.analyze
  cases a.parse with
  | ok donor => rfl
  | error err => exact trace_read_bind err.template _

theorem trace_scrapeAndAnalyze : a.scrapeAndAnalyze.trace = a.scrapes := by
  unfold Awaited.scrapeAndAnalyze Awaited.exec Awaited.scrapes
  cases a.breakerOpen with
  | true => rfl
  | false =>
    cases a.scrape with
    | error err => simp [Traced.call, trace_read_bind]
    | ok response =>
      cases hanalyze : a.analyze response with
      | mk result trace =>
        obtain rfl : trace = [] := by rw [← trace_analyze a response, hanalyze]
        cases result <;> simp [Traced.call, hanalyze, trace_read_bind]

theorem trace_releaseLease : a.releaseLease.trace = [.released] := by
  unfold Awaited.releaseLease
  cases a.release with
  | ok => rfl
  | error err => simp [Traced.call, trace_read_bind]

inductive Leaves (scrapes : List CrawlEvent) : List CrawlEvent → Prop
  | nothing : Leaves scrapes []
  | token (host : String) : Leaves scrapes [.granted host]
  | slot (host : String) :
    Leaves scrapes ([.granted host, .acquired] ++ (scrapes ++ [.released]))

theorem withToken_leaves (donorHost : String) :
    Leaves a.scrapes (a.withToken donorHost).trace := by
  cases hconsume : a.consume with
  | error err =>
    rw [Awaited.withToken, hconsume]
    have htrace := trace_read_bind err.template fun s => a.returned (.rateLimitFailed s)
    exact htrace ▸ .nothing
  | ok =>
    have htoken : (a.withToken donorHost).trace = .granted donorHost :: a.withSlot.trace := by
      rw [Awaited.withToken, hconsume]
      rfl
    rw [htoken]
    cases hacquire : a.acquire with
    | error err =>
      have htrace : a.withSlot.trace = [] := by
        rw [Awaited.withSlot, hacquire]
        exact trace_read_bind err.template fun _ => a.returned .noSlot
      rw [htrace]
      exact .token donorHost
    | ok =>
      have htrace : a.withSlot.trace = .acquired :: (a.scrapes ++ [.released]) := by
        rw [Awaited.withSlot, hacquire, ← trace_scrapeAndAnalyze, ← trace_releaseLease a]
        rfl
      rw [htrace]
      exact .slot donorHost

theorem perform_leaves (newURL : UrlParser) (donorUrl acceptorRaw : String) :
    Leaves a.scrapes (a.perform newURL donorUrl acceptorRaw).trace := by
  unfold Awaited.perform
  split
  · exact .nothing
  · exact withToken_leaves a _

variable {a : Awaited}

theorem not_mem_scrapes {e : CrawlEvent} (he : e ≠ .scraped) : e ∉ a.scrapes := by
  unfold Awaited.scrapes
  split
  · exact List.not_mem_nil
  · simpa using he

theorem Leaves.slots {trace : List CrawlEvent} (h : Leaves a.scrapes trace) :
    trace.count .released = trace.count .acquired ∧
      ∀ before after, trace = before ++ .acquired :: after →
        (∃ host, .granted host ∈ before) ∧ after.count .released = 1 := by
  have hreleased : a.scrapes.count .released = 0 :=
    List.count_eq_zero.mpr (not_mem_scrapes (by decide))
  have hacquired : .acquired ∉ a.scrapes := not_mem_scrapes (by decide)
  cases h with
  | nothing =>
    refine ⟨rfl, fun before after h => ?_⟩
    simp at h
  | token host =>
    refine ⟨rfl, fun before after h => ?_⟩
    have hmem : CrawlEvent.acquired ∈ [CrawlEvent.granted host] := by
      rw [h]
      simp
    simp at hmem
  | slot host =>
    refine ⟨by simp [hreleased, List.count_eq_zero.mpr hacquired], fun before after h => ?_⟩
    rcases before with _ | ⟨e, _ | ⟨e', before⟩⟩
    · simp at h
    · simp only [List.cons_append, List.nil_append, List.cons.injEq] at h
      obtain ⟨rfl, -, rfl⟩ := h
      exact ⟨⟨host, List.mem_cons_self⟩, by simp [hreleased]⟩
    · simp only [List.cons_append, List.nil_append, List.cons.injEq] at h
      obtain ⟨-, -, hrest⟩ := h
      have hmem : CrawlEvent.acquired ∈ a.scrapes ++ [CrawlEvent.released] := by
        rw [hrest]
        simp
      rw [List.mem_append] at hmem
      exact absurd hmem (not_or.mpr ⟨hacquired, by decide⟩)

end Trace

section Results

/-- What the rate limiter, the semaphore, ioredis under them and the SDK reject with. -/
def Thrown.IsError (err : Thrown) : Prop :=
  err.instanceofError ∧ ∃ s, err.message = .ok (.text s)

/-- What the components of a call throw: Errors, and the provider also any other value that has a
string form. -/
structure Awaited.Documented (a : Awaited) : Prop where
  consume : ∀ err, a.consume = .error err → err.IsError
  acquire : ∀ err, a.acquire = .error err → err.IsError
  release : ∀ err, a.release = .error err → err.IsError
  scrape : ∀ err, a.scrape = .error err →
    err.IsError ∨ err.instanceofError = false ∧ ∃ s, err.string = .ok s

variable {a : Awaited} {err : Thrown}

theorem Thrown.IsError.template (h : err.IsError) : ∃ s, err.template = .ok s := by
  obtain ⟨-, s, hs⟩ := h
  exact ⟨s, by rw [Thrown.template, hs]; rfl⟩

theorem Awaited.Documented.shown (h : a.Documented) (herr : a.scrape = .error err) :
    ∃ s, err.shown = .ok (.text s) := by
  unfold Thrown.shown
  obtain ⟨herror, s, hs⟩ | ⟨herror, s, hs⟩ := h.scrape err herr
  · exact ⟨s, by rw [if_pos herror, hs]⟩
  · exact ⟨s, by rw [herror, hs]; rfl⟩

theorem analyze_spec (a : Awaited) (response : CrawlResponse) :
    (∃ run, a.analyze response = ⟨.ok (a.returned run), []⟩) ∨
      ∃ message, a.analyze response = ⟨.error (.error "TypeError" message), []⟩ := by
  unfold Awaited.analyze
  cases a.parse with
  | ok donor => exact .inl ⟨.parsed response donor, rfl⟩
  | error err =>
    rw [Traced.bind_error, Traced.handle_error]
    cases err.template with
    | ok message => exact .inl ⟨.unparsed response message, rfl⟩
    | error message => exact .inr ⟨message, rfl⟩

theorem scrapeAndAnalyze_resolves (h : a.Documented) :
    ∃ run, a.scrapeAndAnalyze.result = .ok (a.returned run) := by
  unfold Awaited.scrapeAndAnalyze Awaited.exec
  cases a.breakerOpen with
  | true => exact ⟨.thrown "Circuit is OPEN", rfl⟩
  | false =>
    cases hscrape : a.scrape with
    | error err =>
      obtain ⟨message, hshown⟩ := h.shown hscrape
      refine ⟨.thrown message, ?_⟩
      simp only [Bool.false_eq_true, if_false, Traced.call, Traced.bind_error, Traced.handle_error,
        hshown]
      rfl
    | ok response =>
      simp only [Bool.false_eq_true, if_false, Traced.call, Traced.bind_ok]
      rcases analyze_spec a response with ⟨run, hanalyze⟩ | ⟨message, hanalyze⟩
      · exact ⟨run, by rw [hanalyze]; rfl⟩
      · exact ⟨.thrown message, by rw [hanalyze]; rfl⟩

theorem releaseLease_resolves (h : a.Documented) : a.releaseLease.result = .ok () := by
  unfold Awaited.releaseLease
  cases hrelease : a.release with
  | ok => rfl
  | error err =>
    obtain ⟨message, hmessage⟩ := (h.release err hrelease).template
    simp only [Traced.call, Traced.handle_error, hmessage]
    rfl

theorem withSlot_resolves (h : a.Documented) :
    ∃ run, a.withSlot.result = .ok (a.returned run) := by
  cases hacquire : a.acquire with
  | error err =>
    obtain ⟨message, hmessage⟩ := (h.acquire err hacquire).template
    refine ⟨.noSlot, ?_⟩
    rw [Awaited.withSlot, hacquire]
    change (read err.template >>= fun _ => pure (a.returned .noSlot)).result = _
    rw [hmessage]
    rfl
  | ok =>
    obtain ⟨run, hbody⟩ := scrapeAndAnalyze_resolves h
    refine ⟨run, ?_⟩
    have hfinally : (a.scrapeAndAnalyze.finally_ a.releaseLease).result = .ok (a.returned run) := by
      rw [Traced.finally_, releaseLease_resolves h, hbody]
    rw [Awaited.withSlot, hacquire]
    exact hfinally

theorem perform_resolves (h : a.Documented) (newURL : UrlParser) (donorUrl acceptorRaw : String) :
    ∃ run, (a.perform newURL donorUrl acceptorRaw).result =
      .ok (.result (crawlAndAnalyze newURL donorUrl acceptorRaw run a.durationMs)) := by
  unfold Awaited.perform crawlAndAnalyze
  cases validate newURL donorUrl acceptorRaw a.durationMs with
  | error r => exact ⟨.noSlot, rfl⟩
  | ok donorHost =>
    dsimp only
    cases hconsume : a.consume with
    | error err =>
      obtain ⟨message, hmessage⟩ := (h.consume err hconsume).template
      refine ⟨.rateLimitFailed message, ?_⟩
      rw [Awaited.withToken, hconsume]
      change (read err.template >>= fun s => pure (a.returned (.rateLimitFailed s))).result = _
      rw [hmessage]
      rfl
    | ok =>
      obtain ⟨run, hslot⟩ := withSlot_resolves h
      refine ⟨run, ?_⟩
      rw [Awaited.withToken, hconsume]
      exact hslot

end Results

theorem CrawlAndAnalyzeResult.WellFormed.shape {r : CrawlAndAnalyzeResult} (h : r.WellFormed) :
    (r.ok = true ∧ r.error = none ∧ ∃ os, r.occurrences = some os ∧
        r.occurrencesCount = os.length ∧ r.linkFound = some (decide (0 < r.occurrencesCount))) ∨
      (r.ok = false ∧ r.error ≠ none ∧ r.occurrences = none ∧ r.linkFound = none ∧
        r.occurrencesCount = 0) := by
  have hoccurrences := h.occurrences
  have hcount := h.count
  have hfound := h.found
  have herror := h.error
  cases hok : r.ok with
  | true =>
    obtain ⟨os, hos⟩ := Option.isSome_iff_exists.mp (hoccurrences.trans hok)
    rw [hos] at hcount hfound
    refine .inl ⟨rfl, by simpa [hok] using herror, os, hos, hcount, ?_⟩
    rw [hfound, hcount]
    rfl
  | false =>
    have hos : r.occurrences = none := by simpa [hok] using hoccurrences
    rw [hos] at hcount hfound
    refine .inr ⟨rfl, ?_, hos, hfound, hcount⟩
    intro hnone
    simp [hok, hnone] at herror

/-- Whatever its calls come to, a call resolves: to a success with its occurrences or to a failure with
an error.  A slot is taken only with a host token in hand, and given back exactly once. -/
theorem perform_total {a : Awaited} (h : a.Documented) (newURL : UrlParser)
    (donorUrl acceptorRaw : String) :
    (∃ r, (a.perform newURL donorUrl acceptorRaw).result = .ok (.result r) ∧
      ((r.ok = true ∧ r.error = none ∧ ∃ os, r.occurrences = some os ∧
          r.occurrencesCount = os.length ∧ r.linkFound = some (decide (0 < r.occurrencesCount))) ∨
        (r.ok = false ∧ r.error ≠ none ∧ r.occurrences = none ∧ r.linkFound = none ∧
          r.occurrencesCount = 0))) ∧
    (a.perform newURL donorUrl acceptorRaw).trace.count .released =
      (a.perform newURL donorUrl acceptorRaw).trace.count .acquired ∧
    ∀ before after,
      (a.perform newURL donorUrl acceptorRaw).trace = before ++ .acquired :: after →
        (∃ host, .granted host ∈ before) ∧ after.count .released = 1 := by
  obtain ⟨run, hresult⟩ := perform_resolves h newURL donorUrl acceptorRaw
  refine ⟨⟨_, hresult, ?_⟩, (perform_leaves a newURL donorUrl acceptorRaw).slots⟩
  exact (crawlAndAnalyze_wellFormed newURL donorUrl acceptorRaw run a.durationMs).shape

def brokenOff : Awaited where
  consume := .ok ()
  acquire := .ok ()
  breakerOpen := false
  scrape := (Firecrawl.scrape "https://donor.example/post" (.threw "document_antibot")
    (.threw "timed out")).mapError (Thrown.error "CrawlError")
  parse := .ok ⟨none, none, true, none, true, []⟩
  release := .error (.error "Error" "Connection is closed.")
  durationMs := 61000

theorem perform_total_brokenOff :
    (∃ r, (brokenOff.perform exampleURL "https://donor.example/post" "acceptor.example").result =
      .ok (.result r) ∧ r.ok = false ∧ r.error ≠ none) ∧
    (brokenOff.perform exampleURL "https://donor.example/post" "acceptor.example").trace =
      [.granted "donor.example", .acquired, .scraped, .released] := by
  have herror (name message : String) : (Thrown.error name message).IsError := ⟨rfl, message, rfl⟩
  have hdocumented : brokenOff.Documented := by
    refine ⟨fun err h => ?_, fun err h => ?_, fun err h => ?_, fun err h => .inl ?_⟩
    · cases h
    · cases h
    · cases h
      exact herror _ _
    · simp only [brokenOff, Firecrawl.scrape] at h
      split at h <;> cases h
      exact herror _ _
  have htrace : (brokenOff.perform exampleURL "https://donor.example/post"
      "acceptor.example").trace = [.granted "donor.example", .acquired, .scraped, .released] := by
    decide +kernel
  obtain ⟨⟨r, hr, hshape⟩, -⟩ :=
    perform_total hdocumented exampleURL "https://donor.example/post" "acceptor.example"
  have hfailed : (brokenOff.perform exampleURL "https://donor.example/post"
      "acceptor.example").result = .ok (.result ((CrawlRun.thrown
        "Site did not respond in time").result 61000)) := rfl
  rw [hfailed] at hr
  cases hr
  obtain ⟨hok, -⟩ | ⟨hok, hmessage, -⟩ := hshape
  · cases hok
  · exact ⟨⟨_, hfailed, hok, hmessage⟩, htrace⟩

end LinkBulker.Crawler
