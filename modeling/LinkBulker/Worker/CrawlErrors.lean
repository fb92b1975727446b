import LinkBulker.CrawlerCore.Firecrawl
import LinkBulker.Worker.CrawlPool

/-! The texts that `crawlAndAnalyze` leaves in the `error` of a link, and which of its inputs they
quote. -/

namespace LinkBulker.Crawler

open Shared Firecrawl

inductive CrawlAnswers
  | rateLimitTimedOut
  | rateLimitFailed (message : String)
  | noSlot
  | circuitOpen
  | noClient (message : String)
  | scraped (basic stealth : Attempt) (parsed : Except String ParsedDonor)

def CrawlAnswers.run (host donorUrl : String) : CrawlAnswers → CrawlRun
  | .rateLimitTimedOut => .rateLimitFailed (consumeTimeout host)
  | .rateLimitFailed message => .rateLimitFailed message
  | .noSlot => .noSlot
  | .circuitOpen => .thrown "Circuit is OPEN"
  | .noClient message => .thrown message
  | .scraped basic stealth parsed =>
    match scrape donorUrl basic stealth with
    | .error message => .thrown message
    | .ok response =>
      match parsed with
      | .error message => .unparsed response message
      | .ok donor => .parsed response donor

def donorHost (newURL : UrlParser) (donorUrl : String) : String :=
  (safeHost newURL donorUrl).getD ""

inductive Outcome
  | invalidAcceptor (empty : Bool)
  | invalidDonor
  | rateLimitTimedOut
  | rateLimitFailed (message : String)
  | noSlot
  | circuitOpen
  | noClient (message : String)
  | scrapeFailed (failure : Failure)
  | unparsed (statusCode : ℤ) (message : String)
  | parsed (statusCode : ℤ) (occurrencesCount : ℕ)
  deriving DecidableEq

def CrawlAnswers.outcome : CrawlAnswers → Outcome
  | .rateLimitTimedOut => .rateLimitTimedOut
  | .rateLimitFailed message => .rateLimitFailed message
  | .noSlot => .noSlot
  | .circuitOpen => .circuitOpen
  | .noClient message => .noClient message
  | .scraped basic stealth parsed =>
    match fetch basic stealth with
    | .error failure => .scrapeFailed failure
    | .ok result =>
      match parsed with
      | .error message => .unparsed (result.data.statusCode.getD 200) message
      | .ok donor => .parsed (result.data.statusCode.getD 200) donor.occurrences.length

def outcome (newURL : UrlParser) (donorUrl acceptorRaw : String) (answers : CrawlAnswers) :
    Outcome :=
  match extractAcceptorHost newURL acceptorRaw with
  | .error _ => .invalidAcceptor (trim acceptorRaw = "")
  | .ok _ => if donorHost newURL donorUrl = "" then .invalidDonor else answers.outcome

structure Facts where
  ok : Bool
  donorStatusCode : Option ℤ
  linkFound : Option Bool
  occurrencesCount : ℕ
  error : Option String
  deriving DecidableEq

def CrawlAndAnalyzeResult.facts (r : CrawlAndAnalyzeResult) : Facts where
  ok := r.ok
  donorStatusCode := r.donorStatusCode
  linkFound := r.linkFound
  occurrencesCount := r.occurrencesCount
  error := r.error

def Outcome.error (newURL : UrlParser) (donorUrl acceptorRaw : String) : Outcome → Option String
  | .invalidAcceptor true => some "Invalid acceptor: Acceptor is empty"
  | .invalidAcceptor false =>
    some ("Invalid acceptor: " ++ ("Cannot parse acceptor as URL: \"" ++ acceptorRaw ++ "\""))
  | .invalidDonor => some ("Invalid donor URL: " ++ donorUrl)
  | .rateLimitTimedOut =>
    some ("Rate limit wait failed: " ++ consumeTimeout (donorHost newURL donorUrl))
  | .rateLimitFailed message => some ("Rate limit wait failed: " ++ message)
  | .noSlot => some "Could not acquire crawler slot"
  | .circuitOpen => some "Circuit is OPEN"
  | .noClient message => some message
  | .scrapeFailed failure => some (failure.message donorUrl)
  | .unparsed _ message => some ("Parse error: " ++ message)
  | .parsed .. => none

def Outcome.statusCode : Outcome → Option ℤ
  | .unparsed statusCode _ | .parsed statusCode _ => some statusCode
  | _ => none

def Outcome.occurrencesCount : Outcome → Option ℕ
  | .parsed _ occurrencesCount => some occurrencesCount
  | _ => none

def Outcome.facts (newURL : UrlParser) (donorUrl acceptorRaw : String) (o : Outcome) : Facts where
  ok := o.occurrencesCount.isSome
  donorStatusCode := o.statusCode
  linkFound := o.occurrencesCount.map (0 < ·)
  occurrencesCount := o.occurrencesCount.getD 0
  error := o.error newURL donorUrl acceptorRaw

def Outcome.quoted (newURL : UrlParser) (donorUrl acceptorRaw : String) : Outcome → Option String
  | .invalidAcceptor empty => if empty then none else some acceptorRaw
  | .invalidDonor | .scrapeFailed (.failed _) | .scrapeFailed (.unsuccessful _) => some donorUrl
  | .rateLimitTimedOut => some (donorHost newURL donorUrl)
  | _ => none

variable {newURL : UrlParser} {donorUrl donorUrl' acceptorRaw acceptorRaw' : String}

theorem extractAcceptorHost_error {message : String}
    (h : extractAcceptorHost newURL acceptorRaw = .error message) :
    message = if trim acceptorRaw = "" then "Acceptor is empty"
      else "Cannot parse acceptor as URL: \"" ++ acceptorRaw ++ "\"" := by
  simp only [extractAcceptorHost] at h
  split at h
  · rename_i hempty
    cases h
    rw [if_pos hempty]
  · rename_i hne
    rw [if_neg hne]
    split at h <;> cases h
    rfl

theorem CrawlAnswers.facts_run (answers : CrawlAnswers) (durationMs : ℤ) :
    ((answers.run (donorHost newURL donorUrl) donorUrl).result durationMs).facts =
      answers.outcome.facts newURL donorUrl acceptorRaw := by
  cases answers with
  | scraped basic stealth parsed =>
    simp only [run, CrawlAnswers.outcome, scrape]
    cases fetch basic stealth with
    | error failure => rfl
    | ok result => cases parsed <;> rfl
  | _ => rfl

theorem crawlAndAnalyze_of_acceptor {message : String} (run : CrawlRun) (durationMs : ℤ)
    (h : extractAcceptorHost newURL acceptorRaw = .error message) :
    crawlAndAnalyze newURL donorUrl acceptorRaw run durationMs =
      { baseResult with error := some ("Invalid acceptor: " ++ message), durationMs } := by
  simp only [crawlAndAnalyze, validate, h]

theorem crawlAndAnalyze_of_donor {host : String} (run : CrawlRun) (durationMs : ℤ)
    (h : extractAcceptorHost newURL acceptorRaw = .ok host) (hdonor : donorHost newURL donorUrl = "") :
    crawlAndAnalyze newURL donorUrl acceptorRaw run durationMs =
      { baseResult with error := some ("Invalid donor URL: " ++ donorUrl), durationMs } := by
  unfold donorHost at hdonor
  simp only [crawlAndAnalyze, validate, h]
  cases hsafe : safeHost newURL donorUrl with
  | none => rfl
  | some host =>
    rw [hsafe, Option.getD_some] at hdonor
    simp only [if_pos hdonor]

theorem crawlAndAnalyze_of_valid {host : String} (run : CrawlRun) (durationMs : ℤ)
    (h : extractAcceptorHost newURL acceptorRaw = .ok host) (hdonor : donorHost newURL donorUrl ≠ "") :
    crawlAndAnalyze newURL donorUrl acceptorRaw run durationMs = run.result durationMs := by
  unfold donorHost at hdonor
  simp only [crawlAndAnalyze, validate, h]
  cases hsafe : safeHost newURL donorUrl with
  | none => exact absurd (by rw [hsafe]; rfl) hdonor
  | some host =>
    rw [hsafe, Option.getD_some] at hdonor
    simp only [if_neg hdonor]

theorem facts_crawlAndAnalyze (answers : CrawlAnswers) (durationMs : ℤ) :
    (crawlAndAnalyze newURL donorUrl acceptorRaw
        (answers.run (donorHost newURL donorUrl) donorUrl) durationMs).facts =
      (outcome newURL donorUrl acceptorRaw answers).facts newURL donorUrl acceptorRaw := by
  cases hacceptor : extractAcceptorHost newURL acceptorRaw with
  | error message =>
    rw [crawlAndAnalyze_of_acceptor _ _ hacceptor, extractAcceptorHost_error hacceptor]
    simp only [outcome, hacceptor]
    by_cases hempty : trim acceptorRaw = ""
    · rw [if_pos hempty, decide_eq_true hempty]
      rfl
    · rw [if_neg hempty, decide_eq_false hempty]
      rfl
  | ok host =>
    by_cases hdonor : donorHost newURL donorUrl = ""
    · rw [crawlAndAnalyze_of_donor _ _ hacceptor hdonor]
      simp only [outcome, hacceptor, if_pos hdonor]
      rfl
    · rw [crawlAndAnalyze_of_valid _ _ hacceptor hdonor]
      simp only [outcome, hacceptor, if_neg hdonor]
      exact answers.facts_run durationMs

theorem consumeTimeout_inj {host host' : String} :
    consumeTimeout host = consumeTimeout host' ↔ host = host' := by
  unfold consumeTimeout
  rw [String.append_left_inj, String.append_right_inj]

theorem Outcome.error_inj (o : Outcome) :
    o.error newURL donorUrl acceptorRaw = o.error newURL donorUrl' acceptorRaw' ↔
      o.quoted newURL donorUrl acceptorRaw = o.quoted newURL donorUrl' acceptorRaw' := by
  cases o with
  | invalidAcceptor empty =>
    cases empty with
    | true => exact iff_of_true rfl rfl
    | false =>
      simp only [error, quoted, Option.some_inj, Bool.false_eq_true, if_false]
      rw [String.append_right_inj, String.append_left_inj, String.append_right_inj]
  | invalidDonor =>
    simp only [error, quoted, Option.some_inj]
    rw [String.append_right_inj]
  | rateLimitTimedOut =>
    simp only [error, quoted, Option.some_inj]
    rw [String.append_right_inj, consumeTimeout_inj]
  | scrapeFailed failure =>
    simp only [error, Option.some_inj, Failure.message_inj]
    cases failure with
    | known reason => exact iff_of_true (.inl ⟨reason, rfl⟩) rfl
    | failed message | unsuccessful error =>
      rw [or_iff_right (by simp)]
      exact Option.some_inj.symm
  | _ => exact iff_of_true rfl rfl

theorem Outcome.facts_inj (o : Outcome) :
    o.facts newURL donorUrl acceptorRaw = o.facts newURL donorUrl' acceptorRaw' ↔
      o.quoted newURL donorUrl acceptorRaw = o.quoted newURL donorUrl' acceptorRaw' := by
  rw [← o.error_inj]
  unfold facts
  simp

end LinkBulker.Crawler
