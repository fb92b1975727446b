import LinkBulker.Foundations.Pool
import LinkBulker.Worker.Crawler
import LinkBulker.WorkerCore.DomainRateLimiter
import LinkBulker.WorkerCore.Semaphore

/-! `CrawlerService.crawlAndAnalyze` on its awaits: many calls, on any number of workers, that share
the buckets and the semaphore in Redis.  A script runs at one moment with the time its caller read
before sending it, and its answer is handled at a later one. -/

namespace LinkBulker.Crawler

open Foundations Db Shared

/-- `CrawlerModule.forRoot`. -/
structure CrawlerConfig where
  rateLimiter : DomainRateLimiter.DomainRateLimiterOptions
  semaphore : Semaphore.SemaphoreOptions
  pollIntervalMs : ℤ := 50

def forRoot (firecrawlConcurrency : ℕ) (perDomainRps : ℚ) : CrawlerConfig where
  rateLimiter := { ratePerSec := perDomainRps, capacity := perDomainRps }
  semaphore := ⟨firecrawlConcurrency, 90000⟩

structure Scrape where
  host : String
  grant : ℕ
  stamp : ℤ
  start : ℤ
  deriving DecidableEq

/-- `grants` and `scrapes` record the granted tokens of each host and the scrapes, oldest first. -/
structure Cluster where
  clock : ℤ := 0
  sem : Semaphore.Key := none
  buckets : String → DomainRateLimiter.Key := fun _ => none
  issued : List Semaphore.Token := []
  grants : String → List ℤ := fun _ => []
  scrapes : List Scrape := []

/-- What the environment answers at one step; `now` is the time it is taken at. -/
structure CrawlTurn where
  now : ℤ
  rejects : Bool := false
  message : String := ""
  token : Semaphore.Token := ""
  breakerOpen : Bool := false
  run : CrawlRun := .thrown ""
  deriving DecidableEq

inductive Pc
  | entry
  | consume (deadline : ℤ)
  | consumeSent (deadline now : ℤ)
  | consumeAnswered (deadline wait : ℤ)
  | consumeAsleep (deadline wake : ℤ)
  | acquire (deadline : ℤ)
  | acquireSent (deadline now : ℤ) (token : Semaphore.Token)
  | acquireAnswered (deadline now : ℤ) (token : Semaphore.Token) (ok : Bool)
  | acquireAsleep (deadline wake : ℤ)
  | scraping (now : ℤ) (token : Semaphore.Token)
  | release (token : Semaphore.Token) (result : CrawlAndAnalyzeResult)
  | done (result : CrawlAndAnalyzeResult)
  deriving DecidableEq

/-- `grant` is the token the call was granted, as its place among those of the host and the time it
was asked with. -/
structure Call where
  donorUrl : String
  acceptorRaw : String
  pc : Pc := .entry
  startedAt : ℤ := 0
  host : String := ""
  grant : ℕ × ℤ := (0, 0)
  deriving DecidableEq

def Call.at_ (c : Call) (pc : Pc) : Call := { c with pc }

/-- `{ ...result, error, durationMs: Date.now() - startedAt }`. -/
def Call.fail (c : Call) (t : CrawlTurn) (run : CrawlRun) : Call :=
  c.at_ (.done (run.result (t.now - c.startedAt)))

def CrawlRun.scraped : CrawlRun → Bool
  | .rateLimitFailed _ | .noSlot => false
  | .thrown _ | .unparsed .. | .parsed .. => true

def consumeTimeout (host : String) : String :=
  "DomainRateLimiter consume timeout for host \"" ++ host ++ "\" after 60000ms"

def Call.move (newURL : UrlParser) (o : CrawlerConfig) (w : Cluster) (c : Call) (t : CrawlTurn) :
    Option (Cluster × Call) :=
  match c.pc with
  | .entry =>
    match validate newURL c.donorUrl c.acceptorRaw 0 with
    | .error result => some (w, c.at_ (.done result))
    | .ok host =>
      some (w, { c with host, startedAt := t.now, pc := .consume (t.now + 60000) })
  | .consume deadline => some (w, c.at_ (.consumeSent deadline t.now))
  | .consumeSent deadline now =>
    if t.rejects then some (w, c.fail t (.rateLimitFailed t.message))
    else
      let r := DomainRateLimiter.CONSUME_LUA (w.buckets c.host) t.now o.rateLimiter.capacity
        o.rateLimiter.ratePerSec now o.rateLimiter.ttlMs
      let w := { w with buckets := Function.update w.buckets c.host r.2 }
      if r.1 ≤ 0 then
        some ({ w with grants := Function.update w.grants c.host (w.grants c.host ++ [now]) },
          { c with grant := ((w.grants c.host).length, now), pc := .consumeAnswered deadline r.1 })
      else some (w, c.at_ (.consumeAnswered deadline r.1))
  | .consumeAnswered deadline wait =>
    if t.rejects then some (w, c.fail t (.rateLimitFailed t.message))
    else if wait ≤ 0 then some (w, c.at_ (.acquire (t.now + 60000)))
    else if t.now + wait > deadline then
      some (w, c.fail t (.rateLimitFailed (consumeTimeout c.host)))
    else some (w, c.at_ (.consumeAsleep deadline (t.now + wait)))
  | .consumeAsleep deadline wake =>
    if t.now < wake then none else some (w, c.at_ (.consume deadline))
  | .acquire deadline =>
    -- `randomUUID`
    if t.token ∈ w.issued then none
    else some ({ w with issued := t.token :: w.issued },
      c.at_ (.acquireSent deadline t.now t.token))
  | .acquireSent deadline now token =>
    if t.rejects then some (w, c.fail t .noSlot)
    else
      let r := Semaphore.ACQUIRE_LUA w.sem t.now now o.semaphore.ttlMs o.semaphore.limit token
      some ({ w with sem := r.2 }, c.at_ (.acquireAnswered deadline now token (r.1 == 1)))
  | .acquireAnswered deadline now token ok =>
    if t.rejects then some (w, c.fail t .noSlot)
    else if ok then
      if t.breakerOpen then
        some (w, c.at_ (.release token
          ((CrawlRun.thrown "Circuit is OPEN").result (t.now - c.startedAt))))
      else
        some ({ w with scrapes := w.scrapes ++ [⟨c.host, c.grant.1, c.grant.2, t.now⟩] },
          c.at_ (.scraping now token))
    else if deadline ≤ t.now then some (w, c.fail t .noSlot)
    else some (w, c.at_ (.acquireAsleep deadline (t.now + o.pollIntervalMs)))
  | .acquireAsleep deadline wake =>
    if t.now < wake then none else some (w, c.at_ (.acquire deadline))
  | .scraping _ token =>
    if t.run.scraped then
      some (w, c.at_ (.release token (t.run.result (t.now - c.startedAt))))
    else none
  | .release token result =>
    -- a failed release is caught and logged
    if t.rejects then some (w, c.at_ (.done result))
    else some ({ w with sem := (Semaphore.RELEASE_LUA w.sem t.now token).2 }, c.at_ (.done result))
  | .done _ => none

def step (newURL : UrlParser) (o : CrawlerConfig) (s : Cluster × List Call) (a : ℕ × CrawlTurn) :
    Option (Cluster × List Call) :=
  if s.1.clock ≤ a.2.now then
    Pool.act (Call.move newURL o) ({ s.1 with clock := a.2.now }, s.2) a
  else none

def Call.scraping (c : Call) : Bool :=
  match c.pc with
  | .scraping .. => true
  | _ => false

def Call.lease (c : Call) : Option (Semaphore.Token × ℤ) :=
  match c.pc with
  | .acquireAnswered _ now token true => some (token, now)
  | .scraping now token => some (token, now)
  | _ => none

def Call.asksAt (c : Call) : Option ℤ :=
  match c.pc with
  | .acquireSent _ now _ => some now
  | _ => none

end LinkBulker.Crawler
