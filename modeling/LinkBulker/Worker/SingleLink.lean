import LinkBulker.WorkerCore.LockManager
import LinkBulker.Worker.LinkRepository

/-! `apps/worker/src/modules/queue/single-link.processor.ts` as a state machine.  A step is the
code between two awaits: it takes what the awaited call answered and runs up to the next one. -/

namespace LinkBulker.SingleLink

open Foundations Db Shared Crawler LinkRepository

structure Stored where
  linkId : LinkId
  result : CrawlAndAnalyzeResult
  now : ℤ
  deriving DecidableEq

/-- What the processes share: the database, the Redis locks, the project channel.  `crawls` and
`stored` record the `crawlAndAnalyze` and `saveResult` calls, oldest first. -/
structure World where
  db : Database
  locks : String → LockManager.Key := fun _ => none
  issued : List LockManager.Token := []
  clock : ℤ := 0
  published : List ProgressEvent := []
  crawls : List LinkId := []
  stored : List Stored := []

/-- The answers of the environment at one step.  Each step reads the ones it awaits; `lost` is a
publish that failed, which is only logged. -/
structure Turn where
  now : ℤ := 0
  rejects : Bool := false
  lost : Bool := false
  token : LockManager.Token := ""
  run : CrawlRun := .noSlot
  durationMs : ℤ := 0
  deriving DecidableEq

def World.publishNow (w : World) (t : Turn) (event : ProgressEvent) : World :=
  if t.lost then w else { w with published := w.published ++ [event] }

inductive Pc
  | findById
  | markStatus (link : Link)
  | publishChecking (link : Link)
  | crawl (link : Link)
  | saveResult (link : Link) (result : CrawlAndAnalyzeResult) (now : ℤ)
  | publishSaved (link saved : Link)
  | resolved
  | rejected
  deriving DecidableEq

structure ProcessOne where
  linkId : LinkId
  pc : Pc := .findById
  deriving DecidableEq

def checkingEvent (linkId : LinkId) (link : Link) : LinkUpdated where
  linkId := linkId
  projectId := link.projectId
  status := .CHECKING
  linkFound := none
  occurrencesCount := 0
  donorStatusCode := none
  error := none
  lastCheckedAt := none

def savedEvent (linkId : LinkId) (link saved : Link) : LinkUpdated where
  linkId := linkId
  projectId := link.projectId
  status := saved.status
  linkFound := saved.linkFound
  occurrencesCount := saved.occurrencesCount
  donorStatusCode := saved.donorStatusCode
  error := saved.error
  lastCheckedAt := saved.lastCheckedAt

/-- `crawlAndAnalyze` and the publisher never reject; a statement rejects when the database is
unreachable or, for an update, when the row is gone. -/
def ProcessOne.move (newURL : UrlParser) (w : World) (p : ProcessOne) (t : Turn) :
    Option (World × ProcessOne) :=
  match p.pc with
  | .findById =>
    if t.rejects then some (w, { p with pc := .rejected })
    else match findById w.db p.linkId with
      | none => some (w, { p with pc := .resolved })
      | some link => some (w, { p with pc := .markStatus link })
  | .markStatus link =>
    if t.rejects then some (w, { p with pc := .rejected })
    else match LinkRepository.markStatus w.db p.linkId .CHECKING with
      | none => some (w, { p with pc := .rejected })
      | some db => some ({ w with db }, { p with pc := .publishChecking link })
  | .publishChecking link =>
    some (w.publishNow t (.link_updated (checkingEvent p.linkId link)), { p with pc := .crawl link })
  | .crawl link =>
    -- `saveResult` evaluates `new Date()` before it sends the update
    let result := crawlAndAnalyze newURL link.donorUrl link.acceptorRaw t.run t.durationMs
    some ({ w with crawls := w.crawls ++ [p.linkId] },
      { p with pc := .saveResult link result t.now })
  | .saveResult link result now =>
    if t.rejects then some (w, { p with pc := .rejected })
    else match LinkRepository.saveResult w.db p.linkId result now with
      | none => some (w, { p with pc := .rejected })
      | some (saved, db) =>
        some ({ w with db, stored := w.stored ++ [⟨p.linkId, result, now⟩] },
          { p with pc := .publishSaved link saved })
  | .publishSaved link saved =>
    some (w.publishNow t (.link_updated (savedEvent p.linkId link saved)),
      { p with pc := .resolved })
  | .resolved => none
  | .rejected => none

def ProcessOne.settled (p : ProcessOne) : Bool :=
  match p.pc with
  | .resolved | .rejected => true
  | _ => false

def ProcessOne.unsaved (p : ProcessOne) : Bool :=
  match p.pc with
  | .findById | .markStatus _ | .publishChecking _ | .crawl _ | .saveResult .. => true
  | _ => false

def ProcessOne.inFlight (p : ProcessOne) : Bool :=
  match p.pc with
  | .markStatus _ | .publishChecking _ | .crawl _ | .saveResult .. => true
  | _ => false

def ProcessOne.checking (p : ProcessOne) : Bool :=
  match p.pc with
  | .publishChecking _ | .crawl _ | .saveResult .. => true
  | _ => false

def ProcessOne.uncrawled (p : ProcessOne) : Bool :=
  match p.pc with
  | .findById | .markStatus _ | .publishChecking _ | .crawl _ => true
  | _ => false

end LinkBulker.SingleLink
