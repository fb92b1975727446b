import Mathlib.Algebra.Ring.Int.Defs
import Mathlib.Data.List.Sort
import LinkBulker.Api.LinksService
import LinkBulker.Shared.Url

/-! `apps/api/src/modules/stats/stats.service.ts`: the figures of a project in one pass over its
links.  Quotients are exact before they are rounded. -/

namespace LinkBulker.StatsService

open Db Shared

inductive StatsScope
  | manual
  | sheets
  | all
  deriving DecidableEq

structure LinkSlim where
  donorUrl : String
  status : LinkStatus
  donorStatusCode : Option ℤ
  donorIndexable : Option Bool
  donorCanonical : Option String
  canonicalMatches : Option Bool
  linkFound : Option Bool
  occurrences : Option (List LinkOccurrence)
  checkDurationMs : Option ℤ
  deriving DecidableEq

def linkSlim (l : Link) : LinkSlim where
  donorUrl := l.donorUrl
  status := l.status
  donorStatusCode := l.donorStatusCode
  donorIndexable := l.donorIndexable
  donorCanonical := l.donorCanonical
  canonicalMatches := l.canonicalMatches
  linkFound := l.linkFound
  occurrences := l.occurrences
  checkDurationMs := l.checkDurationMs

structure Totals where
  total : ℕ
  done : ℕ := 0
  problem : ℕ := 0
  error : ℕ := 0
  pending : ℕ := 0
  deriving DecidableEq

structure FoundCounts where
  total : ℕ := 0
  dofollow : ℕ := 0
  nofollow : ℕ := 0
  deriving DecidableEq

structure HttpCounts where
  ok : ℕ := 0
  redirect : ℕ := 0
  notFound : ℕ := 0
  serverError : ℕ := 0
  other : ℕ := 0
  deriving DecidableEq

structure IndexableCounts where
  yes : ℕ := 0
  no : ℕ := 0
  unknown : ℕ := 0
  deriving DecidableEq

structure CanonicalCounts where
  match_ : ℕ := 0
  mismatch : ℕ := 0
  notFound : ℕ := 0
  unknown : ℕ := 0
  deriving DecidableEq

structure Timing where
  avgMs : Option ℤ
  p50Ms : Option ℤ
  p95Ms : Option ℤ
  deriving DecidableEq

structure ProblemDonor where
  donorHost : String
  problemCount : ℕ
  deriving DecidableEq

structure ProjectStats where
  scope : StatsScope
  totals : Totals
  found : FoundCounts
  http : HttpCounts
  indexable : IndexableCounts
  canonical : CanonicalCounts
  timing : Timing
  topProblemDonors : List ProblemDonor
  deriving DecidableEq

def NOFOLLOW_RELS : List String := ["nofollow", "sponsored", "ugc"]

def TOP_PROBLEM_LIMIT : ℕ := 10

def isOk (l : LinkSlim) : Bool := l.donorStatusCode.any fun code => 200 ≤ code && code < 300

def Totals.add (totals : Totals) (l : LinkSlim) : Totals :=
  match l.status with
  | .PENDING | .QUEUED | .CHECKING => { totals with pending := totals.pending + 1 }
  | .ERROR => { totals with error := totals.error + 1 }
  | .DONE =>
    let isFound := l.linkFound == some true
    let isIndexable := l.donorIndexable == some true
    if !isOk l || !isFound || !isIndexable then { totals with problem := totals.problem + 1 }
    else { totals with done := totals.done + 1 }

def hasDofollow (occurrences : List LinkOccurrence) : Bool :=
  occurrences.any fun o => !o.rel.any fun r => NOFOLLOW_RELS.contains (toLowerCase r)

def FoundCounts.add (found : FoundCounts) (l : LinkSlim) : FoundCounts :=
  if l.linkFound = some true then
    if hasDofollow (l.occurrences.getD []) then
      { found with total := found.total + 1, dofollow := found.dofollow + 1 }
    else { found with total := found.total + 1, nofollow := found.nofollow + 1 }
  else found

def HttpCounts.add (http : HttpCounts) (l : LinkSlim) : HttpCounts :=
  match l.donorStatusCode with
  | none => http
  | some code =>
    if 200 ≤ code ∧ code < 300 then { http with ok := http.ok + 1 }
    else if 300 ≤ code ∧ code < 400 then { http with redirect := http.redirect + 1 }
    else if code = 404 then { http with notFound := http.notFound + 1 }
    else if 500 ≤ code ∧ code < 600 then { http with serverError := http.serverError + 1 }
    else { http with other := http.other + 1 }

def IndexableCounts.add (indexable : IndexableCounts) (l : LinkSlim) : IndexableCounts :=
  match l.donorIndexable with
  | some true => { indexable with yes := indexable.yes + 1 }
  | some false => { indexable with no := indexable.no + 1 }
  | none => { indexable with unknown := indexable.unknown + 1 }

/-- A missing canonical is counted as such only once the check is done. -/
def CanonicalCounts.add (canonical : CanonicalCounts) (l : LinkSlim) : CanonicalCounts :=
  match l.donorCanonical, l.canonicalMatches with
  | none, _ =>
    if l.status = .DONE then { canonical with notFound := canonical.notFound + 1 }
    else { canonical with unknown := canonical.unknown + 1 }
  | some _, some true => { canonical with match_ := canonical.match_ + 1 }
  | some _, some false => { canonical with mismatch := canonical.mismatch + 1 }
  | some _, none => { canonical with unknown := canonical.unknown + 1 }

def addDuration (durations : List ℤ) (l : LinkSlim) : List ℤ :=
  match l.checkDurationMs with
  | some ms => if 0 < ms then durations ++ [ms] else durations
  | none => durations

def isProblem (l : LinkSlim) : Bool :=
  match l.status with
  | .ERROR => true
  | .DONE => !isOk l || l.linkFound != some true || l.donorIndexable != some true
  | .PENDING | .QUEUED | .CHECKING => false

def safeHostname (newURL : UrlParser) (url : String) : Option String :=
  (newURL url).map fun u =>
    if "www.".toList.isPrefixOf (toLowerCase u.hostname).toList then
      toLowerCase (String.ofList (u.hostname.toList.drop 4))
    else toLowerCase u.hostname

/-- A `Map` keeps its keys in the order they were first set. -/
def countHost (host : String) : List (String × ℕ) → List (String × ℕ)
  | [] => [(host, 1)]
  | (h, n) :: counts => if h = host then (h, n + 1) :: counts else (h, n) :: countHost host counts

def addProblemDonor (newURL : UrlParser) (problemDonorCount : List (String × ℕ)) (l : LinkSlim) :
    List (String × ℕ) :=
  if isProblem l then
    match safeHostname newURL l.donorUrl with
    | none => problemDonorCount
    | some host => if host = "" then problemDonorCount else countHost host problemDonorCount
  else problemDonorCount

structure Counted where
  totals : Totals
  found : FoundCounts := {}
  http : HttpCounts := {}
  indexable : IndexableCounts := {}
  canonical : CanonicalCounts := {}
  durations : List ℤ := []
  problemDonorCount : List (String × ℕ) := []

def Counted.add (newURL : UrlParser) (c : Counted) (l : LinkSlim) : Counted where
  totals := c.totals.add l
  found := c.found.add l
  http := c.http.add l
  indexable := c.indexable.add l
  canonical := c.canonical.add l
  durations := addDuration c.durations l
  problemDonorCount := addProblemDonor newURL c.problemDonorCount l

/-- `Math.round(a / b)`, halves upwards. -/
def roundDiv (a : ℤ) (b : ℕ) : ℤ := (2 * a + b) / (2 * b)

/-- Nearest rank, clamped to the last index; the fraction is `num / den`. -/
def percentile (sortedAsc : List ℤ) (num den : ℕ) : ℤ :=
  let idx := min (sortedAsc.length - 1) ((num * sortedAsc.length + den - 1) / den - 1)
  sortedAsc.getD idx 0

def computeTiming (durations : List ℤ) : Timing :=
  if durations.length = 0 then ⟨none, none, none⟩
  else
    let sorted := durations.mergeSort fun a b => a ≤ b
    ⟨some (roundDiv sorted.sum sorted.length), some (percentile sorted 1 2),
      some (percentile sorted 19 20)⟩

def aggregate (newURL : UrlParser) (links : List LinkSlim) (scope : StatsScope) : ProjectStats :=
  let counted := links.foldl (Counted.add newURL) { totals := { total := links.length } }
  { scope
    totals := counted.totals
    found := counted.found
    http := counted.http
    indexable := counted.indexable
    canonical := counted.canonical
    timing := computeTiming counted.durations
    topProblemDonors := ((counted.problemDonorCount.mergeSort fun a b => b.2 ≤ a.2).take
      TOP_PROBLEM_LIMIT).map fun (donorHost, problemCount) => ⟨donorHost, problemCount⟩ }

def inScope (projectId : ProjectId) (scope : StatsScope) (l : Link) : Bool :=
  l.projectId == projectId &&
    match scope with
    | .manual => l.source == .MANUAL
    | .sheets => l.source == .SHEETS
    | .all => true

def forProject (newURL : UrlParser) (db : Database) (userId : UserId) (projectId : ProjectId)
    (scope : StatsScope) : Except String ProjectStats :=
  match LinksService.assertProject db userId projectId with
  | .error message => .error message
  | .ok () =>
    .ok (aggregate newURL ((db.links.rows.filter (inScope projectId scope)).map linkSlim) scope)

end LinkBulker.StatsService
