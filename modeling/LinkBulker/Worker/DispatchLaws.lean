import LinkBulker.Worker.CheckHistory
import LinkBulker.Worker.Dispatch
import LinkBulker.Worker.ProjectLockLaws

namespace LinkBulker.Dispatch

open Foundations Db Shared LinkRepository SingleLink Worker
open ProjectLock (Act Check)

variable {newURL : UrlParser} {clock : Sheets.LocalClock} {owner : LinkId → LinkInput}
  {s s' : State} {l : Label newURL}

inductive Does (clock : Sheets.LocalClock) (s : State) : Label newURL → State → Prop
  | asked {a : Ask} : Does clock s (.ask a) { s with requests := s.requests ++ [a.request] }
  | bulk {i : ℕ} {now : ℤ} {r r' : BulkQueue.Request} {manualQueue : List BulkQueue.Queued}
    (hget : s.requests[i]? = some (.startManualCheck r))
    (hm : r.move s.world s.manualQueue now = some (manualQueue, r')) :
    Does clock s (.serve i now)
      { s with manualQueue, requests := s.requests.set i (.startManualCheck r') }
  | recheck {i : ℕ} {now : ℤ} {r r' : RecheckOne.Request} {server : RecheckOne.Server}
    (hget : s.requests[i]? = some (.recheckOne r))
    (hm : r.move ⟨s.world.db, s.world.clock, s.singleLinkQueue, []⟩ ⟨isLocked s.world r now, now⟩ =
      some (server, r')) :
    Does clock s (.serve i now) { s with
      world := { s.world with db := server.db }
      singleLinkQueue := server.singleLinkQueue
      requests := s.requests.set i (.recheckOne r') }
  | run {i : ℕ} {now : ℤ} {r r' : RunNow.Request} {sheetsQueue : List SheetsTaskRunJobData}
    (hget : s.requests[i]? = some (.runNow r))
    (hm : r.move s.world s.sheetsQueue now = some (sheetsQueue, r')) :
    Does clock s (.serve i now) { s with sheetsQueue, requests := s.requests.set i (.runNow r') }
  | created {cuid : ℕ → LinkId} {userId : UserId} {projectId : ProjectId}
    {dto : LinksService.CreateManualLinksInput newURL} {db : Database}
    (h : LinksService.createManualLinks newURL cuid s.world.db userId projectId dto = .ok db) :
    Does clock s (.createManualLinks cuid userId projectId dto)
      { s with world := { s.world with db } }
  | refused {cuid : ℕ → LinkId} {userId : UserId} {projectId : ProjectId}
    {dto : LinksService.CreateManualLinksInput newURL} :
    Does clock s (.createManualLinks cuid userId projectId dto) s
  | deleted {r : LinksService.Request} :
    Does clock s (.delete r) { s with world := { s.world with db := r.apply s.world.db } }
  | scheduled {sheetsTaskId : SheetsTaskId} :
    Does clock s (.schedule sheetsTaskId)
      { s with sheetsQueue := s.sheetsQueue ++ [⟨sheetsTaskId, some true⟩] }
  | tookManual {q : BulkQueue.Queued} (hq : s.manualQueue[s.manualTaken]? = some q) :
    Does clock s .takeManual { s with
      manualTaken := s.manualTaken + 1, checks := s.checks ++ [.manual { job := q.data }] }
  | tookSheets {job : SheetsTaskRunJobData} (hjob : s.sheetsQueue[s.sheetsTaken]? = some job) :
    Does clock s .takeSheets { s with
      sheetsTaken := s.sheetsTaken + 1, checks := s.checks ++ [.sheets (.find job.sheetsTaskId)] }
  | tookSingle {job : SingleLinkJobData}
    (hjob : s.singleLinkQueue[s.singles.length]? = some job) :
    Does clock s .takeSingle { s with singles := s.singles ++ [⟨job.linkId, .findById⟩] }
  | worked {i : ℕ} {a : Act} {c c' : Check} {world : World} (hget : s.checks[i]? = some c)
    (hm : c.move newURL clock s.world a = some (world, c')) :
    Does clock s (.work i a) { s with world, checks := s.checks.set i c' }
  | checked {j : ℕ} {t : Turn} {c c' : ProcessOne} {world : World}
    (hget : s.singles[j]? = some c) (hm : c.move newURL s.world t = some (world, c')) :
    Does clock s (.check j t) { s with world, singles := s.singles.set j c' }

theorem serve_eq_some {i : ℕ} {now : ℤ} (hl : l = .serve i now)
    (h : s.move clock l = some s') : Does clock s l s' := by
  subst hl
  simp only [State.move, Option.map_eq_some_iff, Prod.exists] at h
  obtain ⟨t, requests, hstep, rfl⟩ := h
  obtain ⟨r, r', hget, hm, rfl⟩ := Pool.step_eq_some.mp hstep
  cases r with
  | startManualCheck r =>
    simp only [Request.move, Option.map_eq_some_iff, Prod.exists, Prod.mk.injEq] at hm
    obtain ⟨queue, r₁, hm, rfl, rfl⟩ := hm
    exact .bulk hget hm
  | recheckOne r =>
    simp only [Request.move, Option.map_eq_some_iff, Prod.exists, Prod.mk.injEq] at hm
    obtain ⟨server, r₁, hm, rfl, rfl⟩ := hm
    exact .recheck hget hm
  | runNow r =>
    simp only [Request.move, Option.map_eq_some_iff, Prod.exists, Prod.mk.injEq] at hm
    obtain ⟨queue, r₁, hm, rfl, rfl⟩ := hm
    exact .run hget hm

theorem move_eq_some (h : s.move clock l = some s') : Does clock s l s' := by
  cases l with
  | ask a =>
    cases h
    exact .asked
  | serve i now => exact serve_eq_some rfl h
  | createManualLinks cuid userId projectId dto =>
    simp only [State.move] at h
    split at h
    · cases h
      exact .refused
    · rename_i db hdb
      cases h
      exact .created hdb
  | delete r =>
    cases h
    exact .deleted
  | schedule sheetsTaskId =>
    cases h
    exact .scheduled
  | takeManual =>
    simp only [State.move] at h
    split at h
    · cases h
    · rename_i q hq
      cases h
      exact .tookManual hq
  | takeSheets =>
    simp only [State.move] at h
    split at h
    · cases h
    · rename_i job hjob
      cases h
      exact .tookSheets hjob
  | takeSingle =>
    simp only [State.move] at h
    split at h
    · cases h
    · rename_i job hjob
      cases h
      exact .tookSingle hjob
  | work i a =>
    simp only [State.move, Option.map_eq_some_iff, Prod.exists] at h
    obtain ⟨world, checks, hstep, rfl⟩ := h
    obtain ⟨c, c', hget, hm, rfl⟩ := Pool.step_eq_some.mp hstep
    exact .worked hget hm
  | check j t =>
    simp only [State.move, Option.map_eq_some_iff, Prod.exists] at h
    obtain ⟨world, singles, hstep, rfl⟩ := h
    obtain ⟨c, c', hget, hm, rfl⟩ := Pool.step_eq_some.mp hstep
    exact .checked hget hm

theorem step_eq_some (h : step clock owner s l = some s') :
    s.world.clock ≤ l.now s.world.clock ∧ Does clock (s.at_ (l.now s.world.clock)) l s' ∧
      Named owner s'.world.db := by
  unfold step at h
  split at h
  · rename_i hclock
    obtain ⟨hmove, hnamed⟩ := Option.filter_eq_some_iff.mp h
    exact ⟨hclock, move_eq_some hmove, of_decide_eq_true hnamed⟩
  · cases h

section Examples

def serves (i n : ℕ) (now : ℤ) : List (Label Crawler.exampleURL) := List.replicate n (.serve i now)

def works (n : ℕ) (now : ℤ) : List (Label Crawler.exampleURL) :=
  List.replicate n (.work 0 (.manual (.main { now, token := "t" })))

def children (n : ℕ) (now : ℤ) (run : Crawler.CrawlRun) : List (Label Crawler.exampleURL) :=
  List.replicate n (.work 0 (.manual (.child 0 { now, run })))

def checks (n : ℕ) (now : ℤ) (run : Crawler.CrawlRun) : List (Label Crawler.exampleURL) :=
  List.replicate n (.check 0 { now, run })

def oneLink : Database := exampleDatabase ⟨[exampleLink "a"], by decide⟩ .empty

def bothAsked : List (Label Crawler.exampleURL) :=
  [.ask (.recheckOne "u" "a"), .ask (.startManualCheck "u" "p")] ++ serves 0 6 100000 ++
    serves 1 4 100000 ++ [.takeManual, .takeSingle] ++ works 4 100001

end Examples

end LinkBulker.Dispatch
