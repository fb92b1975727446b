import LinkBulker.Api.RecheckOne
import LinkBulker.Api.SheetsTasksService
import LinkBulker.Worker.BulkQueue
import LinkBulker.Worker.ProjectLock

/-! The three queues that lead to `processOne`, from the requests to the workers: `startManualCheck`
on `manual-check`, `recheckOne` on `single-link`, `runNow` and the schedulers on
`sheets-task-run`. -/

namespace LinkBulker.Dispatch

open Foundations Db Shared LinkRepository SingleLink Worker
open ProjectLock (Act Check View lockFree)

namespace RunNow

inductive Pc
  | findOwnedTask
  | isLocked (task : SheetsTask)
  | add
  | over (answer : Except String ℕ)

structure Request where
  userId : UserId
  taskId : SheetsTaskId
  pc : Pc := .findOwnedTask

def Request.at_ (r : Request) (pc : Pc) : Request := { r with pc }

def Request.move (w : World) (queue : List SheetsTaskRunJobData) (r : Request) (now : ℤ) :
    Option (List SheetsTaskRunJobData × Request) :=
  match r.pc with
  | .findOwnedTask =>
    match SheetsTasksService.findOwnedTask w.db r.userId r.taskId with
    | .error message => some (queue, r.at_ (.over (.error message)))
    | .ok task => some (queue, r.at_ (.isLocked task))
  | .isLocked task =>
    if LockManager.isLocked (w.locks (REDIS_KEYS.projectSheetsLock task.projectId)) now then
      some (queue, r.at_ (.over (.error "A sheets task is already running for this project")))
    else some (queue, r.at_ .add)
  | .add => some (queue ++ [⟨r.taskId, none⟩], r.at_ (.over (.ok queue.length)))
  | .over _ => none

/-- Undisturbed, a request answers what `SheetsTasksService.runNow` does. -/
theorem exec_move (w : World) (queue : List SheetsTaskRunJobData) (userId : UserId)
    (taskId : SheetsTaskId) (now : ℤ) :
    ∃ times p, exec (fun p now => Request.move w p.1 p.2 now) (queue, { userId, taskId }) times =
        some p ∧
      p = match SheetsTasksService.runNow w.db
          (fun projectId => LockManager.isLocked (w.locks (REDIS_KEYS.projectSheetsLock projectId)) now)
          userId taskId with
        | .error message => (queue, ⟨userId, taskId, .over (.error message)⟩)
        | .ok job => (queue ++ [job], ⟨userId, taskId, .over (.ok queue.length)⟩) := by
  unfold SheetsTasksService.runNow
  cases hfound : SheetsTasksService.findOwnedTask w.db userId taskId with
  | error message =>
    refine exists_exec_cons (a := now) (t := (queue, ⟨userId, taskId, .over (.error message)⟩)) ?_
      (exists_exec_nil rfl)
    simp [Request.move, hfound, Request.at_]
  | ok task =>
    refine exists_exec_cons (a := now) (t := (queue, ⟨userId, taskId, .isLocked task⟩)) ?_ ?_
    · simp [Request.move, hfound, Request.at_]
    by_cases hlocked :
        LockManager.isLocked (w.locks (REDIS_KEYS.projectSheetsLock task.projectId)) now
    · refine exists_exec_cons (a := now) (if_pos hlocked) (exists_exec_nil ?_)
      simp [hlocked, Request.at_]
    · refine exists_exec_cons (a := now) (if_neg hlocked) ?_
      refine exists_exec_cons (a := now) rfl (exists_exec_nil ?_)
      simp [hlocked, Request.at_]

end RunNow

inductive Request
  | startManualCheck (r : BulkQueue.Request)
  | recheckOne (r : RecheckOne.Request)
  | runNow (r : RunNow.Request)

inductive Ask
  | startManualCheck (userId : UserId) (projectId : ProjectId)
  | recheckOne (userId : UserId) (linkId : LinkId)
  | runNow (userId : UserId) (taskId : SheetsTaskId)

def Ask.request : Ask → Request
  | .startManualCheck userId projectId => .startManualCheck { userId, projectId }
  | .recheckOne userId linkId => .recheckOne { userId, linkId }
  | .runNow userId taskId => .runNow { userId, taskId }

/-- The queues list every job ever added, oldest first, and of each the first ones have been taken:
`manualTaken`, `sheetsTaken` and as many as there are `singles`. -/
structure State where
  world : World
  requests : List Request := []
  manualQueue : List BulkQueue.Queued := []
  sheetsQueue : List SheetsTaskRunJobData := []
  singleLinkQueue : List SingleLinkJobData := []
  manualTaken : ℕ := 0
  sheetsTaken : ℕ := 0
  checks : List Check := []
  singles : List ProcessOne := []

def State.start (db : Database) (locks : String → LockManager.Key) (clock : ℤ) : State where
  world := { db, locks, clock }

def isLocked (w : World) (r : RecheckOne.Request) (now : ℤ) : Bool :=
  match r.pc with
  | .isLocked job => LockManager.isLocked (w.locks (REDIS_KEYS.projectManualLock job.projectId)) now
  | _ => false

def Request.move (s : State) (r : Request) (now : ℤ) : Option (State × Request) :=
  match r with
  | .startManualCheck r => (r.move s.world s.manualQueue now).map fun a =>
    ({ s with manualQueue := a.1 }, .startManualCheck a.2)
  | .recheckOne r =>
    (r.move ⟨s.world.db, s.world.clock, s.singleLinkQueue, []⟩ ⟨isLocked s.world r now, now⟩).map
      fun a => ({ s with
        world := { s.world with db := a.1.db }, singleLinkQueue := a.1.singleLinkQueue },
        .recheckOne a.2)
  | .runNow r => (r.move s.world s.sheetsQueue now).map fun a =>
    ({ s with sheetsQueue := a.1 }, .runNow a.2)

/-- A request comes in, the `i`-th one takes a step, a scheduler adds its job, a worker takes the
next job of a queue, the `i`-th bulk job or the `j`-th single-link job moves. -/
inductive Label (newURL : UrlParser)
  | ask (a : Ask)
  | serve (i : ℕ) (now : ℤ)
  | createManualLinks (cuid : ℕ → LinkId) (userId : UserId) (projectId : ProjectId)
      (dto : LinksService.CreateManualLinksInput newURL)
  | delete (r : LinksService.Request)
  | schedule (sheetsTaskId : SheetsTaskId)
  | takeManual
  | takeSheets
  | takeSingle
  | work (i : ℕ) (a : Act)
  | check (j : ℕ) (t : Turn)

variable {newURL : UrlParser}

def Label.now (clock : ℤ) : Label newURL → ℤ
  | .serve _ now => now
  | .work _ a => a.turn.now
  | .check _ t => t.now
  | _ => clock

def State.at_ (s : State) (now : ℤ) : State := { s with world := { s.world with clock := now } }

def State.move (clock : Sheets.LocalClock) (s : State) : Label newURL → Option State
  | .ask a => some { s with requests := s.requests ++ [a.request] }
  | .serve i now => (Pool.step Request.move s s.requests i now).map fun r =>
    { r.1 with requests := r.2 }
  | .createManualLinks cuid userId projectId dto =>
    match LinksService.createManualLinks newURL cuid s.world.db userId projectId dto with
    | .error _ => some s
    | .ok db => some { s with world := { s.world with db } }
  | .delete r => some { s with world := { s.world with db := r.apply s.world.db } }
  | .schedule sheetsTaskId =>
    some { s with sheetsQueue := s.sheetsQueue ++ [⟨sheetsTaskId, some true⟩] }
  | .takeManual =>
    match s.manualQueue[s.manualTaken]? with
    | none => none
    | some q => some { s with
      manualTaken := s.manualTaken + 1, checks := s.checks ++ [.manual { job := q.data }] }
  | .takeSheets =>
    match s.sheetsQueue[s.sheetsTaken]? with
    | none => none
    | some job => some { s with
      sheetsTaken := s.sheetsTaken + 1, checks := s.checks ++ [.sheets (.find job.sheetsTaskId)] }
  | .takeSingle =>
    match s.singleLinkQueue[s.singles.length]? with
    | none => none
    | some job => some { s with singles := s.singles ++ [⟨job.linkId, .findById⟩] }
  | .work i a => (Pool.step (Check.move newURL clock) s.world s.checks i a).map fun r =>
    { s with world := r.1, checks := r.2 }
  | .check j t => (Pool.step (ProcessOne.move newURL) s.world s.singles j t).map fun r =>
    { s with world := r.1, singles := r.2 }

def Named (owner : LinkId → LinkInput) (db : Database) : Prop :=
  ∀ l ∈ db.links.rows, l.input = owner l.id

instance (owner : LinkId → LinkInput) (db : Database) : Decidable (Named owner db) :=
  inferInstanceAs (Decidable (∀ l ∈ db.links.rows, _))

def step (clock : Sheets.LocalClock) (owner : LinkId → LinkInput) (s : State) (l : Label newURL) :
    Option State :=
  if s.world.clock ≤ l.now s.world.clock then
    ((s.at_ (l.now s.world.clock)).move clock l).filter fun s' => Named owner s'.world.db
  else none

def State.bulkCalls (s : State) : List ProcessOne :=
  s.checks.flatMap fun c => (c.view.map fun v => v.batch.calls).getD []

def State.calls (s : State) : List ProcessOne := s.bulkCalls ++ s.singles

def inProgress (calls : List ProcessOne) (id : LinkId) : ℕ :=
  calls.countP fun c => c.linkId = id && c.checking

def Unexpired (s : State) (l : Label newURL) : Prop :=
  ∀ c ∈ s.checks, ∀ v ∈ c.view, v.stage.holds →
    lockFree v.kind v.projectId s.world (l.now s.world.clock) = false

/-- A call with a rejected `processOne` goes on to its release after its other ones have
settled. -/
def Waits (s : State) : Label newURL → Prop
  | .work i a => ∀ c ∈ s.checks[i]?, ∀ v ∈ c.view, v.stage = .clearing → a.main →
    (∃ call ∈ v.batch.calls, call.pc = .rejected) → v.batch.settled
  | _ => True

instance (s : State) (l : Label newURL) : Decidable (Unexpired s l) :=
  inferInstanceAs (Decidable (∀ c ∈ s.checks, ∀ v ∈ c.view, _ → _))

instance (s : State) : (l : Label newURL) → Decidable (Waits s l)
  | .work i _ =>
    inferInstanceAs (Decidable (∀ c ∈ s.checks[i]?, ∀ v ∈ c.view, _ → _ → _ → _))
  | .ask _ | .serve .. | .createManualLinks .. | .delete _ | .schedule _ | .takeManual
  | .takeSheets | .takeSingle | .check .. => .isTrue trivial

end LinkBulker.Dispatch
