import LinkBulker.Api.ProjectsService
import LinkBulker.Api.SheetsTasksService
import LinkBulker.Foundations.Pool
import LinkBulker.Foundations.Run

/-! The job schedulers of the sheets tasks: `create`, `update` and `remove` of `SheetsTasksService`
and `ProjectsService.remove` on their awaits, any number of requests at once.  BullMQ keeps the
schedulers by their id. -/

namespace LinkBulker.SheetsSchedules

open Foundations Db Shared SheetsTasksService

structure JobScheduler where
  id : String
  pattern : String
  name : String := "sheets-task-run"
  data : SheetsTaskRunJobData
  removeOnComplete : ℕ := 100
  removeOnFail : ℕ := 100
  deriving DecidableEq

def schedulerId (taskId : SheetsTaskId) : String := "sheets-task-" ++ taskId

theorem schedulerId_injective : Function.Injective schedulerId := by
  intro t t' h
  exact (String.append_right_inj "sheets-task-").mp h

def taskScheduler (taskId : SheetsTaskId) (cron : String) : JobScheduler where
  id := schedulerId taskId
  pattern := cron
  data := ⟨taskId, some true⟩

structure Store where
  db : Database
  schedulers : Table JobScheduler.id := .empty

def callTask : SchedulerCall → SheetsTaskId
  | .upsertSchedule taskId _ | .removeSchedule taskId => taskId

def callScheduler : SchedulerCall → Option JobScheduler
  | .upsertSchedule taskId cron => some (taskScheduler taskId cron)
  | .removeSchedule _ => none

def applyCall (schedulers : Table JobScheduler.id) : SchedulerCall → Table JobScheduler.id
  | .upsertSchedule taskId cron => schedulers.upsert (taskScheduler taskId cron)
  | .removeSchedule taskId => schedulers.delete (schedulerId taskId)

/-- The row of `create` and `update`, or `{ ok: true }`. -/
inductive Answer
  | task (task : SheetsTask)
  | ok
  deriving DecidableEq

/-- A request stands at one of its awaits, with the locals it needs from there on: `create` at the
first two, `update` at the next two, which both go on to their scheduler call, `remove` at the
three after that and `ProjectsService.remove` at the last two. -/
inductive Request
  | assertProject (userId : UserId) (projectId : ProjectId) (dto : CreateSheetsTaskInput)
  | createRow (projectId : ProjectId) (dto : CreateSheetsTaskInput)
  | findOwnedTask (userId : UserId) (taskId : SheetsTaskId) (dto : UpdateSheetsTaskInput)
  | updateRow (taskId : SheetsTaskId) (dto : UpdateSheetsTaskInput)
  | schedule (call : SchedulerCall) (answer : Answer)
  | findRemoved (userId : UserId) (taskId : SheetsTaskId)
  | removeSchedule (taskId : SheetsTaskId)
  | deleteRow (taskId : SheetsTaskId)
  | getById (userId : UserId) (projectId : ProjectId)
  | deleteProject (projectId : ProjectId)
  | answered (answer : Except String Answer)

def createCall (cuid : SheetsTaskId) (dto : CreateSheetsTaskInput) : Option SchedulerCall :=
  match dto.scheduleCron with
  | some cron => if cron.val = "" then none else some (.upsertSchedule cuid cron)
  | none => none

def updateCall (taskId : SheetsTaskId) (dto : UpdateSheetsTaskInput) : Option SchedulerCall :=
  match dto.scheduleCron with
  | some cron =>
    some (if cron.val = "" then .removeSchedule taskId else .upsertSchedule taskId cron)
  | none => none

def Request.after (task : SheetsTask) : Option SchedulerCall → Request
  | none => .answered (.ok (.task task))
  | some call => .schedule call (.task task)

structure Turn where
  cuid : SheetsTaskId := ""
  now : ℤ := 0

def Request.move (s : Store) (r : Request) (t : Turn) : Option (Store × Request) :=
  match r with
  | .assertProject userId projectId dto =>
    match SheetsTasksService.assertProject s.db userId projectId with
    | .error message => some (s, .answered (.error message))
    | .ok () => some (s, .createRow projectId dto)
  | .createRow projectId dto =>
    if (s.db.projects.find? projectId).isNone then
      some (s, .answered (.error "Foreign key constraint violated on the fields: (projectId)"))
    else
      match s.db.sheetsTasks.insertMany [createdTask projectId dto t.cuid t.now] with
      | none => some (s, .answered (.error "Unique constraint failed on the fields: (id)"))
      | some sheetsTasks => some ({ s with db := { s.db with sheetsTasks } },
          .after (createdTask projectId dto t.cuid t.now) (createCall t.cuid dto))
  | .findOwnedTask userId taskId dto =>
    match SheetsTasksService.findOwnedTask s.db userId taskId with
    | .error message => some (s, .answered (.error message))
    | .ok _ => some (s, .updateRow taskId dto)
  | .updateRow taskId dto =>
    match s.db.sheetsTasks.find? taskId with
    | none => some (s, .answered (.error "Record to update not found."))
    | some task =>
      let sheetsTasks := s.db.sheetsTasks.updateWhere (fun t => t.id = taskId)
        (updateData dto t.now) (updateData_id dto t.now)
      some ({ s with db := { s.db with sheetsTasks } },
        .after (updateData dto t.now task) (updateCall taskId dto))
  | .schedule call answer =>
    some ({ s with schedulers := applyCall s.schedulers call }, .answered (.ok answer))
  | .findRemoved userId taskId =>
    match SheetsTasksService.findOwnedTask s.db userId taskId with
    | .error message => some (s, .answered (.error message))
    | .ok _ => some (s, .removeSchedule taskId)
  | .removeSchedule taskId =>
    some ({ s with schedulers := applyCall s.schedulers (.removeSchedule taskId) },
      .deleteRow taskId)
  | .deleteRow taskId =>
    match s.db.sheetsTasks.find? taskId with
    | none => some (s, .answered (.error "Record to delete does not exist."))
    | some _ => some ({ s with db := s.db.deleteSheetsTask taskId }, .answered (.ok .ok))
  | .getById userId projectId =>
    match ProjectsService.getById s.db userId projectId with
    | .error message => some (s, .answered (.error message))
    | .ok _ => some (s, .deleteProject projectId)
  | .deleteProject projectId =>
    match ProjectsService.deleteRow s.db projectId with
    | .error message => some (s, .answered (.error message))
    | .ok db => some ({ s with db }, .answered (.ok .ok))
  | .answered _ => none

/-- Undisturbed, a removal does what `SheetsTasksService.remove` does. -/
theorem exec_remove (s : Store) (userId : UserId) (taskId : SheetsTaskId) :
    ∃ turns p, exec (fun p t => Request.move p.1 p.2 t) (s, .findRemoved userId taskId) turns =
        some p ∧
      p = match SheetsTasksService.remove s.db userId taskId with
        | .error message => (s, .answered (.error message))
        | .ok (db, calls) => (⟨db, calls.foldl applyCall s.schedulers⟩, .answered (.ok .ok)) := by
  unfold SheetsTasksService.remove
  cases hfound : SheetsTasksService.findOwnedTask s.db userId taskId with
  | error message =>
    refine exists_exec_cons (a := {}) (t := (s, .answered (.error message))) ?_ (exists_exec_nil rfl)
    simp [Request.move, hfound]
  | ok task =>
    obtain ⟨hfind, -⟩ := find?_of_findOwnedTask hfound
    refine exists_exec_cons (a := {}) (t := (s, .removeSchedule taskId)) ?_ ?_
    · simp [Request.move, hfound]
    refine exists_exec_cons (a := {}) rfl ?_
    refine exists_exec_cons (a := {}) ?_ (exists_exec_nil rfl)
    simp [Request.move, hfind]

inductive Op
  | create (userId : UserId) (projectId : ProjectId) (dto : CreateSheetsTaskInput)
  | update (userId : UserId) (taskId : SheetsTaskId) (dto : UpdateSheetsTaskInput)
  | remove (userId : UserId) (taskId : SheetsTaskId)
  | removeProject (userId : UserId) (projectId : ProjectId)

def Op.start : Op → Request
  | .create userId projectId dto => .assertProject userId projectId dto
  | .update userId taskId dto => .findOwnedTask userId taskId dto
  | .remove userId taskId => .findRemoved userId taskId
  | .removeProject userId projectId => .getById userId projectId

structure State where
  store : Store
  requests : List Request := []

inductive Label
  | request (op : Op)
  | move (i : ℕ) (t : Turn)

def step (s : State) : Label → Option State
  | .request op => some { s with requests := s.requests ++ [op.start] }
  | .move i t =>
    (Pool.step Request.move s.store s.requests i t).map fun p => ⟨p.1, p.2⟩

def Request.isOver : Request → Bool
  | .answered _ => true
  | _ => false

/-- One scheduler for each task with a non-empty `scheduleCron`, with that pattern, and no other. -/
def Mirrors (s : Store) : Prop :=
  ∀ scheduler, scheduler ∈ s.schedulers.rows ↔ ∃ task ∈ s.db.sheetsTasks.rows,
    ∃ cron, task.scheduleCron = some cron ∧ cron ≠ "" ∧ scheduler = taskScheduler task.id cron

end LinkBulker.SheetsSchedules
