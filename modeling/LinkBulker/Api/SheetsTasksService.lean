import LinkBulker.Api.LinksService
import LinkBulker.Db.Ownership
import LinkBulker.Shared.SheetsSchemas

/-! `apps/api/src/modules/sheets-tasks/sheets-tasks.service.ts`, and what the requests that create
and change the settings of a sheets task keep of them. -/

namespace LinkBulker.SheetsTasksService

open Foundations Db Shared

def assertProject (db : Database) (userId : UserId) (projectId : ProjectId) : Except String Unit :=
  LinksService.assertProject db userId projectId

def findOwnedTask (db : Database) (userId : UserId) (taskId : SheetsTaskId) :
    Except String SheetsTask :=
  match db.sheetsTasks.find? taskId with
  | none => .error "Sheets task not found"
  | some task =>
    match db.projects.find? task.projectId with
    | none => .error "Sheets task not found"
    | some project =>
      if project.userId ≠ userId then .error "Sheets task not found" else .ok task

theorem findOwnedTask_eq (db : Database) (userId : UserId) (taskId : SheetsTaskId) :
    findOwnedTask db userId taskId =
      match (db.sheetsTasks.find? taskId).filter fun task => db.owns userId task.projectId with
      | none => .error "Sheets task not found"
      | some task => .ok task := by
  unfold findOwnedTask
  cases htask : db.sheetsTasks.find? taskId with
  | none => rfl
  | some task =>
    rw [Option.filter_some, Database.owns, belongs_eq_find?]
    cases hproject : db.projects.find? task.projectId with
    | none => simp [hproject]
    | some project => by_cases hu : project.userId = userId <;> simp [hproject, hu]

inductive SchedulerCall
  | upsertSchedule (taskId : SheetsTaskId) (cron : String)
  | removeSchedule (taskId : SheetsTaskId)
  deriving DecidableEq

def createdTask (projectId : ProjectId) (dto : CreateSheetsTaskInput) (cuid : SheetsTaskId)
    (now : ℤ) : SheetsTask where
  id := cuid
  projectId
  name := dto.name
  spreadsheetId := dto.spreadsheetId
  sheetGid := dto.sheetGid
  donorColumn := dto.donorColumn
  acceptorColumn := dto.acceptorColumn
  resultStartCol := dto.resultStartCol
  headerRow := dto.headerRow
  dataStartRow := dto.dataStartRow
  dataStartRow_pos := dto.dataStartRow.2.1
  scheduleCron := dto.scheduleCron.map Subtype.val
  updatedAt := now

def create (db : Database) (userId : UserId) (projectId : ProjectId) (dto : CreateSheetsTaskInput)
    (cuid : SheetsTaskId) (now : ℤ) : Except String (Database × List SchedulerCall) :=
  match assertProject db userId projectId with
  | .error message => .error message
  | .ok () =>
    match db.sheetsTasks.insertMany [createdTask projectId dto cuid now] with
    | none => .error "Unique constraint failed on the fields: (id)"
    | some sheetsTasks =>
      let calls := match dto.scheduleCron with
        | some cron => if cron.val = "" then [] else [.upsertSchedule cuid cron]
        | none => []
      .ok ({ db with sheetsTasks }, calls)

/-- What the update makes of the row: a field given as `undefined` keeps the stored value, and
`updatedAt` is rewritten. -/
def updateData (dto : UpdateSheetsTaskInput) (now : ℤ) (task : SheetsTask) : SheetsTask :=
  { task with
    name := (dto.name.map Subtype.val).getD task.name
    spreadsheetId := (dto.spreadsheetId.map Subtype.val).getD task.spreadsheetId
    sheetGid := dto.sheetGid.getD task.sheetGid
    donorColumn := (dto.donorColumn.map Subtype.val).getD task.donorColumn
    acceptorColumn := (dto.acceptorColumn.map Subtype.val).getD task.acceptorColumn
    resultStartCol := (dto.resultStartCol.map Subtype.val).getD task.resultStartCol
    headerRow := (dto.headerRow.map Subtype.val).getD task.headerRow
    dataStartRow := (dto.dataStartRow.map Subtype.val).getD task.dataStartRow
    dataStartRow_pos := by
      cases dto.dataStartRow with
      | none => exact task.dataStartRow_pos
      | some n => exact n.2.1
    scheduleCron := (dto.scheduleCron.map Subtype.val).or task.scheduleCron
    updatedAt := now }

theorem updateData_id (dto : UpdateSheetsTaskInput) (now : ℤ) (task : SheetsTask) :
    (updateData dto now task).id = task.id := rfl

def update (db : Database) (userId : UserId) (taskId : SheetsTaskId) (dto : UpdateSheetsTaskInput)
    (now : ℤ) : Except String (Database × List SchedulerCall) :=
  match findOwnedTask db userId taskId with
  | .error message => .error message
  | .ok _ =>
    match db.sheetsTasks.update taskId (updateData dto now) (updateData_id dto now) with
    | none => .error "Record to update not found."
    | some sheetsTasks =>
      let calls := match dto.scheduleCron with
        | some cron => if cron.val = "" then [.removeSchedule taskId] else [.upsertSchedule taskId cron]
        | none => []
      .ok ({ db with sheetsTasks }, calls)

structure CountedTask where
  task : SheetsTask
  linksCount : ℕ
  deriving DecidableEq

def count (db : Database) (task : SheetsTask) : CountedTask where
  task
  linksCount := db.links.rows.countP fun l => l.sheetsTaskId == some task.id

def list (db : Database) (userId : UserId) (projectId : ProjectId) :
    Except String (List CountedTask) :=
  match assertProject db userId projectId with
  | .error message => .error message
  | .ok () =>
    .ok ((db.sheetsTasks.rows.filter fun task => task.projectId == projectId).map (count db)).reverse

def remove (db : Database) (userId : UserId) (taskId : SheetsTaskId) :
    Except String (Database × List SchedulerCall) :=
  match findOwnedTask db userId taskId with
  | .error message => .error message
  | .ok _ => .ok (db.deleteSheetsTask taskId, [.removeSchedule taskId])

theorem remove_eq_ok {db db' : Database} {userId : UserId} {taskId : SheetsTaskId}
    {calls : List SchedulerCall} (h : remove db userId taskId = .ok (db', calls)) :
    db' = db.deleteSheetsTask taskId ∧ calls = [.removeSchedule taskId] := by
  unfold remove at h
  split at h
  · cases h
  · cases h
    exact ⟨rfl, rfl⟩

/-- `isLocked` is asked about the sheets lock of the task's project. -/
def runNow (db : Database) (isLocked : ProjectId → Bool) (userId : UserId) (taskId : SheetsTaskId) :
    Except String SheetsTaskRunJobData :=
  match findOwnedTask db userId taskId with
  | .error message => .error message
  | .ok task =>
    if isLocked task.projectId then .error "A sheets task is already running for this project"
    else .ok ⟨taskId, none⟩

theorem find?_of_findOwnedTask {db : Database} {userId : UserId} {taskId : SheetsTaskId}
    {task : SheetsTask} (h : findOwnedTask db userId taskId = .ok task) :
    db.sheetsTasks.find? taskId = some task ∧ db.owns userId task.projectId := by
  rw [findOwnedTask_eq] at h
  split at h
  · cases h
  · rename_i found hfound
    cases h
    exact Option.filter_eq_some_iff.mp hfound

inductive Request
  | create (userId : UserId) (projectId : ProjectId) (dto : CreateSheetsTaskInput)
      (cuid : SheetsTaskId) (now : ℤ)
  | update (userId : UserId) (taskId : SheetsTaskId) (dto : UpdateSheetsTaskInput) (now : ℤ)

def Request.serve (db : Database) : Request → Except String (Database × List SchedulerCall)
  | .create userId projectId dto cuid now =>
    SheetsTasksService.create db userId projectId dto cuid now
  | .update userId taskId dto now => SheetsTasksService.update db userId taskId dto now

def Request.apply (db : Database) (r : Request) : Database :=
  match r.serve db with
  | .ok (db', _) => db'
  | .error _ => db

structure Accepted (task : SheetsTask) : Prop where
  donorColumn : isColumnLetter task.donorColumn
  acceptorColumn : isColumnLetter task.acceptorColumn
  resultStartCol : isColumnLetter task.resultStartCol
  headerRow : task.headerRow ≤ 10
  dataStartRow : 1 ≤ task.dataStartRow ∧ task.dataStartRow ≤ 1000

theorem accepted_createdTask (projectId : ProjectId) (dto : CreateSheetsTaskInput)
    (cuid : SheetsTaskId) (now : ℤ) : Accepted (createdTask projectId dto cuid now) where
  donorColumn := dto.donorColumn.2
  acceptorColumn := dto.acceptorColumn.2
  resultStartCol := dto.resultStartCol.2
  headerRow := dto.headerRow.2.2
  dataStartRow := dto.dataStartRow.2

theorem getD_map_val {α : Type} {P : α → Prop} (x : Option {a // P a}) {y : α} (hy : P y) :
    P ((x.map Subtype.val).getD y) := by
  cases x with
  | none => exact hy
  | some a => exact a.2

theorem Accepted.updateData {task : SheetsTask} (h : Accepted task) (dto : UpdateSheetsTaskInput)
    (now : ℤ) : Accepted (updateData dto now task) where
  donorColumn := getD_map_val (P := fun s => isColumnLetter s) _ h.donorColumn
  acceptorColumn := getD_map_val (P := fun s => isColumnLetter s) _ h.acceptorColumn
  resultStartCol := getD_map_val (P := fun s => isColumnLetter s) _ h.resultStartCol
  headerRow :=
    (getD_map_val (P := fun n => 0 ≤ n ∧ n ≤ 10) _ ⟨Nat.zero_le _, h.headerRow⟩).2
  dataStartRow := getD_map_val (P := fun n => 1 ≤ n ∧ n ≤ 1000) _ h.dataStartRow

theorem Request.accepted {db : Database} (h : ∀ task ∈ db.sheetsTasks.rows, Accepted task)
    (r : Request) : ∀ task ∈ (r.apply db).sheetsTasks.rows, Accepted task := by
  intro task htask
  unfold Request.apply at htask
  split at htask
  · rename_i db' calls hserve
    cases r with
    | create userId projectId dto cuid now =>
      simp only [Request.serve, SheetsTasksService.create] at hserve
      split at hserve
      · cases hserve
      · split at hserve
        · cases hserve
        · rename_i sheetsTasks hinsert
          cases hserve
          rw [Table.insertMany_eq_some.mp hinsert] at htask
          obtain htask | htask := List.mem_append.mp htask
          · exact h task htask
          · rw [List.mem_singleton.mp htask]
            exact accepted_createdTask projectId dto cuid now
    | update userId taskId dto now =>
      simp only [Request.serve, SheetsTasksService.update] at hserve
      split at hserve
      · cases hserve
      · split at hserve
        · cases hserve
        · rename_i sheetsTasks hupdate
          cases hserve
          obtain ⟨-, rfl⟩ := Table.update_eq_some.mp hupdate
          have hmem : task ∈ (db.sheetsTasks.updateWhere (fun r => r.id = taskId)
            (updateData dto now) (updateData_id dto now)).rows := htask
          obtain ⟨before, hbefore, rfl⟩ := Table.mem_updateWhere.mp hmem
          split
          · exact (h before hbefore).updateData dto now
          · exact h before hbefore
  · exact h task htask

/-- Whatever has been requested, every task is within the schemas. -/
theorem accepted_of_requests {db : Database} (h : ∀ task ∈ db.sheetsTasks.rows, Accepted task)
    (requests : List Request) :
    ∀ task ∈ (requests.foldl Request.apply db).sheetsTasks.rows, Accepted task := by
  induction requests generalizing db with
  | nil => exact h
  | cons r requests ih => exact ih (r.accepted h)

end LinkBulker.SheetsTasksService
