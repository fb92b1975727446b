import LinkBulker.Api.LinksList
import LinkBulker.Api.ProjectsService
import LinkBulker.Api.RecheckOne
import LinkBulker.Api.SheetsTasksService
import LinkBulker.Api.StatsService
import LinkBulker.Foundations.TwoRuns
import LinkBulker.WorkerCore.LockManager

/-! The operations of the four services behind the REST controllers, one after the other: what each
does to the database, answers, enqueues and asks of the job scheduler. -/

namespace LinkBulker.Services

open Foundations Db Shared LinksService ProjectsService SheetsTasksService RecheckOne StatsService

/-- An operation with all that it is given: its arguments, the ids it draws, the clock where it
reads it and the order in which the database lists the rows of a page. -/
inductive Op (newURL : UrlParser)
  | listProjects
  | createProject (dto : CreateProjectInput) (cuid : ProjectId)
  | getProject (id : ProjectId)
  | updateProject (id : ProjectId) (dto : UpdateProjectInput)
  | removeProject (id : ProjectId)
  | listLinks (projectId : ProjectId) (query : ListLinksQuery) (order : List Link → List Link)
  | createManualLinks (projectId : ProjectId) (dto : CreateManualLinksInput newURL)
      (cuid : ℕ → LinkId)
  | deleteOne (linkId : LinkId)
  | deleteAllManual (projectId : ProjectId)
  | startManualCheck (projectId : ProjectId) (now : ℤ) (jobId : String)
  | recheckOne (linkId : LinkId) (lockRead : ℤ) (now : Readings) (jobId : String)
  | listTasks (projectId : ProjectId)
  | createTask (projectId : ProjectId) (dto : CreateSheetsTaskInput) (cuid : SheetsTaskId) (now : ℤ)
  | updateTask (taskId : SheetsTaskId) (dto : UpdateSheetsTaskInput) (now : ℤ)
  | removeTask (taskId : SheetsTaskId)
  | runNow (taskId : SheetsTaskId) (now : ℤ) (jobId : String)
  | getServiceAccountEmail
  | forProject (projectId : ProjectId) (scope : StatsScope)

inductive Answer
  | projects (projects : List CountedProject)
  | project (project : Option Project)
  | countedProject (project : CountedProject)
  | links (result : ListResult)
  | created (count : ℕ)
  | deleted (count : ℕ)
  | ok
  | queued (jobId : String) (queued : ℕ)
  | job (jobId : String)
  | tasks (tasks : List CountedTask)
  | task (task : Option SheetsTask)
  | email (email : Option String)
  | stats (stats : ProjectStats)
  deriving DecidableEq

inductive ServiceError
  | message (message : String)
  | items (error : CreateManualLinksError)
  | recheck (error : RecheckError)
  deriving DecidableEq

inductive Job
  | manualCheck (data : ManualCheckJobData)
  | singleLink (data : SingleLinkJobData)
  | sheetsTaskRun (data : SheetsTaskRunJobData)
  deriving DecidableEq

structure Reply where
  answer : Except ServiceError Answer
  jobs : List Job := []
  calls : List SchedulerCall := []
  deriving DecidableEq

def Reply.fail (message : String) : Reply := { answer := .error (.message message) }

def Reply.ok (answer : Answer) : Reply := { answer := .ok answer }

section Respond

variable {newURL : UrlParser} (locks : String → LockManager.Key) (email : Option String)

def manualLocked (now : ℤ) (projectId : ProjectId) : Bool :=
  LockManager.isLocked (locks (REDIS_KEYS.projectManualLock projectId)) now

def sheetsLocked (now : ℤ) (projectId : ProjectId) : Bool :=
  LockManager.isLocked (locks (REDIS_KEYS.projectSheetsLock projectId)) now

def read (db : Database) {α : Type} (toAnswer : α → Answer) (result : Except String α) :
    Database × Reply :=
  match result with
  | .error message => (db, .fail message)
  | .ok a => (db, .ok (toAnswer a))

def respond (userId : UserId) (db : Database) : Op newURL → Database × Reply
  | .listProjects => (db, .ok (.projects (ProjectsService.list db userId)))
  | .createProject dto cuid =>
    match ProjectsService.create db userId dto cuid with
    | .error message => (db, .fail message)
    | .ok (db', project) => (db', .ok (.project project))
  | .getProject id => read db .countedProject (getById db userId id)
  | .updateProject id dto =>
    match ProjectsService.update db userId id dto with
    | .error message => (db, .fail message)
    | .ok (db', project) => (db', .ok (.project project))
  | .removeProject id =>
    match ProjectsService.remove db userId id with
    | .error message => (db, .fail message)
    | .ok db' => (db', .ok .ok)
  | .listLinks projectId query order =>
    read db .links (LinksService.list db (order (matching db projectId query)) userId projectId query)
  | .createManualLinks projectId dto cuid =>
    match LinksService.createManualLinks newURL cuid db userId projectId dto with
    | .error error => (db, { answer := .error (.items error) })
    | .ok db' => (db', .ok (.created (normalizeItems newURL dto.items).1.length))
  | .deleteOne linkId =>
    match LinksService.deleteOne db userId linkId with
    | .error message => (db, .fail message)
    | .ok db' => (db', .ok .ok)
  | .deleteAllManual projectId =>
    match LinksService.deleteAllManual db userId projectId with
    | .error message => (db, .fail message)
    | .ok db' => (db', .ok (.deleted
        (db.links.rows.countP fun l => l.projectId == projectId && l.source == .MANUAL)))
  | .startManualCheck projectId now jobId =>
    match LinksService.startManualCheck db (manualLocked locks now projectId) userId projectId with
    | .error message => (db, .fail message)
    | .ok job => (db, { answer := .ok (.queued jobId job.linkIds.length), jobs := [.manualCheck job] })
  | .recheckOne linkId lockRead now jobId =>
    match RecheckOne.recheckOne db (manualLocked locks lockRead) now userId linkId with
    | .error error => (db, { answer := .error (.recheck error) })
    | .ok (db', job) => (db', { answer := .ok (.job jobId), jobs := [.singleLink job] })
  | .listTasks projectId => read db .tasks (SheetsTasksService.list db userId projectId)
  | .createTask projectId dto cuid now =>
    match SheetsTasksService.create db userId projectId dto cuid now with
    | .error message => (db, .fail message)
    | .ok (db', calls) => (db', { answer := .ok (.task (createdTask projectId dto cuid now)), calls })
  | .updateTask taskId dto now =>
    match SheetsTasksService.update db userId taskId dto now with
    | .error message => (db, .fail message)
    | .ok (db', calls) => (db', { answer := .ok (.task (db'.sheetsTasks.find? taskId)), calls })
  | .removeTask taskId =>
    match SheetsTasksService.remove db userId taskId with
    | .error message => (db, .fail message)
    | .ok (db', calls) => (db', { answer := .ok .ok, calls })
  | .runNow taskId now jobId =>
    match SheetsTasksService.runNow db (sheetsLocked locks now) userId taskId with
    | .error message => (db, .fail message)
    | .ok job => (db, { answer := .ok (.job jobId), jobs := [.sheetsTaskRun job] })
  | .getServiceAccountEmail => (db, .ok (.email email))
  | .forProject projectId scope =>
    read db .stats (StatsService.forProject newURL db userId projectId scope)

end Respond

def Op.drawn {newURL : UrlParser} : Op newURL → List String
  | .createProject _ cuid | .createTask _ _ cuid _ => [cuid]
  | .createManualLinks _ dto cuid => (List.range dto.items.length).map cuid
  | _ => []

structure Store where
  db : Database
  locks : String → LockManager.Key

def serve {newURL : UrlParser} (email : Option String) (userId : UserId) (s : Store)
    (op : Op newURL) : Store × Reply :=
  let r := respond s.locks email userId s.db op
  ({ s with db := r.1 }, r.2)

end LinkBulker.Services
