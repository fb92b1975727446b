import Mathlib.Data.Int.Order.Basic
import LinkBulker.Foundations.Table

/-! `packages/db/prisma/schema.prisma`, the columns the services and workers read or write.
A table lists its rows in the order the one sorted query asks for, `(createdAt, id)`; ids are cuid
strings and times are milliseconds. -/

namespace LinkBulker.Db

open Foundations

abbrev LinkId := String
abbrev ProjectId := String
abbrev SheetsTaskId := String
abbrev UserId := String

inductive LinkSource
  | MANUAL
  | SHEETS
  deriving DecidableEq

inductive LinkStatus
  | PENDING
  | QUEUED
  | CHECKING
  | DONE
  | ERROR
  deriving DecidableEq

inductive SheetsTaskStatus
  | IDLE
  | RUNNING
  | COMPLETED
  | FAILED
  deriving DecidableEq

structure LinkOccurrence where
  href : String
  anchor : String
  rel : List String
  target : Option String
  tag : String
  position : ℕ
  deriving DecidableEq

structure Link where
  id : LinkId
  projectId : ProjectId
  sheetsTaskId : Option SheetsTaskId
  source : LinkSource
  donorUrl : String
  acceptorHost : String
  acceptorRaw : String
  status : LinkStatus := .PENDING
  donorStatusCode : Option ℤ := none
  donorFinalUrl : Option String := none
  donorRedirectChain : Option (List String) := none
  donorIndexable : Option Bool := none
  donorMetaRobots : Option String := none
  donorXRobotsTag : Option String := none
  donorCanonical : Option String := none
  canonicalMatches : Option Bool := none
  linkFound : Option Bool := none
  occurrences : Option (List LinkOccurrence) := none
  occurrencesCount : ℕ := 0
  error : Option String := none
  checkDurationMs : Option ℤ := none
  lastCheckedAt : Option ℤ := none
  lastCooldownAt : Option ℤ := none
  deriving DecidableEq

/-- The columns that are written when the row is created and never again. -/
structure LinkInput where
  id : LinkId
  projectId : ProjectId
  sheetsTaskId : Option SheetsTaskId
  source : LinkSource
  donorUrl : String
  acceptorRaw : String
  deriving DecidableEq

def Link.input (l : Link) : LinkInput :=
  ⟨l.id, l.projectId, l.sheetsTaskId, l.source, l.donorUrl, l.acceptorRaw⟩

structure Project where
  id : ProjectId
  userId : UserId
  name : String
  description : Option String := none
  manualChecking : Bool := false
  sheetsChecking : Bool := false
  deriving DecidableEq

/-- `dataStartRow` is a row number of a spreadsheet, which `CreateSheetsTaskInput` bounds below
by 1. -/
structure SheetsTask where
  id : SheetsTaskId
  projectId : ProjectId
  name : String
  spreadsheetId : String
  sheetGid : ℕ := 0
  donorColumn : String
  acceptorColumn : String
  resultStartCol : String
  headerRow : ℕ := 1
  dataStartRow : ℕ := 2
  dataStartRow_pos : 0 < dataStartRow := by decide
  scheduleCron : Option String := none
  lastRunAt : Option ℤ := none
  lastRunStatus : Option String := none
  status : SheetsTaskStatus := .IDLE
  isChecking : Bool := false
  updatedAt : ℤ := 0
  deriving DecidableEq

structure Database where
  projects : Table Project.id
  links : Table Link.id
  sheetsTasks : Table SheetsTask.id

/-- `onDelete: Cascade` on the links of a task. -/
def Database.deleteSheetsTask (db : Database) (id : SheetsTaskId) : Database :=
  { db with
    links := db.links.deleteWhere fun l => l.sheetsTaskId == some id
    sheetsTasks := db.sheetsTasks.delete id }

/-- `onDelete: Cascade` on the tasks and links of a project. -/
def Database.deleteProject (db : Database) (id : ProjectId) : Database where
  projects := db.projects.delete id
  links := db.links.deleteWhere fun l => l.projectId == id ||
    (l.sheetsTaskId.bind db.sheetsTasks.find?).any fun task => task.projectId == id
  sheetsTasks := db.sheetsTasks.deleteWhere fun task => task.projectId == id

def exampleProject : Project := { id := "p", userId := "u", name := "Project" }

def exampleDatabase (links : Table Link.id) (sheetsTasks : Table SheetsTask.id) : Database where
  projects := ⟨[exampleProject], by decide⟩
  links := links
  sheetsTasks := sheetsTasks

end LinkBulker.Db
