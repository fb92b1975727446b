import LinkBulker.Db.Schema
import LinkBulker.Shared.SheetsSchemas

/-! `apps/api/src/modules/projects/projects.service.ts` with the two inputs of
`packages/shared/src/schemas/projects.ts`. -/

namespace LinkBulker.ProjectsService

open Foundations Db Shared

structure CreateProjectInput where
  name : BoundedString 1 120
  description : Option (BoundedString 0 2000) := none

structure UpdateProjectInput where
  name : Option (BoundedString 1 120) := none
  description : Option (BoundedString 0 2000) := none

structure CountedProject where
  project : Project
  linksCount : ℕ
  sheetsTasksCount : ℕ
  deriving DecidableEq

def count (db : Database) (project : Project) : CountedProject where
  project
  linksCount := db.links.rows.countP fun l => l.projectId == project.id
  sheetsTasksCount := db.sheetsTasks.rows.countP fun task => task.projectId == project.id

def list (db : Database) (userId : UserId) : List CountedProject :=
  ((db.projects.rows.filter fun p => p.userId == userId).map (count db)).reverse

def createdProject (userId : UserId) (dto : CreateProjectInput) (cuid : ProjectId) : Project where
  id := cuid
  userId
  name := dto.name
  description := dto.description.map Subtype.val

def create (db : Database) (userId : UserId) (dto : CreateProjectInput) (cuid : ProjectId) :
    Except String (Database × Project) :=
  match db.projects.insertMany [createdProject userId dto cuid] with
  | none => .error "Unique constraint failed on the fields: (id)"
  | some projects => .ok ({ db with projects }, createdProject userId dto cuid)

def getById (db : Database) (userId : UserId) (id : ProjectId) : Except String CountedProject :=
  match db.projects.rows.find? fun p => p.id == id && p.userId == userId with
  | none => .error "Project not found"
  | some project => .ok (count db project)

/-- The `data` of the update; a field given as `undefined` keeps the stored value. -/
def updateData (dto : UpdateProjectInput) (project : Project) : Project :=
  { project with
    name := (dto.name.map Subtype.val).getD project.name
    description := (dto.description.map Subtype.val).or project.description }

theorem updateData_id (dto : UpdateProjectInput) (project : Project) :
    (updateData dto project).id = project.id := rfl

def update (db : Database) (userId : UserId) (id : ProjectId) (dto : UpdateProjectInput) :
    Except String (Database × Project) :=
  match getById db userId id with
  | .error message => .error message
  | .ok found =>
    match db.projects.update id (updateData dto) (updateData_id dto) with
    | none => .error "Record to update not found."
    | some projects => .ok ({ db with projects }, updateData dto found.project)

def deleteRow (db : Database) (id : ProjectId) : Except String Database :=
  match db.projects.find? id with
  | none => .error "Record to delete does not exist."
  | some _ => .ok (db.deleteProject id)

def remove (db : Database) (userId : UserId) (id : ProjectId) : Except String Database :=
  match getById db userId id with
  | .error message => .error message
  | .ok _ => deleteRow db id

theorem remove_eq_ok {db db' : Database} {userId : UserId} {id : ProjectId}
    (h : remove db userId id = .ok db') : db' = db.deleteProject id := by
  unfold remove at h
  split at h
  · cases h
  · unfold deleteRow at h
    split at h
    · cases h
    · exact (Except.ok.inj h).symm

end LinkBulker.ProjectsService
