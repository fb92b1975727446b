import LinkBulker.Shared.Jobs

/-! `apps/api/src/modules/links/links.service.ts`: the requests that delete links and the one that
starts a bulk check. -/

namespace LinkBulker.LinksService

open Foundations Db Shared

def assertProject (db : Database) (userId : UserId) (projectId : ProjectId) : Except String Unit :=
  if db.projects.rows.any fun p => p.id == projectId && p.userId == userId then .ok ()
  else .error "Project not found"

def deleteOne (db : Database) (userId : UserId) (linkId : LinkId) : Except String Database :=
  match db.links.find? linkId with
  | none => .error "Link not found"
  | some link =>
    match db.projects.find? link.projectId with
    | none => .error "Link not found"
    | some project =>
      if project.userId ≠ userId then .error "Link not found"
      else .ok { db with links := db.links.delete linkId }

def deleteAllManual (db : Database) (userId : UserId) (projectId : ProjectId) :
    Except String Database :=
  match assertProject db userId projectId with
  | .error message => .error message
  | .ok () => .ok { db with
      links := db.links.deleteWhere fun l => l.projectId == projectId && l.source == .MANUAL }

def eligible : List LinkStatus := [.PENDING, .ERROR]

def startManualCheck (db : Database) (isLocked : Bool) (userId : UserId) (projectId : ProjectId) :
    Except String ManualCheckJobData :=
  match assertProject db userId projectId with
  | .error message => .error message
  | .ok () =>
    if isLocked then .error "A manual check is already running for this project"
    else
      let links := db.links.rows.filter fun l =>
        l.projectId == projectId && l.source == .MANUAL && eligible.contains l.status
      if links.length = 0 then
        .error "No links to check (only PENDING and ERROR links are eligible)"
      else .ok ⟨projectId, links.map Link.id⟩

inductive Request
  | deleteOne (userId : UserId) (linkId : LinkId)
  | deleteAllManual (userId : UserId) (projectId : ProjectId)
  deriving DecidableEq

def Request.serve (db : Database) : Request → Except String Database
  | .deleteOne userId linkId => LinksService.deleteOne db userId linkId
  | .deleteAllManual userId projectId => LinksService.deleteAllManual db userId projectId

def Request.apply (db : Database) (r : Request) : Database :=
  match r.serve db with
  | .ok db' => db'
  | .error _ => db

theorem deleteOne_eq_ok {db db' : Database} {userId : UserId} {linkId : LinkId}
    (h : deleteOne db userId linkId = .ok db') : db' = { db with links := db.links.delete linkId } := by
  unfold deleteOne at h
  split at h
  · cases h
  · split at h
    · cases h
    · split at h
      · cases h
      · cases h
        rfl

theorem deleteAllManual_eq_ok {db db' : Database} {userId : UserId} {projectId : ProjectId}
    (h : deleteAllManual db userId projectId = .ok db') :
    db' = { db with
      links := db.links.deleteWhere fun l => l.projectId == projectId && l.source == .MANUAL } := by
  unfold deleteAllManual at h
  split at h
  · cases h
  · cases h
    rfl

theorem Request.apply_eq (db : Database) (r : Request) :
    ∃ p, r.apply db = { db with links := db.links.deleteWhere p } := by
  unfold Request.apply
  split
  · rename_i db' h
    cases r with
    | deleteOne userId linkId => exact ⟨_, deleteOne_eq_ok h⟩
    | deleteAllManual userId projectId => exact ⟨_, deleteAllManual_eq_ok h⟩
  · refine ⟨fun _ => false, ?_⟩
    have hlinks : db.links.deleteWhere (fun _ => false) = db.links := by
      apply Table.ext
      simp [Table.deleteWhere, Table.keepWhere]
    rw [hlinks]

end LinkBulker.LinksService
