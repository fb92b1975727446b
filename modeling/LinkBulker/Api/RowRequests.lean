import LinkBulker.Api.Services
import LinkBulker.Foundations.Run

/-! The requests that write rows of projects and manual links, on their awaits: `create` and `update`
of `ProjectsService`, `createManualLinks`, `deleteOne` and `deleteAllManual` of `LinksService`. -/

namespace LinkBulker.RowRequests

open Foundations Db Shared LinksService ProjectsService
open Services (Answer ServiceError)

inductive Pc (newURL : UrlParser)
  | createProject (dto : CreateProjectInput)
  | getById (id : ProjectId) (dto : UpdateProjectInput)
  | updateProject (id : ProjectId) (dto : UpdateProjectInput)
  | assertCreate (projectId : ProjectId) (dto : CreateManualLinksInput newURL)
  | createMany (projectId : ProjectId) (records : List ManualLinkRecord)
  | findUnique (linkId : LinkId)
  | deleteLink (linkId : LinkId)
  | assertManual (projectId : ProjectId)
  | deleteMany (projectId : ProjectId)
  | answered (answer : Except ServiceError Answer)

structure Request (newURL : UrlParser) where
  userId : UserId
  pc : Pc newURL

variable {newURL : UrlParser}

def Request.at_ (r : Request newURL) (pc : Pc newURL) : Request newURL := { r with pc }

def Request.fail (r : Request newURL) (message : String) : Request newURL :=
  r.at_ (.answered (.error (.message message)))

def validated (projectId : ProjectId) (dto : CreateManualLinksInput newURL) : Pc newURL :=
  if dto.items.length > LIMITS.MAX_MANUAL_URLS_PER_TASK then
    .answered (.error (.items (.message "Cannot add more than 1000 links per request")))
  else match normalizeItems newURL dto.items with
    | (_, e :: errors) =>
      .answered (.error (.items
        (.invalidAcceptors "Some items have invalid acceptors" (e :: errors))))
    | (records, []) => .createMany projectId records

def manualRows (projectId : ProjectId) (cuid : ℕ → LinkId) (records : List ManualLinkRecord) :
    List Link :=
  records.zipIdx.map fun (r, idx) => manualRow projectId cuid r idx

def Request.move (db : Database) (r : Request newURL) (cuid : ℕ → String) :
    Option (Database × Request newURL) :=
  match r.pc with
  | .createProject dto =>
    match db.projects.insertMany [createdProject r.userId dto (cuid 0)] with
    | none => some (db, r.fail "Unique constraint failed on the fields: (id)")
    | some projects =>
      some ({ db with projects },
        r.at_ (.answered (.ok (.project (createdProject r.userId dto (cuid 0))))))
  | .getById id dto =>
    match ProjectsService.getById db r.userId id with
    | .error message => some (db, r.fail message)
    | .ok _ => some (db, r.at_ (.updateProject id dto))
  | .updateProject id dto =>
    match db.projects.find? id with
    | none => some (db, r.fail "Record to update not found.")
    | some project =>
      let projects := db.projects.updateWhere (fun p => p.id = id) (updateData dto)
        (updateData_id dto)
      some ({ db with projects }, r.at_ (.answered (.ok (.project (updateData dto project)))))
  | .assertCreate projectId dto =>
    match assertProject db r.userId projectId with
    | .error message => some (db, r.at_ (.answered (.error (.items (.message message)))))
    | .ok () => some (db, r.at_ (validated projectId dto))
  | .createMany projectId records =>
    if (db.projects.find? projectId).isNone then
      some (db, r.at_ (.answered (.error (.items
        (.message "Foreign key constraint violated on the fields: (projectId)")))))
    else
      match db.links.insertMany (manualRows projectId cuid records) with
      | none => some (db, r.at_ (.answered (.error (.items
          (.message "Unique constraint failed on the fields: (id)")))))
      | some links => some ({ db with links }, r.at_ (.answered (.ok (.created records.length))))
  | .findUnique linkId =>
    match db.links.find? linkId with
    | none => some (db, r.fail "Link not found")
    | some link =>
      if (db.projects.find? link.projectId).all fun p => p.userId ≠ r.userId then
        some (db, r.fail "Link not found")
      else some (db, r.at_ (.deleteLink linkId))
  | .deleteLink linkId =>
    match db.links.find? linkId with
    | none => some (db, r.fail "Record to delete does not exist.")
    | some _ => some ({ db with links := db.links.delete linkId }, r.at_ (.answered (.ok .ok)))
  | .assertManual projectId =>
    match assertProject db r.userId projectId with
    | .error message => some (db, r.fail message)
    | .ok () => some (db, r.at_ (.deleteMany projectId))
  | .deleteMany projectId =>
    let q : Link → Bool := fun l => l.projectId == projectId && l.source == .MANUAL
    some ({ db with links := db.links.deleteWhere q },
      r.at_ (.answered (.ok (.deleted (db.links.rows.countP q)))))
  | .answered _ => none

def Request.draws (r : Request newURL) (cuid : ℕ → String) : List String :=
  match r.pc with
  | .createProject _ => [cuid 0]
  | .createMany _ records => (List.range records.length).map cuid
  | _ => []

inductive Op (newURL : UrlParser)
  | createProject (dto : CreateProjectInput)
  | updateProject (id : ProjectId) (dto : UpdateProjectInput)
  | createManualLinks (projectId : ProjectId) (dto : CreateManualLinksInput newURL)
  | deleteOne (linkId : LinkId)
  | deleteAllManual (projectId : ProjectId)

def Op.start : Op newURL → Pc newURL
  | .createProject dto => .createProject dto
  | .updateProject id dto => .getById id dto
  | .createManualLinks projectId dto => .assertCreate projectId dto
  | .deleteOne linkId => .findUnique linkId
  | .deleteAllManual projectId => .assertManual projectId

def Op.service (cuid : ℕ → String) : Op newURL → Services.Op newURL
  | .createProject dto => .createProject dto (cuid 0)
  | .updateProject id dto => .updateProject id dto
  | .createManualLinks projectId dto => .createManualLinks projectId dto cuid
  | .deleteOne linkId => .deleteOne linkId
  | .deleteAllManual projectId => .deleteAllManual projectId

section Undisturbed

variable (locks : String → LockManager.Key) (email : Option String) (db : Database)
  (userId : UserId) (cuid : ℕ → String)

def served (op : Op newURL) : Database × Request newURL :=
  let r := Services.respond locks email userId db (op.service cuid)
  (r.1, ⟨userId, .answered r.2.answer⟩)

def steps (db : Database) (r : Request newURL) (n : ℕ) : Option (Database × Request newURL) :=
  exec (fun p cuid => Request.move p.1 p.2 cuid) (db, r) (List.replicate n cuid)

theorem steps_zero (r : Request newURL) : steps cuid db r 0 = some (db, r) := rfl

theorem steps_succ {db db' : Database} {r r' : Request newURL} (h : r.move db cuid = some (db', r'))
    (n : ℕ) : steps cuid db r (n + 1) = steps cuid db' r' n := by
  simp only [steps, List.replicate_succ, exec, h, Option.bind_some]

theorem isNone_of_assertProject {db : Database} {userId : UserId} {projectId : ProjectId} {x : Unit}
    (h : assertProject db userId projectId = .ok x) :
    (db.projects.find? projectId).isNone = false := by
  rw [assertProject] at h
  split at h
  · rename_i hany
    obtain ⟨p, hp, hid⟩ := List.any_eq_true.mp hany
    rw [Bool.and_eq_true, beq_iff_eq] at hid
    rw [Option.isNone_eq_false_iff]
    exact Table.find?_isSome.mpr ⟨p, hp, hid.1⟩
  · cases h

theorem steps_createManualLinks (projectId : ProjectId) (dto : CreateManualLinksInput newURL) :
    ∃ n, steps cuid db ⟨userId, .assertCreate projectId dto⟩ n =
      some (served locks email db userId cuid (.createManualLinks projectId dto)) := by
  simp only [served, Op.service, Services.respond, LinksService.createManualLinks]
  cases hassert : assertProject db userId projectId with
  | error message =>
    refine ⟨1, steps_succ cuid ?_ 0⟩
    simp only [Request.move, hassert, Request.at_]
  | ok _ =>
    have hfirst : Request.move db ⟨userId, .assertCreate projectId dto⟩ cuid =
        some (db, ⟨userId, validated projectId dto⟩) := by
      simp only [Request.move, hassert, Request.at_]
    by_cases hlen : dto.items.length > LIMITS.MAX_MANUAL_URLS_PER_TASK
    · refine ⟨1, (steps_succ cuid hfirst 0).trans ?_⟩
      simp only [validated, if_pos hlen, steps_zero]
    · simp only [if_neg hlen]
      cases hitems : normalizeItems newURL dto.items with
      | mk records errors =>
        cases errors with
        | cons e errors =>
          refine ⟨1, (steps_succ cuid hfirst 0).trans ?_⟩
          simp only [validated, if_neg hlen, hitems, steps_zero]
        | nil =>
          have hproject := isNone_of_assertProject hassert
          refine ⟨2, (steps_succ cuid hfirst 1).trans ?_⟩
          simp only [validated, if_neg hlen, hitems]
          cases hinsert : db.links.insertMany (manualRows projectId cuid records) with
          | none =>
            rw [manualRows] at hinsert
            refine (steps_succ cuid ?_ 0).trans (steps_zero ..)
            simp only [Request.move, hproject, Bool.false_eq_true, if_false, manualRows, hinsert,
              Request.at_]
          | some links =>
            rw [manualRows] at hinsert
            refine (steps_succ cuid ?_ 0).trans (steps_zero ..)
            simp only [Request.move, hproject, Bool.false_eq_true, if_false, manualRows, hinsert,
              Request.at_, Services.Reply.ok]

theorem steps_updateProject (id : ProjectId) (dto : UpdateProjectInput) :
    ∃ n, steps cuid db (⟨userId, .getById id dto⟩ : Request newURL) n =
      some (served locks email db userId cuid (.updateProject id dto)) := by
  simp only [served, Op.service, Services.respond, ProjectsService.update]
  cases hfound : ProjectsService.getById db userId id with
  | error message =>
    refine ⟨1, steps_succ cuid ?_ 0⟩
    simp only [Request.move, hfound, Request.fail, Request.at_, Services.Reply.fail]
  | ok counted =>
    have hfirst : Request.move db (⟨userId, .getById id dto⟩ : Request newURL) cuid =
        some (db, ⟨userId, .updateProject id dto⟩) := by
      simp only [Request.move, hfound, Request.at_]
    have hfind : db.projects.find? id = some counted.project := by
      unfold ProjectsService.getById at hfound
      split at hfound
      · cases hfound
      · rename_i p hp
        have hid := List.find?_some hp
        simp only [Bool.and_eq_true, beq_iff_eq] at hid
        cases hfound
        exact Table.find?_eq_some.mpr ⟨List.mem_of_find?_eq_some hp, hid.1⟩
    have hupdate : db.projects.update id (updateData dto) (updateData_id dto) =
        some (db.projects.updateWhere (fun p => p.id = id) (updateData dto) (updateData_id dto)) :=
      Table.update_eq_some.mpr ⟨Table.find?_isSome.mp (by rw [hfind]; rfl), rfl⟩
    refine ⟨2, (steps_succ cuid hfirst 1).trans ((steps_succ cuid ?_ 0).trans (steps_zero ..))⟩
    simp only [Request.move, hfind, hupdate, Request.at_, Services.Reply.ok]

theorem steps_deleteOne (linkId : LinkId) :
    ∃ n, steps cuid db (⟨userId, .findUnique linkId⟩ : Request newURL) n =
      some (served locks email db userId cuid (.deleteOne linkId)) := by
  simp only [served, Op.service, Services.respond, LinksService.deleteOne]
  cases hlink : db.links.find? linkId with
  | none =>
    refine ⟨1, steps_succ cuid ?_ 0⟩
    simp only [Request.move, hlink, Request.fail, Request.at_, Services.Reply.fail]
  | some link =>
    dsimp only
    cases hproject : db.projects.find? link.projectId with
    | none =>
      refine ⟨1, steps_succ cuid ?_ 0⟩
      simp [Request.move, hlink, hproject, Request.fail, Request.at_, Services.Reply.fail]
    | some project =>
      by_cases hu : project.userId = userId
      · have hfirst : Request.move db (⟨userId, .findUnique linkId⟩ : Request newURL) cuid =
            some (db, ⟨userId, .deleteLink linkId⟩) := by
          simp [Request.move, hlink, hproject, hu, Request.at_]
        refine ⟨2, (steps_succ cuid hfirst 1).trans ((steps_succ cuid ?_ 0).trans (steps_zero ..))⟩
        simp [Request.move, hlink, hu, Request.at_, Services.Reply.ok]
      · refine ⟨1, steps_succ cuid ?_ 0⟩
        simp [Request.move, hlink, hproject, hu, Request.fail, Request.at_, Services.Reply.fail]

theorem steps_deleteAllManual (projectId : ProjectId) :
    ∃ n, steps cuid db (⟨userId, .assertManual projectId⟩ : Request newURL) n =
      some (served locks email db userId cuid (.deleteAllManual projectId)) := by
  simp only [served, Op.service, Services.respond, LinksService.deleteAllManual]
  cases hassert : assertProject db userId projectId with
  | error message =>
    refine ⟨1, steps_succ cuid ?_ 0⟩
    simp only [Request.move, hassert, Request.fail, Request.at_, Services.Reply.fail]
  | ok _ =>
    have hfirst : Request.move db (⟨userId, .assertManual projectId⟩ : Request newURL) cuid =
        some (db, ⟨userId, .deleteMany projectId⟩) := by
      simp only [Request.move, hassert, Request.at_]
    exact ⟨2, (steps_succ cuid hfirst 1).trans ((steps_succ cuid rfl 0).trans (steps_zero ..))⟩

/-- Undisturbed, a request does and answers what the service does. -/
theorem steps_start (op : Op newURL) :
    ∃ n, steps cuid db ⟨userId, op.start⟩ n = some (served locks email db userId cuid op) := by
  cases op with
  | createProject dto =>
    refine ⟨1, (steps_succ cuid ?_ 0).trans (steps_zero ..)⟩
    simp only [Request.move, Op.start, Op.service, Services.respond, ProjectsService.create]
    cases db.projects.insertMany [createdProject userId dto (cuid 0)] <;> rfl
  | updateProject id dto => exact steps_updateProject locks email db userId cuid id dto
  | createManualLinks projectId dto =>
    exact steps_createManualLinks locks email db userId cuid projectId dto
  | deleteOne linkId => exact steps_deleteOne locks email db userId cuid linkId
  | deleteAllManual projectId => exact steps_deleteAllManual locks email db userId cuid projectId

end Undisturbed

end LinkBulker.RowRequests
