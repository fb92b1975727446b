import LinkBulker.Api.Services
import LinkBulker.Db.Ownership

/-! Tenant isolation: an operation of a user reads the user's part of the database and nothing else,
and writes within it. -/

namespace LinkBulker.Services

open Foundations Db Shared LinksService ProjectsService SheetsTasksService RecheckOne StatsService

variable {newURL : UrlParser} {db : Database} {u : UserId} {drawn : List String}

def own (u : UserId) (db : Database) : Database := db.part (· == u)

def foreign (u : UserId) (db : Database) : Database := db.part (· != u)

def Confined (u : UserId) (drawn : List String) (db : Database)
    (f : Database → Database × Reply) : Prop :=
  ∃ w reply, Writes u drawn db w ∧ f db = (w db, reply) ∧ f (own u db) = (w (own u db), reply)

theorem Confined.nothing {f : Database → Database × Reply} (reply : Reply)
    (h : f db = (db, reply)) (hown : f (own u db) = (own u db, reply)) : Confined u drawn db f :=
  ⟨_, reply, .nothing, h, hown⟩

theorem Confined.reads {f : Database → Database × Reply} (hkeeps : ∀ d, (f d).1 = d)
    (h : (f (own u db)).2 = (f db).2) : Confined u drawn db f :=
  .nothing _ (Prod.ext (hkeeps db) rfl) (Prod.ext (hkeeps (own u db)) h)

theorem Confined.read {α : Type} {toAnswer : α → Answer} {g : Database → Except String α}
    (h : g (own u db) = g db) :
    Confined u drawn db fun d => Services.read d toAnswer (g d) := by
  apply Confined.reads
  · intro d
    unfold Services.read
    split <;> rfl
  · rw [h]
    unfold Services.read
    split <;> rfl

section Reads

variable {projectId : ProjectId} {project : Project}

theorem owns_own (db : Database) (u : UserId) (projectId : ProjectId) :
    (own u db).owns u projectId = db.owns u projectId :=
  belongs_part db (· == u) projectId

theorem assertProject_eq (db : Database) (u : UserId) (projectId : ProjectId) :
    LinksService.assertProject db u projectId =
      if db.owns u projectId then .ok () else .error "Project not found" := rfl

theorem filter_links_own (hown : db.owns u projectId) {q : Link → Bool}
    (hq : ∀ l, q l → l.projectId = projectId) :
    (own u db).links.rows.filter q = db.links.rows.filter q :=
  Table.filter_keepWhere fun l _ hl => (hq l hl).symm ▸ hown

theorem countP_links_own (hown : db.owns u projectId) {q : Link → Bool}
    (hq : ∀ l ∈ db.links.rows, q l → l.projectId = projectId) :
    (own u db).links.rows.countP q = db.links.rows.countP q :=
  Table.countP_keepWhere fun l hl hql => (hq l hl hql).symm ▸ hown

theorem count_own (hown : db.owns u project.id) :
    ProjectsService.count (own u db) project = ProjectsService.count db project := by
  have hlinks := countP_links_own hown (q := fun l => l.projectId == project.id)
    fun l _ hl => eq_of_beq hl
  have htasks : (own u db).sheetsTasks.rows.countP (fun task => task.projectId == project.id) =
      db.sheetsTasks.rows.countP fun task => task.projectId == project.id :=
    Table.countP_keepWhere fun task _ htask => (eq_of_beq htask).symm ▸ hown
  rw [ProjectsService.count, ProjectsService.count, hlinks, htasks]

theorem listProjects_own (db : Database) (u : UserId) :
    ProjectsService.list (own u db) u = ProjectsService.list db u := by
  have hrows : (own u db).projects.rows.filter (fun p => p.userId == u) =
      db.projects.rows.filter fun p => p.userId == u := Table.filter_keepWhere fun _ _ hp => hp
  rw [ProjectsService.list, hrows, ProjectsService.list]
  congr 1
  apply List.map_congr_left
  intro p hp
  obtain ⟨hp, hu⟩ := List.mem_filter.mp hp
  exact count_own (belongs_iff.mpr ⟨p, hp, rfl, hu⟩)

theorem getById_own (db : Database) (u : UserId) (id : ProjectId) :
    getById (own u db) u id = getById db u id := by
  have hfind : (own u db).projects.rows.find? (fun p => p.id == id && p.userId == u) =
      db.projects.rows.find? fun p => p.id == id && p.userId == u := by
    rw [own, Database.part, Table.rows_keepWhere, List.find?_filter]
    congr 1
    funext p
    cases p.id == id <;> cases p.userId == u <;> rfl
  rw [getById, hfind, getById]
  split
  · rfl
  · rename_i p hp
    have hid : p.userId = u := by
      have := List.find?_some hp
      simp only [Bool.and_eq_true, beq_iff_eq] at this
      exact this.2
    rw [count_own (hid ▸ owns_of_mem (List.mem_of_find?_eq_some hp))]

theorem owns_of_getById {id : ProjectId} {found : CountedProject} (h : getById db u id = .ok found) :
    db.owns u id := by
  unfold getById at h
  split at h
  · cases h
  · rename_i p hp
    have hid := List.find?_some hp
    simp only [Bool.and_eq_true, beq_iff_eq] at hid
    exact hid.1 ▸ hid.2 ▸ owns_of_mem (List.mem_of_find?_eq_some hp)

end Reads

section Projects

variable {id : ProjectId}

theorem find?_of_owns (h : db.owns u id) :
    ∃ p, db.projects.find? id = some p ∧ (own u db).projects.find? id = some p := by
  rw [Database.owns, belongs_eq_find?] at h
  obtain ⟨p, hfind, hu⟩ := (Option.any_eq_true _ _).mp h
  refine ⟨p, hfind, ?_⟩
  rw [own, Database.part, Table.find?_keepWhere, hfind, Option.filter_some, if_pos hu]

theorem create_confined (dto : CreateProjectInput) {cuid : ProjectId} (hunused : db.Unused cuid)
    (hdrawn : cuid ∈ drawn) : Confined u drawn db fun d =>
      match ProjectsService.create d u dto cuid with
      | .error message => (d, .fail message)
      | .ok (d', project) => (d', .ok (.project project)) := by
  obtain ⟨projects, hinsert⟩ :=
    Table.insertMany_singleton (t := db.projects) (r := createdProject u dto cuid) hunused.project
  have hown := Table.insertMany_keepWhere (p := fun p => p.userId == u) hinsert fun p hp => by
    rw [List.mem_singleton.mp hp]
    exact beq_self_eq_true u
  have hown' : (own u db).projects.insertMany [createdProject u dto cuid] = _ := hown
  exact ⟨_, .ok (.project (createdProject u dto cuid)),
    .insertProject (p := createdProject u dto cuid) rfl hunused hdrawn,
    by simp only [ProjectsService.create, hinsert, Option.getD_some],
    by simp only [ProjectsService.create, hown', Option.getD_some]⟩

theorem update_confined (dto : UpdateProjectInput) : Confined u drawn db fun d =>
      match ProjectsService.update d u id dto with
      | .error message => (d, .fail message)
      | .ok (d', project) => (d', .ok (.project project)) := by
  cases hget : getById db u id with
  | error message =>
    exact .nothing (.fail message) (by simp only [ProjectsService.update, hget])
      (by simp only [ProjectsService.update, getById_own, hget])
  | ok found =>
    obtain ⟨p, hfind, hfind'⟩ := find?_of_owns (owns_of_getById hget)
    have hsome : (db.projects.find? id).isSome := by rw [hfind, Option.isSome_some]
    have hsome' : ((own u db).projects.find? id).isSome := by rw [hfind', Option.isSome_some]
    refine ⟨_, .ok (.project (updateData dto found.project)),
      .updateProject (updateData_id dto) (fun _ => rfl) (owns_of_getById hget), ?_, ?_⟩
    · simp only [ProjectsService.update, hget, Table.update, if_pos hsome]
    · simp only [ProjectsService.update, getById_own, hget, Table.update, if_pos hsome']

theorem remove_confined : Confined u drawn db fun d =>
      match ProjectsService.remove d u id with
      | .error message => (d, .fail message)
      | .ok d' => (d', .ok .ok) := by
  cases hget : getById db u id with
  | error message =>
    exact .nothing (.fail message) (by simp only [ProjectsService.remove, hget])
      (by simp only [ProjectsService.remove, getById_own, hget])
  | ok found =>
    obtain ⟨p, hfind, hfind'⟩ := find?_of_owns (owns_of_getById hget)
    exact ⟨_, .ok .ok, .deleteProject (owns_of_getById hget),
      by simp only [ProjectsService.remove, hget, ProjectsService.deleteRow, hfind],
      by simp only [ProjectsService.remove, getById_own, hget, ProjectsService.deleteRow, hfind']⟩

end Projects

section Links

variable {projectId : ProjectId} {linkId : LinkId}

theorem listLinks_own (query : ListLinksQuery) (order : List Link → List Link) :
    LinksService.list (own u db) (order (matching (own u db) projectId query)) u projectId query =
      LinksService.list db (order (matching db projectId query)) u projectId query := by
  have hproject (l : Link) (hl : query.accepts projectId l) : l.projectId = projectId := by
    simp only [ListLinksQuery.accepts, Bool.and_eq_true] at hl
    exact eq_of_beq hl.1.1
  rw [LinksService.list, LinksService.list, assertProject_eq, assertProject_eq, owns_own]
  cases hown : db.owns u projectId with
  | false => rfl
  | true =>
    have hmatching : matching (own u db) projectId query = matching db projectId query :=
      filter_links_own hown hproject
    rw [hmatching, countP_links_own hown fun l _ => hproject l]

theorem length_normalizeItems_le (newURL : UrlParser) (items : List ManualLinkItem) :
    (normalizeItems newURL items).1.length ≤ items.length := by
  rw [normalizeItems_eq, ← List.length_zipIdx (l := items) (i := 0)]
  exact List.length_filterMap_le _ _

theorem map_id_manualRow (cuid : ℕ → LinkId) (records : List ManualLinkRecord) :
    (records.zipIdx.map fun (r, idx) => manualRow projectId cuid r idx).map Link.id =
      (List.range records.length).map cuid := by
  rw [List.map_map, List.range_eq_range', ← List.zipIdx_map_snd 0 records, List.map_map]
  rfl

theorem createManualLinks_confined (dto : CreateManualLinksInput newURL) {cuid : ℕ → LinkId}
    (hnodup : ((List.range dto.items.length).map cuid).Nodup)
    (hunused : ∀ id ∈ (List.range dto.items.length).map cuid, db.Unused id)
    (hdrawn : ∀ id ∈ (List.range dto.items.length).map cuid, id ∈ drawn) :
    Confined u drawn db fun d =>
      match LinksService.createManualLinks newURL cuid d u projectId dto with
      | .error error => (d, { answer := .error (.items error) })
      | .ok d' => (d', .ok (.created (normalizeItems newURL dto.items).1.length)) := by
  have hle := length_normalizeItems_le newURL dto.items
  cases hown : db.owns u projectId with
  | false =>
    exact .nothing { answer := .error (.items (.message "Project not found")) }
      (by simp only [LinksService.createManualLinks, assertProject_eq, hown]; rfl)
      (by simp only [LinksService.createManualLinks, assertProject_eq, owns_own, hown]; rfl)
  | true =>
    have hmax : ¬ dto.items.length > LIMITS.MAX_MANUAL_URLS_PER_TASK := not_lt.mpr dto.max
    cases hitems : normalizeItems newURL dto.items with
    | mk records errors =>
      cases errors with
      | cons e errors =>
        exact .nothing ({ answer := .error (.items
            (.invalidAcceptors "Some items have invalid acceptors" (e :: errors))) })
          (by simp only [LinksService.createManualLinks, assertProject_eq, hown, if_true, if_neg hmax,
            hitems])
          (by simp only [LinksService.createManualLinks, assertProject_eq, owns_own, hown, if_true,
            if_neg hmax, hitems])
      | nil =>
        rw [hitems] at hle
        have hids : (records.zipIdx.map fun (r, idx) =>
            manualRow projectId cuid r idx).map Link.id = (List.range records.length).map cuid :=
          map_id_manualRow cuid records
        have hsub : ((List.range records.length).map cuid).Sublist
            ((List.range dto.items.length).map cuid) := (List.range_sublist.mpr hle).map cuid
        generalize hls : (records.zipIdx.map fun (r, idx) => manualRow projectId cuid r idx) = ls
        rw [hls] at hids
        have hmem (l : Link) (hl : l ∈ ls) : l.id ∈ (List.range dto.items.length).map cuid :=
          hsub.subset (hids ▸ List.mem_map_of_mem hl)
        have hmanual (l : Link) (hl : l ∈ ls) :
            l.projectId = projectId ∧ l.sheetsTaskId = none := by
          rw [← hls] at hl
          obtain ⟨r, -, rfl⟩ := List.mem_map.mp hl
          exact ⟨rfl, rfl⟩
        have hnodup' : (ls.map Link.id).Nodup := hids ▸ hsub.nodup hnodup
        obtain ⟨links, hinsert⟩ := Table.insertMany_of_unused (t := db.links) hnodup'
          fun l hl => (hunused _ (hmem l hl)).link
        have hkept := Table.insertMany_keepWhere (p := fun l => db.owns u l.projectId) hinsert
          fun l hl => by rw [(hmanual l hl).1, hown]
        have hinsert' : (own u db).links.insertMany ls = some _ := hkept
        have hwrites : Writes u drawn db fun d =>
            { d with links := (d.links.insertMany ls).getD d.links } :=
          .insertLinks hnodup' (fun l hl => hunused _ (hmem l hl))
            (fun l hl => hdrawn _ (hmem l hl)) (fun l hl => by rw [(hmanual l hl).1, hown])
            fun l hl => (hmanual l hl).2
        refine ⟨_, .ok (.created records.length), hwrites, ?_, ?_⟩
        · simp only [LinksService.createManualLinks, assertProject_eq, hown, if_true, if_neg hmax,
            hitems, hls, hinsert, Option.getD_some]
        · simp only [LinksService.createManualLinks, assertProject_eq, owns_own, hown, if_true,
            if_neg hmax, hitems, hls, hinsert', Option.getD_some]

theorem deleteOne_eq (db : Database) (u : UserId) (linkId : LinkId) :
    LinksService.deleteOne db u linkId =
      match (db.links.find? linkId).filter fun l => db.owns u l.projectId with
      | none => .error "Link not found"
      | some _ => .ok { db with links := db.links.delete linkId } := by
  unfold LinksService.deleteOne
  cases hlink : db.links.find? linkId with
  | none => rfl
  | some l =>
    rw [Option.filter_some, Database.owns, belongs_eq_find?]
    cases hproject : db.projects.find? l.projectId with
    | none => simp [hproject]
    | some project => by_cases hu : project.userId = u <;> simp [hproject, hu]

theorem find?_link_own (db : Database) (u : UserId) (linkId : LinkId) :
    ((own u db).links.find? linkId).filter (fun l => (own u db).owns u l.projectId) =
      (db.links.find? linkId).filter fun l => db.owns u l.projectId := by
  simp only [owns_own]
  rw [own, Database.part, Table.find?_keepWhere, Option.filter_filter]
  congr 1
  funext l
  exact Bool.and_self _

theorem deleteOne_confined : Confined u drawn db fun d =>
      match LinksService.deleteOne d u linkId with
      | .error message => (d, .fail message)
      | .ok d' => (d', .ok .ok) := by
  cases hfound : (db.links.find? linkId).filter fun l => db.owns u l.projectId with
  | none =>
    exact .nothing (.fail "Link not found") (by simp only [deleteOne_eq, hfound])
      (by simp only [deleteOne_eq, find?_link_own, hfound])
  | some link =>
    obtain ⟨hlink, hown⟩ := Option.filter_eq_some_iff.mp hfound
    obtain ⟨hmem, hid⟩ := Table.find?_eq_some.mp hlink
    refine ⟨_, .ok .ok, .deleteLinks (q := fun l => l.id = linkId) ?_,
      by simp only [deleteOne_eq, hfound, Table.delete],
      by simp only [deleteOne_eq, find?_link_own, hfound, Table.delete]⟩
    intro l hl hq
    rwa [db.links.eq_of_key_eq hl hmem ((of_decide_eq_true hq).trans hid.symm)]

theorem deleteAllManual_confined : Confined u drawn db fun d =>
      match LinksService.deleteAllManual d u projectId with
      | .error message => (d, .fail message)
      | .ok d' => (d', .ok (.deleted
          (d.links.rows.countP fun l => l.projectId == projectId && l.source == .MANUAL))) := by
  cases hown : db.owns u projectId with
  | false =>
    exact .nothing (.fail "Project not found")
      (by simp only [LinksService.deleteAllManual, assertProject_eq, hown]; rfl)
      (by simp only [LinksService.deleteAllManual, assertProject_eq, owns_own, hown]; rfl)
  | true =>
    have hcount := countP_links_own hown
      (q := fun l => l.projectId == projectId && l.source == .MANUAL)
      fun l _ hl => by
        rw [Bool.and_eq_true] at hl
        exact eq_of_beq hl.1
    refine ⟨_, .ok (.deleted (db.links.rows.countP fun l => l.projectId == projectId &&
        l.source == .MANUAL)),
      .deleteLinks (q := fun l => l.projectId == projectId && l.source == .MANUAL) ?_,
      by simp only [LinksService.deleteAllManual, assertProject_eq, hown, if_true],
      by simp only [LinksService.deleteAllManual, assertProject_eq, owns_own, hown, if_true, hcount]⟩
    intro l _ hl
    rw [Bool.and_eq_true] at hl
    rw [eq_of_beq hl.1, hown]

theorem startManualCheck_own (isLocked : Bool) :
    LinksService.startManualCheck (own u db) isLocked u projectId =
      LinksService.startManualCheck db isLocked u projectId := by
  rw [LinksService.startManualCheck, LinksService.startManualCheck, assertProject_eq,
    assertProject_eq, owns_own]
  cases hown : db.owns u projectId with
  | false => rfl
  | true =>
    have hlinks := filter_links_own hown
      (q := fun l => l.projectId == projectId && l.source == .MANUAL && eligible.contains l.status)
      fun l hl => by
        rw [Bool.and_eq_true, Bool.and_eq_true] at hl
        exact eq_of_beq hl.1.1
    simp only [if_true, hlinks]

theorem recheckOne_eq (db : Database) (isLocked : ProjectId → Bool) (now : Readings) (u : UserId)
    (linkId : LinkId) : RecheckOne.recheckOne db isLocked now u linkId =
      match (db.links.find? linkId).filter fun l => db.owns u l.projectId with
      | none => .error (.notFound "Link not found")
      | some link =>
        if link.source = .MANUAL ∧ isLocked link.projectId then
          .error (.conflict "A manual check is currently running for this project")
        else if db.links.rows.countP (cooledDown linkId (now.cutoff - cooldownMs)) = 0 then
          .error (.tooManyRequests "Recheck cooldown active"
            (retryAfterSec link.lastCooldownAt now.elapsed))
        else
          let links := db.links.updateWhere (cooledDown linkId (now.cutoff - cooldownMs))
            (setCooldown now.value) (setCooldown_id now.value)
          .ok ({ db with links }, ⟨linkId, link.projectId, link.source⟩) := by
  unfold RecheckOne.recheckOne
  cases hlink : db.links.find? linkId with
  | none => rfl
  | some l =>
    rw [Option.filter_some, Database.owns, belongs_eq_find?]
    cases hproject : db.projects.find? l.projectId with
    | none => simp [hproject]
    | some project => by_cases hu : project.userId = u <;> simp [hproject, hu]

theorem recheckOne_confined (isLocked : ProjectId → Bool) (now : Readings) (jobId : String) :
    Confined u drawn db fun d =>
      match RecheckOne.recheckOne d isLocked now u linkId with
      | .error error => (d, { answer := .error (.recheck error) })
      | .ok (d', job) => (d', { answer := .ok (.job jobId), jobs := [.singleLink job] }) := by
  have hfind := find?_link_own db u linkId
  cases hfound : (db.links.find? linkId).filter fun l => db.owns u l.projectId with
  | none =>
    rw [hfound] at hfind
    exact .nothing { answer := .error (.recheck (.notFound "Link not found")) }
      (by simp only [recheckOne_eq, hfound]) (by simp only [recheckOne_eq, hfind])
  | some link =>
    rw [hfound] at hfind
    obtain ⟨hlink, hown⟩ := Option.filter_eq_some_iff.mp hfound
    obtain ⟨hmem, hid⟩ := Table.find?_eq_some.mp hlink
    have howned (l : Link) (hl : l ∈ db.links.rows)
        (hcool : cooledDown linkId (now.cutoff - cooldownMs) l) : db.owns u l.projectId := by
      rwa [db.links.eq_of_key_eq hl hmem ((id_of_cooledDown hcool).trans hid.symm)]
    have hcount : (own u db).links.rows.countP (cooledDown linkId (now.cutoff - cooldownMs)) =
        db.links.rows.countP (cooledDown linkId (now.cutoff - cooldownMs)) :=
      Table.countP_keepWhere howned
    by_cases hlocked : link.source = .MANUAL ∧ isLocked link.projectId
    · exact .nothing ({ answer := .error (.recheck
          (.conflict "A manual check is currently running for this project")) })
        (by simp only [recheckOne_eq, hfound, if_pos hlocked])
        (by simp only [recheckOne_eq, hfind, if_pos hlocked])
    · by_cases hzero : db.links.rows.countP (cooledDown linkId (now.cutoff - cooldownMs)) = 0
      · exact .nothing ({ answer := .error (.recheck
            (.tooManyRequests "Recheck cooldown active"
              (retryAfterSec link.lastCooldownAt now.elapsed))) })
          (by simp only [recheckOne_eq, hfound, if_neg hlocked, if_pos hzero])
          (by simp only [recheckOne_eq, hfind, if_neg hlocked, hcount, if_pos hzero])
      · exact ⟨_, { answer := .ok (.job jobId)
                    jobs := [.singleLink ⟨linkId, link.projectId, link.source⟩] },
          .updateLinks (setCooldown_id now.value) (fun _ => rfl) (fun _ => rfl) howned,
          by simp only [recheckOne_eq, hfound, if_neg hlocked, if_neg hzero],
          by simp only [recheckOne_eq, hfind, if_neg hlocked, hcount, if_neg hzero]⟩

end Links

section SheetsTasks

variable {projectId : ProjectId} {taskId : SheetsTaskId}

theorem findOwnedTask_own (db : Database) (u : UserId) (taskId : SheetsTaskId) :
    findOwnedTask (own u db) u taskId = findOwnedTask db u taskId := by
  rw [findOwnedTask_eq, findOwnedTask_eq]
  have hfind : ((own u db).sheetsTasks.find? taskId).filter
      (fun task => (own u db).owns u task.projectId) =
      (db.sheetsTasks.find? taskId).filter fun task => db.owns u task.projectId := by
    simp only [owns_own]
    rw [own, Database.part, Table.find?_keepWhere, Option.filter_filter]
    congr 1
    funext task
    exact Bool.and_self _
  rw [hfind]

theorem owns_of_findOwnedTask {task : SheetsTask} (h : findOwnedTask db u taskId = .ok task) :
    ∀ t ∈ db.sheetsTasks.rows, t.id = taskId → db.owns u t.projectId := by
  obtain ⟨hfind, hown⟩ := find?_of_findOwnedTask h
  obtain ⟨hmem, hid⟩ := Table.find?_eq_some.mp hfind
  intro t ht htid
  rwa [db.sheetsTasks.eq_of_key_eq ht hmem (htid.trans hid.symm)]

theorem listTasks_own (hc : db.Consistent) :
    SheetsTasksService.list (own u db) u projectId = SheetsTasksService.list db u projectId := by
  rw [SheetsTasksService.list, SheetsTasksService.list, SheetsTasksService.assertProject,
    SheetsTasksService.assertProject, assertProject_eq, assertProject_eq, owns_own]
  cases hown : db.owns u projectId with
  | false => rfl
  | true =>
    have hrows : (own u db).sheetsTasks.rows.filter (fun task => task.projectId == projectId) =
        db.sheetsTasks.rows.filter fun task => task.projectId == projectId :=
      Table.filter_keepWhere fun task _ htask => (eq_of_beq htask).symm ▸ hown
    rw [hrows]
    have hcounts : (db.sheetsTasks.rows.filter fun task => task.projectId == projectId).map
          (SheetsTasksService.count (own u db)) =
        (db.sheetsTasks.rows.filter fun task => task.projectId == projectId).map
          (SheetsTasksService.count db) := by
      apply List.map_congr_left
      intro task htask
      obtain ⟨htask, hproject⟩ := List.mem_filter.mp htask
      rw [SheetsTasksService.count, SheetsTasksService.count, countP_links_own hown]
      intro l hl htaskId
      obtain ⟨task', htask', hid, hsame⟩ := hc.linkTask l hl task.id (eq_of_beq htaskId)
      rw [← hsame, db.sheetsTasks.eq_of_key_eq htask' htask hid, eq_of_beq hproject]
    rw [hcounts]

theorem exists_create (u : UserId) (projectId : ProjectId) (dto : CreateSheetsTaskInput)
    (cuid : SheetsTaskId) (now : ℤ) : ∃ calls, ∀ (d : Database) (tasks : Table SheetsTask.id),
      d.owns u projectId →
        d.sheetsTasks.insertMany [createdTask projectId dto cuid now] = some tasks →
        SheetsTasksService.create d u projectId dto cuid now =
          .ok ({ d with sheetsTasks := tasks }, calls) := by
  cases hcron : dto.scheduleCron with
  | none =>
    refine ⟨[], fun d tasks hown hinsert => ?_⟩
    simp only [SheetsTasksService.create, SheetsTasksService.assertProject, assertProject_eq, hown,
      if_true, hinsert, hcron]
  | some cron =>
    refine ⟨if cron.val = "" then [] else [.upsertSchedule cuid cron], fun d tasks hown hinsert => ?_⟩
    simp only [SheetsTasksService.create, SheetsTasksService.assertProject, assertProject_eq, hown,
      if_true, hinsert, hcron]

theorem createTask_confined (dto : CreateSheetsTaskInput) {cuid : SheetsTaskId} (now : ℤ)
    (hunused : db.Unused cuid) (hdrawn : cuid ∈ drawn) : Confined u drawn db fun d =>
      match SheetsTasksService.create d u projectId dto cuid now with
      | .error message => (d, .fail message)
      | .ok (d', calls) =>
        (d', { answer := .ok (.task (createdTask projectId dto cuid now)), calls }) := by
  cases hown : db.owns u projectId with
  | false =>
    exact .nothing (.fail "Project not found")
      (by simp only [SheetsTasksService.create, SheetsTasksService.assertProject, assertProject_eq,
        hown]; rfl)
      (by simp only [SheetsTasksService.create, SheetsTasksService.assertProject, assertProject_eq,
        owns_own, hown]; rfl)
  | true =>
    obtain ⟨tasks, hinsert⟩ := Table.insertMany_singleton (t := db.sheetsTasks)
      (r := createdTask projectId dto cuid now) hunused.task
    have hkept := Table.insertMany_keepWhere (p := fun task => db.owns u task.projectId) hinsert
      fun task htask => by
        rw [List.mem_singleton.mp htask]
        exact hown
    have hinsert' : (own u db).sheetsTasks.insertMany [createdTask projectId dto cuid now] = some _ :=
      hkept
    obtain ⟨calls, hcreate⟩ := exists_create u projectId dto cuid now
    have hwrites : Writes u drawn db fun d => { d with
        sheetsTasks := (d.sheetsTasks.insertMany [createdTask projectId dto cuid now]).getD
          d.sheetsTasks } :=
      .insertTask hunused hdrawn hown
    exact ⟨_, { answer := .ok (.task (createdTask projectId dto cuid now)), calls }, hwrites,
      by simp only [hcreate db tasks hown hinsert, hinsert, Option.getD_some],
      by simp only [hcreate _ _ ((owns_own db u projectId).trans hown) hinsert', hinsert',
        Option.getD_some]⟩

theorem exists_update (u : UserId) (taskId : SheetsTaskId) (dto : UpdateSheetsTaskInput) (now : ℤ) :
    ∃ calls, ∀ (d : Database) (task : SheetsTask), findOwnedTask d u taskId = .ok task →
      SheetsTasksService.update d u taskId dto now = .ok ({ d with
        sheetsTasks := d.sheetsTasks.updateWhere (fun t => t.id = taskId)
          (SheetsTasksService.updateData dto now) (SheetsTasksService.updateData_id dto now) },
        calls) := by
  have hsome {d : Database} {task : SheetsTask} (hfound : findOwnedTask d u taskId = .ok task) :
      (d.sheetsTasks.find? taskId).isSome := by
    rw [(find?_of_findOwnedTask hfound).1, Option.isSome_some]
  cases hcron : dto.scheduleCron with
  | none =>
    refine ⟨[], fun d task hfound => ?_⟩
    simp only [SheetsTasksService.update, hfound, Table.update, if_pos (hsome hfound), hcron]
  | some cron =>
    refine ⟨if cron.val = "" then [.removeSchedule taskId] else [.upsertSchedule taskId cron],
      fun d task hfound => ?_⟩
    simp only [SheetsTasksService.update, hfound, Table.update, if_pos (hsome hfound), hcron]

theorem updateTask_confined (dto : UpdateSheetsTaskInput) (now : ℤ) : Confined u drawn db fun d =>
      match SheetsTasksService.update d u taskId dto now with
      | .error message => (d, .fail message)
      | .ok (d', calls) => (d', { answer := .ok (.task (d'.sheetsTasks.find? taskId)), calls }) := by
  cases hfound : findOwnedTask db u taskId with
  | error message =>
    exact .nothing (.fail message) (by simp only [SheetsTasksService.update, hfound])
      (by simp only [SheetsTasksService.update, findOwnedTask_own, hfound])
  | ok task =>
    have hfound' := (findOwnedTask_own db u taskId).trans hfound
    obtain ⟨calls, hupdate⟩ := exists_update u taskId dto now
    exact ⟨_, { answer := .ok (.task (some (SheetsTasksService.updateData dto now task))), calls },
      .updateTask (SheetsTasksService.updateData_id dto now) (fun _ => rfl)
        (owns_of_findOwnedTask hfound),
      by simp only [hupdate db task hfound, Table.find?_updateWhere,
        (find?_of_findOwnedTask hfound).1, Option.map_some],
      by simp only [hupdate _ task hfound', Table.find?_updateWhere,
        (find?_of_findOwnedTask hfound').1, Option.map_some]⟩

theorem removeTask_confined : Confined u drawn db fun d =>
      match SheetsTasksService.remove d u taskId with
      | .error message => (d, .fail message)
      | .ok (d', calls) => (d', { answer := .ok .ok, calls }) := by
  cases hfound : findOwnedTask db u taskId with
  | error message =>
    exact .nothing (.fail message) (by simp only [SheetsTasksService.remove, hfound])
      (by simp only [SheetsTasksService.remove, findOwnedTask_own, hfound])
  | ok task =>
    exact ⟨_, { answer := .ok .ok, calls := [.removeSchedule taskId] },
      .deleteTask (owns_of_findOwnedTask hfound), by simp only [SheetsTasksService.remove, hfound],
      by simp only [SheetsTasksService.remove, findOwnedTask_own, hfound]⟩

theorem runNow_own (isLocked : ProjectId → Bool) :
    SheetsTasksService.runNow (own u db) isLocked u taskId =
      SheetsTasksService.runNow db isLocked u taskId := by
  rw [SheetsTasksService.runNow, SheetsTasksService.runNow, findOwnedTask_own]

end SheetsTasks

theorem forProject_own (projectId : ProjectId) (scope : StatsScope) :
    StatsService.forProject newURL (own u db) u projectId scope =
      StatsService.forProject newURL db u projectId scope := by
  rw [StatsService.forProject, StatsService.forProject, assertProject_eq, assertProject_eq, owns_own]
  cases hown : db.owns u projectId with
  | false => rfl
  | true =>
    have hlinks := filter_links_own hown (q := inScope projectId scope)
      fun l hl => eq_of_beq (Bool.and_eq_true_iff.mp hl).1
    rw [hlinks]

theorem respond_confined (locks : String → LockManager.Key) (email : Option String)
    (hc : db.Consistent) (op : Op newURL) (hnodup : op.drawn.Nodup)
    (hunused : ∀ id ∈ op.drawn, db.Unused id) :
    Confined u op.drawn db fun d => respond locks email u d op := by
  cases op with
  | listProjects =>
    exact .nothing (.ok (.projects (ProjectsService.list db u))) rfl
      (by simp only [respond, listProjects_own])
  | createProject dto cuid =>
    exact create_confined dto (hunused cuid (List.mem_singleton_self cuid))
      (List.mem_singleton_self cuid)
  | getProject id => exact .read (getById_own db u id)
  | updateProject id dto => exact update_confined dto
  | removeProject id => exact remove_confined
  | listLinks projectId query order => exact .read (listLinks_own query order)
  | createManualLinks projectId dto cuid =>
    exact createManualLinks_confined dto hnodup hunused fun _ => id
  | deleteOne linkId => exact deleteOne_confined
  | deleteAllManual projectId => exact deleteAllManual_confined
  | startManualCheck projectId now jobId =>
    apply Confined.reads
    · intro d
      simp only [respond]
      split <;> rfl
    · simp only [respond, startManualCheck_own]
      split <;> rfl
  | recheckOne linkId lockRead now jobId => exact recheckOne_confined _ now jobId
  | listTasks projectId => exact .read (listTasks_own hc)
  | createTask projectId dto cuid now =>
    exact createTask_confined dto now (hunused cuid (List.mem_singleton_self cuid))
      (List.mem_singleton_self cuid)
  | updateTask taskId dto now => exact updateTask_confined dto now
  | removeTask taskId => exact removeTask_confined
  | runNow taskId now jobId =>
    apply Confined.reads
    · intro d
      simp only [respond]
      split <;> rfl
    · simp only [respond, runNow_own]
      split <;> rfl
  | getServiceAccountEmail => exact .nothing (.ok (.email email)) rfl rfl
  | forProject projectId scope => exact .read (forProject_own projectId scope)

end LinkBulker.Services
