import Mathlib.Tactic.MkIffOfInductiveProp
import LinkBulker.Foundations.Related
import LinkBulker.Worker.CrawlErrors
import LinkBulker.Worker.LinkRepository

/-! Databases that agree in what the events show.  The texts a user or a spreadsheet gave, and what
was found out about the pages, may differ. -/

namespace LinkBulker.Db

open Foundations

@[mk_iff]
structure Link.Alike (l l' : Link) : Prop where
  id : l.id = l'.id
  projectId : l.projectId = l'.projectId
  sheetsTaskId : l.sheetsTaskId = l'.sheetsTaskId
  status : l.status = l'.status
  linkFound : l.linkFound = l'.linkFound

structure Link.SameCheck (l l' : Link) : Prop where
  status : l.status = l'.status
  linkFound : l.linkFound = l'.linkFound
  occurrencesCount : l.occurrencesCount = l'.occurrencesCount
  donorStatusCode : l.donorStatusCode = l'.donorStatusCode
  error : l.error = l'.error
  lastCheckedAt : l.lastCheckedAt = l'.lastCheckedAt

@[mk_iff]
structure SheetsTask.Alike (task task' : SheetsTask) : Prop where
  id : task.id = task'.id
  projectId : task.projectId = task'.projectId
  resultStartCol : task.resultStartCol = task'.resultStartCol
  headerRow : task.headerRow = task'.headerRow
  lastRunAt : task.lastRunAt = task'.lastRunAt

@[mk_iff]
structure Database.Alike (db db' : Database) : Prop where
  projects : Table.Related (fun p p' => p.id = p'.id) db.projects db'.projects
  links : Table.Related Link.Alike db.links db'.links
  sheetsTasks : Table.Related SheetsTask.Alike db.sheetsTasks db'.sheetsTasks

instance (l l' : Link) : Decidable (l.Alike l') := decidable_of_iff' _ (Link.alike_iff l l')

instance (task task' : SheetsTask) : Decidable (task.Alike task') :=
  decidable_of_iff' _ (SheetsTask.alike_iff task task')

instance (db db' : Database) : Decidable (db.Alike db') :=
  decidable_of_iff' _ (Database.alike_iff db db')

end LinkBulker.Db

namespace LinkBulker.LinkRepository

open Foundations Db Shared Crawler

variable {db db' : Database} {result result' : CrawlAndAnalyzeResult} {now : ℤ}

theorem findById_alike (h : db.Alike db') (id : LinkId) :
    Option.Rel Link.Alike (findById db id) (findById db' id) :=
  h.links.find? (fun _ _ hl => hl.id) id

theorem findSheetsTaskById_alike (h : db.Alike db') (id : SheetsTaskId) :
    Option.Rel SheetsTask.Alike (findSheetsTaskById db id) (findSheetsTaskById db' id) :=
  h.sheetsTasks.find? (fun _ _ ht => ht.id) id

theorem findLinks_alike (h : db.Alike db') (sheetsTaskId : SheetsTaskId) :
    List.Forall₂ Link.Alike (findLinksBySheetsTaskOrdered db sheetsTaskId)
      (findLinksBySheetsTaskOrdered db' sheetsTaskId) :=
  h.links.filter fun l l' hl => by rw [hl.sheetsTaskId]

theorem statusData_alike (status : LinkStatus) {l l' : Link} (h : l.Alike l') :
    (statusData status l).Alike (statusData status l') :=
  { h with status := rfl }

theorem markStatus_alike (h : db.Alike db') (id : LinkId) (status : LinkStatus) :
    Option.Rel Database.Alike (markStatus db id status) (markStatus db' id status) :=
  rel_map (h.links.update (fun _ _ hl => hl.id) id (statusData_id status) (statusData_id status)
      fun _ _ hl => statusData_alike status hl)
    fun _ _ hlinks => { h with links := hlinks }

theorem markManyStatus_alike (h : db.Alike db') (ids : List LinkId) (status : LinkStatus) :
    (markManyStatus db ids status).Alike (markManyStatus db' ids status) := by
  unfold markManyStatus
  split
  · exact h
  · exact { h with
      links := h.links.updateWhere (statusData_id status) (statusData_id status)
        (fun l l' hl => by rw [hl.id]) fun _ _ hl => statusData_alike status hl }

theorem updateProject_alike (h : db.Alike db') (id : ProjectId) {f f' : Project → Project}
    {hf : ∀ p, (f p).id = p.id} {hf' : ∀ p, (f' p).id = p.id} :
    Option.Rel Database.Alike (updateProject db id f hf) (updateProject db' id f' hf') :=
  rel_map (h.projects.update (fun _ _ hp => hp) id hf hf'
      fun p p' hp => (hf p).trans (hp.trans (hf' p').symm))
    fun _ _ hprojects => { h with projects := hprojects }

theorem setProjectManualChecking_alike (h : db.Alike db') (id : ProjectId) (value : Bool) :
    Option.Rel Database.Alike (setProjectManualChecking db id value)
      (setProjectManualChecking db' id value) :=
  updateProject_alike h id

theorem setProjectSheetsChecking_alike (h : db.Alike db') (id : ProjectId) (value : Bool) :
    Option.Rel Database.Alike (setProjectSheetsChecking db id value)
      (setProjectSheetsChecking db' id value) :=
  updateProject_alike h id

theorem setSheetsTaskStatus_alike (h : db.Alike db') (id : SheetsTaskId) (status : SheetsTaskStatus)
    (lastRunStatus lastRunStatus' : Option String) (now : ℤ) :
    Option.Rel Database.Alike (setSheetsTaskStatus db id status lastRunStatus now)
      (setSheetsTaskStatus db' id status lastRunStatus' now) := by
  refine rel_map (h.sheetsTasks.update (fun _ _ ht => ht.id) id
      (setSheetsTaskStatusData_id status lastRunStatus now)
      (setSheetsTaskStatusData_id status lastRunStatus' now) ?_)
    fun _ _ htasks => { h with sheetsTasks := htasks }
  intro task task' ht
  cases status with
  | IDLE | RUNNING => exact ⟨ht.id, ht.projectId, ht.resultStartCol, ht.headerRow, ht.lastRunAt⟩
  | COMPLETED | FAILED => exact ⟨ht.id, ht.projectId, ht.resultStartCol, ht.headerRow, rfl⟩

theorem saveResult_eq (db : Database) (id : LinkId) (result : CrawlAndAnalyzeResult) (now : ℤ) :
    saveResult db id result now = (findById db id).map fun l =>
      (saveResultData result now l, { db with
        links := db.links.updateWhere (fun l => l.id = id) (saveResultData result now)
          (saveResultData_id result now) }) := by
  cases hfind : findById db id with
  | none => exact saveResult_eq_none.mpr (Table.find?_eq_none.mp hfind)
  | some l =>
    obtain ⟨hl, hid⟩ := Table.find?_eq_some.mp hfind
    exact saveResult_eq_some.mpr ⟨l, hl, hid, rfl, rfl⟩

theorem saveResultData_alike (hok : result.ok = result'.ok)
    (hfound : result.linkFound = result'.linkFound) {l l' : Link} (h : l.Alike l') :
    (saveResultData result now l).Alike (saveResultData result' now l') :=
  { h with
    status := congrArg (fun ok => if ok then LinkStatus.DONE else .ERROR) hok, linkFound := hfound }

theorem saveResultData_sameCheck (hfacts : result.facts = result'.facts) (l l' : Link) :
    (saveResultData result now l).SameCheck (saveResultData result' now l') := by
  obtain ⟨hok, hcode, hfound, hcount, herror⟩ := Facts.mk.inj hfacts
  exact ⟨congrArg (fun ok => if ok then LinkStatus.DONE else .ERROR) hok, hfound, hcount, hcode,
    herror, rfl⟩

theorem saveResult_alike {S : Link → Link → Prop} (h : db.Alike db') {id id' : LinkId}
    (hid : id = id') (hok : result.ok = result'.ok) (hfound : result.linkFound = result'.linkFound)
    (hS : ∀ l l', S (saveResultData result now l) (saveResultData result' now l')) :
    Option.Rel (fun r r' => S r.1 r'.1 ∧ r.2.Alike r'.2) (saveResult db id result now)
      (saveResult db' id' result' now) := by
  subst hid
  rw [saveResult_eq, saveResult_eq]
  refine rel_map (findById_alike h id) fun l l' _ => ⟨hS l l', ?_⟩
  exact { h with
    links := h.links.updateWhere (saveResultData_id result now) (saveResultData_id result' now)
      (fun l l' hl => by rw [hl.id]) fun _ _ hl => saveResultData_alike hok hfound hl }

theorem progressCounts_alike (h : db.Alike db') {where_ where_' : Link → Bool}
    (hwhere : ∀ l l', l.Alike l' → where_ l = where_' l') (total : ℕ) :
    progressCounts db where_ total = progressCounts db' where_' total := by
  have hcount {q : LinkStatus → Option Bool → Bool} :
      (db.links.rows.countP fun l => where_ l && q l.status l.linkFound) =
        db'.links.rows.countP fun l => where_' l && q l.status l.linkFound :=
    countP_of_forall₂ h.links fun l l' hl => by rw [hwhere l l' hl, hl.status, hl.linkFound]
  unfold progressCounts
  dsimp only
  rw [hcount (q := fun status _ => status == .DONE), hcount (q := fun status _ => status == .ERROR),
    hcount (q := fun _ found => found == some true)]

theorem getProgressCounts_alike (h : db.Alike db') (ids : List LinkId) :
    getProgressCounts db ids = getProgressCounts db' ids := by
  unfold getProgressCounts
  rw [progressCounts_alike h fun l l' hl => by rw [hl.id]]

theorem getSheetsProgressCounts_alike (h : db.Alike db') (sheetsTaskId : SheetsTaskId) :
    getSheetsProgressCounts db sheetsTaskId = getSheetsProgressCounts db' sheetsTaskId := by
  unfold getSheetsProgressCounts
  rw [(findLinks_alike h sheetsTaskId).length_eq,
    progressCounts_alike h fun l l' hl => by rw [hl.sheetsTaskId]]

theorem replaceSheetsLinks_alike (h : db.Alike db') (sheetsTaskId : SheetsTaskId)
    (projectId : ProjectId) {rows rows' : List SheetsLinkData} {cuid cuid' : ℕ → LinkId}
    (hlen : rows.length = rows'.length) (hcuid : ∀ i < rows.length, cuid i = cuid' i) :
    Option.Rel Database.Alike (replaceSheetsLinks db sheetsTaskId projectId rows cuid)
      (replaceSheetsLinks db' sheetsTaskId projectId rows' cuid') := by
  have hkept : Table.Related Link.Alike
      (db.links.deleteWhere fun l => l.sheetsTaskId = some sheetsTaskId)
      (db'.links.deleteWhere fun l => l.sheetsTaskId = some sheetsTaskId) :=
    h.links.deleteWhere fun l l' hl => by rw [hl.sheetsTaskId]
  have hnew : List.Forall₂ Link.Alike
      (rows.mapIdx fun i r => sheetsLink sheetsTaskId projectId (cuid i) r)
      (rows'.mapIdx fun i r => sheetsLink sheetsTaskId projectId (cuid' i) r) := by
    refine List.forall₂_iff_get.mpr ⟨by simpa using hlen, fun i hi hi' => ?_⟩
    rw [List.length_mapIdx] at hi
    simp only [List.get_eq_getElem, List.getElem_mapIdx]
    exact ⟨hcuid i hi, rfl, rfl, rfl, rfl⟩
  unfold replaceSheetsLinks
  dsimp only
  rw [← hlen, isSome_of_rel (h.projects.find? (fun _ _ hp => hp) projectId),
    isSome_of_rel (h.sheetsTasks.find? (fun _ _ ht => ht.id) sheetsTaskId)]
  refine rel_ite (fun _ => rel_ite (fun _ => ?_) fun _ => .none) fun _ => ?_
  · exact rel_map (hkept.insertMany (fun _ _ hl => hl.id) hnew)
      fun _ _ hlinks => { h with links := hlinks }
  · exact .some { h with links := hkept }

end LinkBulker.LinkRepository
