import LinkBulker.Db.Ownership
import LinkBulker.Shared.Jobs
import LinkBulker.Worker.Crawler

/-! `apps/worker/src/modules/queue/link.repository.ts`, one function a method and one Prisma
statement (or transaction) a function.  `none` stands for a rejected promise. -/

namespace LinkBulker.LinkRepository

open Foundations Db Shared Crawler

def findById (db : Database) (id : LinkId) : Option Link := db.links.find? id

def updateLink (db : Database) (id : LinkId) (f : Link → Link) (hf : ∀ l, (f l).id = l.id) :
    Option Database :=
  (db.links.update id f hf).map fun links => { db with links }

def updateProject (db : Database) (id : ProjectId) (f : Project → Project)
    (hf : ∀ p, (f p).id = p.id) : Option Database :=
  (db.projects.update id f hf).map fun projects => { db with projects }

def statusData (status : LinkStatus) (l : Link) : Link := { l with status }

theorem statusData_id (status : LinkStatus) (l : Link) : (statusData status l).id = l.id := rfl

def markStatus (db : Database) (id : LinkId) (status : LinkStatus) : Option Database :=
  updateLink db id (statusData status) (statusData_id status)

def markManyStatus (db : Database) (ids : List LinkId) (status : LinkStatus) : Database :=
  if ids.length = 0 then db
  else { db with
    links := db.links.updateWhere (fun l => l.id ∈ ids) (statusData status) (statusData_id status) }

/-- The `data` of the update; a field given as `undefined` keeps the stored value. -/
def saveResultData (result : CrawlAndAnalyzeResult) (now : ℤ) (l : Link) : Link :=
  { l with
    status := if result.ok then .DONE else .ERROR
    donorStatusCode := result.donorStatusCode
    donorFinalUrl := result.donorFinalUrl
    donorRedirectChain := result.donorRedirectChain.or l.donorRedirectChain
    donorIndexable := result.donorIndexable
    donorMetaRobots := result.donorMetaRobots
    donorXRobotsTag := result.donorXRobotsTag
    donorCanonical := result.donorCanonical
    canonicalMatches := result.canonicalMatches
    linkFound := result.linkFound
    occurrences := result.occurrences.or l.occurrences
    occurrencesCount := result.occurrencesCount
    error := result.error
    checkDurationMs := some result.durationMs
    lastCheckedAt := some now }

theorem saveResultData_id (result : CrawlAndAnalyzeResult) (now : ℤ) (l : Link) :
    (saveResultData result now l).id = l.id := rfl

def saveResult (db : Database) (linkId : LinkId) (result : CrawlAndAnalyzeResult) (now : ℤ) :
    Option (Link × Database) :=
  (updateLink db linkId (saveResultData result now) (saveResultData_id result now)).bind fun db' =>
    (findById db' linkId).map fun saved => (saved, db')

def manualCheckingData (value : Bool) (p : Project) : Project := { p with manualChecking := value }

theorem manualCheckingData_id (value : Bool) (p : Project) :
    (manualCheckingData value p).id = p.id := rfl

def setProjectManualChecking (db : Database) (projectId : ProjectId) (value : Bool) :
    Option Database :=
  updateProject db projectId (manualCheckingData value) (manualCheckingData_id value)

def sheetsCheckingData (value : Bool) (p : Project) : Project := { p with sheetsChecking := value }

theorem sheetsCheckingData_id (value : Bool) (p : Project) :
    (sheetsCheckingData value p).id = p.id := rfl

def setProjectSheetsChecking (db : Database) (projectId : ProjectId) (value : Bool) :
    Option Database :=
  updateProject db projectId (sheetsCheckingData value) (sheetsCheckingData_id value)

def progressCounts (db : Database) (where_ : Link → Bool) (total : ℕ) : ProgressCounts :=
  let done := db.links.rows.countP fun l => where_ l && l.status == .DONE
  let error := db.links.rows.countP fun l => where_ l && l.status == .ERROR
  let found := db.links.rows.countP fun l => where_ l && l.linkFound == some true
  ⟨total, done + error, found, error⟩

def getProgressCounts (db : Database) (linkIds : List LinkId) : ProgressCounts :=
  if linkIds.length = 0 then ⟨0, 0, 0, 0⟩
  else progressCounts db (fun l => l.id ∈ linkIds) linkIds.length

def findSheetsTaskById (db : Database) (id : SheetsTaskId) : Option SheetsTask :=
  db.sheetsTasks.find? id

def setSheetsTaskStatusData (status : SheetsTaskStatus) (lastRunStatus : Option String) (now : ℤ)
    (task : SheetsTask) : SheetsTask :=
  match status with
  | .RUNNING => { task with status, isChecking := true, updatedAt := now }
  | .COMPLETED | .FAILED =>
    { task with
      status, isChecking := false, lastRunAt := some now, lastRunStatus, updatedAt := now }
  | .IDLE => { task with status, updatedAt := now }

theorem setSheetsTaskStatusData_id (status : SheetsTaskStatus) (lastRunStatus : Option String)
    (now : ℤ) (task : SheetsTask) :
    (setSheetsTaskStatusData status lastRunStatus now task).id = task.id := by
  cases status <;> rfl

def setSheetsTaskStatus (db : Database) (id : SheetsTaskId) (status : SheetsTaskStatus)
    (lastRunStatus : Option String) (now : ℤ) : Option Database :=
  (db.sheetsTasks.update id (setSheetsTaskStatusData status lastRunStatus now)
    (setSheetsTaskStatusData_id status lastRunStatus now)).map fun sheetsTasks => { db with sheetsTasks }

structure SheetsLinkData where
  donorUrl : String
  acceptorRaw : String
  acceptorHost : String
  deriving DecidableEq

def sheetsLink (sheetsTaskId : SheetsTaskId) (projectId : ProjectId) (id : LinkId)
    (r : SheetsLinkData) : Link where
  id := id
  projectId := projectId
  sheetsTaskId := some sheetsTaskId
  source := .SHEETS
  donorUrl := r.donorUrl
  acceptorRaw := r.acceptorRaw
  acceptorHost := r.acceptorHost

/-- `cuid` generates the ids.  The new rows have the newest `createdAt`, so they come last, and
`createMany` rejects when their project or task is gone. -/
def replaceSheetsLinks (db : Database) (sheetsTaskId : SheetsTaskId) (projectId : ProjectId)
    (rows : List SheetsLinkData) (cuid : ℕ → LinkId) : Option Database :=
  let kept := db.links.deleteWhere fun l => l.sheetsTaskId = some sheetsTaskId
  if rows.length > 0 then
    if (db.projects.find? projectId).isSome && (db.sheetsTasks.find? sheetsTaskId).isSome then
      (kept.insertMany (rows.mapIdx fun i r => sheetsLink sheetsTaskId projectId (cuid i) r)).map
        fun links => { db with links }
    else none
  else some { db with links := kept }

def findLinksBySheetsTaskOrdered (db : Database) (sheetsTaskId : SheetsTaskId) : List Link :=
  db.links.rows.filter fun l => l.sheetsTaskId = some sheetsTaskId

def getSheetsProgressCounts (db : Database) (sheetsTaskId : SheetsTaskId) : ProgressCounts :=
  progressCounts db (fun l => l.sheetsTaskId = some sheetsTaskId)
    (findLinksBySheetsTaskOrdered db sheetsTaskId).length

section Laws

variable {db db' : Database} {id : LinkId} {now : ℤ}

theorem updateLink_eq_some {f : Link → Link} {hf : ∀ l, (f l).id = l.id} :
    updateLink db id f hf = some db' ↔
      (∃ l ∈ db.links.rows, l.id = id) ∧
        db' = { db with links := db.links.updateWhere (fun l => l.id = id) f hf } :=
  Table.map_update_eq_some

theorem updateLink_eq_none {f : Link → Link} {hf : ∀ l, (f l).id = l.id} :
    updateLink db id f hf = none ↔ ∀ l ∈ db.links.rows, l.id ≠ id := by
  simp [updateLink, Table.update_eq_none]

theorem updateProject_eq_some {f : Project → Project} {hf : ∀ p, (f p).id = p.id} :
    updateProject db id f hf = some db' ↔
      (∃ p ∈ db.projects.rows, p.id = id) ∧
        db' = { db with projects := db.projects.updateWhere (fun p => p.id = id) f hf } :=
  Table.map_update_eq_some

theorem updateProject_eq_none {f : Project → Project} {hf : ∀ p, (f p).id = p.id} :
    updateProject db id f hf = none ↔ ∀ p ∈ db.projects.rows, p.id ≠ id := by
  simp [updateProject, Table.update_eq_none]

theorem updateProject_keys {f : Project → Project} {hf : ∀ p, (f p).id = p.id}
    (h : updateProject db id f hf = some db') :
    db'.links = db.links ∧ db'.projects.rows.map Project.id = db.projects.rows.map Project.id := by
  obtain ⟨-, rfl⟩ := updateProject_eq_some.mp h
  exact ⟨rfl, Table.map_updateWhere _ _ _ hf hf⟩

theorem markManyStatus_projects {ids : List LinkId} {status : LinkStatus} :
    (markManyStatus db ids status).projects = db.projects := by
  unfold markManyStatus
  split <;> rfl

theorem setSheetsTaskStatus_frame {status : SheetsTaskStatus} {lastRunStatus : Option String}
    (h : setSheetsTaskStatus db id status lastRunStatus now = some db') :
    db'.links = db.links ∧ db'.projects = db.projects := by
  obtain ⟨sheetsTasks, -, rfl⟩ := Option.map_eq_some_iff.mp h
  exact ⟨rfl, rfl⟩

theorem saveResult_eq_some {result : CrawlAndAnalyzeResult} {saved : Link} :
    saveResult db id result now = some (saved, db') ↔
      ∃ l ∈ db.links.rows, l.id = id ∧ saved = saveResultData result now l ∧
        db' = { db with
          links := db.links.updateWhere (fun l => l.id = id) (saveResultData result now)
            (saveResultData_id result now) } := by
  simp only [saveResult, Option.bind_eq_some_iff, Option.map_eq_some_iff, Prod.mk.injEq, findById]
  constructor
  · rintro ⟨_, hupd, saved, hsaved, rfl, rfl⟩
    obtain ⟨⟨l, hl, rfl⟩, rfl⟩ := updateLink_eq_some.mp hupd
    refine ⟨l, hl, rfl, ?_, rfl⟩
    rw [Table.find?_updateWhere, Table.find?_eq_some.mpr ⟨hl, rfl⟩] at hsaved
    exact (Option.some.inj hsaved).symm
  · rintro ⟨l, hl, rfl, rfl, rfl⟩
    refine ⟨_, updateLink_eq_some.mpr ⟨⟨l, hl, rfl⟩, rfl⟩, _, ?_, rfl, rfl⟩
    rw [Table.find?_updateWhere, Table.find?_eq_some.mpr ⟨hl, rfl⟩, Option.map_some]

theorem saveResult_eq_none {result : CrawlAndAnalyzeResult} :
    saveResult db id result now = none ↔ ∀ l ∈ db.links.rows, l.id ≠ id := by
  constructor
  · intro h l hl hid
    have hsome : saveResult db id result now = some (saveResultData result now l, _) :=
      saveResult_eq_some.mpr ⟨l, hl, hid, rfl, rfl⟩
    rw [h] at hsome
    cases hsome
  · intro h
    rw [saveResult, updateLink_eq_none.mpr h, Option.bind_none]

theorem mem_findLinks {sheetsTaskId : SheetsTaskId} {l : Link} :
    l ∈ findLinksBySheetsTaskOrdered db sheetsTaskId ↔
      l ∈ db.links.rows ∧ l.sheetsTaskId = some sheetsTaskId := by
  simp [findLinksBySheetsTaskOrdered]

theorem findLinks_nodup (sheetsTaskId : SheetsTaskId) :
    ((findLinksBySheetsTaskOrdered db sheetsTaskId).map Link.id).Nodup :=
  db.links.nodup.sublist (List.filter_sublist.map _)

theorem findLinks_map {f : Link → Link} (hf : ∀ l, (f l).input = l.input)
    (hrows : db'.links.rows = db.links.rows.map f) (sheetsTaskId : SheetsTaskId) :
    findLinksBySheetsTaskOrdered db' sheetsTaskId =
      (findLinksBySheetsTaskOrdered db sheetsTaskId).map f := by
  have htask : ∀ l, (f l).sheetsTaskId = l.sheetsTaskId := fun l =>
    congrArg LinkInput.sheetsTaskId (hf l)
  rw [findLinksBySheetsTaskOrdered, hrows, List.filter_map, findLinksBySheetsTaskOrdered]
  congr 1
  exact List.filter_congr fun l _ => by simp [htask]

theorem replaceSheetsLinks_rows {sheetsTaskId : SheetsTaskId} {projectId : ProjectId}
    {rows : List SheetsLinkData} {cuid : ℕ → LinkId}
    (h : replaceSheetsLinks db sheetsTaskId projectId rows cuid = some db') :
    db'.links.rows = (db.links.deleteWhere fun l => l.sheetsTaskId = some sheetsTaskId).rows ++
      rows.mapIdx fun i r => sheetsLink sheetsTaskId projectId (cuid i) r := by
  unfold replaceSheetsLinks at h
  dsimp only at h
  split at h
  · split at h
    · obtain ⟨links, hins, rfl⟩ := Option.map_eq_some_iff.mp h
      exact Table.insertMany_eq_some.mp hins
    · cases h
  · rename_i hlen
    obtain rfl := Option.some.inj h
    rw [List.eq_nil_of_length_eq_zero (Nat.eq_zero_of_not_pos hlen), List.mapIdx_nil,
      List.append_nil]

theorem replaceSheetsLinks_ordered {sheetsTaskId : SheetsTaskId} {projectId : ProjectId}
    {rows : List SheetsLinkData} {cuid : ℕ → LinkId}
    (h : replaceSheetsLinks db sheetsTaskId projectId rows cuid = some db') :
    findLinksBySheetsTaskOrdered db' sheetsTaskId =
      rows.mapIdx fun i r => sheetsLink sheetsTaskId projectId (cuid i) r := by
  have hkept : (db.links.deleteWhere fun l => l.sheetsTaskId = some sheetsTaskId).rows.filter
      (fun l => l.sheetsTaskId = some sheetsTaskId) = [] := by
    simp [Table.deleteWhere, Table.keepWhere, List.filter_filter]
  rw [findLinksBySheetsTaskOrdered, replaceSheetsLinks_rows h, List.filter_append, hkept,
    List.nil_append, List.filter_eq_self]
  intro l hl
  obtain ⟨i, hi, rfl⟩ := List.mem_mapIdx.mp hl
  simp [sheetsLink]

theorem replaceSheetsLinks_consistent {sheetsTaskId : SheetsTaskId} {projectId : ProjectId}
    {rows : List SheetsLinkData} {cuid : ℕ → LinkId} (hc : db.Consistent)
    (h : replaceSheetsLinks db sheetsTaskId projectId rows cuid = some db')
    (htask : ∀ task ∈ db.sheetsTasks.rows, task.id = sheetsTaskId → task.projectId = projectId) :
    db'.Consistent := by
  unfold replaceSheetsLinks at h
  split at h
  · split at h
    · rename_i hkeys
      obtain ⟨hproject, hfound⟩ := Bool.and_eq_true_iff.mp hkeys
      obtain ⟨links, hinsert, rfl⟩ := Option.map_eq_some_iff.mp h
      have hrows := Table.insertMany_eq_some.mp hinsert
      have hnew {l : Link} (hl : l ∈ rows.mapIdx fun i r => sheetsLink sheetsTaskId projectId (cuid i) r) :
          l.projectId = projectId ∧ l.sheetsTaskId = some sheetsTaskId := by
        obtain ⟨i, hi, rfl⟩ := List.mem_mapIdx.mp hl
        exact ⟨rfl, rfl⟩
      refine ⟨fun l hl => ?_, hc.taskProject, fun l hl taskId hid => ?_⟩
      · obtain hl | hl := List.mem_append.mp (hrows ▸ hl)
        · exact hc.linkProject l (Table.mem_deleteWhere.mp hl).1
        · rw [(hnew hl).1]
          exact Table.find?_isSome.mp hproject
      · obtain hl | hl := List.mem_append.mp (hrows ▸ hl)
        · exact hc.linkTask l (Table.mem_deleteWhere.mp hl).1 taskId hid
        · obtain ⟨task, hmem, hkey⟩ := Table.find?_isSome.mp hfound
          rw [(hnew hl).2, Option.some_inj] at hid
          exact ⟨task, hmem, hkey.trans hid, (htask task hmem hkey).trans (hnew hl).1.symm⟩
    · cases h
  · cases h
    exact ⟨fun l hl => hc.linkProject l (Table.mem_deleteWhere.mp hl).1, hc.taskProject,
      fun l hl => hc.linkTask l (Table.mem_deleteWhere.mp hl).1⟩

theorem replaceSheetsLinks_projects {sheetsTaskId : SheetsTaskId} {projectId : ProjectId}
    {rows : List SheetsLinkData} {cuid : ℕ → LinkId}
    (h : replaceSheetsLinks db sheetsTaskId projectId rows cuid = some db') :
    db'.projects = db.projects := by
  unfold replaceSheetsLinks at h
  dsimp only at h
  split at h
  · split at h
    · obtain ⟨links, -, rfl⟩ := Option.map_eq_some_iff.mp h
      rfl
    · cases h
  · cases h
    rfl

theorem mem_of_saveResult {result : CrawlAndAnalyzeResult} {saved : Link}
    (h : saveResult db id result now = some (saved, db')) : saved ∈ db'.links.rows := by
  obtain ⟨l, hl, hid, rfl, rfl⟩ := saveResult_eq_some.mp h
  exact Table.mem_updateWhere_of_mem (saveResultData_id result now) hl (decide_eq_true hid)

theorem mem_of_markStatus {status : LinkStatus} {l : Link} (hl : l ∈ db.links.rows)
    (hid : l.id = id) (h : markStatus db id status = some db') :
    statusData status l ∈ db'.links.rows := by
  obtain ⟨-, rfl⟩ := updateLink_eq_some.mp h
  exact Table.mem_updateWhere_of_mem (statusData_id status) hl (decide_eq_true hid)

end Laws

end LinkBulker.LinkRepository
