import LinkBulker.Api.RowRequests
import LinkBulker.Api.SheetsSchedules
import LinkBulker.Db.History
import LinkBulker.Worker.LinkRepository

/-! The statements of the API and the workers, each within the rows of the user it is made for. -/

namespace LinkBulker.Backend

open Foundations Db Shared LinkRepository

variable {u : UserId} {given drawn : List String} {db db' : Database}

section Links

variable {id : LinkId}

theorem within_updateLinks (ht : Tidy given db) {q : Link → Bool} {f : Link → Link}
    (hf : ∀ l, (f l).id = l.id) (hinput : ∀ l, (f l).input = l.input)
    (hown : ∀ l ∈ db.links.rows, q l → db.owns u l.projectId) :
    Within u drawn db { db with links := db.links.updateWhere q f hf } := by
  have hproject : ∀ l, (f l).projectId = l.projectId := fun l =>
    congrArg LinkInput.projectId (hinput l)
  have htask : ∀ l, (f l).sheetsTaskId = l.sheetsTaskId := fun l =>
    congrArg LinkInput.sheetsTaskId (hinput l)
  refine .of_writes ht (Writes.updateLinks hf hproject htask hown)
    ⟨.refl _, .updateWhere hf hinput, .refl _⟩ fun l hl => .inl ?_
  exact (Table.exists_updateWhere hf hinput).mp ⟨l, hl, rfl⟩

theorem within_deleteLinks (ht : Tidy given db) {q : Link → Bool}
    (hown : ∀ l ∈ db.links.rows, q l → db.owns u l.projectId) :
    Within u drawn db { db with links := db.links.deleteWhere q } :=
  .of_writes ht (Writes.deleteLinks hown) ⟨.refl _, .deleteWhere, .refl _⟩
    fun l hl => .inl ⟨l, (Table.mem_deleteWhere.mp hl).1, rfl⟩

theorem within_insertLinks (ht : Tidy given db) (hfresh : ∀ id ∈ drawn, id ∉ given)
    {ls : List Link} {links : Table Link.id} (h : db.links.insertMany ls = some links)
    (hdrawn : ∀ l ∈ ls, l.id ∈ drawn) (hown : ∀ l ∈ ls, db.owns u l.projectId)
    (hmanual : ∀ l ∈ ls, l.source = .MANUAL ∧ l.sheetsTaskId = none) :
    Within u drawn db { db with links } := by
  have hrows := Table.insertMany_eq_some.mp h
  have hnodup : (ls.map Link.id).Nodup := by
    have hall := links.nodup
    rw [hrows, List.map_append] at hall
    exact hall.of_append_right
  have hwrites : Writes u drawn db fun d =>
      { d with links := (d.links.insertMany ls).getD d.links } :=
    .insertLinks hnodup (fun l hl => ht.unused (hfresh _ (hdrawn l hl))) hdrawn hown
      fun l hl => (hmanual l hl).2
  have hdb : ({ db with links := (db.links.insertMany ls).getD db.links } : Database) =
      { db with links } := by rw [h, Option.getD_some]
  rw [← hdb]
  refine .of_writes ht hwrites ?_ ?_
  · rw [hdb]
    exact ⟨.refl _, .append hrows hdrawn, .refl _⟩
  · rw [hdb]
    intro l hl
    obtain hl | hl := List.mem_append.mp (hrows ▸ hl)
    · exact .inl ⟨l, hl, rfl⟩
    · obtain ⟨hsource, htask⟩ := hmanual l hl
      exact .inr (by simp [Sourced, hsource, htask])

theorem within_markStatus {status : LinkStatus} (ht : Tidy given db)
    (hl : Owned u given db (.link id)) (h : markStatus db id status = some db') :
    Within u drawn db db' := by
  obtain ⟨-, rfl⟩ := updateLink_eq_some.mp h
  exact within_updateLinks ht (statusData_id status) (fun _ => rfl) fun l hmem hid =>
    hl.row l hmem (of_decide_eq_true hid)

theorem within_markManyStatus {ids : List LinkId} {status : LinkStatus} (ht : Tidy given db)
    (hids : ∀ id ∈ ids, Owned u given db (.link id)) :
    Within u drawn db (markManyStatus db ids status) := by
  unfold markManyStatus
  split
  · exact .refl ht
  · exact within_updateLinks ht (statusData_id status) (fun _ => rfl) fun l hmem hid =>
      (hids _ (of_decide_eq_true hid)).row l hmem rfl

theorem within_saveResult {result : Crawler.CrawlAndAnalyzeResult} {now : ℤ} {row : Link}
    (ht : Tidy given db) (hl : Owned u given db (.link id))
    (h : saveResult db id result now = some (row, db')) : Within u drawn db db' := by
  obtain ⟨-, -, -, -, rfl⟩ := saveResult_eq_some.mp h
  exact within_updateLinks ht (saveResultData_id result now) (fun _ => rfl) fun l hmem hid =>
    hl.row l hmem (of_decide_eq_true hid)

theorem within_cooldown {cutoff value : ℤ} (ht : Tidy given db)
    (hl : Owned u given db (.link id)) :
    Within u drawn db { db with
      links := db.links.updateWhere (RecheckOne.cooledDown id cutoff)
        (RecheckOne.setCooldown value) (RecheckOne.setCooldown_id value) } :=
  within_updateLinks ht (RecheckOne.setCooldown_id value) (fun _ => rfl) fun l hmem hcool =>
    hl.row l hmem (eq_of_beq (Bool.and_eq_true_iff.mp hcool).1)

end Links

section Projects

variable {id : ProjectId}

theorem within_updateProject {f : Project → Project} {hf : ∀ p, (f p).id = p.id}
    (huser : ∀ p, (f p).userId = p.userId) (ht : Tidy given db)
    (hp : Owned u given db (.project id)) (hrow : ∃ p ∈ db.projects.rows, p.id = id) :
    Within u drawn db
      { db with projects := db.projects.updateWhere (fun p => p.id = id) f hf } :=
  .of_writes ht (Writes.updateProject hf huser (hp.owns hrow))
    ⟨.updateWhere hf huser, .refl _, .refl _⟩ fun l hl => .inl ⟨l, hl, rfl⟩

theorem within_setProjectManualChecking {value : Bool} (ht : Tidy given db)
    (hp : Owned u given db (.project id)) (h : setProjectManualChecking db id value = some db') :
    Within u drawn db db' := by
  obtain ⟨hrow, rfl⟩ := updateProject_eq_some.mp h
  exact within_updateProject (fun _ => rfl) ht hp hrow

theorem within_setProjectSheetsChecking {value : Bool} (ht : Tidy given db)
    (hp : Owned u given db (.project id)) (h : setProjectSheetsChecking db id value = some db') :
    Within u drawn db db' := by
  obtain ⟨hrow, rfl⟩ := updateProject_eq_some.mp h
  exact within_updateProject (fun _ => rfl) ht hp hrow

theorem within_insertProject {p : Project} {projects : Table Project.id} (ht : Tidy given db)
    (hfresh : ∀ id ∈ drawn, id ∉ given) (h : db.projects.insertMany [p] = some projects)
    (hdrawn : p.id ∈ drawn) (hu : p.userId = u) : Within u drawn db { db with projects } := by
  have hwrites : Writes u drawn db fun d =>
      { d with projects := (d.projects.insertMany [p]).getD d.projects } :=
    .insertProject hu (ht.unused (hfresh _ hdrawn)) hdrawn
  have hdb : ({ db with projects := (db.projects.insertMany [p]).getD db.projects } : Database) =
      { db with projects } := by rw [h, Option.getD_some]
  rw [← hdb]
  refine .of_writes ht hwrites ?_ fun l hl => .inl ⟨l, hl, rfl⟩
  rw [hdb]
  refine ⟨.append (Table.insertMany_eq_some.mp h) fun r hr => ?_, .refl _, .refl _⟩
  rwa [List.mem_singleton.mp hr]

theorem within_deleteProject (ht : Tidy given db) (hp : Owned u given db (.project id))
    (hrow : ∃ p ∈ db.projects.rows, p.id = id) : Within u drawn db (db.deleteProject id) :=
  .of_writes ht (Writes.deleteProject (hp.owns hrow))
    ⟨.deleteWhere, .deleteWhere, .deleteWhere⟩
    fun l hl => .inl ⟨l, (Table.mem_deleteWhere.mp hl).1, rfl⟩

end Projects

section Tasks

variable {id : SheetsTaskId}

theorem within_updateTask {f : SheetsTask → SheetsTask} {hf : ∀ task, (f task).id = task.id}
    (hproject : ∀ task, (f task).projectId = task.projectId) (ht : Tidy given db)
    (htask : Owned u given db (.task id)) :
    Within u drawn db
      { db with sheetsTasks := db.sheetsTasks.updateWhere (fun task => task.id = id) f hf } :=
  .of_writes ht (Writes.updateTask hf hproject htask.row)
    ⟨.refl _, .refl _, .updateWhere hf hproject⟩ fun l hl => .inl ⟨l, hl, rfl⟩

theorem within_setSheetsTaskStatus {status : SheetsTaskStatus} {lastRunStatus : Option String}
    {now : ℤ} (ht : Tidy given db) (htask : Owned u given db (.task id))
    (h : setSheetsTaskStatus db id status lastRunStatus now = some db') :
    Within u drawn db db' := by
  obtain ⟨-, rfl⟩ := Table.map_update_eq_some.mp h
  exact within_updateTask (fun task => by cases status <;> rfl) ht htask

theorem within_insertTask {task : SheetsTask} {sheetsTasks : Table SheetsTask.id}
    (ht : Tidy given db) (hfresh : ∀ id ∈ drawn, id ∉ given)
    (h : db.sheetsTasks.insertMany [task] = some sheetsTasks) (hdrawn : task.id ∈ drawn)
    (hown : db.owns u task.projectId) : Within u drawn db { db with sheetsTasks } := by
  have hwrites : Writes u drawn db fun d =>
      { d with sheetsTasks := (d.sheetsTasks.insertMany [task]).getD d.sheetsTasks } :=
    .insertTask (ht.unused (hfresh _ hdrawn)) hdrawn hown
  have hdb : ({ db with
      sheetsTasks := (db.sheetsTasks.insertMany [task]).getD db.sheetsTasks } : Database) =
      { db with sheetsTasks } := by rw [h, Option.getD_some]
  rw [← hdb]
  refine .of_writes ht hwrites ?_ fun l hl => .inl ⟨l, hl, rfl⟩
  rw [hdb]
  refine ⟨.refl _, .refl _, .append (Table.insertMany_eq_some.mp h) fun r hr => ?_⟩
  rwa [List.mem_singleton.mp hr]

theorem within_deleteTask (ht : Tidy given db) (htask : Owned u given db (.task id)) :
    Within u drawn db (db.deleteSheetsTask id) :=
  .of_writes ht (Writes.deleteTask htask.row)
    ⟨.refl _, .deleteWhere, .deleteWhere⟩
    fun l hl => .inl ⟨l, (Table.mem_deleteWhere.mp hl).1, rfl⟩

end Tasks

section Replace

variable {sheetsTaskId : SheetsTaskId} {projectId : ProjectId} {rows : List SheetsLinkData}
  {cuid : ℕ → LinkId}

theorem exists_task_of_replace (h : replaceSheetsLinks db sheetsTaskId projectId rows cuid = some db')
    (hrows : 0 < rows.length) : ∃ task ∈ db.sheetsTasks.rows, task.id = sheetsTaskId := by
  unfold replaceSheetsLinks at h
  dsimp only at h
  rw [if_pos hrows] at h
  split at h
  · rename_i hkeys
    exact Table.find?_isSome.mp (Bool.and_eq_true_iff.mp hkeys).2
  · cases h

theorem replaceSheetsLinks_frame
    (h : replaceSheetsLinks db sheetsTaskId projectId rows cuid = some db') :
    db'.projects = db.projects ∧ db'.sheetsTasks = db.sheetsTasks := by
  unfold replaceSheetsLinks at h
  dsimp only at h
  split at h
  · split at h
    · obtain ⟨links, -, rfl⟩ := Option.map_eq_some_iff.mp h
      exact ⟨rfl, rfl⟩
    · cases h
  · cases h
    exact ⟨rfl, rfl⟩

theorem owns_of_task (ht : Tidy given db) (htask : Owned u given db (.task sheetsTaskId)) :
    ∀ l ∈ db.links.rows, l.sheetsTaskId = some sheetsTaskId → db.owns u l.projectId := by
  intro l hl hid
  obtain ⟨task, hmem, hkey, hproject⟩ := ht.consistent.linkTask l hl _ hid
  exact hproject ▸ htask.row task hmem hkey

theorem within_replaceSheetsLinks (ht : Tidy given db)
    (htask : Owned u given db (.taskOf sheetsTaskId projectId))
    (hdrawn : ∀ i < rows.length, cuid i ∈ drawn)
    (h : replaceSheetsLinks db sheetsTaskId projectId rows cuid = some db') :
    Within u drawn db db' := by
  have hrows := replaceSheetsLinks_rows h
  obtain ⟨hprojects, htasks⟩ := replaceSheetsLinks_frame h
  have hnew {l : Link} (hl : l ∈ rows.mapIdx fun i r =>
      sheetsLink sheetsTaskId projectId (cuid i) r) :
      l.id ∈ drawn ∧ db.owns u l.projectId ∧ Sourced l := by
    obtain ⟨i, hi, rfl⟩ := List.mem_mapIdx.mp hl
    obtain ⟨task, hmem, hkey⟩ := exists_task_of_replace h (Nat.zero_lt_of_lt hi)
    exact ⟨hdrawn i hi, (htask.row task hmem hkey).2, by simp [Sourced, sheetsLink]⟩
  refine ⟨fun keep hkeep => ?_, ?_, ?_, fun l hl => ?_⟩
  · have hbelongs (p : ProjectId) : db'.belongs keep p = db.belongs keep p := by
      rw [Database.belongs, hprojects, Database.belongs]
    have hgone : ∀ l ∈ db.links.rows, decide (l.sheetsTaskId = some sheetsTaskId) →
        db.belongs keep l.projectId = false := fun l hl hid => by
      rw [belongs_of_owns (owns_of_task ht htask.task_of_taskOf l hl (of_decide_eq_true hid)), hkeep]
    have hnone : (rows.mapIdx fun i r => sheetsLink sheetsTaskId projectId (cuid i) r).filter
        (fun l => db.belongs keep l.projectId) = [] := by
      rw [List.filter_eq_nil_iff]
      intro l hl
      rw [belongs_of_owns (hnew hl).2.1, hkeep]
      exact Bool.false_ne_true
    apply Database.ext
    · simp only [Database.part, hprojects]
    · simp only [Database.part, hbelongs]
      rw [← Table.keepWhere_deleteWhere_of_not hgone]
      apply Table.ext
      rw [Table.rows_keepWhere, Table.rows_keepWhere, hrows, List.filter_append, hnone,
        List.append_nil]
    · simp only [Database.part, hbelongs, htasks]
  · refine ⟨hprojects ▸ .refl _, ?_, htasks ▸ .refl _⟩
    intro l hl
    obtain hl | hl := List.mem_append.mp (hrows ▸ hl)
    · exact .inl ⟨l, (Table.mem_deleteWhere.mp hl).1, rfl, rfl⟩
    · exact .inr (hnew hl).1
  · exact replaceSheetsLinks_consistent ht.consistent h fun task hmem hid =>
      (htask.row task hmem hid).1
  · obtain hl | hl := List.mem_append.mp (hrows ▸ hl)
    · exact ht.sourced l (Table.mem_deleteWhere.mp hl).1
    · exact (hnew hl).2.2

end Replace

end LinkBulker.Backend
