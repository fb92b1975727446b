import LinkBulker.Db.Schema

/-! Whose rows are whose: a link and a sheets task belong to the user of their project.  The part of
a database that belongs to some users, and the writes that stay within the rows of one. -/

namespace LinkBulker.Db

open Foundations

variable {db : Database} {keep : UserId → Bool} {u : UserId} {drawn : List String}
  {w : Database → Database} {projectId : ProjectId}

def Database.belongs (db : Database) (keep : UserId → Bool) (projectId : ProjectId) : Bool :=
  db.projects.rows.any fun p => p.id == projectId && keep p.userId

def Database.owns (db : Database) (u : UserId) (projectId : ProjectId) : Bool :=
  db.belongs (· == u) projectId

def Database.part (db : Database) (keep : UserId → Bool) : Database where
  projects := db.projects.keepWhere fun p => keep p.userId
  links := db.links.keepWhere fun l => db.belongs keep l.projectId
  sheetsTasks := db.sheetsTasks.keepWhere fun task => db.belongs keep task.projectId

/-- The foreign keys, and that a link lies in the project of its task. -/
structure Database.Consistent (db : Database) : Prop where
  linkProject : ∀ l ∈ db.links.rows, ∃ p ∈ db.projects.rows, p.id = l.projectId
  taskProject : ∀ task ∈ db.sheetsTasks.rows, ∃ p ∈ db.projects.rows, p.id = task.projectId
  linkTask : ∀ l ∈ db.links.rows, ∀ taskId, l.sheetsTaskId = some taskId →
    ∃ task ∈ db.sheetsTasks.rows, task.id = taskId ∧ task.projectId = l.projectId

structure Database.Unused (db : Database) (id : String) : Prop where
  project : db.projects.find? id = none
  link : db.links.find? id = none
  task : db.sheetsTasks.find? id = none

@[ext] theorem Database.ext {db db' : Database} (hprojects : db.projects = db'.projects)
    (hlinks : db.links = db'.links) (htasks : db.sheetsTasks = db'.sheetsTasks) : db = db' := by
  cases db
  cases db'
  cases hprojects
  cases hlinks
  cases htasks
  rfl

theorem belongs_iff : db.belongs keep projectId ↔
    ∃ p ∈ db.projects.rows, p.id = projectId ∧ keep p.userId := by
  simp [Database.belongs]

theorem belongs_eq_find? (db : Database) (keep : UserId → Bool) (projectId : ProjectId) :
    db.belongs keep projectId = (db.projects.find? projectId).any fun p => keep p.userId := by
  cases h : db.projects.find? projectId with
  | none =>
    rw [Option.any_none, Bool.eq_false_iff, Ne, belongs_iff]
    rintro ⟨p, hp, hid, -⟩
    exact Table.find?_eq_none.mp h p hp hid
  | some p =>
    obtain ⟨hp, rfl⟩ := Table.find?_eq_some.mp h
    rw [Option.any_some, Bool.eq_iff_iff, belongs_iff]
    constructor
    · rintro ⟨p', hp', hid, hkeep⟩
      rwa [← db.projects.eq_of_key_eq hp' hp hid]
    · exact fun hkeep => ⟨p, hp, rfl, hkeep⟩

theorem belongs_of_owns (h : db.owns u projectId) (keep : UserId → Bool) :
    db.belongs keep projectId = keep u := by
  rw [Database.owns, belongs_eq_find?] at h
  obtain ⟨p, hfind, hp⟩ := (Option.any_eq_true _ _).mp h
  rw [belongs_eq_find?, hfind, Option.any_some, eq_of_beq hp]

theorem owns_of_mem {p : Project} (hp : p ∈ db.projects.rows) : db.owns p.userId p.id :=
  belongs_iff.mpr ⟨p, hp, rfl, beq_self_eq_true p.userId⟩

theorem belongs_part (db : Database) (keep : UserId → Bool) (projectId : ProjectId) :
    (db.part keep).belongs keep projectId = db.belongs keep projectId := by
  rw [Bool.eq_iff_iff, belongs_iff, belongs_iff]
  constructor
  · rintro ⟨p, hp, hid⟩
    exact ⟨p, (Table.mem_keepWhere.mp hp).1, hid⟩
  · rintro ⟨p, hp, hid, hkeep⟩
    exact ⟨p, Table.mem_keepWhere.mpr ⟨hp, hkeep⟩, hid, hkeep⟩

theorem Database.Consistent.part (h : db.Consistent) (keep : UserId → Bool) :
    (db.part keep).Consistent where
  linkProject l hl := by
    obtain ⟨p, hp, hid, hkeep⟩ := belongs_iff.mp (Table.mem_keepWhere.mp hl).2
    exact ⟨p, Table.mem_keepWhere.mpr ⟨hp, hkeep⟩, hid⟩
  taskProject task htask := by
    obtain ⟨p, hp, hid, hkeep⟩ := belongs_iff.mp (Table.mem_keepWhere.mp htask).2
    exact ⟨p, Table.mem_keepWhere.mpr ⟨hp, hkeep⟩, hid⟩
  linkTask l hl taskId hid := by
    obtain ⟨hl, hbelongs⟩ := Table.mem_keepWhere.mp hl
    obtain ⟨task, htask, rfl, hproject⟩ := h.linkTask l hl taskId hid
    exact ⟨task, Table.mem_keepWhere.mpr ⟨htask, by rw [hproject]; exact hbelongs⟩, rfl, hproject⟩

theorem Database.Consistent.deleteProject_links (h : db.Consistent) (id : ProjectId) :
    (db.deleteProject id).links = db.links.deleteWhere fun l => l.projectId == id := by
  apply Table.keepWhere_congr
  intro l hl
  congr 1
  rw [Bool.or_eq_left_iff_imp, Option.any_eq_true]
  rintro ⟨task, htask, hproject⟩
  obtain ⟨taskId, hid, hfind⟩ := Option.bind_eq_some_iff.mp htask
  obtain ⟨hmem, hkey⟩ := Table.find?_eq_some.mp hfind
  obtain ⟨task', hmem', hkey', hsame⟩ := h.linkTask l hl taskId hid
  obtain rfl := db.sheetsTasks.eq_of_key_eq hmem hmem' (hkey.trans hkey'.symm)
  rw [← hsame]
  exact hproject

inductive Writes (u : UserId) (drawn : List String) (db : Database) : (Database → Database) → Prop
  | nothing : Writes u drawn db fun d => d
  | insertProject {p : Project} (hu : p.userId = u) (hunused : db.Unused p.id)
      (hdrawn : p.id ∈ drawn) :
      Writes u drawn db fun d =>
        { d with projects := (d.projects.insertMany [p]).getD d.projects }
  | updateProject {id : ProjectId} {f : Project → Project} (hf : ∀ p, (f p).id = p.id)
      (huser : ∀ p, (f p).userId = p.userId) (hown : db.owns u id) :
      Writes u drawn db fun d =>
        { d with projects := d.projects.updateWhere (fun p => p.id = id) f hf }
  | deleteProject {id : ProjectId} (hown : db.owns u id) :
      Writes u drawn db fun d => d.deleteProject id
  | insertLinks {ls : List Link} (hnodup : (ls.map Link.id).Nodup)
      (hunused : ∀ l ∈ ls, db.Unused l.id) (hdrawn : ∀ l ∈ ls, l.id ∈ drawn)
      (hown : ∀ l ∈ ls, db.owns u l.projectId) (htask : ∀ l ∈ ls, l.sheetsTaskId = none) :
      Writes u drawn db fun d => { d with links := (d.links.insertMany ls).getD d.links }
  | updateLinks {q : Link → Bool} {f : Link → Link} (hf : ∀ l, (f l).id = l.id)
      (hproject : ∀ l, (f l).projectId = l.projectId)
      (htask : ∀ l, (f l).sheetsTaskId = l.sheetsTaskId)
      (hown : ∀ l ∈ db.links.rows, q l → db.owns u l.projectId) :
      Writes u drawn db fun d => { d with links := d.links.updateWhere q f hf }
  | deleteLinks {q : Link → Bool} (hown : ∀ l ∈ db.links.rows, q l → db.owns u l.projectId) :
      Writes u drawn db fun d => { d with links := d.links.deleteWhere q }
  | insertTask {task : SheetsTask} (hunused : db.Unused task.id) (hdrawn : task.id ∈ drawn)
      (hown : db.owns u task.projectId) :
      Writes u drawn db fun d =>
        { d with sheetsTasks := (d.sheetsTasks.insertMany [task]).getD d.sheetsTasks }
  | updateTask {id : SheetsTaskId} {f : SheetsTask → SheetsTask} (hf : ∀ task, (f task).id = task.id)
      (hproject : ∀ task, (f task).projectId = task.projectId)
      (hown : ∀ task ∈ db.sheetsTasks.rows, task.id = id → db.owns u task.projectId) :
      Writes u drawn db fun d =>
        { d with sheetsTasks := d.sheetsTasks.updateWhere (fun task => task.id = id) f hf }
  | deleteTask {id : SheetsTaskId}
      (hown : ∀ task ∈ db.sheetsTasks.rows, task.id = id → db.owns u task.projectId) :
      Writes u drawn db fun d => d.deleteSheetsTask id

theorem belongs_of_ne {projects : Table Project.id} {p : Project}
    (h : projects.rows = db.projects.rows ++ [p]) (hne : p.id ≠ projectId) :
    Database.belongs { db with projects } keep projectId = db.belongs keep projectId := by
  simp [Database.belongs, h, hne]

theorem belongs_updateProject {id : ProjectId} {f : Project → Project} (hf : ∀ p, (f p).id = p.id)
    (huser : ∀ p, (f p).userId = p.userId) :
    Database.belongs { db with projects := db.projects.updateWhere (fun p => p.id = id) f hf } keep
      projectId = db.belongs keep projectId := by
  simp only [Database.belongs, Table.updateWhere, Table.mapRows, List.any_map]
  congr 1
  funext p
  simp only [Function.comp_apply]
  split
  · rw [hf, huser]
  · rfl

theorem belongs_deleteProject {id : ProjectId} (hne : projectId ≠ id) :
    (db.deleteProject id).belongs keep projectId = db.belongs keep projectId := by
  rw [belongs_eq_find?, belongs_eq_find?, Database.deleteProject, Table.find?_delete_of_ne hne]

theorem part_of_projects {projects : Table Project.id}
    (h : ∀ projectId, (∃ p ∈ db.projects.rows, p.id = projectId) →
      Database.belongs { db with projects } keep projectId = db.belongs keep projectId)
    (hc : db.Consistent) : Database.part { db with projects } keep =
      { db.part keep with projects := projects.keepWhere fun p => keep p.userId } := by
  have hlinks : db.links.keepWhere
      (fun l => Database.belongs { db with projects } keep l.projectId) =
      db.links.keepWhere fun l => db.belongs keep l.projectId :=
    Table.keepWhere_congr fun l hl => h l.projectId (hc.linkProject l hl)
  have htasks : db.sheetsTasks.keepWhere
      (fun task => Database.belongs { db with projects } keep task.projectId) =
      db.sheetsTasks.keepWhere fun task => db.belongs keep task.projectId :=
    Table.keepWhere_congr fun task htask => h task.projectId (hc.taskProject task htask)
  rw [Database.part, hlinks, htasks]
  rfl

theorem part_insertProject {p : Project} (hc : db.Consistent) (hunused : db.Unused p.id)
    {projects : Table Project.id} (hinsert : db.projects.insertMany [p] = some projects) :
    Database.part { db with projects } keep =
      { db.part keep with projects := projects.keepWhere fun p => keep p.userId } := by
  refine part_of_projects ?_ hc
  rintro _ ⟨p', hp', rfl⟩
  exact belongs_of_ne (Table.insertMany_eq_some.mp hinsert)
    (Ne.symm (Table.find?_eq_none.mp hunused.project p' hp'))

theorem part_deleteProject (hc : db.Consistent) (id : ProjectId) :
    (db.deleteProject id).part keep = (db.part keep).deleteProject id := by
  apply Database.ext
  · exact Table.keepWhere_deleteWhere
  · rw [(hc.part keep).deleteProject_links]
    simp only [Database.part]
    rw [hc.deleteProject_links, ← Table.keepWhere_deleteWhere]
    apply Table.keepWhere_congr
    intro l hl
    exact belongs_deleteProject fun hid => (Table.mem_deleteWhere.mp hl).2 (beq_iff_eq.mpr hid)
  · simp only [Database.part, Database.deleteProject]
    rw [← Table.keepWhere_deleteWhere]
    apply Table.keepWhere_congr
    intro task htask
    exact belongs_deleteProject fun hid => (Table.mem_deleteWhere.mp htask).2 (beq_iff_eq.mpr hid)

theorem deleteProject_part (hc : db.Consistent) {id : ProjectId} (h : db.belongs keep id = false) :
    (db.part keep).deleteProject id = db.part keep := by
  have hne {projectId : ProjectId} (hbelongs : db.belongs keep projectId) : projectId ≠ id := by
    rintro rfl
    rw [h] at hbelongs
    cases hbelongs
  apply Database.ext
  · apply Table.keepWhere_eq_self
    intro p hp
    obtain ⟨hp, hkeep⟩ := Table.mem_keepWhere.mp hp
    simpa using hne (belongs_iff.mpr ⟨p, hp, rfl, hkeep⟩)
  · rw [(hc.part keep).deleteProject_links]
    apply Table.keepWhere_eq_self
    intro l hl
    simpa using hne (Table.mem_keepWhere.mp hl).2
  · apply Table.keepWhere_eq_self
    intro task htask
    simpa using hne (Table.mem_keepWhere.mp htask).2

theorem Writes.part_self (h : Writes u drawn db w) (hc : db.Consistent) (hkeep : keep u) :
    (w db).part keep = w (db.part keep) := by
  cases h with
  | nothing => rfl
  | insertProject hu hunused hdrawn =>
    obtain ⟨projects, hinsert⟩ := Table.insertMany_singleton hunused.project
    simp only [hinsert, Option.getD_some]
    rw [part_insertProject hc hunused hinsert]
    have hpart := Table.insertMany_keepWhere (p := fun p => keep p.userId) hinsert
      fun p hp => by rw [List.mem_singleton.mp hp, hu, hkeep]
    simp only [Database.part, hpart, Option.getD_some]
  | updateProject hf huser hown =>
    rw [part_of_projects (fun _ _ => belongs_updateProject hf huser) hc,
      Table.keepWhere_updateWhere hf fun p => by rw [huser]]
    rfl
  | deleteProject hown => exact part_deleteProject hc _
  | insertLinks hnodup hunused hdrawn hown htask =>
    obtain ⟨links, hinsert⟩ := Table.insertMany_of_unused hnodup fun l hl => (hunused l hl).link
    have hpart := Table.insertMany_keepWhere (p := fun l => db.belongs keep l.projectId) hinsert
      fun l hl => by rw [belongs_of_owns (hown l hl), hkeep]
    simp only [Database.part, hinsert, hpart, Option.getD_some]
    rfl
  | @updateLinks q f hf hproject htask hown =>
    have hlinks := Table.keepWhere_updateWhere (t := db.links) (q := q)
      (p := fun l => db.belongs keep l.projectId) hf fun l => by rw [hproject]
    exact congrArg (fun links => { db.part keep with links }) hlinks
  | deleteLinks hown =>
    exact congrArg (fun links => { db.part keep with links }) Table.keepWhere_deleteWhere
  | insertTask hunused hdrawn hown =>
    obtain ⟨tasks, hinsert⟩ := Table.insertMany_singleton hunused.task
    have hpart := Table.insertMany_keepWhere (p := fun task => db.belongs keep task.projectId) hinsert
      fun task htask => by rw [List.mem_singleton.mp htask, belongs_of_owns hown, hkeep]
    simp only [Database.part, hinsert, hpart, Option.getD_some]
    rfl
  | @updateTask id f hf hproject hown =>
    have htasks := Table.keepWhere_updateWhere (t := db.sheetsTasks)
      (q := fun task => task.id = id)
      (p := fun task => db.belongs keep task.projectId) hf fun task => by rw [hproject]
    exact congrArg (fun sheetsTasks => { db.part keep with sheetsTasks }) htasks
  | deleteTask hown =>
    exact congrArg₂ (fun links sheetsTasks => { db.part keep with links, sheetsTasks })
      Table.keepWhere_deleteWhere Table.keepWhere_deleteWhere

theorem Writes.part_other (h : Writes u drawn db w) (hc : db.Consistent) (hkeep : keep u = false) :
    (w db).part keep = db.part keep := by
  cases h with
  | nothing => rfl
  | insertProject hu hunused hdrawn =>
    obtain ⟨projects, hinsert⟩ := Table.insertMany_singleton hunused.project
    simp only [hinsert, Option.getD_some]
    rw [part_insertProject hc hunused hinsert, Table.keepWhere_insertMany_of_not hinsert]
    · rfl
    · intro p hp
      rw [List.mem_singleton.mp hp, hu, hkeep]
  | updateProject hf huser hown =>
    rw [part_of_projects (fun _ _ => belongs_updateProject hf huser) hc,
      Table.keepWhere_updateWhere_of_not hf (fun p => by rw [huser])]
    · rfl
    · intro p hp hid
      have hbelongs := belongs_of_owns hown keep
      rw [hkeep, ← of_decide_eq_true hid] at hbelongs
      rw [← hbelongs, belongs_of_owns (owns_of_mem hp)]
  | deleteProject hown =>
    rw [part_deleteProject hc, deleteProject_part hc]
    rw [belongs_of_owns hown, hkeep]
  | insertLinks hnodup hunused hdrawn hown htask =>
    obtain ⟨links, hinsert⟩ := Table.insertMany_of_unused hnodup fun l hl => (hunused l hl).link
    have hpart := Table.keepWhere_insertMany_of_not (p := fun l => db.belongs keep l.projectId)
      hinsert fun l hl => by rw [belongs_of_owns (hown l hl), hkeep]
    simp only [hinsert, Option.getD_some]
    exact congrArg (fun links => { db.part keep with links }) hpart
  | @updateLinks q f hf hproject htask hown =>
    have hlinks := Table.keepWhere_updateWhere_of_not (t := db.links) (q := q)
      (p := fun l => db.belongs keep l.projectId) hf (fun l => by rw [hproject])
      fun l hl hq => by rw [belongs_of_owns (hown l hl hq), hkeep]
    exact congrArg (fun links => { db.part keep with links }) hlinks
  | @deleteLinks q hown =>
    have hlinks := Table.keepWhere_deleteWhere_of_not (t := db.links) (q := q)
      (p := fun l => db.belongs keep l.projectId)
      fun l hl hq => by rw [belongs_of_owns (hown l hl hq), hkeep]
    exact congrArg (fun links => { db.part keep with links }) hlinks
  | insertTask hunused hdrawn hown =>
    obtain ⟨tasks, hinsert⟩ := Table.insertMany_singleton hunused.task
    have hpart := Table.keepWhere_insertMany_of_not (p := fun task => db.belongs keep task.projectId)
      hinsert fun task htask => by rw [List.mem_singleton.mp htask, belongs_of_owns hown, hkeep]
    simp only [hinsert, Option.getD_some]
    exact congrArg (fun sheetsTasks => { db.part keep with sheetsTasks }) hpart
  | @updateTask id f hf hproject hown =>
    have htasks := Table.keepWhere_updateWhere_of_not (t := db.sheetsTasks)
      (q := fun task => task.id = id)
      (p := fun task => db.belongs keep task.projectId) hf (fun task => by rw [hproject])
      fun task htask hq => by rw [belongs_of_owns (hown task htask (of_decide_eq_true hq)), hkeep]
    exact congrArg (fun sheetsTasks => { db.part keep with sheetsTasks }) htasks
  | @deleteTask id hown =>
    have hlinks := Table.keepWhere_deleteWhere_of_not (t := db.links)
      (q := fun l => l.sheetsTaskId == some id)
      (p := fun l => db.belongs keep l.projectId) fun l hl hq => by
        obtain ⟨task, htask, hid, hproject⟩ := hc.linkTask l hl _ (eq_of_beq hq)
        rw [← hproject, belongs_of_owns (hown task htask hid), hkeep]
    have htasks := Table.keepWhere_deleteWhere_of_not (t := db.sheetsTasks)
      (q := fun task => decide (task.id = id))
      (p := fun task => db.belongs keep task.projectId)
      fun task htask hq => by rw [belongs_of_owns (hown task htask (of_decide_eq_true hq)), hkeep]
    exact congrArg₂ (fun links sheetsTasks => { db.part keep with links, sheetsTasks }) hlinks htasks

theorem exists_of_owns (h : db.owns u projectId) : ∃ p ∈ db.projects.rows, p.id = projectId := by
  obtain ⟨p, hp, hid, -⟩ := belongs_iff.mp h
  exact ⟨p, hp, hid⟩

theorem Writes.consistent (h : Writes u drawn db w) (hc : db.Consistent) : (w db).Consistent := by
  cases h with
  | nothing => exact hc
  | insertProject hu hunused hdrawn =>
    obtain ⟨projects, hinsert⟩ := Table.insertMany_singleton hunused.project
    have hmem {p : Project} (hp : p ∈ db.projects.rows) : p ∈ projects.rows := by
      rw [Table.insertMany_eq_some.mp hinsert]
      exact List.mem_append_left _ hp
    simp only [hinsert, Option.getD_some]
    refine ⟨fun l hl => ?_, fun task htask => ?_, hc.linkTask⟩
    · obtain ⟨p, hp, hid⟩ := hc.linkProject l hl
      exact ⟨p, hmem hp, hid⟩
    · obtain ⟨p, hp, hid⟩ := hc.taskProject task htask
      exact ⟨p, hmem hp, hid⟩
  | updateProject hf huser hown =>
    exact ⟨fun l hl => (Table.exists_updateWhere hf hf).mpr (hc.linkProject l hl),
      fun task htask => (Table.exists_updateWhere hf hf).mpr (hc.taskProject task htask), hc.linkTask⟩
  | @deleteProject id hown =>
    have hlinks := hc.deleteProject_links id
    refine ⟨fun l hl => ?_, fun task htask => ?_, fun l hl taskId htaskId => ?_⟩
    · rw [hlinks] at hl
      obtain ⟨hl, hne⟩ := Table.mem_deleteWhere.mp hl
      obtain ⟨p, hp, hid⟩ := hc.linkProject l hl
      exact ⟨p, Table.mem_delete.mpr ⟨hp, fun h => hne (beq_iff_eq.mpr (hid.symm.trans h))⟩, hid⟩
    · obtain ⟨htask, hne⟩ := Table.mem_deleteWhere.mp htask
      obtain ⟨p, hp, hid⟩ := hc.taskProject task htask
      exact ⟨p, Table.mem_delete.mpr ⟨hp, fun h => hne (beq_iff_eq.mpr (hid.symm.trans h))⟩, hid⟩
    · rw [hlinks] at hl
      obtain ⟨hl, hne⟩ := Table.mem_deleteWhere.mp hl
      obtain ⟨task, htask, hid, hproject⟩ := hc.linkTask l hl taskId htaskId
      exact ⟨task, Table.mem_deleteWhere.mpr ⟨htask, hproject ▸ hne⟩, hid, hproject⟩
  | insertLinks hnodup hunused hdrawn hown htask =>
    obtain ⟨links, hinsert⟩ := Table.insertMany_of_unused hnodup fun l hl => (hunused l hl).link
    simp only [hinsert, Option.getD_some]
    have hrows := Table.insertMany_eq_some.mp hinsert
    refine ⟨fun l hl => ?_, hc.taskProject, fun l hl taskId htaskId => ?_⟩
    · obtain hl | hl := List.mem_append.mp (hrows ▸ hl)
      · exact hc.linkProject l hl
      · exact exists_of_owns (hown l hl)
    · obtain hl | hl := List.mem_append.mp (hrows ▸ hl)
      · exact hc.linkTask l hl taskId htaskId
      · rw [htask l hl] at htaskId
        cases htaskId
  | @updateLinks q f hf hproject htask hown =>
    have hold {l : Link} (hl : l ∈ (db.links.updateWhere q f hf).rows) :
        ∃ l₀ ∈ db.links.rows, l₀.projectId = l.projectId ∧ l₀.sheetsTaskId = l.sheetsTaskId := by
      obtain ⟨l₀, hl₀, hcols⟩ := (Table.exists_updateWhere hf
        (g := fun l => (l.projectId, l.sheetsTaskId)) fun l => by rw [hproject, htask]).mp ⟨l, hl, rfl⟩
      exact ⟨l₀, hl₀, Prod.mk.inj hcols⟩
    refine ⟨fun l hl => ?_, hc.taskProject, fun l hl taskId htaskId => ?_⟩
    · obtain ⟨l₀, hl₀, hproject, -⟩ := hold hl
      exact hproject ▸ hc.linkProject l₀ hl₀
    · obtain ⟨l₀, hl₀, hproject, htask⟩ := hold hl
      obtain ⟨task, hmem, hid, hsame⟩ := hc.linkTask l₀ hl₀ taskId (htask.trans htaskId)
      exact ⟨task, hmem, hid, hsame.trans hproject⟩
  | deleteLinks hown =>
    exact ⟨fun l hl => hc.linkProject l (Table.mem_deleteWhere.mp hl).1, hc.taskProject,
      fun l hl => hc.linkTask l (Table.mem_deleteWhere.mp hl).1⟩
  | insertTask hunused hdrawn hown =>
    obtain ⟨tasks, hinsert⟩ := Table.insertMany_singleton hunused.task
    simp only [hinsert, Option.getD_some]
    have hrows := Table.insertMany_eq_some.mp hinsert
    refine ⟨hc.linkProject, fun task htask => ?_, fun l hl taskId htaskId => ?_⟩
    · obtain htask | htask := List.mem_append.mp (hrows ▸ htask)
      · exact hc.taskProject task htask
      · rw [List.mem_singleton.mp htask]
        exact exists_of_owns hown
    · obtain ⟨task, htask, hid, hproject⟩ := hc.linkTask l hl taskId htaskId
      exact ⟨task, hrows ▸ List.mem_append_left _ htask, hid, hproject⟩
  | @updateTask id f hf hproject hown =>
    refine ⟨hc.linkProject, fun task htask => ?_, fun l hl taskId htaskId => ?_⟩
    · obtain ⟨task₀, htask₀, hsame⟩ := (Table.exists_updateWhere hf hproject).mp ⟨task, htask, rfl⟩
      exact hsame ▸ hc.taskProject task₀ htask₀
    · obtain ⟨task₀, htask₀, hid, hsame⟩ := hc.linkTask l hl taskId htaskId
      obtain ⟨task, htask, hcols⟩ := (Table.exists_updateWhere hf
        (g := fun task => (task.id, task.projectId)) fun task => by rw [hf, hproject]).mpr
        ⟨task₀, htask₀, rfl⟩
      exact ⟨task, htask, (congrArg Prod.fst hcols).trans hid, (congrArg Prod.snd hcols).trans hsame⟩
  | @deleteTask id hown =>
    refine ⟨fun l hl => hc.linkProject l (Table.mem_deleteWhere.mp hl).1,
      fun task htask => hc.taskProject task (Table.mem_deleteWhere.mp htask).1,
      fun l hl taskId htaskId => ?_⟩
    obtain ⟨hl, hne⟩ := Table.mem_deleteWhere.mp hl
    obtain ⟨task, htask, hid, hproject⟩ := hc.linkTask l hl taskId htaskId
    refine ⟨task, Table.mem_delete.mpr ⟨htask, ?_⟩, hid, hproject⟩
    rintro rfl
    rw [htaskId, hid] at hne
    exact hne (beq_self_eq_true _)

theorem Writes.unused (h : Writes u drawn db w) {newId : String} (hnew : newId ∉ drawn)
    (hunused : db.Unused newId) : (w db).Unused newId := by
  cases h with
  | nothing => exact hunused
  | insertProject hu hfree hdrawn =>
    obtain ⟨projects, hinsert⟩ := Table.insertMany_singleton hfree.project
    simp only [hinsert, Option.getD_some]
    refine { hunused with project := ?_ }
    rw [Table.find?_insertMany_of_ne hinsert (ne_of_mem_of_not_mem hdrawn hnew)]
    exact hunused.project
  | updateProject hf huser hown =>
    exact { hunused with project := Table.find?_updateWhere_of_none hf hunused.project }
  | deleteProject hown =>
    exact ⟨Table.find?_deleteWhere_of_none hunused.project,
      Table.find?_deleteWhere_of_none hunused.link, Table.find?_deleteWhere_of_none hunused.task⟩
  | insertLinks hnodup hfree hdrawn hown htask =>
    obtain ⟨links, hinsert⟩ := Table.insertMany_of_unused hnodup fun l hl => (hfree l hl).link
    simp only [hinsert, Option.getD_some]
    refine { hunused with link := ?_ }
    rw [Table.find?_insertMany_of_not hinsert fun l hl => ne_of_mem_of_not_mem (hdrawn l hl) hnew]
    exact hunused.link
  | updateLinks hf hproject htask hown =>
    exact { hunused with link := Table.find?_updateWhere_of_none hf hunused.link }
  | deleteLinks hown =>
    exact { hunused with link := Table.find?_deleteWhere_of_none hunused.link }
  | insertTask hfree hdrawn hown =>
    obtain ⟨tasks, hinsert⟩ := Table.insertMany_singleton hfree.task
    simp only [hinsert, Option.getD_some]
    refine { hunused with task := ?_ }
    rw [Table.find?_insertMany_of_ne hinsert (ne_of_mem_of_not_mem hdrawn hnew)]
    exact hunused.task
  | updateTask hf hproject hown =>
    exact { hunused with task := Table.find?_updateWhere_of_none hf hunused.task }
  | deleteTask hown =>
    exact { hunused with
      link := Table.find?_deleteWhere_of_none hunused.link
      task := Table.find?_deleteWhere_of_none hunused.task }

theorem Writes.owns (h : Writes u drawn db w) (hown : (w db).owns u projectId) :
    db.owns u projectId ∨ projectId ∈ drawn := by
  cases h with
  | insertProject hu hfree hdrawn =>
    obtain ⟨projects, hinsert⟩ := Table.insertMany_singleton hfree.project
    simp only [hinsert, Option.getD_some] at hown
    by_cases hid : ‹Project›.id = projectId
    · exact .inr (hid ▸ hdrawn)
    · exact .inl ((belongs_of_ne (Table.insertMany_eq_some.mp hinsert) hid).symm.trans hown)
  | updateProject hf huser _ => exact .inl ((belongs_updateProject hf huser).symm.trans hown)
  | deleteProject _ =>
    obtain ⟨p, hp, hid⟩ := belongs_iff.mp hown
    exact .inl (belongs_iff.mpr ⟨p, (Table.mem_delete.mp hp).1, hid⟩)
  | nothing | insertLinks | updateLinks | deleteLinks | insertTask | updateTask | deleteTask =>
    exact .inl hown

end LinkBulker.Db
