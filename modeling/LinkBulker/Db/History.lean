import LinkBulker.Db.Ownership
import LinkBulker.Foundations.Given

/-! The database over a run in which no id is given twice: the columns that are written once, the
writes within the rows of one user, and the ids somebody has kept of rows that may be gone. -/

namespace LinkBulker.Db

open Foundations

variable {u : UserId} {given drawn given' : List String} {db db' : Database}

def Database.ids (db : Database) : List String :=
  db.projects.rows.map Project.id ++ db.links.rows.map Link.id ++
    db.sheetsTasks.rows.map SheetsTask.id

def Sourced (l : Link) : Prop := l.source = .SHEETS ↔ l.sheetsTaskId.isSome

structure Evolves (drawn : List String) (db db' : Database) : Prop where
  projects : Grows Project.userId drawn db.projects db'.projects
  links : Grows Link.input drawn db.links db'.links
  tasks : Grows SheetsTask.projectId drawn db.sheetsTasks db'.sheetsTasks

structure Within (u : UserId) (drawn : List String) (db db' : Database) : Prop where
  others : ∀ keep : UserId → Bool, keep u = false → db'.part keep = db.part keep
  evolves : Evolves drawn db db'
  consistent : db'.Consistent
  sourced : ∀ l ∈ db'.links.rows, Sourced l

structure Tidy (given : List String) (db : Database) : Prop where
  consistent : db.Consistent
  sourced : ∀ l ∈ db.links.rows, Sourced l
  ids : db.ids ⊆ given

inductive Ref
  | project (id : ProjectId)
  | task (id : SheetsTaskId)
  | taskOf (id : SheetsTaskId) (projectId : ProjectId)
  | link (id : LinkId)
  deriving DecidableEq

def Ref.id : Ref → String
  | .project id | .task id | .taskOf id _ | .link id => id

def Ref.Of (u : UserId) (db : Database) : Ref → Prop
  | .project id => ∀ p ∈ db.projects.rows, p.id = id → p.userId = u
  | .task id => ∀ task ∈ db.sheetsTasks.rows, task.id = id → db.owns u task.projectId
  | .taskOf id projectId =>
    ∀ task ∈ db.sheetsTasks.rows, task.id = id → task.projectId = projectId ∧ db.owns u projectId
  | .link id => ∀ l ∈ db.links.rows, l.id = id → db.owns u l.projectId

structure Owned (u : UserId) (given : List String) (db : Database) (r : Ref) : Prop where
  given : r.id ∈ given
  row : r.Of u db

section Ids

theorem mem_ids {id : String} : id ∈ db.ids ↔ (∃ p ∈ db.projects.rows, p.id = id) ∨
    (∃ l ∈ db.links.rows, l.id = id) ∨ ∃ task ∈ db.sheetsTasks.rows, task.id = id := by
  simp only [Database.ids, List.mem_append, List.mem_map, or_assoc]

theorem unused_iff {id : String} : db.Unused id ↔ id ∉ db.ids := by
  rw [mem_ids]
  constructor
  · rintro h (⟨p, hp, hid⟩ | ⟨l, hl, hid⟩ | ⟨task, htask, hid⟩)
    · exact Table.find?_eq_none.mp h.project p hp hid
    · exact Table.find?_eq_none.mp h.link l hl hid
    · exact Table.find?_eq_none.mp h.task task htask hid
  · intro h
    refine ⟨Table.find?_eq_none.mpr ?_, Table.find?_eq_none.mpr ?_, Table.find?_eq_none.mpr ?_⟩
    · exact fun p hp hid => h (.inl ⟨p, hp, hid⟩)
    · exact fun l hl hid => h (.inr (.inl ⟨l, hl, hid⟩))
    · exact fun task htask hid => h (.inr (.inr ⟨task, htask, hid⟩))

theorem Tidy.unused (h : Tidy given db) {id : String} (hid : id ∉ given) : db.Unused id :=
  unused_iff.mpr fun hmem => hid (h.ids hmem)

theorem Tidy.project_given (h : Tidy given db) {p : Project} (hp : p ∈ db.projects.rows) :
    p.id ∈ given :=
  h.ids (mem_ids.mpr (.inl ⟨p, hp, rfl⟩))

theorem Tidy.link_given (h : Tidy given db) {l : Link} (hl : l ∈ db.links.rows) : l.id ∈ given :=
  h.ids (mem_ids.mpr (.inr (.inl ⟨l, hl, rfl⟩)))

theorem Tidy.task_given (h : Tidy given db) {task : SheetsTask}
    (htask : task ∈ db.sheetsTasks.rows) : task.id ∈ given :=
  h.ids (mem_ids.mpr (.inr (.inr ⟨task, htask, rfl⟩)))

end Ids

section Evolution

theorem Evolves.refl (db : Database) : Evolves drawn db db := ⟨.refl _, .refl _, .refl _⟩

theorem Evolves.trans {drawn' : List String} {db'' : Database} (h : Evolves drawn db db')
    (h' : Evolves drawn' db' db'') : Evolves (drawn ++ drawn') db db'' :=
  ⟨h.projects.trans h'.projects, h.links.trans h'.links, h.tasks.trans h'.tasks⟩

theorem Evolves.ids (h : Evolves drawn db db') : db'.ids ⊆ db.ids ++ drawn := by
  intro id hid
  obtain hid | hid := List.mem_append.mp hid
  · obtain hid | hid := List.mem_append.mp hid
    · exact (List.mem_append.mp (h.projects.keys hid)).elim
        (fun hold => List.mem_append_left _ (List.mem_append_left _ (List.mem_append_left _ hold)))
        (List.mem_append_right _)
    · exact (List.mem_append.mp (h.links.keys hid)).elim
        (fun hold => List.mem_append_left _ (List.mem_append_left _ (List.mem_append_right _ hold)))
        (List.mem_append_right _)
  · exact (List.mem_append.mp (h.tasks.keys hid)).elim
      (fun hold => List.mem_append_left _ (List.mem_append_right _ hold)) (List.mem_append_right _)

variable (hfresh : ∀ id ∈ drawn, id ∉ given)

include hfresh

theorem Evolves.owns {projectId : ProjectId} (h : Evolves drawn db db') (ht : Tidy given db)
    (hp : ∃ p ∈ db'.projects.rows, p.id = projectId) (hown : db.owns u projectId) :
    db'.owns u projectId := by
  obtain ⟨p, hp, rfl⟩ := hp
  obtain ⟨p₀, hp₀, hid, hu⟩ := belongs_iff.mp hown
  obtain ⟨p₁, hp₁, hkey, huser⟩ := h.projects.old hfresh hp (hid ▸ ht.project_given hp₀)
  obtain rfl := db.projects.eq_of_key_eq hp₀ hp₁ (hid.trans hkey.symm)
  exact belongs_iff.mpr ⟨p, hp, rfl, huser ▸ hu⟩

theorem Owned.evolves {r : Ref} (h : Owned u given db r) (he : Evolves drawn db db')
    (ht : Tidy given db) (hc : db'.Consistent) (hsub : given ⊆ given') : Owned u given' db' r := by
  refine ⟨hsub h.given, ?_⟩
  have hrow := h.row
  have hgiven := h.given
  cases r with
  | project id =>
    rintro p hp rfl
    obtain ⟨p₀, hp₀, hkey, huser⟩ := he.projects.old hfresh hp hgiven
    exact huser ▸ hrow p₀ hp₀ hkey
  | task id =>
    rintro task htask rfl
    obtain ⟨task₀, htask₀, hkey, hproject⟩ := he.tasks.old hfresh htask hgiven
    exact he.owns hfresh ht (hc.taskProject task htask) (hproject ▸ hrow task₀ htask₀ hkey)
  | taskOf id projectId =>
    rintro task htask rfl
    obtain ⟨task₀, htask₀, hkey, hproject⟩ := he.tasks.old hfresh htask hgiven
    obtain ⟨hsame, hown⟩ := hrow task₀ htask₀ hkey
    have hnow : task.projectId = projectId := hproject.symm.trans hsame
    exact ⟨hnow, he.owns hfresh ht (hnow ▸ hc.taskProject task htask) hown⟩
  | link id =>
    rintro l hl rfl
    obtain ⟨l₀, hl₀, hkey, hinput⟩ := he.links.old hfresh hl hgiven
    have hproject : l₀.projectId = l.projectId := congrArg LinkInput.projectId hinput
    exact he.owns hfresh ht (hc.linkProject l hl) (hproject ▸ hrow l₀ hl₀ hkey)

theorem Owned.within {r : Ref} (h : Owned u given db r) {v : UserId} (hw : Within v drawn db db')
    (ht : Tidy given db) : Owned u (given ++ drawn) db' r :=
  h.evolves hfresh hw.evolves ht hw.consistent (List.subset_append_left given drawn)

omit hfresh

theorem Within.tidy (h : Within u drawn db db') (ht : Tidy given db) :
    Tidy (given ++ drawn) db' := by
  refine ⟨h.consistent, h.sourced, fun id hid => ?_⟩
  obtain hid | hid := List.mem_append.mp (h.evolves.ids hid)
  · exact List.mem_append_left _ (ht.ids hid)
  · exact List.mem_append_right _ hid

theorem Within.refl (ht : Tidy given db) : Within u drawn db db :=
  ⟨fun _ _ => rfl, .refl db, ht.consistent, ht.sourced⟩

theorem Sourced.of_input {l l' : Link} (h : Sourced l) (hinput : l.input = l'.input) :
    Sourced l' := by
  have hsource : l.source = l'.source := congrArg LinkInput.source hinput
  have htask : l.sheetsTaskId = l'.sheetsTaskId := congrArg LinkInput.sheetsTaskId hinput
  rwa [Sourced, ← hsource, ← htask]

theorem Within.of_writes {w : Database → Database} (ht : Tidy given db)
    (h : Writes u drawn db w) (he : Evolves drawn db (w db))
    (hnew : ∀ l ∈ (w db).links.rows, (∃ l₀ ∈ db.links.rows, l₀.input = l.input) ∨ Sourced l) :
    Within u drawn db (w db) := by
  refine ⟨fun _ hkeep => h.part_other ht.consistent hkeep, he, h.consistent ht.consistent, ?_⟩
  intro l hl
  obtain ⟨l₀, hl₀, hinput⟩ | hsourced := hnew l hl
  · exact (ht.sourced l₀ hl₀).of_input hinput
  · exact hsourced

end Evolution

section Known

variable {projectId : ProjectId}

theorem Owned.project (ht : Tidy given db) (hown : db.owns u projectId) :
    Owned u given db (.project projectId) := by
  obtain ⟨p, hp, rfl, hu⟩ := belongs_iff.mp hown
  refine ⟨ht.project_given hp, fun p' hp' hid => ?_⟩
  rw [db.projects.eq_of_key_eq hp' hp hid]
  exact eq_of_beq hu

theorem Owned.owns (h : Owned u given db (.project projectId))
    (hp : ∃ p ∈ db.projects.rows, p.id = projectId) : db.owns u projectId := by
  obtain ⟨p, hp, rfl⟩ := hp
  have hu : p.userId = u := h.row p hp rfl
  exact hu ▸ owns_of_mem hp

theorem Owned.task (ht : Tidy given db) {task : SheetsTask} (htask : task ∈ db.sheetsTasks.rows)
    (hown : db.owns u task.projectId) : Owned u given db (.task task.id) := by
  refine ⟨ht.task_given htask, fun task' htask' hid => ?_⟩
  rwa [db.sheetsTasks.eq_of_key_eq htask' htask hid]

theorem Owned.taskOf (ht : Tidy given db) {task : SheetsTask} (htask : task ∈ db.sheetsTasks.rows)
    (hown : db.owns u task.projectId) : Owned u given db (.taskOf task.id task.projectId) := by
  refine ⟨ht.task_given htask, fun task' htask' hid => ?_⟩
  rw [db.sheetsTasks.eq_of_key_eq htask' htask hid]
  exact ⟨rfl, hown⟩

theorem Owned.task_of_taskOf {id : SheetsTaskId} (h : Owned u given db (.taskOf id projectId)) :
    Owned u given db (.task id) := by
  refine ⟨h.given, fun task htask hid => ?_⟩
  obtain ⟨rfl, hown⟩ := h.row task htask hid
  exact hown

theorem Owned.link (ht : Tidy given db) {l : Link} (hl : l ∈ db.links.rows)
    (hown : db.owns u l.projectId) : Owned u given db (.link l.id) := by
  refine ⟨ht.link_given hl, fun l' hl' hid => ?_⟩
  rwa [db.links.eq_of_key_eq hl' hl hid]

end Known

end LinkBulker.Db
