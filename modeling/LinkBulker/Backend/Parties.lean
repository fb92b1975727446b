import LinkBulker.Api.Confinement
import LinkBulker.Backend.Statements
import LinkBulker.Backend.System
import LinkBulker.Worker.LinkRows

/-! Whoever takes a step in the backend acts for one user: a request, a job or a call keeps ids of
rows of that user alone, and writes within them. -/

namespace LinkBulker.Backend

open Foundations Db Shared LinkRepository SingleLink Worker
open ProjectLock (Act Check Steps)

variable {newURL : UrlParser} {clock : Sheets.LocalClock} {u : UserId} {given drawn : List String}
  {db db' : Database} {refs refs' : List Ref}

def Holds (u : UserId) (given : List String) (db : Database) (refs : List Ref) : Prop :=
  ∀ r ∈ refs, Owned u given db r

structure Acts (u : UserId) (given drawn : List String) (db db' : Database) (refs' : List Ref) :
    Prop where
  within : Within u drawn db db'
  holds : Holds u (given ++ drawn) db' refs'

theorem Holds.nil : Holds u given db [] := nofun

theorem Holds.subset (h : Holds u given db refs) (hsub : refs' ⊆ refs) : Holds u given db refs' :=
  fun r hr => h r (hsub hr)

theorem Holds.singleton {r : Ref} (h : Owned u given db r) : Holds u given db [r] :=
  fun _ hr => List.mem_singleton.mp hr ▸ h

theorem Holds.within (h : Holds u given db refs) (hfresh : ∀ id ∈ drawn, id ∉ given) {v : UserId}
    (hw : Within v drawn db db') (ht : Tidy given db) : Holds u (given ++ drawn) db' refs :=
  fun r hr => (h r hr).within hfresh hw ht

theorem holds_append : Holds u given db (refs ++ refs') ↔
    Holds u given db refs ∧ Holds u given db refs' :=
  List.forall_mem_append

theorem holds_cons {r : Ref} : Holds u given db (r :: refs) ↔
    Owned u given db r ∧ Holds u given db refs :=
  List.forall_mem_cons

theorem holds_map {α : Type} {f : α → Ref} {l : List α} :
    Holds u given db (l.map f) ↔ ∀ a ∈ l, Owned u given db (f a) :=
  List.forall_mem_map

theorem Acts.of_within (ht : Tidy given db) (hfresh : ∀ id ∈ drawn, id ∉ given)
    (hw : Within u drawn db db') (h : Holds u given db refs') : Acts u given drawn db db' refs' :=
  ⟨hw, h.within hfresh hw ht⟩

theorem Acts.quiet (ht : Tidy given db) (hfresh : ∀ id ∈ drawn, id ∉ given)
    (h : Holds u given db refs') : Acts u given drawn db db refs' :=
  .of_within ht hfresh (.refl ht) h

section Requests

open RowRequests (Pc Request)

def rowRefs : Pc newURL → List Ref
  | .updateProject id _ | .createMany id _ | .deleteMany id => [.project id]
  | .deleteLink linkId => [.link linkId]
  | _ => []

theorem owns_of_assertProject {projectId : ProjectId} {x : Unit}
    (h : LinksService.assertProject db u projectId = .ok x) : db.owns u projectId := by
  unfold LinksService.assertProject at h
  split at h
  · rename_i hany
    exact hany
  · cases h

theorem rowRefs_validated (projectId : ProjectId)
    (dto : LinksService.CreateManualLinksInput newURL) :
    rowRefs (RowRequests.validated projectId dto) ⊆ [.project projectId] := by
  unfold RowRequests.validated
  split
  · exact List.nil_subset _
  · split
    · exact List.nil_subset _
    · exact List.Subset.refl _

theorem mem_manualRows {projectId : ProjectId} {cuid : ℕ → LinkId}
    {records : List LinksService.ManualLinkRecord} {l : Link}
    (h : l ∈ RowRequests.manualRows projectId cuid records) :
    l.id ∈ (List.range records.length).map cuid ∧ l.projectId = projectId ∧ l.source = .MANUAL ∧
      l.sheetsTaskId = none := by
  obtain ⟨⟨r, idx⟩, hr, rfl⟩ := List.mem_map.mp h
  have hidx : idx < records.length := by
    have := (List.mem_zipIdx hr).2.1
    omega
  exact ⟨List.mem_map_of_mem (List.mem_range.mpr hidx), rfl, rfl, rfl⟩

theorem acts_row {r r' : Request newURL} {cuid : ℕ → String} (ht : Tidy given db)
    (hfresh : ∀ id ∈ r.draws cuid, id ∉ given) (h : Holds r.userId given db (rowRefs r.pc))
    (hm : r.move db cuid = some (db', r')) :
    r'.userId = r.userId ∧ Acts r.userId given (r.draws cuid) db db' (rowRefs r'.pc) := by
  obtain ⟨u, pc⟩ := r
  cases pc with
  | createProject dto =>
    simp only [Request.move] at hm
    split at hm <;> cases hm
    · exact ⟨rfl, .quiet ht hfresh .nil⟩
    · rename_i projects hinsert
      refine ⟨rfl, .of_within ht hfresh ?_ .nil⟩
      exact within_insertProject ht hfresh hinsert (List.mem_singleton.mpr rfl) rfl
  | getById id dto =>
    simp only [Request.move] at hm
    split at hm <;> cases hm
    · exact ⟨rfl, .quiet ht hfresh .nil⟩
    · rename_i hfound
      exact ⟨rfl, .quiet ht hfresh (.singleton (.project ht (Services.owns_of_getById hfound)))⟩
  | updateProject id dto =>
    simp only [Request.move] at hm
    split at hm <;> cases hm
    · exact ⟨rfl, .quiet ht hfresh .nil⟩
    · rename_i project hfind
      refine ⟨rfl, .of_within ht hfresh ?_ .nil⟩
      exact within_updateProject (fun _ => rfl) ht (h _ (List.mem_singleton.mpr rfl))
        ⟨project, Table.find?_eq_some.mp hfind⟩
  | assertCreate projectId dto =>
    simp only [Request.move] at hm
    split at hm <;> cases hm
    · exact ⟨rfl, .quiet ht hfresh .nil⟩
    · rename_i hassert
      have hproject : Holds u given db [.project projectId] :=
        .singleton (.project ht (owns_of_assertProject hassert))
      exact ⟨rfl, .quiet ht hfresh (hproject.subset (rowRefs_validated projectId dto))⟩
  | createMany projectId records =>
    simp only [Request.move] at hm
    split at hm
    · cases hm
      exact ⟨rfl, .quiet ht hfresh .nil⟩
    · rename_i hrow
      split at hm <;> cases hm
      · exact ⟨rfl, .quiet ht hfresh .nil⟩
      · rename_i links hinsert
        have hproject : ∃ p ∈ db.projects.rows, p.id = projectId :=
          Table.find?_isSome.mp (Option.isSome_iff_ne_none.mpr (by simpa using hrow))
        refine ⟨rfl, .of_within ht hfresh ?_ .nil⟩
        refine within_insertLinks ht hfresh hinsert (fun l hl => (mem_manualRows hl).1)
          (fun l hl => ?_) fun l hl => (mem_manualRows hl).2.2
        rw [(mem_manualRows hl).2.1]
        exact (h _ (List.mem_singleton.mpr rfl)).owns hproject
  | findUnique linkId =>
    simp only [Request.move] at hm
    split at hm
    · cases hm
      exact ⟨rfl, .quiet ht hfresh .nil⟩
    · rename_i link hlink
      split at hm <;> cases hm
      · exact ⟨rfl, .quiet ht hfresh .nil⟩
      · rename_i hu
        obtain ⟨hmem, rfl⟩ := Table.find?_eq_some.mp hlink
        have hown : db.owns u link.projectId := by
          rw [Database.owns, belongs_eq_find?]
          cases hproject : db.projects.find? link.projectId with
          | none => simp [hproject] at hu
          | some project => simpa [hproject] using hu
        exact ⟨rfl, .quiet ht hfresh (.singleton (.link ht hmem hown))⟩
  | deleteLink linkId =>
    simp only [Request.move] at hm
    split at hm <;> cases hm
    · exact ⟨rfl, .quiet ht hfresh .nil⟩
    · refine ⟨rfl, .of_within ht hfresh (within_deleteLinks ht fun l hl hid => ?_) .nil⟩
      exact (h _ (List.mem_singleton.mpr rfl)).row l hl (of_decide_eq_true hid)
  | assertManual projectId =>
    simp only [Request.move] at hm
    split at hm <;> cases hm
    · exact ⟨rfl, .quiet ht hfresh .nil⟩
    · rename_i hassert
      exact ⟨rfl, .quiet ht hfresh
        (.singleton (.project ht (owns_of_assertProject hassert)))⟩
  | deleteMany projectId =>
    cases hm
    refine ⟨rfl, .of_within ht hfresh (within_deleteLinks ht fun l hl hq => ?_) .nil⟩
    have hproject : l.projectId = projectId := eq_of_beq (Bool.and_eq_true_iff.mp hq).1
    obtain ⟨p, hp, hid⟩ := ht.consistent.linkProject l hl
    exact hproject ▸ (h _ (List.mem_singleton.mpr rfl)).owns ⟨p, hp, hid.trans hproject⟩
  | answered answer => cases hm

end Requests

section Settings

open SheetsSchedules (Answer Op Store createCall updateCall)
open SheetsTasksService (SchedulerCall createdTask)

def taskRefs : SheetsSchedules.Request → List Ref
  | .createRow projectId _ | .deleteProject projectId => [.project projectId]
  | .updateRow taskId _ | .removeSchedule taskId | .deleteRow taskId => [.task taskId]
  | .schedule call _ => [.task (SheetsSchedules.callTask call)]
  | _ => []

/-- A settings request that gives the task a schedule, and has been answered. -/
inductive Schedules : Op → SheetsSchedules.Request → SheetsTaskId → Prop
  | create {userId : UserId} {projectId : ProjectId} {dto : CreateSheetsTaskInput}
    {cron : BoundedString 0 120} {task : SheetsTask} (hcron : dto.scheduleCron = some cron)
    (hne : cron.val ≠ "") :
    Schedules (.create userId projectId dto) (.answered (.ok (.task task))) task.id
  | update {userId : UserId} {taskId : SheetsTaskId} {dto : UpdateSheetsTaskInput}
    {cron : BoundedString 0 120} {answer : Answer} (hcron : dto.scheduleCron = some cron)
    (hne : cron.val ≠ "") :
    Schedules (.update userId taskId dto) (.answered (.ok answer)) taskId

def askedBy (op : Op) : SheetsSchedules.Request → Prop
  | .assertProject userId projectId dto => op = .create userId projectId dto
  | .createRow projectId dto => ∃ userId, op = .create userId projectId dto
  | .findOwnedTask userId taskId dto => op = .update userId taskId dto
  | .updateRow taskId dto => ∃ userId, op = .update userId taskId dto
  | .schedule call answer => ∀ taskId cron, call = .upsertSchedule taskId cron →
      Schedules op (.answered (.ok answer)) taskId
  | .findRemoved userId taskId => op = .remove userId taskId
  | .getById userId projectId => op = .removeProject userId projectId
  | _ => True

theorem taskRefs_after {task : SheetsTask} {call : Option SchedulerCall}
    (hcall : ∀ c ∈ call, SheetsSchedules.callTask c = task.id) :
    taskRefs (.after task call) ⊆ [.task task.id] := by
  cases call with
  | none => exact List.nil_subset _
  | some c =>
    rw [SheetsSchedules.Request.after, taskRefs, hcall c rfl]
    exact List.Subset.refl _

theorem askedBy_after {op : Op} {task : SheetsTask} {call : Option SchedulerCall}
    (hcall : ∀ taskId cron, call = some (.upsertSchedule taskId cron) →
      Schedules op (.answered (.ok (.task task))) taskId) : askedBy op (.after task call) := by
  cases call with
  | none => trivial
  | some c => exact fun taskId cron hc => hcall taskId cron (congrArg some hc)

theorem callTask_createCall {cuid : SheetsTaskId} {dto : CreateSheetsTaskInput} :
    ∀ c ∈ createCall cuid dto, SheetsSchedules.callTask c = cuid := by
  intro c hc
  simp only [createCall] at hc
  split at hc
  · split at hc <;> cases hc
    rfl
  · cases hc

theorem callTask_updateCall {taskId : SheetsTaskId} {dto : UpdateSheetsTaskInput} :
    ∀ c ∈ updateCall taskId dto, SheetsSchedules.callTask c = taskId := by
  intro c hc
  simp only [updateCall] at hc
  split at hc <;> cases hc
  split <;> rfl

theorem schedules_createCall {u : UserId} {projectId : ProjectId} {dto : CreateSheetsTaskInput}
    {cuid : SheetsTaskId} {now : ℤ} (taskId : SheetsTaskId) (cron : String)
    (hcall : createCall cuid dto = some (.upsertSchedule taskId cron)) :
    Schedules (.create u projectId dto)
      (.answered (.ok (.task (createdTask projectId dto cuid now)))) taskId := by
  unfold createCall at hcall
  split at hcall
  · rename_i hcron
    split at hcall
    · cases hcall
    · rename_i hne
      cases hcall
      exact .create hcron hne
  · cases hcall

theorem schedules_updateCall {u : UserId} {id : SheetsTaskId} {dto : UpdateSheetsTaskInput}
    {answer : Answer} (taskId : SheetsTaskId) (cron : String)
    (hcall : updateCall id dto = some (.upsertSchedule taskId cron)) :
    Schedules (.update u id dto) (.answered (.ok answer)) taskId := by
  unfold updateCall at hcall
  split at hcall
  · rename_i hcron
    split at hcall
    · cases hcall
    · rename_i hne
      cases hcall
      exact .update hcron hne
  · cases hcall

theorem mem_applyCall {schedulers : Table SheetsSchedules.JobScheduler.id} {call : SchedulerCall}
    {j : SheetsSchedules.JobScheduler} (h : j ∈ (SheetsSchedules.applyCall schedulers call).rows) :
    j ∈ schedulers.rows ∨ ∃ taskId cron, call = .upsertSchedule taskId cron ∧
      j.data.sheetsTaskId = taskId := by
  cases call with
  | upsertSchedule taskId cron =>
    obtain ⟨hold, -⟩ | rfl := Table.mem_upsert.mp h
    · exact .inl hold
    · exact .inr ⟨taskId, cron, rfl, rfl⟩
  | removeSchedule taskId => exact .inl (Table.mem_delete.mp h).1

/-- What one step of a settings request does: besides, it registers a scheduler for a task it keeps,
which it has given a schedule, or removes one. -/
theorem acts_task {s s' : Store} {op : Op} {r r' : SheetsSchedules.Request}
    {t : SheetsSchedules.Turn} (ht : Tidy given s.db)
    (hfresh : ∀ id ∈ taskDraws r t.cuid, id ∉ given) (hop : askedBy op r)
    (h : Holds (opUser op) given s.db (taskRefs r)) (hm : r.move s t = some (s', r')) :
    askedBy op r' ∧ Acts (opUser op) given (taskDraws r t.cuid) s.db s'.db (taskRefs r') ∧
      ∀ j ∈ s'.schedulers.rows, j ∈ s.schedulers.rows ∨
        .task j.data.sheetsTaskId ∈ taskRefs r ∧ Schedules op r' j.data.sheetsTaskId := by
  have same : ∀ j ∈ s.schedulers.rows, j ∈ s.schedulers.rows ∨
      .task j.data.sheetsTaskId ∈ taskRefs r ∧ Schedules op r' j.data.sheetsTaskId :=
    fun j hj => .inl hj
  cases r with
  | assertProject userId projectId dto =>
    obtain rfl := hop
    simp only [SheetsSchedules.Request.move] at hm
    split at hm <;> cases hm
    · exact ⟨trivial, .quiet ht hfresh .nil, same⟩
    · rename_i hassert
      exact ⟨⟨userId, rfl⟩, .quiet ht hfresh
        (.singleton (.project ht (owns_of_assertProject hassert))), same⟩
  | createRow projectId dto =>
    obtain ⟨u, rfl⟩ := hop
    simp only [SheetsSchedules.Request.move] at hm
    split at hm
    · cases hm
      exact ⟨trivial, .quiet ht hfresh .nil, same⟩
    · rename_i hrow
      split at hm <;> cases hm
      · exact ⟨trivial, .quiet ht hfresh .nil, same⟩
      · rename_i sheetsTasks hinsert
        have hproject : ∃ p ∈ s.db.projects.rows, p.id = projectId :=
          Table.find?_isSome.mp (Option.isSome_iff_ne_none.mpr (by simpa using hrow))
        have hown : s.db.owns u projectId := (h _ (List.mem_singleton.mpr rfl)).owns hproject
        have hwithin : Within u (taskDraws (.createRow projectId dto) t.cuid) s.db
            { s.db with sheetsTasks } :=
          within_insertTask ht hfresh hinsert (List.mem_singleton.mpr rfl) hown
        refine ⟨askedBy_after schedules_createCall, ⟨hwithin, ?_⟩, same⟩
        have hmem : createdTask projectId dto t.cuid t.now ∈ sheetsTasks.rows := by
          rw [Table.insertMany_eq_some.mp hinsert]
          exact List.mem_append_right _ (List.mem_singleton.mpr rfl)
        have hstill := hwithin.evolves.owns hfresh ht hproject hown
        exact (Holds.singleton (.task (hwithin.tidy ht) hmem hstill)).subset
          (taskRefs_after callTask_createCall)
  | findOwnedTask userId taskId dto =>
    obtain rfl := hop
    simp only [SheetsSchedules.Request.move] at hm
    split at hm <;> cases hm
    · exact ⟨trivial, .quiet ht hfresh .nil, same⟩
    · rename_i task hfound
      obtain ⟨hfind, hown⟩ := SheetsTasksService.find?_of_findOwnedTask hfound
      obtain ⟨hmem, rfl⟩ := Table.find?_eq_some.mp hfind
      exact ⟨⟨userId, rfl⟩, .quiet ht hfresh (.singleton (.task ht hmem hown)), same⟩
  | updateRow taskId dto =>
    obtain ⟨u, rfl⟩ := hop
    simp only [SheetsSchedules.Request.move] at hm
    split at hm <;> cases hm
    · exact ⟨trivial, .quiet ht hfresh .nil, same⟩
    · rename_i task hfind
      obtain ⟨-, rfl⟩ := Table.find?_eq_some.mp hfind
      have htask := h _ (List.mem_singleton.mpr rfl)
      refine ⟨askedBy_after schedules_updateCall, .of_within ht hfresh ?_ ?_, same⟩
      · exact within_updateTask (fun _ => rfl) ht htask
      · exact (Holds.singleton htask).subset (taskRefs_after callTask_updateCall)
  | schedule call answer =>
    cases hm
    refine ⟨trivial, .quiet ht hfresh .nil, fun j hj => ?_⟩
    obtain hold | ⟨taskId, cron, rfl, hid⟩ := mem_applyCall hj
    · exact .inl hold
    · exact .inr ⟨List.mem_singleton.mpr (congrArg Ref.task hid), hid ▸ hop taskId cron rfl⟩
  | findRemoved userId taskId =>
    obtain rfl := hop
    simp only [SheetsSchedules.Request.move] at hm
    split at hm <;> cases hm
    · exact ⟨trivial, .quiet ht hfresh .nil, same⟩
    · rename_i task hfound
      obtain ⟨hfind, hown⟩ := SheetsTasksService.find?_of_findOwnedTask hfound
      obtain ⟨hmem, rfl⟩ := Table.find?_eq_some.mp hfind
      exact ⟨trivial, .quiet ht hfresh (.singleton (.task ht hmem hown)), same⟩
  | removeSchedule taskId =>
    cases hm
    exact ⟨trivial, .quiet ht hfresh h, fun j hj => .inl (Table.mem_delete.mp hj).1⟩
  | deleteRow taskId =>
    simp only [SheetsSchedules.Request.move] at hm
    split at hm <;> cases hm
    · exact ⟨trivial, .quiet ht hfresh .nil, same⟩
    · exact ⟨trivial,
        .of_within ht hfresh (within_deleteTask ht (h _ (List.mem_singleton.mpr rfl))) .nil, same⟩
  | getById userId projectId =>
    obtain rfl := hop
    simp only [SheetsSchedules.Request.move] at hm
    split at hm <;> cases hm
    · exact ⟨trivial, .quiet ht hfresh .nil, same⟩
    · rename_i hfound
      exact ⟨trivial, .quiet ht hfresh
        (.singleton (.project ht (Services.owns_of_getById hfound))), same⟩
  | deleteProject projectId =>
    simp only [SheetsSchedules.Request.move, ProjectsService.deleteRow] at hm
    cases hfind : s.db.projects.find? projectId with
    | none =>
      rw [hfind] at hm
      cases hm
      exact ⟨trivial, .quiet ht hfresh .nil, same⟩
    | some p =>
      rw [hfind] at hm
      cases hm
      refine ⟨trivial, .of_within ht hfresh ?_ .nil, same⟩
      exact within_deleteProject ht (h _ (List.mem_singleton.mpr rfl))
        ⟨p, Table.find?_eq_some.mp hfind⟩
  | answered answer => cases hm

end Settings

section Checks

def jobRefs (job : ManualCheckJobData) : List Ref :=
  .project job.projectId :: job.linkIds.map .link

def bulkRefs (r : BulkQueue.Request) : List Ref :=
  match r.pc with
  | .isLocked | .findMany => [.project r.projectId]
  | .add linkIds => jobRefs ⟨r.projectId, linkIds⟩
  | _ => []

def recheckRefs (r : RecheckOne.Request) : List Ref :=
  match r.pc with
  | .isLocked _ | .readCutoff _ | .readValue .. | .updateMany .. | .add _ => [.link r.linkId]
  | _ => []

def ownJob (r : RecheckOne.Request) : Prop :=
  match r.pc with
  | .isLocked job | .readCutoff job | .readValue job _ | .updateMany job _ _ | .add job =>
    job.linkId = r.linkId
  | _ => True

def runRefs (r : Dispatch.RunNow.Request) : List Ref :=
  match r.pc with
  | .isLocked _ | .add => [.task r.taskId]
  | _ => []

theorem acts_bulk {w : World} {queue queue' : List BulkQueue.Queued} {r r' : BulkQueue.Request}
    {now : ℤ} (ht : Tidy given w.db) (h : Holds r.userId given w.db (bulkRefs r))
    (hm : r.move w queue now = some (queue', r')) :
    r'.userId = r.userId ∧ r'.projectId = r.projectId ∧ Holds r.userId given w.db (bulkRefs r') ∧
      (queue' = queue ∨ ∃ linkIds, queue' = queue ++ [⟨⟨r.projectId, linkIds⟩, w.stored.length⟩] ∧
        Holds r.userId given w.db (jobRefs ⟨r.projectId, linkIds⟩)) := by
  obtain ⟨u, projectId, pc⟩ := r
  cases pc with
  | assertProject =>
    simp only [BulkQueue.Request.move] at hm
    split at hm <;> cases hm
    · exact ⟨rfl, rfl, .nil, .inl rfl⟩
    · rename_i hassert
      exact ⟨rfl, rfl, .singleton (.project ht (owns_of_assertProject hassert)), .inl rfl⟩
  | isLocked =>
    simp only [BulkQueue.Request.move] at hm
    split at hm <;> cases hm
    · exact ⟨rfl, rfl, .nil, .inl rfl⟩
    · exact ⟨rfl, rfl, h, .inl rfl⟩
  | findMany =>
    simp only [BulkQueue.Request.move] at hm
    split at hm <;> cases hm
    · exact ⟨rfl, rfl, .nil, .inl rfl⟩
    · have hp := h _ (List.mem_singleton.mpr rfl)
      refine ⟨rfl, rfl, holds_cons.mpr ⟨hp, holds_map.mpr fun id hid => ?_⟩, .inl rfl⟩
      obtain ⟨l, hl, rfl⟩ := List.mem_map.mp hid
      obtain ⟨hmem, hsel⟩ := List.mem_filter.mp hl
      simp only [Bool.and_eq_true, beq_iff_eq] at hsel
      obtain ⟨⟨rfl, -⟩, -⟩ := hsel
      exact .link ht hmem (hp.owns (ht.consistent.linkProject l hmem))
  | add linkIds =>
    cases hm
    exact ⟨rfl, rfl, .nil, .inr ⟨linkIds, rfl, h⟩⟩
  | _ => cases hm

theorem acts_recheck {s s' : RecheckOne.Server} {r r' : RecheckOne.Request} {t : RecheckOne.Turn}
    (ht : Tidy given s.db) (hfresh : ∀ id ∈ drawn, id ∉ given) (hjob : ownJob r)
    (h : Holds r.userId given s.db (recheckRefs r)) (hm : r.move s t = some (s', r')) :
    r'.userId = r.userId ∧ r'.linkId = r.linkId ∧ ownJob r' ∧
      Acts r.userId given drawn s.db s'.db (recheckRefs r') ∧
      (s'.singleLinkQueue = s.singleLinkQueue ∨ ∃ job, s'.singleLinkQueue =
        s.singleLinkQueue ++ [job] ∧ job.linkId = r.linkId ∧ .link r.linkId ∈ recheckRefs r) := by
  obtain ⟨u, linkId, pc⟩ := r
  cases pc with
  | findUnique =>
    simp only [RecheckOne.Request.move] at hm
    split at hm
    · cases hm
      exact ⟨rfl, rfl, trivial, .quiet ht hfresh .nil, .inl rfl⟩
    · rename_i link hlink
      split at hm <;> cases hm
      · exact ⟨rfl, rfl, trivial, .quiet ht hfresh .nil, .inl rfl⟩
      · rename_i hu
        obtain ⟨hmem, rfl⟩ := Table.find?_eq_some.mp hlink
        have hown : s.db.owns u link.projectId := by
          rw [Database.owns, belongs_eq_find?]
          cases hproject : s.db.projects.find? link.projectId with
          | none => simp [hproject] at hu
          | some project => simpa [hproject] using hu
        have hlink : Holds u given s.db [.link link.id] := .singleton (.link ht hmem hown)
        refine ⟨rfl, rfl, ?_, .quiet ht hfresh (hlink.subset ?_), .inl rfl⟩
        · by_cases hsource : link.source = .MANUAL
          · rw [if_pos hsource]
            exact (rfl : link.id = link.id)
          · rw [if_neg hsource]
            exact (rfl : link.id = link.id)
        · by_cases hsource : link.source = .MANUAL
          · rw [if_pos hsource]
            exact List.Subset.refl [Ref.link link.id]
          · rw [if_neg hsource]
            exact List.Subset.refl [Ref.link link.id]
  | isLocked job =>
    simp only [RecheckOne.Request.move] at hm
    split at hm <;> cases hm
    · exact ⟨rfl, rfl, trivial, .quiet ht hfresh .nil, .inl rfl⟩
    · exact ⟨rfl, rfl, hjob, .quiet ht hfresh h, .inl rfl⟩
  | readCutoff job =>
    simp only [RecheckOne.Request.move] at hm
    split at hm <;> cases hm
    exact ⟨rfl, rfl, hjob, .quiet ht hfresh h, .inl rfl⟩
  | readValue job cutoff =>
    simp only [RecheckOne.Request.move] at hm
    split at hm <;> cases hm
    exact ⟨rfl, rfl, hjob, .quiet ht hfresh h, .inl rfl⟩
  | updateMany job cutoff value =>
    simp only [RecheckOne.Request.move] at hm
    split at hm <;> cases hm
    · exact ⟨rfl, rfl, trivial, .quiet ht hfresh .nil, .inl rfl⟩
    · exact ⟨rfl, rfl, hjob,
        .of_within ht hfresh (within_cooldown ht (h _ (List.mem_singleton.mpr rfl))) h, .inl rfl⟩
  | findFresh =>
    cases hm
    exact ⟨rfl, rfl, trivial, .quiet ht hfresh .nil, .inl rfl⟩
  | readElapsed lastCooldownAt =>
    simp only [RecheckOne.Request.move] at hm
    split at hm <;> cases hm
    exact ⟨rfl, rfl, trivial, .quiet ht hfresh .nil, .inl rfl⟩
  | add job =>
    cases hm
    exact ⟨rfl, rfl, trivial, .quiet ht hfresh .nil,
      .inr ⟨job, rfl, hjob, List.mem_singleton.mpr rfl⟩⟩
  | _ => cases hm

theorem acts_run {w : World} {queue queue' : List SheetsTaskRunJobData}
    {r r' : Dispatch.RunNow.Request} {now : ℤ} (ht : Tidy given w.db)
    (h : Holds r.userId given w.db (runRefs r)) (hm : r.move w queue now = some (queue', r')) :
    r'.userId = r.userId ∧ r'.taskId = r.taskId ∧ Holds r.userId given w.db (runRefs r') ∧
      (queue' = queue ∨ queue' = queue ++ [⟨r.taskId, none⟩] ∧ .task r.taskId ∈ runRefs r) := by
  obtain ⟨u, taskId, pc⟩ := r
  cases pc with
  | findOwnedTask =>
    simp only [Dispatch.RunNow.Request.move] at hm
    split at hm <;> cases hm
    · exact ⟨rfl, rfl, .nil, .inl rfl⟩
    · rename_i task hfound
      obtain ⟨hfind, hown⟩ := SheetsTasksService.find?_of_findOwnedTask hfound
      obtain ⟨hmem, rfl⟩ := Table.find?_eq_some.mp hfind
      exact ⟨rfl, rfl, .singleton (.task ht hmem hown), .inl rfl⟩
  | isLocked task =>
    simp only [Dispatch.RunNow.Request.move] at hm
    split at hm <;> cases hm
    · exact ⟨rfl, rfl, .nil, .inl rfl⟩
    · exact ⟨rfl, rfl, h, .inl rfl⟩
  | add =>
    cases hm
    exact ⟨rfl, rfl, .nil, .inr ⟨rfl, List.mem_singleton.mpr rfl⟩⟩
  | _ => cases hm

end Checks

section Jobs

variable {w w' : World}

def batchRefs (b : Batch) : List Ref := (b.ids ++ b.calls.map ProcessOne.linkId).map .link

def sheetsRefs (r : Sheets.Run) : List Ref :=
  .project r.task.projectId :: .taskOf r.task.id r.task.projectId ::
    ((r.persistedLinks ++ r.validProcessableLinks).map (fun l => .link l.id) ++ batchRefs r.batch)

def checkRefs : Check → List Ref
  | .manual h => jobRefs h.job ++ batchRefs h.batch
  | .sheets (.find sheetsTaskId) => [.task sheetsTaskId]
  | .sheets (.body r) => sheetsRefs r
  | .sheets .missing => []

theorem within_moves {id : LinkId} {pc pc' : SingleLink.Pc} {t : Turn} (ht : Tidy given w.db)
    (h : Owned u given w.db (.link id)) (hm : Moves newURL w id t pc w' pc') :
    Within u drawn w.db w'.db := by
  cases hm with
  | marked hr hset => exact within_markStatus ht h hset
  | saved hr hset => exact within_saveResult ht h hset
  | checking | published =>
    rw [publishNow_db]
    exact .refl ht
  | _ => exact .refl ht

theorem acts_call {c c' : ProcessOne} {t : Turn} (ht : Tidy given w.db)
    (hfresh : ∀ id ∈ drawn, id ∉ given) (h : Owned u given w.db (.link c.linkId))
    (hm : c.move newURL w t = some (w', c')) :
    c'.linkId = c.linkId ∧ Acts u given drawn w.db w'.db [.link c'.linkId] := by
  obtain ⟨hid, hmoves⟩ := SingleLink.move_eq_some hm
  exact ⟨hid, .of_within ht hfresh (within_moves ht h hmoves) (.singleton (hid.symm ▸ h))⟩

theorem holds_batch {b : Batch} : Holds u given db (batchRefs b) ↔
    (∀ id ∈ b.ids, Owned u given db (.link id)) ∧
      ∀ c ∈ b.calls, Owned u given db (.link c.linkId) := by
  rw [batchRefs, List.map_append, holds_append, holds_map, List.map_map, holds_map]
  rfl

theorem Holds.fresh {ids : List LinkId} (h : ∀ id ∈ ids, Owned u given db (.link id)) :
    Holds u given db (batchRefs ⟨ids, []⟩) :=
  holds_batch.mpr ⟨h, fun _ hc => absurd hc List.not_mem_nil⟩

theorem Holds.start {b : Batch} (h : Holds u given db (batchRefs b)) (n i : ℕ) :
    Holds u given db (batchRefs (b.start n i)) := by
  obtain ⟨hids, hcalls⟩ := holds_batch.mp h
  refine holds_batch.mpr ⟨hids, fun c hc => ?_⟩
  obtain hc | ⟨-, hc⟩ := Batch.mem_calls_start hc
  · exact hcalls c hc
  · exact hids _ hc

theorem acts_batch {b b' : Batch} {k : ℕ} {t : Turn} (ht : Tidy given w.db)
    (h : Holds u given w.db (batchRefs b)) (hm : b.move newURL w k t = some (w', b')) :
    Within u drawn w.db w'.db ∧ batchRefs b' = batchRefs b := by
  obtain ⟨c, c', hget, hlink, hmoves, rfl⟩ := Batch.move_eq_some hm
  refine ⟨within_moves ht ((holds_batch.mp h).2 c (List.mem_of_getElem? hget)) hmoves, ?_⟩
  rw [batchRefs, Batch.map_linkId_set hget hlink, batchRefs]

theorem acts_manual {h h' : ManualCheck.Handle} {t : Turn} (ht : Tidy given w.db)
    (hh : Holds u given w.db (checkRefs (.manual h))) (hs : ManualCheck.Step w h t w' h') :
    Within u drawn w.db w'.db ∧ Holds u given w.db (checkRefs (.manual h')) := by
  obtain ⟨hjob, hbatch⟩ := holds_append.mp hh
  obtain ⟨hproject, hlinks⟩ := holds_cons.mp hjob
  have hloop (i : ℕ) : Holds u given w.db (checkRefs (.manual (h.loop i))) := by
    unfold ManualCheck.Handle.loop
    split
    · exact holds_append.mpr ⟨hjob, hbatch.start _ _⟩
    · exact hh
  cases hs with
  | raised hpc hset | lowered hpc hset =>
    exact ⟨within_setProjectManualChecking ht hproject hset, hh⟩
  | queued hpc => exact ⟨within_markManyStatus ht (holds_map.mp hlinks), hloop 0⟩
  | next hpc => exact ⟨.refl ht, hloop _⟩
  | toldLocked hpc | toldProgress hpc | toldDone hpc | toldUnlocked hpc =>
    rw [publishNow_db]
    exact ⟨.refl ht, hh⟩
  | _ => exact ⟨.refl ht, hh⟩

theorem owned_findLinks {taskId : SheetsTaskId} (ht : Tidy given w.db)
    (htask : Owned u given w.db (.task taskId)) :
    ∀ l ∈ findLinksBySheetsTaskOrdered w.db taskId, Owned u given w.db (.link l.id) := by
  intro l hl
  obtain ⟨hmem, hid⟩ := mem_findLinks.mp hl
  exact .link ht hmem (owns_of_task ht htask l hmem hid)

structure RunHolds (u : UserId) (given : List String) (db : Database) (r : Sheets.Run) : Prop where
  project : Owned u given db (.project r.task.projectId)
  task : Owned u given db (.taskOf r.task.id r.task.projectId)
  persisted : ∀ l ∈ r.persistedLinks, Owned u given db (.link l.id)
  processable : ∀ l ∈ r.validProcessableLinks, Owned u given db (.link l.id)
  batch : Holds u given db (batchRefs r.batch)

theorem holds_sheets {r : Sheets.Run} :
    Holds u given db (sheetsRefs r) ↔ RunHolds u given db r := by
  rw [sheetsRefs, holds_cons, holds_cons, holds_append, List.map_append, holds_append, holds_map,
    holds_map]
  exact ⟨fun ⟨hp, ht, ⟨hl, hv⟩, hb⟩ => ⟨hp, ht, hl, hv, hb⟩, fun h =>
    ⟨h.project, h.task, ⟨h.persisted, h.processable⟩, h.batch⟩⟩

theorem RunHolds.start {task : SheetsTask} (hproject : Owned u given db (.project task.projectId))
    (htask : Owned u given db (.taskOf task.id task.projectId)) : RunHolds u given db { task } where
  project := hproject
  task := htask
  persisted _ hl := absurd hl List.not_mem_nil
  processable _ hl := absurd hl List.not_mem_nil
  batch := .fresh fun _ hid => absurd hid List.not_mem_nil

theorem RunHolds.loop {r : Sheets.Run} (h : RunHolds u given db r) (i : ℕ) :
    RunHolds u given db (r.loop i) := by
  unfold Sheets.Run.loop
  split
  · exact { h with batch := h.batch.start _ _ }
  · exact { h with }

theorem acts_sheets {r r' : Sheets.Run} {t : Sheets.SheetsTurn} (ht : Tidy given w.db)
    (hdrawn : r.pc = .replaceLinks → (List.range r.validRows.length).map t.cuid ⊆ drawn)
    (h : RunHolds u given w.db r) (hs : Sheets.Step newURL clock w r t w' r') :
    Within u drawn w.db w'.db ∧ RunHolds u given w.db r' := by
  cases hs with
  | running hpc hset | completed hpc hset | failedSet hpc hset =>
    exact ⟨within_setSheetsTaskStatus ht h.task.task_of_taskOf hset, { h with }⟩
  | raised hpc hset | lowered hpc hset =>
    exact ⟨within_setProjectSheetsChecking ht h.project hset, { h with }⟩
  | toldRunning hpc | toldCompleted hpc | toldFailed hpc =>
    rw [publishNow_db]
    exact ⟨.refl ht, { h with }⟩
  | toldProgress hpc =>
    rw [publishNow_db]
    exact ⟨.refl ht, h.loop _⟩
  | replaced hpc hset =>
    refine ⟨within_replaceSheetsLinks ht h.task (fun i hi => ?_) hset, { h with }⟩
    rw [List.length_map] at hi
    exact hdrawn hpc (List.mem_map_of_mem (List.mem_range.mpr hi))
  | fetched hpc =>
    have hlinks := owned_findLinks ht h.task.task_of_taskOf
    exact ⟨.refl ht, { h with persisted := hlinks }⟩
  | pairedAll hpc hlink =>
    have hbatch : Holds u given w.db (batchRefs ⟨r.validProcessableLinks.map Link.id, []⟩) := by
      refine .fresh fun id hid => ?_
      obtain ⟨l, hl, rfl⟩ := List.mem_map.mp hid
      exact h.processable l hl
    refine ⟨.refl ht, RunHolds.loop ?_ 0⟩
    exact { h with batch := hbatch }
  | pairedValid hpc hlink hvr hok =>
    refine ⟨.refl ht, { h with processable := fun l hl => ?_ }⟩
    obtain hl | hl := List.mem_append.mp hl
    · exact h.processable l hl
    · rw [List.mem_singleton.mp hl]
      exact h.persisted _ (List.mem_of_getElem? hlink)
  | marked hpc hget hvr hsave =>
    exact ⟨within_saveResult ht (h.persisted _ (List.mem_of_getElem? hget)) hsave, { h with }⟩
  | _ => exact ⟨.refl ht, { h with }⟩

theorem acts_check {c c' : Check} {a : Act} (ht : Tidy given w.db)
    (hfresh : ∀ id ∈ checkDraws c a, id ∉ given) (h : Holds u given w.db (checkRefs c))
    (hs : Steps newURL clock w c a w' c') :
    Acts u given (checkDraws c a) w.db w'.db (checkRefs c') := by
  cases hs with
  | manual hs =>
    obtain ⟨hwithin, hholds⟩ := acts_manual ht h hs
    exact .of_within ht hfresh hwithin hholds
  | manualChild hm =>
    obtain ⟨hjob, hbatch⟩ := holds_append.mp h
    obtain ⟨hwithin, hrefs⟩ := acts_batch ht hbatch hm
    refine .of_within ht hfresh hwithin (holds_append.mpr ⟨hjob, ?_⟩)
    rwa [hrefs]
  | missing => exact .quiet ht hfresh .nil
  | found hfind =>
    obtain ⟨hmem, rfl⟩ := Table.find?_eq_some.mp hfind
    have hown := (h _ (List.mem_singleton.mpr rfl)).row _ hmem rfl
    have hproject := Owned.project ht hown
    have htask := Owned.taskOf ht hmem hown
    exact .quiet ht hfresh (holds_sheets.mpr (.start hproject htask))
  | @sheets w' r r' t hs =>
    have hdrawn (hpc : r.pc = .replaceLinks) : (List.range r.validRows.length).map t.cuid ⊆
        checkDraws (.sheets (.body r)) (.sheets (.main t)) := by
      rw [checkDraws, if_pos hpc]
      exact List.Subset.refl _
    obtain ⟨hwithin, hholds⟩ := acts_sheets ht hdrawn (holds_sheets.mp h) hs
    exact .of_within ht hfresh hwithin (holds_sheets.mpr hholds)
  | sheetsChild hm =>
    have hrun := holds_sheets.mp h
    obtain ⟨hwithin, hrefs⟩ := acts_batch ht hrun.batch hm
    refine .of_within ht hfresh hwithin (holds_sheets.mpr ?_)
    exact ⟨hrun.project, hrun.task, hrun.persisted, hrun.processable, hrefs ▸ hrun.batch⟩
  | manualBeat hlock hw | sheetsBeat hlock hw =>
    obtain rfl | rfl := hw <;> exact .quiet ht hfresh h

end Jobs

end LinkBulker.Backend
