import LinkBulker.Api.SheetsSchedules

/-! When the schedulers mirror the tasks.  A request that has written a row owes the scheduler call
that belongs to it; as long as somebody owes one, row and scheduler of a task may differ. -/

namespace LinkBulker.SheetsSchedules

open Foundations Db Shared SheetsTasksService

variable {s s' : Store} {r r' : Request} {taskId cuid : SheetsTaskId} {now : ℤ}
  {turn : Turn}

def wanted (db : Database) (taskId : SheetsTaskId) : Option JobScheduler :=
  (db.sheetsTasks.find? taskId).bind fun task => task.scheduleCron.bind fun cron =>
    if cron = "" then none else some (taskScheduler taskId cron)

def registered (s : Store) (taskId : SheetsTaskId) : Option JobScheduler :=
  s.schedulers.find? (schedulerId taskId)

def Request.owes (taskId : SheetsTaskId) : Request → Bool
  | .schedule call _ => callTask call = taskId
  | .removeSchedule id | .deleteRow id => id = taskId
  | _ => false

def projectTasks (db : Database) (projectId : ProjectId) : List SheetsTaskId :=
  (db.sheetsTasks.rows.filter fun task => task.projectId == projectId).map SheetsTask.id

def Request.deletes (db : Database) : Request → List SheetsTaskId
  | .deleteRow taskId => [taskId]
  | .deleteProject projectId =>
    if (db.projects.find? projectId).isSome then projectTasks db projectId else []
  | _ => []

def Request.call : Request → Option SchedulerCall
  | .schedule call _ => some call
  | _ => none

theorem wanted_of_find? {db : Database} {task : SheetsTask}
    (h : db.sheetsTasks.find? taskId = some task) :
    wanted db taskId = task.scheduleCron.bind fun cron =>
      if cron = "" then none else some (taskScheduler taskId cron) := by
  rw [wanted, h, Option.bind_some]

theorem wanted_of_none {db : Database} (h : db.sheetsTasks.find? taskId = none) :
    wanted db taskId = none := by
  rw [wanted, h, Option.bind_none]

theorem wanted_congr {db db' : Database}
    (h : db'.sheetsTasks.find? taskId = db.sheetsTasks.find? taskId) :
    wanted db' taskId = wanted db taskId := by
  rw [wanted, wanted, h]

theorem registered_applyCall_self (call : SchedulerCall) :
    registered { s with schedulers := applyCall s.schedulers call } (callTask call) =
      callScheduler call := by
  cases call with
  | upsertSchedule id cron => exact Table.find?_upsert_self s.schedulers (taskScheduler id cron)
  | removeSchedule id => exact Table.find?_delete_self s.schedulers (schedulerId id)

theorem registered_applyCall_of_ne {call : SchedulerCall} (h : callTask call ≠ taskId) :
    registered { s with schedulers := applyCall s.schedulers call } taskId =
      registered s taskId := by
  have hid : schedulerId taskId ≠ schedulerId (callTask call) := fun e =>
    h (schedulerId_injective e).symm
  cases call with
  | upsertSchedule id cron => exact Table.find?_upsert_of_ne hid
  | removeSchedule id => exact Table.find?_delete_of_ne hid

inductive Effect (taskId : SheetsTaskId) (s s' : Store) (r r' : Request) : Prop
  | keeps (hwanted : wanted s'.db taskId = wanted s.db taskId)
      (hregistered : registered s' taskId = registered s taskId)
      (howes : r'.owes taskId = r.owes taskId)
  | owes (howes : r'.owes taskId)
  | deletes (hdeletes : taskId ∈ r.deletes s.db) (hwanted : wanted s'.db taskId = none)
      (hregistered : registered s' taskId = registered s taskId)
  | calls {call : SchedulerCall} (hcall : r.call = some call) (htask : callTask call = taskId)
      (hwanted : wanted s'.db taskId = wanted s.db taskId)
      (hregistered : registered s' taskId = callScheduler call)

theorem owes_after_some (task : SheetsTask) (call : SchedulerCall) :
    (Request.after task (some call)).owes taskId = decide (callTask call = taskId) := rfl

theorem createCall_cases (cuid : SheetsTaskId) (now : ℤ) (projectId : ProjectId)
    (dto : CreateSheetsTaskInput) :
    (∃ call, createCall cuid dto = some call ∧ callTask call = cuid) ∨
      createCall cuid dto = none ∧
        ((createdTask projectId dto cuid now).scheduleCron.bind fun cron =>
          if cron = "" then none else some (taskScheduler cuid cron)) = none := by
  unfold createCall createdTask
  cases dto.scheduleCron with
  | none => exact .inr ⟨rfl, rfl⟩
  | some cron =>
    by_cases hcron : cron.val = ""
    · exact .inr ⟨if_pos hcron, by simp [hcron]⟩
    · exact .inl ⟨_, if_neg hcron, rfl⟩

theorem updateCall_cases (taskId : SheetsTaskId) (dto : UpdateSheetsTaskInput) :
    (∃ call, updateCall taskId dto = some call ∧ callTask call = taskId) ∨
      updateCall taskId dto = none ∧
        ∀ now task, (updateData dto now task).scheduleCron = task.scheduleCron := by
  cases hcron : dto.scheduleCron with
  | none =>
    refine .inr ⟨by rw [updateCall, hcron], fun now task => ?_⟩
    simp [updateData, hcron]
  | some cron =>
    refine .inl ⟨_, by rw [updateCall, hcron], ?_⟩
    split <;> rfl

theorem update_ok {db : Database} {userId : UserId} {taskId : SheetsTaskId} {dto : UpdateSheetsTaskInput}
    {task : SheetsTask} (hfound : SheetsTasksService.findOwnedTask db userId taskId = .ok task) :
    SheetsTasksService.update db userId taskId dto now =
      .ok ({ db with sheetsTasks := (db.sheetsTasks.updateWhere (fun t => t.id = taskId)
        (updateData dto now) (updateData_id dto now)) }, (updateCall taskId dto).toList) := by
  obtain ⟨hfind, -⟩ := find?_of_findOwnedTask hfound
  have hupdate : db.sheetsTasks.update taskId (updateData dto now) (updateData_id dto now) =
      some _ :=
    Table.update_eq_some.mpr ⟨⟨task, Table.find?_eq_some.mp hfind⟩, rfl⟩
  simp only [SheetsTasksService.update, hfound, hupdate, updateCall]
  cases dto.scheduleCron with
  | none => rfl
  | some cron =>
    dsimp only
    split <;> rfl

theorem update_eq_ok {db db' : Database} {userId : UserId} {dto : UpdateSheetsTaskInput}
    {calls : List SchedulerCall}
    (h : SheetsTasksService.update db userId taskId dto now = .ok (db', calls)) :
    ∃ task, db.sheetsTasks.find? taskId = some task ∧
      db'.sheetsTasks.find? taskId = some (updateData dto now task) ∧
      calls = (updateCall taskId dto).toList := by
  cases hfound : SheetsTasksService.findOwnedTask db userId taskId with
  | error message =>
    rw [SheetsTasksService.update, hfound] at h
    cases h
  | ok task =>
    rw [update_ok hfound] at h
    cases h
    obtain ⟨hfind, -⟩ := find?_of_findOwnedTask hfound
    refine ⟨task, hfind, ?_, rfl⟩
    rw [Table.find?_updateWhere, hfind, Option.map_some]

theorem exists_update {db : Database} {userId : UserId} {taskId : SheetsTaskId}
    {dto : UpdateSheetsTaskInput} {r : Database × List SchedulerCall}
    (h : SheetsTasksService.update db userId taskId dto now = .ok r) (dto' : UpdateSheetsTaskInput)
    (now' : ℤ) : ∃ r', SheetsTasksService.update db userId taskId dto' now' = .ok r' := by
  cases hfound : findOwnedTask db userId taskId with
  | error message =>
    rw [SheetsTasksService.update, hfound] at h
    cases h
  | ok task => exact ⟨_, update_ok hfound⟩

theorem createRow_effect {projectId : ProjectId} {dto : CreateSheetsTaskInput}
    {sheetsTasks : Table SheetsTask.id}
    (hinsert : s.db.sheetsTasks.insertMany [createdTask projectId dto cuid now] = some sheetsTasks) :
    Effect taskId s { s with db := { s.db with sheetsTasks } } (.createRow projectId dto)
      (.after (createdTask projectId dto cuid now) (createCall cuid dto)) := by
  by_cases hid : cuid = taskId
  · subst hid
    obtain ⟨call, hcall, htask⟩ | ⟨hcall, hcron⟩ := createCall_cases cuid now projectId dto
    · refine .owes ?_
      rw [hcall]
      exact decide_eq_true htask
    · have hold : s.db.sheetsTasks.find? cuid = none := Table.find?_of_insertMany hinsert
      have hnew : sheetsTasks.find? cuid = some (createdTask projectId dto cuid now) :=
        Table.find?_insertMany_self hinsert
      refine .keeps ?_ rfl (by rw [hcall]; rfl)
      rw [wanted_of_none hold, wanted_of_find? hnew, hcron]
  · have hfind : sheetsTasks.find? taskId = s.db.sheetsTasks.find? taskId :=
      Table.find?_insertMany_of_ne hinsert hid
    obtain ⟨call, hcall, htask⟩ | ⟨hcall, -⟩ := createCall_cases cuid now projectId dto
    · refine .keeps (wanted_congr hfind) rfl ?_
      rw [hcall, owes_after_some, htask, decide_eq_false hid]
      rfl
    · exact .keeps (wanted_congr hfind) rfl (by rw [hcall]; rfl)

theorem updateRow_effect {id : SheetsTaskId} {dto : UpdateSheetsTaskInput} {task : SheetsTask}
    {sheetsTasks : Table SheetsTask.id} (htask : s.db.sheetsTasks.find? id = some task)
    (hupdate : sheetsTasks = s.db.sheetsTasks.updateWhere (fun t => t.id = id) (updateData dto now)
      (updateData_id dto now)) :
    Effect taskId s { s with db := { s.db with sheetsTasks } } (.updateRow id dto)
      (.after (updateData dto now task) (updateCall id dto)) := by
  have hfind := Table.find?_updateWhere_key s.db.sheetsTasks id taskId (updateData dto now)
    (updateData_id dto now)
  rw [← hupdate] at hfind
  by_cases hid : id = taskId
  · subst hid
    obtain ⟨call, hcall, hcallTask⟩ | ⟨hcall, hcron⟩ := updateCall_cases id dto
    · refine .owes ?_
      rw [hcall]
      exact decide_eq_true hcallTask
    · rw [htask, Option.map_some, if_pos (Table.find?_eq_some.mp htask).2] at hfind
      refine .keeps ?_ rfl (by rw [hcall]; rfl)
      rw [wanted_of_find? htask, wanted_of_find? hfind, hcron]
  · have hsame : sheetsTasks.find? taskId = s.db.sheetsTasks.find? taskId := by
      rw [hfind]
      cases h : s.db.sheetsTasks.find? taskId with
      | none => rfl
      | some other =>
        rw [Option.map_some, if_neg]
        rw [(Table.find?_eq_some.mp h).2]
        exact fun e => hid e.symm
    obtain ⟨call, hcall, hcallTask⟩ | ⟨hcall, -⟩ := updateCall_cases id dto
    · refine .keeps (wanted_congr hsame) rfl ?_
      rw [hcall, owes_after_some, hcallTask, decide_eq_false hid]
      rfl
    · exact .keeps (wanted_congr hsame) rfl (by rw [hcall]; rfl)

theorem deleteRow_effect {id : SheetsTaskId} (answer : Except String Answer)
    (hs' : s' = s ∧ s.db.sheetsTasks.find? id = none ∨
      s' = { s with db := s.db.deleteSheetsTask id }) :
    Effect taskId s s' (.deleteRow id) (.answered answer) := by
  by_cases hid : id = taskId
  · subst hid
    obtain ⟨rfl, hfind⟩ | rfl := hs'
    · exact .deletes (List.mem_singleton.mpr rfl) (wanted_of_none hfind) rfl
    · exact .deletes (List.mem_singleton.mpr rfl)
        (wanted_of_none (Table.find?_delete_self s.db.sheetsTasks id)) rfl
  · have howes : (Request.deleteRow id).owes taskId = false := decide_eq_false hid
    obtain ⟨rfl, -⟩ | rfl := hs'
    · exact .keeps rfl rfl howes.symm
    · exact .keeps (wanted_congr (Table.find?_delete_of_ne fun e => hid e.symm)) rfl howes.symm

theorem deleteProject_effect {projectId : ProjectId} {project : Project} {answer : Except String Answer}
    (hproject : s.db.projects.find? projectId = some project) :
    Effect taskId s { s with db := s.db.deleteProject projectId } (.deleteProject projectId)
      (.answered answer) := by
  by_cases htask : taskId ∈ projectTasks s.db projectId
  · refine .deletes ?_ (wanted_of_none ?_) rfl
    · simpa [Request.deletes, hproject] using htask
    · -- the only row with this id is one of the project's
      rw [Table.find?_eq_none]
      rintro task hmem rfl
      obtain ⟨hmem, hkeep⟩ := Table.mem_deleteWhere.mp hmem
      obtain ⟨deleted, hdeleted, hid⟩ := List.mem_map.mp htask
      obtain ⟨hdeleted, hp⟩ := List.mem_filter.mp hdeleted
      rw [s.db.sheetsTasks.eq_of_key_eq hdeleted hmem hid] at hp
      exact hkeep hp
  · refine .keeps (wanted_congr (Table.find?_deleteWhere_of_keep ?_)) rfl rfl
    rintro task hmem rfl hp
    exact htask (List.mem_map_of_mem (List.mem_filter.mpr ⟨hmem, hp⟩))

theorem move_effect (hmove : r.move s turn = some (s', r')) (taskId : SheetsTaskId) :
    Effect taskId s s' r r' := by
  cases r with
  | assertProject userId projectId dto =>
    simp only [Request.move] at hmove
    split at hmove <;> cases hmove <;> exact .keeps rfl rfl rfl
  | createRow projectId dto =>
    simp only [Request.move] at hmove
    split at hmove
    · cases hmove
      exact .keeps rfl rfl rfl
    · split at hmove
      · cases hmove
        exact .keeps rfl rfl rfl
      · rename_i sheetsTasks hinsert
        cases hmove
        exact createRow_effect hinsert
  | findOwnedTask userId id dto =>
    simp only [Request.move] at hmove
    split at hmove <;> cases hmove <;> exact .keeps rfl rfl rfl
  | updateRow id dto =>
    simp only [Request.move] at hmove
    split at hmove
    · cases hmove
      exact .keeps rfl rfl rfl
    · rename_i task htask
      cases hmove
      exact updateRow_effect htask rfl
  | schedule call answer =>
    cases hmove
    by_cases htask : callTask call = taskId
    · exact .calls rfl htask rfl (htask ▸ registered_applyCall_self call)
    · exact .keeps rfl (registered_applyCall_of_ne htask) (decide_eq_false htask).symm
  | findRemoved userId id =>
    simp only [Request.move] at hmove
    split at hmove
    · cases hmove
      exact .keeps rfl rfl rfl
    · cases hmove
      by_cases hid : id = taskId
      · exact .owes (decide_eq_true hid)
      · exact .keeps rfl rfl (decide_eq_false hid)
  | removeSchedule id =>
    cases hmove
    by_cases hid : id = taskId
    · exact .owes (decide_eq_true hid)
    · have hcall : callTask (.removeSchedule id) ≠ taskId := hid
      exact .keeps rfl (registered_applyCall_of_ne hcall) rfl
  | deleteRow id =>
    simp only [Request.move] at hmove
    split at hmove
    · rename_i hfind
      cases hmove
      exact deleteRow_effect _ (.inl ⟨rfl, hfind⟩)
    · cases hmove
      exact deleteRow_effect _ (.inr rfl)
  | getById userId projectId =>
    simp only [Request.move] at hmove
    split at hmove <;> cases hmove <;> exact .keeps rfl rfl rfl
  | deleteProject projectId =>
    simp only [Request.move, ProjectsService.deleteRow] at hmove
    cases hproject : s.db.projects.find? projectId with
    | none =>
      rw [hproject] at hmove
      cases hmove
      exact .keeps rfl rfl rfl
    | some project =>
      rw [hproject] at hmove
      cases hmove
      exact deleteProject_effect hproject
  | answered answer => cases hmove

section Runs

variable {t t₀ : State} {as : List Label} {a : Label}

def OwedByAnother (s : State) (i : ℕ) (taskId : SheetsTaskId) : Prop :=
  ∃ r ∈ s.requests.eraseIdx i, r.owes taskId

instance (s : State) (i : ℕ) (taskId : SheetsTaskId) : Decidable (OwedByAnother s i taskId) :=
  inferInstanceAs (Decidable (∃ r ∈ s.requests.eraseIdx i, r.owes taskId))

/-- No row is deleted while a scheduler of its task is registered, and a scheduler call carries what
the row asks for, unless another request comes to that task after it. -/
def InOrder (s : State) : Label → Prop
  | .request _ => True
  | .move i _ => ∀ r ∈ s.requests[i]?,
    (∀ taskId ∈ r.deletes s.store.db,
      registered s.store taskId = none ∨ OwedByAnother s i taskId) ∧
    ∀ call ∈ r.call, callScheduler call = wanted s.store.db (callTask call) ∨
      OwedByAnother s i (callTask call)

instance (s : State) : (a : Label) → Decidable (InOrder s a)
  | .request _ => .isTrue trivial
  | .move i _ => inferInstanceAs (Decidable (∀ r ∈ s.requests[i]?,
    (∀ taskId ∈ r.deletes s.store.db,
      registered s.store taskId = none ∨ OwedByAnother s i taskId) ∧
    ∀ call ∈ r.call, callScheduler call = wanted s.store.db (callTask call) ∨
      OwedByAnother s i (callTask call)))

structure Settled (s : State) : Prop where
  agrees (taskId : SheetsTaskId) : registered s.store taskId = wanted s.store.db taskId ∨
    ∃ r ∈ s.requests, r.owes taskId
  named : ∀ scheduler ∈ s.store.schedulers.rows, ∃ taskId, scheduler.id = schedulerId taskId

theorem Settled.start (h : Mirrors t.store) : Settled t where
  agrees taskId := by
    refine .inl ?_
    cases htask : t.store.db.sheetsTasks.find? taskId with
    | none =>
      rw [wanted_of_none htask, registered, Table.find?_eq_none]
      intro scheduler hmem hid
      obtain ⟨task, htaskMem, cron, -, -, rfl⟩ := (h scheduler).mp hmem
      exact Table.find?_eq_none.mp htask task htaskMem (schedulerId_injective hid)
    | some task =>
      obtain ⟨hmem, rfl⟩ := Table.find?_eq_some.mp htask
      rw [wanted_of_find? htask]
      have hfind {scheduler : JobScheduler}
          (hfound : registered t.store task.id = some scheduler) : ∃ cron,
            task.scheduleCron = some cron ∧ cron ≠ "" ∧ scheduler = taskScheduler task.id cron := by
        obtain ⟨hscheduler, hid⟩ := Table.find?_eq_some.mp hfound
        obtain ⟨owner, howner, cron, hcron, hne, rfl⟩ := (h scheduler).mp hscheduler
        obtain rfl := t.store.db.sheetsTasks.eq_of_key_eq howner hmem (schedulerId_injective hid)
        exact ⟨cron, hcron, hne, rfl⟩
      cases hfound : registered t.store task.id with
      | some scheduler =>
        obtain ⟨cron, hcron, hne, rfl⟩ := hfind hfound
        rw [hcron, Option.bind_some, if_neg hne]
      | none =>
        cases hcron : task.scheduleCron with
        | none => rfl
        | some cron =>
          by_cases hne : cron = ""
          · rw [Option.bind_some, if_pos hne]
          · exact absurd rfl (Table.find?_eq_none.mp hfound (taskScheduler task.id cron)
              ((h _).mpr ⟨task, hmem, cron, hcron, hne, rfl⟩))
  named scheduler hmem := by
    obtain ⟨task, -, cron, -, -, rfl⟩ := (h scheduler).mp hmem
    exact ⟨task.id, rfl⟩

theorem Request.not_isOver_of_owes (howes : r.owes taskId) : r.isOver = false := by
  cases r <;> first | rfl | exact absurd howes Bool.false_ne_true

theorem Settled.mirrors (h : Settled t) (hidle : ∀ r ∈ t.requests, r.isOver) :
    Mirrors t.store := by
  have hagrees (taskId : SheetsTaskId) :
      registered t.store taskId = wanted t.store.db taskId := by
    obtain hagrees | ⟨r, hr, howes⟩ := h.agrees taskId
    · exact hagrees
    · exact absurd (hidle r hr) (by simp [Request.not_isOver_of_owes howes])
  intro scheduler
  constructor
  · intro hmem
    obtain ⟨taskId, hid⟩ := h.named scheduler hmem
    have hfound : registered t.store taskId = some scheduler := Table.find?_eq_some.mpr ⟨hmem, hid⟩
    rw [hagrees, wanted, Option.bind_eq_some_iff] at hfound
    obtain ⟨task, htask, hfound⟩ := hfound
    obtain ⟨cron, hcron, hfound⟩ := Option.bind_eq_some_iff.mp hfound
    obtain ⟨htaskMem, rfl⟩ := Table.find?_eq_some.mp htask
    split at hfound
    · cases hfound
    · rename_i hne
      exact ⟨task, htaskMem, cron, hcron, hne, (Option.some.inj hfound).symm⟩
  · rintro ⟨task, htask, cron, hcron, hne, rfl⟩
    have hfind : t.store.db.sheetsTasks.find? task.id = some task :=
      Table.find?_eq_some.mpr ⟨htask, rfl⟩
    have hfound := hagrees task.id
    rw [wanted_of_find? hfind, hcron, Option.bind_some, if_neg hne] at hfound
    exact (Table.find?_eq_some.mp hfound).1

theorem named_of_move (hmove : r.move s turn = some (s', r'))
    (h : ∀ scheduler ∈ s.schedulers.rows, ∃ taskId, scheduler.id = schedulerId taskId) :
    ∀ scheduler ∈ s'.schedulers.rows, ∃ taskId, scheduler.id = schedulerId taskId := by
  have hcall (call : SchedulerCall) : ∀ scheduler ∈ (applyCall s.schedulers call).rows,
      ∃ taskId, scheduler.id = schedulerId taskId := by
    intro scheduler hmem
    cases call with
    | upsertSchedule id cron =>
      obtain ⟨hmem, -⟩ | rfl := Table.mem_upsert.mp hmem
      · exact h scheduler hmem
      · exact ⟨id, rfl⟩
    | removeSchedule id => exact h scheduler (Table.mem_delete.mp hmem).1
  cases r with
  | schedule call answer =>
    cases hmove
    exact hcall call
  | removeSchedule id =>
    cases hmove
    exact hcall (.removeSchedule id)
  | answered answer => cases hmove
  | _ =>
    simp only [Request.move] at hmove
    repeat' split at hmove
    all_goals
      cases hmove
      exact h

theorem Settled.step (h : Settled t₀) (hin : InOrder t₀ a)
    (hstep : SheetsSchedules.step t₀ a = some t) : Settled t := by
  cases a with
  | request op =>
    cases hstep
    refine ⟨fun taskId => ?_, h.named⟩
    exact (h.agrees taskId).imp id fun ⟨r, hr, howes⟩ => ⟨r, List.mem_append_left _ hr, howes⟩
  | move i turn =>
    obtain ⟨⟨s', requests⟩, hpool, rfl⟩ := Option.map_eq_some_iff.mp hstep
    obtain ⟨r, r', hget, hmove, rfl⟩ := Pool.step_eq_some.mp hpool
    obtain ⟨hdelete, hcalls⟩ := hin r hget
    refine ⟨fun taskId => ?_, named_of_move hmove h.named⟩
    have hself : r' ∈ t₀.requests.set i r' := Pool.mem_set_self hget
    have hother (hr : OwedByAnother t₀ i taskId) : ∃ r ∈ t₀.requests.set i r', r.owes taskId := by
      obtain ⟨d, hd, howes⟩ := hr
      exact ⟨d, Pool.mem_set_of_mem_eraseIdx hget hd, howes⟩
    cases move_effect hmove taskId with
    | keeps hwanted hregistered howes =>
      obtain hagrees | ⟨d, hd, hdowes⟩ := h.agrees taskId
      · exact .inl (hregistered.trans (hagrees.trans hwanted.symm))
      · refine .inr ?_
        obtain rfl | hd : d = r ∨ d ∈ t₀.requests.set i r' := Pool.mem_set_of_mem hget hd
        · exact ⟨r', hself, howes.trans hdowes⟩
        · exact ⟨d, hd, hdowes⟩
    | owes howes => exact .inr ⟨r', hself, howes⟩
    | deletes hdeletes hwanted hregistered =>
      refine (hdelete taskId hdeletes).imp (fun hnone => ?_) hother
      rw [hregistered, hwanted, hnone]
    | calls hcall htask hwanted hregistered =>
      subst htask
      refine (hcalls _ hcall).imp (fun hcarried => ?_) hother
      rw [hregistered, hwanted, hcarried]

end Runs

/-- As long as no row is deleted under a registered scheduler and the scheduler calls on a task come
in the order of its writes, the schedulers are those of the tasks whenever nothing is under way. -/
theorem schedulers_mirror_tasks {s₀ s : State} {as : List Label} (hstart : Mirrors s₀.store)
    (hr : exec step s₀ as = some s) (hin : Meets step InOrder s₀ as)
    (hidle : ∀ r ∈ s.requests, r.isOver) : Mirrors s.store := by
  have hsettled : Settled s := exec_invariant_of_meets (I := Settled)
    (fun _ _ _ h hc hs => h.step hc hs) (.start hstart) hin hr
  exact hsettled.mirrors hidle

def scheduledInput : CreateSheetsTaskInput where
  name := ⟨"Daily", by decide⟩
  spreadsheetId := ⟨"sheet", by decide⟩
  donorColumn := ⟨"D", by decide⟩
  acceptorColumn := ⟨"E", by decide⟩
  resultStartCol := ⟨"F", by decide⟩
  headerRow := ⟨3, by decide⟩
  dataStartRow := ⟨4, by decide⟩
  scheduleCron := some ⟨"0 9 * * *", by decide⟩

def exampleState : State := ⟨⟨exampleDatabase .empty .empty, .empty⟩, []⟩

theorem mirrors_exampleState : Mirrors exampleState.store := fun _ =>
  ⟨fun h => absurd h List.not_mem_nil, fun ⟨_, h, _⟩ => absurd h List.not_mem_nil⟩

def moves (i n : ℕ) : List Label := List.replicate n (.move i { cuid := "s" })

/-- The project is deleted with its task; the scheduler of the task stays. -/
theorem deleted_project_keeps_scheduler : ¬ ∀ (s₀ s : State) (as : List Label),
    Mirrors s₀.store → s₀.requests = [] → exec step s₀ as = some s →
      (∀ r ∈ s.requests, r.isOver) → Mirrors s.store := by
  intro hall
  have hmirrors := hall exampleState _
    (.request (.create "u" "p" scheduledInput) :: moves 0 3 ++
      .request (.removeProject "u" "p") :: moves 1 2) mirrors_exampleState rfl rfl (by decide)
  obtain ⟨task, htask, -⟩ := (hmirrors (taskScheduler "s" "0 9 * * *")).mp (by decide)
  exact List.not_mem_nil htask

def removalLabels : List Label :=
  .request (.create "u" "p" scheduledInput) :: moves 0 3 ++
    .request (.update "u" "s" { scheduleCron := some ⟨"", by decide⟩ }) :: moves 1 3 ++
    .request (.remove "u" "s") :: moves 2 3

theorem schedulers_mirror_tasks_sample :
    ∃ s, exec step exampleState removalLabels = some s ∧ Mirrors s.store := by
  have hover : (exec step exampleState removalLabels).any fun s =>
      s.requests.all Request.isOver := by decide +kernel
  obtain ⟨s, hs, hidle⟩ := (Option.any_eq_true _ _).mp hover
  exact ⟨s, hs, schedulers_mirror_tasks mirrors_exampleState hs (by decide +kernel)
    (List.all_eq_true.mp hidle)⟩

end LinkBulker.SheetsSchedules
