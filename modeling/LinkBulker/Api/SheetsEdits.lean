import LinkBulker.Api.SheetsSchedulesLaws

/-! `create`, `update` and `remove` of `SheetsTasksService` when calls of the database or of BullMQ
reject: when row and scheduler change together or not at all. -/

namespace LinkBulker.SheetsSchedules

open Foundations Db Shared SheetsTasksService

/-- What a request makes of a call that rejects: only `removeJobScheduler` is waved through. -/
def Request.rejected (s : Store) (message : String) : Request → Option (Store × Request)
  | .schedule (.removeSchedule _) answer => some (s, .answered (.ok answer))
  | .removeSchedule taskId => some (s, .deleteRow taskId)
  | .answered _ => none
  | .assertProject .. | .createRow .. | .findOwnedTask .. | .updateRow .. |
    .schedule (.upsertSchedule ..) _ | .findRemoved .. | .deleteRow .. | .getById .. |
    .deleteProject .. => some (s, .answered (.error message))

structure Rejections where
  lookup : Option String := none
  write : Option String := none
  scheduler : Option String := none

def Rejections.of (rejects : Rejections) : Request → Option String
  | .assertProject .. | .findOwnedTask .. | .findRemoved .. | .getById .. => rejects.lookup
  | .createRow .. | .updateRow .. | .deleteRow .. | .deleteProject .. => rejects.write
  | .schedule .. | .removeSchedule .. => rejects.scheduler
  | .answered _ => none

def Request.attempt (rejects : Rejections) (turn : Turn) (s : Store) (r : Request) :
    Option (Store × Request) :=
  match rejects.of r with
  | none => r.move s turn
  | some message => r.rejected s message

def Request.run (rejects : Rejections) (turn : Turn) : ℕ → Store × Request → Store × Request
  | 0, p => p
  | n + 1, p =>
    match p.2.attempt rejects turn p.1 with
    | none => p
    | some p' => Request.run rejects turn n p'

inductive Edit
  | create (userId : UserId) (projectId : ProjectId) (dto : CreateSheetsTaskInput)
  | update (userId : UserId) (taskId : SheetsTaskId) (dto : UpdateSheetsTaskInput)
  | remove (userId : UserId) (taskId : SheetsTaskId)

def Edit.op : Edit → Op
  | .create userId projectId dto => .create userId projectId dto
  | .update userId taskId dto => .update userId taskId dto
  | .remove userId taskId => .remove userId taskId

def Edit.perform (rejects : Rejections) (turn : Turn) (s : Store) (edit : Edit) :
    Store × Request :=
  Request.run rejects turn 3 (s, edit.op.start)

def Edit.serve (turn : Turn) (db : Database) :
    Edit → Except String (Database × List SchedulerCall)
  | .create userId projectId dto => SheetsTasksService.create db userId projectId dto turn.cuid turn.now
  | .update userId taskId dto => SheetsTasksService.update db userId taskId dto turn.now
  | .remove userId taskId => SheetsTasksService.remove db userId taskId

def Edit.AllOrNothing (turn : Turn) (s s' : Store) (edit : Edit) :
    Except String Answer → Prop
  | .error _ => s'.db.sheetsTasks = s.db.sheetsTasks ∧ s'.schedulers = s.schedulers
  | .ok _ => ∃ db calls, edit.serve turn s.db = .ok (db, calls) ∧
      s' = ⟨db, calls.foldl applyCall s.schedulers⟩

/-- Of the row and the scheduler only one follows the request, and the other has something to
follow. -/
def Edit.Torn (rejects : Rejections) (turn : Turn) (s : Store) : Edit → Prop
  | .create userId projectId dto =>
    rejects.lookup = none ∧ SheetsTasksService.assertProject s.db userId projectId = .ok () ∧
      rejects.write = none ∧ s.db.sheetsTasks.find? turn.cuid = none ∧
      rejects.scheduler ≠ none ∧ ∃ cron ∈ dto.scheduleCron, cron.val ≠ ""
  | .update userId taskId dto =>
    rejects.lookup = none ∧ rejects.write = none ∧ rejects.scheduler ≠ none ∧
      ∃ task, SheetsTasksService.findOwnedTask s.db userId taskId = .ok task ∧
        ∃ cron ∈ dto.scheduleCron,
          if cron.val = "" then registered s taskId ≠ none else updateData dto turn.now task ≠ task
  | .remove userId taskId =>
    rejects.lookup = none ∧
      (∃ task, SheetsTasksService.findOwnedTask s.db userId taskId = .ok task) ∧
      (rejects.write = none ↔ rejects.scheduler ≠ none) ∧ registered s taskId ≠ none

section Runs

variable {rejects : Rejections} {turn : Turn} {s s' : Store} {r r' : Request} {n : ℕ}

@[simp] theorem run_answered (answer : Except String Answer) :
    Request.run rejects turn n (s, .answered answer) = (s, .answered answer) := by
  cases n with
  | zero => rfl
  | succ n => rfl

theorem run_rejected {message : String} (h : rejects.of r = some message)
    (hr : r.rejected s message = some (s', r')) :
    Request.run rejects turn (n + 1) (s, r) = Request.run rejects turn n (s', r') := by
  simp only [Request.run, Request.attempt, h, hr]

theorem run_move (h : rejects.of r = none) (hm : r.move s turn = some (s', r')) :
    Request.run rejects turn (n + 1) (s, r) = Request.run rejects turn n (s', r') := by
  simp only [Request.run, Request.attempt, h, hm]

theorem run_error {message : String} (h : rejects.of r = some message)
    (hr : r.rejected s message = some (s, .answered (.error message))) :
    Request.run rejects turn (n + 1) (s, r) = (s, .answered (.error message)) := by
  rw [run_rejected h hr, run_answered]

theorem run_failed {message : String} (h : rejects.of r = none)
    (hm : r.move s turn = some (s, .answered (.error message))) :
    Request.run rejects turn (n + 1) (s, r) = (s, .answered (.error message)) := by
  rw [run_move h hm, run_answered]

def Edit.Ends (rejects : Rejections) (turn : Turn) (s : Store) (edit : Edit) : Prop :=
  ∃ s' answer, edit.perform rejects turn s = (s', .answered answer) ∧
    (edit.AllOrNothing turn s s' answer ↔ ¬ edit.Torn rejects turn s)

theorem Edit.ends_of_error {edit : Edit} {message : String}
    (hrun : edit.perform rejects turn s = (s, .answered (.error message)))
    (htorn : ¬ edit.Torn rejects turn s) : edit.Ends rejects turn s :=
  ⟨s, _, hrun, iff_of_true ⟨rfl, rfl⟩ htorn⟩

theorem Edit.kept_schedulers_iff (edit : Edit) {db : Database} {calls : List SchedulerCall}
    {answer : Answer} (hserve : edit.serve turn s.db = .ok (db, calls)) :
    edit.AllOrNothing turn s ⟨db, s.schedulers⟩ (.ok answer) ↔
      calls.foldl applyCall s.schedulers = s.schedulers := by
  constructor
  · rintro ⟨db', calls', hok, hs'⟩
    obtain ⟨rfl, rfl⟩ := Prod.mk.inj (Except.ok.inj (hserve.symm.trans hok))
    exact (congrArg Store.schedulers hs').symm
  · intro hsame
    exact ⟨db, calls, hserve, by rw [hsame]⟩

theorem Edit.ends_of_lookup {edit : Edit} {α : Type} (found : Except String α) (next : Request)
    (hof : rejects.of edit.op.start = rejects.lookup)
    (hrejected : ∀ message, edit.op.start.rejected s message = some (s, .answered (.error message)))
    (hmove : edit.op.start.move s turn = some (s, match found with
      | .error message => .answered (.error message)
      | .ok _ => next))
    (htorn : edit.Torn rejects turn s → rejects.lookup = none ∧ ∃ a, found = .ok a)
    (hnext : ∀ a, rejects.lookup = none → found = .ok a →
      edit.perform rejects turn s = Request.run rejects turn 2 (s, next) →
        edit.Ends rejects turn s) : edit.Ends rejects turn s := by
  cases hlookup : rejects.lookup with
  | some message =>
    refine Edit.ends_of_error (run_error (hof.trans hlookup) (hrejected message)) fun h => ?_
    cases hlookup.symm.trans (htorn h).1
  | none =>
    cases found with
    | error message =>
      refine Edit.ends_of_error (run_failed (hof.trans hlookup) hmove) fun h => ?_
      obtain ⟨-, a, ha⟩ := htorn h
      cases ha
    | ok a => exact hnext a hlookup rfl (run_move (hof.trans hlookup) hmove)

end Runs

section Edits

variable {rejects : Rejections} {turn : Turn} {s : Store} {userId : UserId}

theorem createCall_eq (cuid : SheetsTaskId) (dto : CreateSheetsTaskInput) :
    createCall cuid dto = none ∧ (¬ ∃ cron ∈ dto.scheduleCron, cron.val ≠ "") ∨
      ∃ cron ∈ dto.scheduleCron, cron.val ≠ "" ∧
        createCall cuid dto = some (.upsertSchedule cuid cron) := by
  unfold createCall
  cases dto.scheduleCron with
  | none => exact .inl ⟨rfl, by simp⟩
  | some cron =>
    by_cases hcron : cron.val = ""
    · exact .inl ⟨if_pos hcron, by simp [hcron]⟩
    · exact .inr ⟨cron, rfl, hcron, if_neg hcron⟩

theorem create_eq_ok {db : Database} {projectId : ProjectId} {dto : CreateSheetsTaskInput}
    {sheetsTasks : Table SheetsTask.id}
    (hassert : SheetsTasksService.assertProject db userId projectId = .ok ())
    (hinsert :
      db.sheetsTasks.insertMany [createdTask projectId dto turn.cuid turn.now] = some sheetsTasks) :
    SheetsTasksService.create db userId projectId dto turn.cuid turn.now =
      .ok ({ db with sheetsTasks }, (createCall turn.cuid dto).toList) := by
  simp only [SheetsTasksService.create, hassert, hinsert, createCall]
  cases dto.scheduleCron with
  | none => rfl
  | some cron =>
    dsimp only
    split <;> rfl

theorem project_of_assertProject {db : Database} {projectId : ProjectId}
    (h : SheetsTasksService.assertProject db userId projectId = .ok ()) :
    (db.projects.find? projectId).isNone = false := by
  rw [SheetsTasksService.assertProject, LinksService.assertProject] at h
  split at h
  · rename_i hany
    obtain ⟨p, hp, hmatch⟩ := List.any_eq_true.mp hany
    simp only [Bool.and_eq_true, beq_iff_eq] at hmatch
    have hfound : (db.projects.find? projectId).isSome :=
      Table.find?_isSome.mpr ⟨p, hp, hmatch.1⟩
    simpa using hfound
  · cases h

theorem create_ends (projectId : ProjectId) (dto : CreateSheetsTaskInput) :
    (Edit.create userId projectId dto).Ends rejects turn s := by
  refine Edit.ends_of_lookup (SheetsTasksService.assertProject s.db userId projectId)
    (.createRow projectId dto) rfl (fun _ => rfl) ?_ (fun h => ⟨h.1, (), h.2.1⟩) ?_
  · simp only [Edit.op, Op.start, Request.move]
    cases SheetsTasksService.assertProject s.db userId projectId <;> rfl
  intro _ hlookup hassert hstart
  cases hwrite : rejects.write with
  | some message =>
    exact Edit.ends_of_error (hstart.trans (run_error hwrite rfl)) (by simp [Edit.Torn, hwrite])
  | none =>
  have hproject := project_of_assertProject hassert
  cases hinsert : s.db.sheetsTasks.insertMany [createdTask projectId dto turn.cuid turn.now] with
  | none =>
    have hrun : Request.run rejects turn 2 (s, .createRow projectId dto) =
        (s, .answered (.error "Unique constraint failed on the fields: (id)")) := by
      refine run_failed hwrite ?_
      simp [Request.move, hproject, hinsert]
    refine Edit.ends_of_error (hstart.trans hrun) ?_
    rintro ⟨-, -, -, hfree, -⟩
    have hfree' : s.db.sheetsTasks.find? (createdTask projectId dto turn.cuid turn.now).id = none := hfree
    obtain ⟨t, ht⟩ := Table.insertMany_singleton hfree'
    cases hinsert.symm.trans ht
  | some sheetsTasks =>
  have hfree : s.db.sheetsTasks.find? turn.cuid = none := Table.find?_of_insertMany hinsert
  have hcreated : Request.run rejects turn 2 (s, .createRow projectId dto) =
      Request.run rejects turn 1 ({ s with db := { s.db with sheetsTasks } },
        .after (createdTask projectId dto turn.cuid turn.now) (createCall turn.cuid dto)) := by
    refine run_move hwrite ?_
    simp [Request.move, hproject, hinsert]
  have hserve := create_eq_ok hassert hinsert
  rcases createCall_eq turn.cuid dto with ⟨hcall, hcron⟩ | ⟨cron, hmem, hcron, hcall⟩
  · rw [hcall] at hcreated hserve
    refine ⟨_, .ok _, (hstart.trans hcreated).trans (run_answered _), iff_of_true ?_ ?_⟩
    · exact ⟨_, _, hserve, rfl⟩
    · rintro ⟨-, -, -, -, -, hcron'⟩
      exact hcron hcron'
  · rw [hcall] at hcreated hserve
    cases hscheduler : rejects.scheduler with
    | none =>
      refine ⟨_, .ok _, (hstart.trans hcreated).trans (run_move hscheduler rfl), iff_of_true ?_ ?_⟩
      · exact ⟨_, _, hserve, rfl⟩
      · rintro ⟨-, -, -, -, hreject, -⟩
        exact hreject hscheduler
    | some message =>
      refine ⟨_, .error _, (hstart.trans hcreated).trans (run_rejected hscheduler rfl),
        iff_of_false ?_ ?_⟩
      · rintro ⟨hsame, -⟩
        have hrows := Table.insertMany_eq_some.mp hinsert
        have hsame' : sheetsTasks = s.db.sheetsTasks := hsame
        rw [hsame'] at hrows
        simp at hrows
      · exact not_not_intro ⟨hlookup, hassert, hwrite, hfree, by simp [hscheduler], cron, hmem, hcron⟩

theorem updateCall_eq (taskId : SheetsTaskId) (dto : UpdateSheetsTaskInput) :
    updateCall taskId dto = none ∧ dto.scheduleCron = none ∨
      ∃ cron, dto.scheduleCron = some cron ∧ (cron.val = "" ∧
          updateCall taskId dto = some (.removeSchedule taskId) ∨
        cron.val ≠ "" ∧ updateCall taskId dto = some (.upsertSchedule taskId cron)) := by
  unfold updateCall
  cases dto.scheduleCron with
  | none => exact .inl ⟨rfl, rfl⟩
  | some cron =>
    by_cases hcron : cron.val = ""
    · exact .inr ⟨cron, rfl, .inl ⟨hcron, congrArg some (if_pos hcron)⟩⟩
    · exact .inr ⟨cron, rfl, .inr ⟨hcron, congrArg some (if_neg hcron)⟩⟩

theorem update_ends (taskId : SheetsTaskId) (dto : UpdateSheetsTaskInput) :
    (Edit.update userId taskId dto).Ends rejects turn s := by
  refine Edit.ends_of_lookup (SheetsTasksService.findOwnedTask s.db userId taskId)
    (.updateRow taskId dto) rfl (fun _ => rfl) ?_ ?_ ?_
  · simp only [Edit.op, Op.start, Request.move]
    cases SheetsTasksService.findOwnedTask s.db userId taskId <;> rfl
  · rintro ⟨hlookup, -, -, task, hfound, -⟩
    exact ⟨hlookup, task, hfound⟩
  intro task hlookup hfound hstart
  cases hwrite : rejects.write with
  | some message =>
    exact Edit.ends_of_error (hstart.trans (run_error hwrite rfl)) (by simp [Edit.Torn, hwrite])
  | none =>
  obtain ⟨hfind, -⟩ := find?_of_findOwnedTask hfound
  have hupdated : Request.run rejects turn 2 (s, .updateRow taskId dto) =
      Request.run rejects turn 1 ({ s with db := { s.db with
        sheetsTasks := (s.db.sheetsTasks.updateWhere (fun t => t.id = taskId) (updateData dto turn.now)
          (updateData_id dto turn.now)) } },
        .after (updateData dto turn.now task) (updateCall taskId dto)) := by
    refine run_move hwrite ?_
    simp [Request.move, hfind]
  have hserve : SheetsTasksService.update s.db userId taskId dto turn.now = .ok (_, _) := update_ok hfound
  rcases updateCall_eq taskId dto with ⟨hcall, hcron⟩ | ⟨cron, hcron, hcall⟩
  · rw [hcall] at hupdated hserve
    refine ⟨_, .ok _, (hstart.trans hupdated).trans (run_answered _), iff_of_true ?_ ?_⟩
    · exact ⟨_, _, hserve, rfl⟩
    · simp [Edit.Torn, hcron]
  cases hscheduler : rejects.scheduler with
  | none =>
    have htorn : ¬ (Edit.update userId taskId dto).Torn rejects turn s := by
      rintro ⟨-, -, hreject, -⟩
      exact hreject hscheduler
    rcases hcall with ⟨-, hcall⟩ | ⟨-, hcall⟩
    · rw [hcall] at hupdated hserve
      exact ⟨_, .ok _, (hstart.trans hupdated).trans (run_move hscheduler rfl),
        iff_of_true ⟨_, _, hserve, rfl⟩ htorn⟩
    · rw [hcall] at hupdated hserve
      exact ⟨_, .ok _, (hstart.trans hupdated).trans (run_move hscheduler rfl),
        iff_of_true ⟨_, _, hserve, rfl⟩ htorn⟩
  | some message =>
    have htorn : (Edit.update userId taskId dto).Torn rejects turn s ↔
        if cron.val = "" then registered s taskId ≠ none else updateData dto turn.now task ≠ task := by
      simp [Edit.Torn, hlookup, hwrite, hscheduler, hfound, hcron]
    rcases hcall with ⟨hempty, hcall⟩ | ⟨hempty, hcall⟩
    · -- the old scheduler is not removed, and the request answers as if it had been
      rw [hcall] at hupdated hserve
      rw [if_pos hempty] at htorn
      refine ⟨_, .ok _, (hstart.trans hupdated).trans (run_rejected hscheduler rfl), ?_⟩
      rw [htorn, not_not, registered, ← Table.delete_eq_self]
      exact Edit.kept_schedulers_iff (.update userId taskId dto) hserve
    · rw [hcall] at hupdated
      rw [if_neg hempty] at htorn
      refine ⟨_, .error _, (hstart.trans hupdated).trans (run_rejected hscheduler rfl), ?_⟩
      have hself : s.db.sheetsTasks.updateWhere (fun t => t.id = taskId) (updateData dto turn.now)
          (updateData_id dto turn.now) = s.db.sheetsTasks ↔ _ := Table.updateWhere_key_eq_self hfind
      rw [htorn, not_not, ← hself]
      exact ⟨And.left, fun hsame => ⟨hsame, rfl⟩⟩

theorem remove_ends (taskId : SheetsTaskId) :
    (Edit.remove userId taskId).Ends rejects turn s := by
  refine Edit.ends_of_lookup (SheetsTasksService.findOwnedTask s.db userId taskId)
    (.removeSchedule taskId) rfl (fun _ => rfl) ?_ (fun h => ⟨h.1, h.2.1⟩) ?_
  · simp only [Edit.op, Op.start, Request.move]
    cases SheetsTasksService.findOwnedTask s.db userId taskId <;> rfl
  intro task hlookup hfound hstart
  obtain ⟨hfind, -⟩ := find?_of_findOwnedTask hfound
  have hserve : SheetsTasksService.remove s.db userId taskId =
      .ok (s.db.deleteSheetsTask taskId, [.removeSchedule taskId]) := by
    simp only [SheetsTasksService.remove, hfound]
  have htorn : (Edit.remove userId taskId).Torn rejects turn s ↔
      (rejects.write = none ↔ rejects.scheduler ≠ none) ∧ registered s taskId ≠ none := by
    simp [Edit.Torn, hlookup, hfound]
  have hself : s.schedulers.delete (schedulerId taskId) = s.schedulers ↔
      registered s taskId = none := Table.delete_eq_self
  cases hscheduler : rejects.scheduler with
  | none =>
    have hremoved : Request.run rejects turn 2 (s, .removeSchedule taskId) =
        Request.run rejects turn 1 ({ s with schedulers := s.schedulers.delete (schedulerId taskId) },
          .deleteRow taskId) := run_move hscheduler rfl
    cases hwrite : rejects.write with
    | none =>
      have hdeleted : Request.run rejects turn 1
          ({ s with schedulers := s.schedulers.delete (schedulerId taskId) }, .deleteRow taskId) =
            (⟨s.db.deleteSheetsTask taskId, s.schedulers.delete (schedulerId taskId)⟩,
              .answered (.ok .ok)) := by
        refine run_move hwrite ?_
        simp [Request.move, hfind]
      refine ⟨_, .ok _, (hstart.trans hremoved).trans hdeleted, iff_of_true ?_ ?_⟩
      · exact ⟨_, _, hserve, rfl⟩
      · simp [htorn, hwrite, hscheduler]
    | some message =>
      -- the scheduler is gone, and its row is not
      refine ⟨_, .error _, (hstart.trans hremoved).trans (run_rejected hwrite rfl), ?_⟩
      simp only [htorn, hwrite, hscheduler, reduceCtorEq, ne_eq, not_true_eq_false, true_and, not_not,
        ← hself]
      exact ⟨And.right, fun hsame => ⟨rfl, hsame⟩⟩
  | some message =>
    have hkept : Request.run rejects turn 2 (s, .removeSchedule taskId) =
        Request.run rejects turn 1 (s, .deleteRow taskId) := run_rejected hscheduler rfl
    cases hwrite : rejects.write with
    | none =>
      -- the row is gone, and its scheduler is not
      have hdeleted : Request.run rejects turn 1 (s, .deleteRow taskId) =
          ({ s with db := s.db.deleteSheetsTask taskId }, .answered (.ok .ok)) := by
        refine run_move hwrite ?_
        simp [Request.move, hfind]
      refine ⟨_, .ok _, (hstart.trans hkept).trans hdeleted, ?_⟩
      simp only [htorn, hwrite, hscheduler, reduceCtorEq, ne_eq, not_false_eq_true, true_and, not_not,
        ← hself]
      exact Edit.kept_schedulers_iff (.remove userId taskId) hserve
    | some message' =>
      exact Edit.ends_of_error ((hstart.trans hkept).trans (run_error hwrite rfl))
        (by simp [htorn, hwrite, hscheduler])

/-- Whichever of its calls reject, a request on a sheets task comes to an end, and it is all or
nothing except where it is torn. -/
theorem all_or_nothing_iff (rejects : Rejections) (turn : Turn) (s : Store) (edit : Edit) :
    ∃ s' answer, edit.perform rejects turn s = (s', .answered answer) ∧
      (edit.AllOrNothing turn s s' answer ↔ ¬ edit.Torn rejects turn s) := by
  cases edit with
  | create userId projectId dto => exact create_ends projectId dto
  | update userId taskId dto => exact update_ends taskId dto
  | remove userId taskId => exact remove_ends taskId

/-- A schedule the schema lets through and the scheduler rejects: the request fails and its row
stays. -/
theorem rejected_schedule_keeps_row : ¬ ∀ (rejects : Rejections) (turn : Turn) (s s' : Store)
    (edit : Edit) (answer : Except String Answer),
    edit.perform rejects turn s = (s', .answered answer) → edit.AllOrNothing turn s s' answer := by
  intro hall
  have hsame := hall { scheduler := some "Invalid characters, expected 5 or 6 fields" }
    { cuid := "s" } exampleState.store _
    (.create "u" "p" { scheduledInput with scheduleCron := some ⟨"every monday", by decide⟩ })
    (.error "Invalid characters, expected 5 or 6 fields") rfl
  exact List.cons_ne_nil _ _ (congrArg Table.rows hsame.1)

end Edits

end LinkBulker.SheetsSchedules
