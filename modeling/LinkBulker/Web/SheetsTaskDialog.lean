import LinkBulker.Api.SheetsSchedulesLaws
import LinkBulker.Shared.SheetsUrl

/-! `apps/web/src/components/SheetsTaskDialog.tsx` on a task that exists: from the form over the
body of the request to the row and the scheduler. -/

namespace LinkBulker.Web

open Foundations Db Shared SheetsTasksService SheetsSchedules

structure FormState where
  name : String
  sheetUrl : String
  donorColumn : String
  acceptorColumn : String
  resultStartCol : String
  headerRow : ℚ
  dataStartRow : ℚ
  scheduleCron : String
  deriving DecidableEq

def prefill (editing : SheetsTask) : FormState where
  name := editing.name
  sheetUrl := "https://docs.google.com/spreadsheets/d/" ++ editing.spreadsheetId ++ "/edit#gid=" ++
    toString editing.sheetGid
  donorColumn := editing.donorColumn
  acceptorColumn := editing.acceptorColumn
  resultStartCol := editing.resultStartCol
  headerRow := editing.headerRow
  dataStartRow := editing.dataStartRow
  scheduleCron := editing.scheduleCron.getD ""

def validate (form : FormState) (parsedOk : Bool) : List String :=
  (if trim form.name = "" then ["Name is required"] else []) ++
  (if !parsedOk then ["Paste a valid Google Sheets URL"] else []) ++
  (if !isColumnLetter form.donorColumn then ["Donor column must be letters (A-Z)"] else []) ++
  (if !isColumnLetter form.acceptorColumn then ["Acceptor column must be letters (A-Z)"] else []) ++
  (if !isColumnLetter form.resultStartCol then ["Result column must be letters (A-Z)"] else []) ++
  if form.dataStartRow ≤ form.headerRow then ["Data start row must be after header row"] else []

structure SheetsTaskInput where
  name : String
  spreadsheetId : String
  sheetGid : ℕ
  donorColumn : String
  acceptorColumn : String
  resultStartCol : String
  headerRow : ℚ
  dataStartRow : ℚ
  scheduleCron : Option String

def formInput (form : FormState) (parsed : ParsedSheetUrl) : SheetsTaskInput where
  name := trim form.name
  spreadsheetId := parsed.spreadsheetId
  sheetGid := parsed.sheetGid
  donorColumn := form.donorColumn
  acceptorColumn := form.acceptorColumn
  resultStartCol := form.resultStartCol
  headerRow := form.headerRow
  dataStartRow := form.dataStartRow
  scheduleCron := if form.scheduleCron = "" then none else some form.scheduleCron

/-- `JSON.stringify` leaves out a field that is `undefined`. -/
def stringify (dto : SheetsTaskInput) : SheetsTaskBody where
  name := some dto.name
  spreadsheetId := some dto.spreadsheetId
  sheetGid := some dto.sheetGid
  donorColumn := some dto.donorColumn
  acceptorColumn := some dto.acceptorColumn
  resultStartCol := some dto.resultStartCol
  headerRow := some dto.headerRow
  dataStartRow := some dto.dataStartRow
  scheduleCron := dto.scheduleCron

def patchSheetsTask (s : Store) (userId : UserId) (taskId : SheetsTaskId) (body : SheetsTaskBody)
    (now : ℤ) : Except String Store :=
  match UpdateSheetsTaskInput.parse body with
  | none => .error "Validation failed"
  | some dto =>
    match SheetsTasksService.update s.db userId taskId dto now with
    | .error message => .error message
    | .ok (db, calls) => .ok ⟨db, calls.foldl applyCall s.schedulers⟩

def submit (s : Store) (userId : UserId) (editing : SheetsTaskId) (form : FormState) (now : ℤ) :
    Except String Store :=
  match validate form (parseSheetUrl form.sheetUrl).isSome, parseSheetUrl form.sheetUrl with
  | error :: _, _ => .error error
  | [], none => .error "Invalid Google Sheets URL"
  | [], some parsed => patchSheetsTask s userId editing (stringify (formInput form parsed)) now

def Scheduled (s : Store) (task : SheetsTask) (cron : String) : Prop :=
  if cron = "" then (∀ stored ∈ task.scheduleCron, stored = "") ∧ registered s task.id = none
  else task.scheduleCron = some cron ∧ registered s task.id = some (taskScheduler task.id cron)

structure Saved (s : Store) (task : SheetsTask) (form : FormState) : Prop where
  name : task.name = form.name
  ids : parseSheetUrl form.sheetUrl = some ⟨task.spreadsheetId, task.sheetGid⟩
  donorColumn : task.donorColumn = form.donorColumn
  acceptorColumn : task.acceptorColumn = form.acceptorColumn
  resultStartCol : task.resultStartCol = form.resultStartCol
  headerRow : (task.headerRow : ℚ) = form.headerRow
  dataStartRow : (task.dataStartRow : ℚ) = form.dataStartRow
  schedule : Scheduled s task form.scheduleCron

theorem submit_eq_ok {s s' : Store} {userId : UserId} {editing : SheetsTaskId} {form : FormState}
    {now : ℤ} (h : submit s userId editing form now = .ok s') :
    ∃ parsed dto db calls, parseSheetUrl form.sheetUrl = some parsed ∧
      dto.Holds (stringify (formInput form parsed)) ∧
      SheetsTasksService.update s.db userId editing dto now = .ok (db, calls) ∧
      s' = ⟨db, calls.foldl applyCall s.schedulers⟩ := by
  unfold submit at h
  split at h
  · cases h
  · cases h
  · rename_i parsed _ hparsed
    unfold patchSheetsTask at h
    split at h
    · cases h
    · rename_i dto hdto
      split at h
      · cases h
      · rename_i db calls hupdate
        cases h
        exact ⟨parsed, dto, db, calls, hparsed, UpdateSheetsTaskInput.holds_of_parse hdto, hupdate, rfl⟩

theorem getD_of_map {α β : Type} {x : Option α} {f : α → β} {b d : β} (h : x.map f = some b) :
    (x.map f).getD d = b := by
  rw [h, Option.getD_some]

theorem scheduled_update {s : Store} {task : SheetsTask} {form : FormState} {parsed : ParsedSheetUrl}
    {dto : UpdateSheetsTaskInput} (db : Database) (now : ℤ)
    (hdto : dto.Holds (stringify (formInput form parsed))) :
    Scheduled ⟨db, (updateCall task.id dto).toList.foldl applyCall s.schedulers⟩
        (updateData dto now task) form.scheduleCron ↔
      form.scheduleCron ≠ "" ∨
        (∀ stored ∈ task.scheduleCron, stored = "") ∧ registered s task.id = none := by
  have hcron := hdto.scheduleCron
  by_cases hoff : form.scheduleCron = ""
  · have hnone : dto.scheduleCron = none := by
      simpa [stringify, formInput, hoff] using hcron
    have hcall : updateCall task.id dto = none := by rw [updateCall, hnone]
    have hrow : (updateData dto now task).scheduleCron = task.scheduleCron := by
      simp [updateData, hnone]
    rw [Scheduled, if_pos hoff, hcall, hrow]
    simp only [hoff, ne_eq, not_true, false_or]
    rfl
  · have hsome : ∃ cron, dto.scheduleCron = some cron ∧ cron.val = form.scheduleCron := by
      rw [← Option.map_eq_some_iff, hcron]
      simp [stringify, formInput, hoff]
    obtain ⟨cron, hcron, hval⟩ := hsome
    have hne : cron.val ≠ "" := by rwa [hval]
    have hcall : updateCall task.id dto = some (.upsertSchedule task.id form.scheduleCron) := by
      rw [updateCall, hcron]
      dsimp only
      rw [if_neg hne, hval]
    have hrow : (updateData dto now task).scheduleCron = some form.scheduleCron := by
      simp [updateData, hcron, hval]
    rw [Scheduled, if_neg hoff, hcall, hrow]
    refine iff_of_true ⟨rfl, ?_⟩ (.inl hoff)
    exact registered_applyCall_self (s := ⟨db, s.schedulers⟩)
      (.upsertSchedule task.id form.scheduleCron)

theorem cast_getD_of_map {α : Type} {x : Option α} {f : α → ℕ} {q : ℚ} {d : ℕ}
    (h : x.map (fun a => (f a : ℚ)) = some q) : (((x.map f).getD d : ℕ) : ℚ) = q := by
  obtain ⟨a, rfl, rfl⟩ := Option.map_eq_some_iff.mp h
  rfl

theorem sheet_updateData (task : SheetsTask) (now : ℤ) {form : FormState} {parsed : ParsedSheetUrl}
    {dto : UpdateSheetsTaskInput} (hdto : dto.Holds (stringify (formInput form parsed))) :
    (updateData dto now task).spreadsheetId = parsed.spreadsheetId ∧
      (updateData dto now task).sheetGid = parsed.sheetGid := by
  refine ⟨getD_of_map hdto.spreadsheetId, ?_⟩
  obtain ⟨gid, hgid, hcast⟩ := Option.map_eq_some_iff.mp hdto.sheetGid
  rw [updateData, hgid, Option.getD_some]
  exact Rat.natCast_inj.mp hcast

/-- After the dialog has saved without error, the row and the scheduler are what the form shows,
exactly when the form has a schedule or the task never had one. -/
theorem dialog_saves_form {s s' : Store} {userId : UserId} {task : SheetsTask} {form : FormState}
    {now : ℤ} (htask : s.db.sheetsTasks.find? task.id = some task)
    (h : submit s userId task.id form now = .ok s') :
    (∃ task', s'.db.sheetsTasks.find? task.id = some task' ∧ Saved s' task' form) ↔
      trim form.name = form.name ∧
        (form.scheduleCron ≠ "" ∨
          (∀ stored ∈ task.scheduleCron, stored = "") ∧ registered s task.id = none) := by
  obtain ⟨parsed, dto, db, calls, hparsed, hdto, hupdate, rfl⟩ := submit_eq_ok h
  obtain ⟨stored, hstored, hrow, rfl⟩ := update_eq_ok hupdate
  obtain rfl := Option.some.inj (htask.symm.trans hstored)
  have hname : (updateData dto now task).name = trim form.name := getD_of_map hdto.name
  rw [← scheduled_update db now hdto]
  constructor
  · rintro ⟨task', htask', hsaved⟩
    obtain rfl := Option.some.inj (hrow.symm.trans htask')
    exact ⟨hname.symm.trans hsaved.name, hsaved.schedule⟩
  · rintro ⟨htrim, hschedule⟩
    refine ⟨updateData dto now task, hrow, hname.trans htrim, ?_, getD_of_map hdto.donorColumn,
      getD_of_map hdto.acceptorColumn, getD_of_map hdto.resultStartCol, ?_, ?_, hschedule⟩
    · obtain ⟨hid, hgid⟩ := sheet_updateData task now hdto
      rw [hparsed, hid, hgid]
    · exact cast_getD_of_map hdto.headerRow
    · exact cast_getD_of_map hdto.dataStartRow

def scheduledTask : SheetsTask := createdTask "p" scheduledInput "s" 0

def scheduledStore : Store where
  db := exampleDatabase .empty ⟨[scheduledTask], by decide⟩
  schedulers := ⟨[taskScheduler "s" "0 9 * * *"], by decide⟩

def scheduledForm (scheduleCron : String) : FormState where
  name := "t"
  sheetUrl := "https://docs.google.com/spreadsheets/d/abcdefghij1234567890/edit#gid=0"
  donorColumn := "A"
  acceptorColumn := "B"
  resultStartCol := "C"
  headerRow := 1
  dataStartRow := 2
  scheduleCron

theorem exists_of_submit (s : Store) (userId : UserId) (editing : SheetsTaskId) (form : FormState)
    (now : ℤ) (P : Store → Bool) (h : (submit s userId editing form now).toOption.any P) :
    ∃ s', submit s userId editing form now = .ok s' ∧ P s' := by
  cases hsubmit : submit s userId editing form now with
  | error message =>
    rw [hsubmit] at h
    cases h
  | ok s' =>
    rw [hsubmit] at h
    exact ⟨s', rfl, h⟩

theorem dialog_saves_form_sample : ∃ s' task',
    submit scheduledStore "u" "s" (scheduledForm "0 0 * * *") 1000 = .ok s' ∧
      s'.db.sheetsTasks.find? "s" = some task' ∧ Saved s' task' (scheduledForm "0 0 * * *") := by
  obtain ⟨s', hs', -⟩ := exists_of_submit scheduledStore "u" "s" (scheduledForm "0 0 * * *")
    1000 (fun _ => true) (by decide +kernel)
  have htask : scheduledStore.db.sheetsTasks.find? scheduledTask.id = some scheduledTask := by
    decide +kernel
  obtain ⟨task', htask', hsaved⟩ :=
    (dialog_saves_form htask hs').mpr ⟨by decide +kernel, .inl (by decide)⟩
  exact ⟨s', task', hs', htask', hsaved⟩

/-- Off is chosen for a task with a schedule: row and scheduler stay as they were. -/
theorem off_keeps_schedule : ¬ ∀ (s s' : Store) (userId : UserId) (task : SheetsTask)
    (form : FormState) (now : ℤ), s.db.sheetsTasks.find? task.id = some task →
      submit s userId task.id form now = .ok s' →
        ∃ task', s'.db.sheetsTasks.find? task.id = some task' ∧ Saved s' task' form := by
  intro hall
  obtain ⟨s', hs', hscheduler⟩ := exists_of_submit scheduledStore "u" "s" (scheduledForm "")
    1000 (fun s' => (registered s' "s").isSome) (by decide +kernel)
  obtain ⟨task', htask', hsaved⟩ := hall scheduledStore s' "u" scheduledTask (scheduledForm "")
    1000 (by decide +kernel) hs'
  have hschedule : (∀ stored ∈ task'.scheduleCron, stored = "") ∧ registered s' task'.id = none :=
    hsaved.schedule
  have hid : task'.id = "s" := (Table.find?_eq_some.mp htask').2
  rw [hid] at hschedule
  rw [hschedule.2] at hscheduler
  cases hscheduler

end LinkBulker.Web
