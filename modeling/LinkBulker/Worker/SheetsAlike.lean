import LinkBulker.Worker.AlikeSteps
import LinkBulker.Worker.SheetsTask

/-! Runs of `SheetsTaskService.run` side by side, over spreadsheets with other texts in the same
places. -/

namespace LinkBulker.Sheets

open Foundations Db Shared LinkRepository SingleLink Worker

def shape (v : NormalizedRow × SheetRow) : Bool × Bool :=
  (v.1.errors.length = 0, 0 < v.2.rowNumber)

inductive Pc.Alike : Pc → Pc → Prop
  | same (pc : Pc) : Alike pc pc
  | publishCompleted {updated updated' : SheetsTask} (h : updated.Alike updated')
    (lastRunStatus : String) :
    Alike (.publishCompleted updated lastRunStatus) (.publishCompleted updated' lastRunStatus)
  | publishFailed {updated updated' : SheetsTask} (h : updated.Alike updated') (reason : String) :
    Alike (.publishFailed updated reason) (.publishFailed updated' reason)

structure Run.Alike (r r' : Run) : Prop where
  task : r.task.Alike r'.task
  pc : r.pc.Alike r'.pc
  lock : r.lock = r'.lock
  heartbeat : r.heartbeat = r'.heartbeat
  validRows : r.validRows.map shape = r'.validRows.map shape
  persistedLinks : List.Forall₂ Link.Alike r.persistedLinks r'.persistedLinks
  validProcessableLinks : List.Forall₂ Link.Alike r.validProcessableLinks r'.validProcessableLinks
  placed : ∀ id, ((r.sheetRowByLinkId id).map fun row => decide (0 < row.rowNumber)) =
    (r'.sheetRowByLinkId id).map fun row => decide (0 < row.rowNumber)
  batch : r.batch.Alike r'.batch

variable {newURL : UrlParser} {clock : LocalClock} {w w' : World} {r r' : Run} {t t' : SheetsTurn}

theorem Run.Alike.at_ (hr : r.Alike r') (pc : Pc) : (r.at_ pc).Alike (r'.at_ pc) :=
  { hr with pc := .same pc }

theorem Run.Alike.fail (hr : r.Alike r') (reason : String) :
    (r.fail reason).Alike (r'.fail reason) :=
  { hr with pc := .same _ }

theorem Run.Alike.finally_ (hr : r.Alike r') : r.finally_.Alike r'.finally_ :=
  { hr with pc := .same _, heartbeat := rfl }

theorem Run.Alike.lockKey (hr : r.Alike r') : r.lockKey = r'.lockKey := by
  rw [Run.lockKey, hr.task.projectId]
  rfl

theorem Run.Alike.withIds (hr : r.Alike r') (ids : List LinkId) :
    Run.Alike { r with batch := ⟨ids, []⟩ } { r' with batch := ⟨ids, []⟩ } :=
  { hr with batch := ⟨rfl, .nil⟩ }

theorem Run.Alike.loop (hr : r.Alike r') (i : ℕ) : (r.loop i).Alike (r'.loop i) := by
  unfold Run.loop
  rw [← hr.validProcessableLinks.length_eq]
  split
  · exact { hr with pc := .same _, batch := hr.batch.start _ _ }
  · exact hr.at_ _

theorem taskUpdated_alike {task task' : SheetsTask} (h : task.Alike task')
    (status : SheetsTaskStatus) (lastRunAt : Option ℤ) (lastRunStatus : Option String) :
    taskUpdated task status lastRunAt lastRunStatus =
      taskUpdated task' status lastRunAt lastRunStatus := by
  unfold taskUpdated
  rw [h.id, h.projectId, h.lastRunAt]

theorem Run.Alike.pair (hr : r.Alike r') (i : ℕ) (now : ℤ) :
    (r.pair i now).Alike (r'.pair i now) := by
  have hids : r.validProcessableLinks.map Link.id = r'.validProcessableLinks.map Link.id :=
    map_of_forall₂ hr.validProcessableLinks fun _ _ hl => hl.id
  have hshape : r.validRows[i]?.map shape = r'.validRows[i]?.map shape := by
    rw [← List.getElem?_map, hr.validRows, List.getElem?_map]
  unfold Run.pair
  obtain ⟨hlink, hlink'⟩ | ⟨link, link', hlink, hlink', hl⟩ :=
    rel_cases (rel_getElem? hr.persistedLinks i)
  · rw [hlink, hlink', hids]
    exact (hr.withIds _).loop 0
  · rw [hlink, hlink']
    dsimp only
    cases hv : r.validRows[i]? with
    | none =>
      rw [hv, Option.map_none, eq_comm, Option.map_eq_none_iff] at hshape
      rw [hshape]
      exact hr.fail _
    | some v =>
      rw [hv, Option.map_some, eq_comm, Option.map_eq_some_iff] at hshape
      obtain ⟨v', hv', hsame⟩ := hshape
      obtain ⟨herrors, hplace⟩ := Prod.mk.inj hsame
      have hplaced (id : LinkId) :
          ((Function.update r.sheetRowByLinkId link.id v.2 id).map fun row =>
              decide (0 < row.rowNumber)) =
            (Function.update r'.sheetRowByLinkId link'.id v'.2 id).map fun row =>
              decide (0 < row.rowNumber) := by
        rw [hl.id, Function.update_apply, Function.update_apply]
        split
        · exact congrArg some hplace.symm
        · exact hr.placed id
      rw [hv']
      simp only [decide_eq_decide.mp herrors]
      split
      · exact { hr with
          pc := .same _, placed := hplaced,
          validProcessableLinks := List.rel_append hr.validProcessableLinks (.cons hl .nil) }
      · exact { hr with pc := .same _, placed := hplaced }

theorem Run.Alike.rowNumbers (hr : r.Alike r') {links links' : List Link}
    (hlinks : List.Forall₂ Link.Alike links links') :
    ((links.filterMap r.rowNumber).filter fun n => 0 < n) = [] ↔
      ((links'.filterMap r'.rowNumber).filter fun n => 0 < n) = [] := by
  have hcount : (links.filterMap r.rowNumber).countP (fun n => 0 < n) =
      (links'.filterMap r'.rowNumber).countP fun n => 0 < n := by
    rw [List.countP_filterMap, List.countP_filterMap]
    refine countP_of_forall₂ hlinks fun l l' hl => ?_
    have hplaced := hr.placed l.id
    rw [Run.rowNumber, Run.rowNumber, Option.map_map, Option.map_map, ← hl.id]
    exact congrArg (Option.getD · false) hplaced
  rw [← List.length_eq_zero_iff, ← List.length_eq_zero_iff, ← List.countP_eq_length_filter,
    ← List.countP_eq_length_filter, hcount]

theorem Run.Alike.writeResultsBack (hr : r.Alike r') {links links' : List Link}
    (hlinks : List.Forall₂ Link.Alike links links') :
    (r.writeResultsBack links).Alike (r'.writeResultsBack links') := by
  have hempty := hr.rowNumbers hlinks
  unfold Run.writeResultsBack
  rw [← hlinks.length_eq, ← hr.task.resultStartCol]
  split
  · exact hr.at_ _
  · dsimp only
    by_cases hnil : ((links.filterMap r.rowNumber).filter fun n => 0 < n) = []
    · rw [hnil, hempty.mp hnil]
      exact hr.at_ _
    · obtain ⟨min, hmin⟩ := Option.ne_none_iff_exists'.mp (mt List.min?_eq_none_iff.mp hnil)
      obtain ⟨max, hmax⟩ := Option.ne_none_iff_exists'.mp (mt List.max?_eq_none_iff.mp hnil)
      have hnil' := mt hempty.mpr hnil
      obtain ⟨min', hmin'⟩ := Option.ne_none_iff_exists'.mp (mt List.min?_eq_none_iff.mp hnil')
      obtain ⟨max', hmax'⟩ := Option.ne_none_iff_exists'.mp (mt List.max?_eq_none_iff.mp hnil')
      rw [hmin, hmax, hmin', hmax']
      dsimp only
      cases colLetterToIndex r.task.resultStartCol with
      | error message => exact hr.fail message
      | ok startColumnIndex => exact { hr with pc := .same _ }

def Run.titled (r : Run) (t : SheetsTurn) : Bool :=
  (resolveSheetTitle t.sheets r.task.sheetGid).any fun title => title ≠ ""

def Run.notFound (r : Run) : String :=
  "Sheet with gid=" ++ toString r.task.sheetGid ++ " not found in spreadsheet " ++
    r.task.spreadsheetId

def Run.malformed (newURL : UrlParser) (r : Run) (t : SheetsTurn) : List Bool :=
  (filledRows newURL (readDonorRows r.task.dataStartRow t.response)).map fun v =>
    v.1.errors.length ≠ 0

@[mk_iff]
structure Run.SameOutcome (newURL : UrlParser) (r r' : Run) (t t' : SheetsTurn) : Prop where
  turn : t.toTurn.Alike t'.toTurn
  message : t.message = t'.message
  title : r.pc = .resolveTitle → t.rejects = false → r.titled t = r'.titled t'
  rows : r.pc = .readRows → r.malformed newURL t = r'.malformed newURL t'
  ids : r.pc = .replaceLinks → ∀ i < r.validRows.length, t.cuid i = t'.cuid i

def Run.SameQuote (r r' : Run) (t : SheetsTurn) : Prop :=
  r.pc = .resolveTitle → t.rejects = false → r.titled t = false →
    r.task.sheetGid = r'.task.sheetGid ∧ r.task.spreadsheetId = r'.task.spreadsheetId

instance (r r' : Run) (t t' : SheetsTurn) : Decidable (r.SameOutcome newURL r' t t') :=
  decidable_of_iff' _ (Run.sameOutcome_iff newURL r r' t t')

instance (r r' : Run) (t : SheetsTurn) : Decidable (r.SameQuote r' t) :=
  inferInstanceAs (Decidable (_ → _ → _ → _))

theorem shape_filledRows (newURL : UrlParser) (r : Run) (t : SheetsTurn) :
    (filledRows newURL (readDonorRows r.task.dataStartRow t.response)).map shape =
      (r.malformed newURL t).map fun b => (!b, true) := by
  rw [Run.malformed, List.map_map]
  refine List.map_congr_left fun v hv => ?_
  obtain ⟨row, hrow, hv⟩ := List.mem_filterMap.mp hv
  obtain ⟨i, -, -, rfl⟩ := mem_readDonorRows.mp hrow
  obtain ⟨-, hv⟩ := Option.ite_none_left_eq_some.mp hv
  obtain rfl := Option.some.inj hv
  simp [shape, r.task.dataStartRow_pos]

theorem Run.main_resolveTitle (hp : r.pc = .resolveTitle) :
    r.main newURL clock w t =
      if t.rejects then some (w, r.fail t.message)
      else if r.titled t then some (w, r.at_ .readRows)
      else some (w, r.fail r.notFound) := by
  cases htitle : resolveSheetTitle t.sheets r.task.sheetGid with
  | none =>
    simp only [main, hp, titled, htitle]
    rfl
  | some title =>
    simp only [main, hp, titled, htitle, Option.any_some]
    by_cases hempty : title = ""
    · subst hempty
      rfl
    · simp only [hempty, ne_eq, not_false_eq_true, decide_true, if_true]

theorem Run.notFound_congr (hgid : r.task.sheetGid = r'.task.sheetGid)
    (hid : r.task.spreadsheetId = r'.task.spreadsheetId) : r.notFound = r'.notFound := by
  delta Run.notFound
  rw [hgid, hid]

theorem Run.main_alike (hw : w.Alike w') (hr : r.Alike r')
    (hsame : r.SameOutcome newURL r' t t') (hquote : r.SameQuote r' t) :
    Option.Rel (Pool.Both World.Alike Run.Alike) (r.main newURL clock w t)
      (r'.main newURL clock w' t') := by
  obtain ⟨ht, hmessage, htitle, hrows, hids⟩ := hsame
  have hid := hr.task.id
  have hproject := hr.task.projectId
  have step {w₁ w₁' : World} {r₁ r₁' : Run} (hw : w₁.Alike w₁') (hr : r₁.Alike r₁') :
      Option.Rel (Pool.Both World.Alike Run.Alike) (some (w₁, r₁)) (some (w₁', r₁')) :=
    .some ⟨hw, hr⟩
  have failed : Option.Rel (Pool.Both World.Alike Run.Alike) (some (w, r.fail t.message))
      (some (w', r'.fail t'.message)) := step hw (hmessage ▸ hr.fail _)
  have hpc := hr.pc
  generalize hp : r.pc = pc at hpc
  generalize hp' : r'.pc = pc' at hpc
  cases hpc with
  | publishCompleted h status =>
    simp only [main, hp, hp', taskUpdated_alike h, ← ht.now]
    exact step (hw.publishNow ht _) hr.finally_
  | publishFailed h reason =>
    simp only [main, hp, hp', taskUpdated_alike h, ← ht.now]
    exact step (hw.publishNow ht _) hr.finally_
  | same pc =>
    cases pc with
    | acquire =>
      simp only [main, hp, hp', ← ht.rejects, ← hr.lockKey, ← hw.locks, ← ht.now, ← ht.token]
      refine rel_ite (fun _ => step hw (hr.at_ _)) fun _ => ?_
      cases LockManager.acquire (w.locks r.lockKey) t.now ⟨t.token, PROJECT_LOCK_TTL_MS⟩ with
      | mk lock key =>
        cases lock with
        | none => exact step hw (hr.at_ _)
        | some lock =>
          exact .some ⟨{ hw with locks := rfl }, { hr with pc := .same _, lock := rfl, heartbeat := rfl }⟩
    | setRunning =>
      simp only [main, hp, hp', ← ht.rejects, ← ht.now, ← hid]
      refine rel_ite (fun _ => failed) fun _ => ?_
      obtain ⟨h, h'⟩ | ⟨db, db', h, h', hd⟩ :=
        rel_cases (setSheetsTaskStatus_alike hw.db r.task.id .RUNNING none none t.now) <;> rw [h, h']
      · exact failed
      · exact step (hw.withDb hd) (hr.at_ _)
    | setFlag =>
      simp only [main, hp, hp', ← ht.rejects, ← hproject]
      refine rel_ite (fun _ => failed) fun _ => ?_
      obtain ⟨h, h'⟩ | ⟨db, db', h, h', hd⟩ :=
        rel_cases (setProjectSheetsChecking_alike hw.db r.task.projectId true) <;> rw [h, h']
      · exact failed
      · exact step (hw.withDb hd) (hr.at_ _)
    | publishRunning =>
      simp only [main, hp, hp', taskUpdated_alike hr.task]
      exact step (hw.publishNow ht _) (hr.at_ _)
    | resolveTitle =>
      rw [main_resolveTitle hp, main_resolveTitle hp', ← ht.rejects]
      refine rel_ite (fun _ => failed) fun hno => ?_
      have hno := Bool.eq_false_iff.mpr hno
      rw [← htitle hp hno]
      refine rel_ite (fun _ => step hw (hr.at_ _)) fun htitled => ?_
      obtain ⟨hgid, hspreadsheet⟩ := hquote hp hno (Bool.eq_false_iff.mpr htitled)
      rw [notFound_congr hgid hspreadsheet]
      exact step hw (hr.fail _)
    | readRows =>
      simp only [main, hp, hp', ← ht.rejects]
      refine rel_ite (fun _ => failed) fun _ => ?_
      refine step hw { hr with pc := .same _, validRows := ?_ }
      rw [shape_filledRows, shape_filledRows, hrows hp]
    | replaceLinks =>
      have hlen : (r.validRows.map fun v => v.1.data).length =
          (r'.validRows.map fun v => v.1.data).length := by
        simpa using congrArg List.length hr.validRows
      simp only [main, hp, hp', ← ht.rejects, ← hid, ← hproject]
      refine rel_ite (fun _ => failed) fun _ => ?_
      obtain ⟨h, h'⟩ | ⟨db, db', h, h', hd⟩ :=
        rel_cases (replaceSheetsLinks_alike hw.db r.task.id r.task.projectId hlen
          fun i hi => hids hp i (by simpa using hi)) <;> rw [h, h']
      · exact failed
      · exact step (hw.withDb hd) (hr.at_ _)
    | fetchLinks =>
      simp only [main, hp, hp', ← ht.rejects, ← hid]
      refine rel_ite (fun _ => failed) fun _ => ?_
      exact step hw { hr with pc := .same _, persistedLinks := findLinks_alike hw.db _ }
    | pair i =>
      simp only [main, hp, hp', ← ht.now]
      exact step hw (hr.pair i t.now)
    | markInvalid i now =>
      have hshape : r.validRows[i]?.map shape = r'.validRows[i]?.map shape := by
        rw [← List.getElem?_map, hr.validRows, List.getElem?_map]
      simp only [main, hp, hp', ← ht.rejects]
      refine rel_ite (fun _ => failed) fun _ => ?_
      obtain ⟨hl, hl'⟩ | ⟨link, link', hl, hl', hlink⟩ :=
        rel_cases (rel_getElem? hr.persistedLinks i)
      · simp only [hl, hl']
        exact .none
      cases hv : r.validRows[i]? with
      | none =>
        rw [hv, Option.map_none, eq_comm, Option.map_eq_none_iff] at hshape
        simp only [hl, hl', hshape]
        exact .none
      | some v =>
        rw [hv, Option.map_some, eq_comm, Option.map_eq_some_iff] at hshape
        obtain ⟨v', hv', -⟩ := hshape
        simp only [hl, hl', hv']
        -- the texts of the errors differ, and no event shows them
        have hsave : Option.Rel (fun s s' => True ∧ s.2.Alike s'.2)
            (saveResult w.db link.id (invalidResult v.1.errors) now)
            (saveResult w'.db link'.id (invalidResult v'.1.errors) now) :=
          saveResult_alike (S := fun _ _ => True) hw.db hlink.id rfl rfl fun _ _ => trivial
        obtain ⟨h, h'⟩ | ⟨s, s', h, h', -, hd⟩ := rel_cases hsave <;> simp only [h, h']
        · exact failed
        · exact step (hw.withDb hd) { hr with pc := .same _ }
    | awaitAll i =>
      simp only [main, hp, hp', ← hr.batch.all i]
      cases r.batch.all i with
      | none => exact .none
      | some ok =>
        cases ok with
        | false => exact failed
        | true => exact step hw (hr.at_ _)
    | counts i =>
      simp only [main, hp, hp', ← ht.rejects, ← hid, ← getSheetsProgressCounts_alike hw.db]
      exact rel_ite (fun _ => failed) fun _ => step hw (hr.at_ _)
    | publishProgress i counts =>
      simp only [main, hp, hp', ← hid, ← hproject, ← hr.persistedLinks.length_eq]
      exact step (hw.publishNow ht _) (hr.loop _)
    | fetchFinal =>
      simp only [main, hp, hp', ← ht.rejects, ← hid]
      exact rel_ite (fun _ => failed)
        fun _ => step hw (hr.writeResultsBack (findLinks_alike hw.db r.task.id))
    | writeData =>
      simp only [main, hp, hp', ← ht.rejects, ← hr.task.headerRow]
      exact rel_ite (fun _ => failed) fun _ => step hw { hr with pc := .same _ }
    | writeHeader =>
      simp only [main, hp, hp', ← ht.rejects]
      exact rel_ite (fun _ => failed) fun _ => step hw { hr with pc := .same _ }
    | setWidths =>
      simp only [main, hp, hp', ← ht.rejects]
      exact rel_ite (fun _ => step hw (hr.at_ _)) fun _ => step hw { hr with pc := .same _ }
    | finalCounts =>
      simp only [main, hp, hp', ← ht.rejects, ← hid, ← getSheetsProgressCounts_alike hw.db,
        ← hr.persistedLinks.length_eq]
      exact rel_ite (fun _ => failed) fun _ => step hw (hr.at_ _)
    | setCompleted status =>
      simp only [main, hp, hp', ← ht.rejects, ← ht.now, ← hid]
      refine rel_ite (fun _ => failed) fun _ => ?_
      obtain ⟨h, h'⟩ | ⟨db, db', h, h', hd⟩ := rel_cases (setSheetsTaskStatus_alike hw.db r.task.id
        .COMPLETED (some status) (some status) t.now) <;> rw [h, h']
      · exact failed
      · exact step (hw.withDb hd) (hr.at_ _)
    | refind status =>
      simp only [main, hp, hp', ← ht.rejects, ← hid]
      refine rel_ite (fun _ => failed) fun _ => ?_
      obtain ⟨h, h'⟩ | ⟨task, task', h, h', htask⟩ :=
        rel_cases (findSheetsTaskById_alike hw.db r.task.id) <;> rw [h, h']
      · exact step hw { hr with pc := .publishCompleted hr.task status }
      · exact step hw { hr with pc := .publishCompleted htask status }
    | publishCompleted updated status =>
      simp only [main, hp, hp', ← ht.now]
      exact step (hw.publishNow ht _) hr.finally_
    | setFailed reason =>
      simp only [main, hp, hp', ← ht.rejects, ← ht.now, ← hid]
      refine rel_ite (fun _ => step hw (hr.at_ _)) fun _ => ?_
      obtain ⟨h, h'⟩ | ⟨db, db', h, h', hd⟩ := rel_cases (setSheetsTaskStatus_alike hw.db r.task.id
        .FAILED (some reason) (some reason) t.now) <;> rw [h, h']
      · exact step hw (hr.at_ _)
      · exact step (hw.withDb hd) (hr.at_ _)
    | refindFailed reason =>
      simp only [main, hp, hp', ← ht.rejects, ← hid]
      refine rel_ite (fun _ => step hw hr.finally_) fun _ => ?_
      obtain ⟨h, h'⟩ | ⟨task, task', h, h', htask⟩ :=
        rel_cases (findSheetsTaskById_alike hw.db r.task.id) <;> rw [h, h']
      · exact step hw hr.finally_
      · exact step hw { hr with pc := .publishFailed htask reason }
    | publishFailed updated reason =>
      simp only [main, hp, hp', ← ht.now]
      exact step (hw.publishNow ht _) hr.finally_
    | clearFlag =>
      simp only [main, hp, hp', ← ht.rejects, ← hproject]
      refine rel_ite (fun _ => step hw (hr.at_ _)) fun _ => ?_
      obtain ⟨h, h'⟩ | ⟨db, db', h, h', hd⟩ :=
        rel_cases (setProjectSheetsChecking_alike hw.db r.task.projectId false) <;> rw [h, h']
      · exact step hw (hr.at_ _)
      · exact step (hw.withDb hd) (hr.at_ _)
    | release =>
      simp only [main, hp, hp', ← hr.lock, ← ht.rejects, ← hr.lockKey, ← hw.locks, ← ht.now]
      cases r.lock with
      | none => exact .none
      | some lock => exact rel_ite (fun _ => step hw (hr.at_ _)) fun _ => step (hw.withLocks _) (hr.at_ _)
    | ended | skipped =>
      simp only [main, hp, hp']
      exact .none

theorem Run.beat_alike (hw : w.Alike w') (hr : r.Alike r') {t t' : Turn} (ht : t.Alike t') :
    Option.Rel (Pool.Both World.Alike Run.Alike) (r.beat w t) (r'.beat w' t') := by
  simp only [beat, ← hr.lock, ← hr.heartbeat, ← ht.rejects, ← hr.lockKey, ← hw.locks, ← ht.now]
  cases r.heartbeat with
  | false => exact .none
  | true =>
    cases r.lock with
    | none => exact .none
    | some lock =>
      exact rel_ite (fun _ => .some ⟨hw, hr⟩) fun _ => .some ⟨hw.withLocks _, hr⟩

theorem Run.child_alike (hw : w.Alike w') (hr : r.Alike r') {k : ℕ} {t t' : Turn} (ht : t.Alike t')
    (hfacts : r.batch.SameFacts newURL r'.batch k t t') :
    Option.Rel (Pool.Both World.Alike Run.Alike) (r.move newURL clock w (.child k t))
      (r'.move newURL clock w' (.child k t')) := by
  refine rel_map (Batch.move_alike hw hr.batch ht hfacts) ?_
  rintro ⟨w₁, b⟩ ⟨w₁', b'⟩ ⟨hw, hb⟩
  exact ⟨hw, { hr with batch := hb }⟩

end LinkBulker.Sheets
