import LinkBulker.Shared.Columns
import LinkBulker.Worker.Batch
import LinkBulker.Worker.SheetsRows

/-! `SheetsTaskService.run` of `apps/worker/src/modules/sheets/sheets-task.service.ts` on its
awaits. -/

namespace LinkBulker.Sheets

open Foundations Db Shared LinkRepository SingleLink Worker

def INTERNAL_CONCURRENCY : ℕ := 15

def PROJECT_LOCK_TTL_MS : ℤ := 30 * 60 * 1000

structure SheetsTurn extends Turn where
  message : String := ""
  sheets : List SheetProperties := []
  response : BatchGetResponse := ⟨none⟩
  cuid : ℕ → LinkId := fun _ => ""

/-- The await at which a run stands.  `pair i` is the head of the loop that pairs the `i`-th link
with the `i`-th row, `markInvalid i now` the `saveResult` in it. -/
inductive Pc
  | acquire
  | setRunning
  | setFlag
  | publishRunning
  | resolveTitle
  | readRows
  | replaceLinks
  | fetchLinks
  | pair (i : ℕ)
  | markInvalid (i : ℕ) (now : ℤ)
  | awaitAll (i : ℕ)
  | counts (i : ℕ)
  | publishProgress (i : ℕ) (counts : ProgressCounts)
  | fetchFinal
  | writeData
  | writeHeader
  | setWidths
  | finalCounts
  | setCompleted (lastRunStatus : String)
  | refind (lastRunStatus : String)
  | publishCompleted (updated : SheetsTask) (lastRunStatus : String)
  | setFailed (reason : String)
  | refindFailed (reason : String)
  | publishFailed (updated : SheetsTask) (reason : String)
  | clearFlag
  | release
  | ended
  | skipped
  deriving DecidableEq

def Pc.marking : Pc → Option ℕ
  | .markInvalid i _ => some i
  | _ => none

/-- The locals of `run` and `writeResultsBack`.  `response`, `invalid` and `calls` record the
columns that were read, the links that were marked as malformed, and the writes to the sheet. -/
structure Run where
  task : SheetsTask
  pc : Pc := .acquire
  lock : Option LockManager.Lock := none
  heartbeat : Bool := false
  response : BatchGetResponse := ⟨none⟩
  rows : List SheetRow := []
  validRows : List (NormalizedRow × SheetRow) := []
  persistedLinks : List Link := []
  validProcessableLinks : List Link := []
  sheetRowByLinkId : LinkId → Option SheetRow := fun _ => none
  batch : Batch := ⟨[], []⟩
  minRow : ℕ := 0
  startColumnIndex : ℕ := 0
  lines : List (Option Link) := []
  invalid : List Link := []
  calls : List SheetsCall := []
  threw : Option String := none

def Run.at_ (r : Run) (pc : Pc) : Run := { r with pc }

def Run.lockKey (r : Run) : String := REDIS_KEYS.projectSheetsLock r.task.projectId

/-- `reason.slice(0, 500)`.  A pair of surrogates at the cut is left out, where the source keeps half
of it. -/
def sliceReason (reason : String) : String := String.ofList (sliceUnits 500 reason.toList)

def Run.fail (r : Run) (reason : String) : Run :=
  { r with pc := .setFailed (sliceReason reason), threw := some reason }

def Run.finally_ (r : Run) : Run := { r with pc := .clearFlag, heartbeat := false }

def taskUpdated (task : SheetsTask) (status : SheetsTaskStatus) (lastRunAt : Option ℤ)
    (lastRunStatus : Option String) : ProgressEvent :=
  .sheets_task_updated task.id task.projectId status (lastRunAt.or task.lastRunAt) lastRunStatus

/-- Rows with an empty cell are left out. -/
def filledRows (newURL : UrlParser) (rows : List SheetRow) : List (NormalizedRow × SheetRow) :=
  rows.filterMap fun row =>
    let norm := normalizeRow newURL row
    if norm.donorUrl = "" ∨ norm.acceptor = "" then none else some (norm, row)

def NormalizedRow.data (norm : NormalizedRow) : SheetsLinkData :=
  ⟨norm.donorUrl, norm.acceptor, norm.acceptorHost.getD ""⟩

def invalidResult (errors : List String) : Crawler.CrawlAndAnalyzeResult :=
  { Crawler.baseResult with error := some ("Invalid input: " ++ String.intercalate ", " errors) }

def Run.loop (r : Run) (i : ℕ) : Run :=
  if i < r.validProcessableLinks.length then
    { r with batch := r.batch.start INTERNAL_CONCURRENCY i, pc := .awaitAll i }
  else r.at_ .fetchFinal

def Run.pair (r : Run) (i : ℕ) (now : ℤ) : Run :=
  match r.persistedLinks[i]? with
  | none =>
    Run.loop { r with batch := ⟨r.validProcessableLinks.map Link.id, []⟩ } 0
  | some link =>
    match r.validRows[i]? with
    | none => r.fail "Cannot read properties of undefined (reading 'sheetRow')"
    | some vr =>
      let r := { r with sheetRowByLinkId := Function.update r.sheetRowByLinkId link.id vr.2 }
      if vr.1.errors.length = 0 then
        { r with validProcessableLinks := r.validProcessableLinks ++ [link], pc := .pair (i + 1) }
      else r.at_ (.markInvalid i now)

/-- `sheetRowByLinkId.get(link.id)?.rowNumber`. -/
def Run.rowNumber (r : Run) (link : Link) : Option ℕ :=
  (r.sheetRowByLinkId link.id).map SheetRow.rowNumber

def Run.writeResultsBack (r : Run) (links : List Link) : Run :=
  if links.length = 0 then r.at_ .finalCounts
  else
    let rowNumbers := (links.filterMap r.rowNumber).filter fun n => 0 < n
    match rowNumbers.min?, rowNumbers.max? with
    | some minRow, some maxRow =>
      match colLetterToIndex r.task.resultStartCol with
      | .error message => r.fail message
      | .ok startColumnIndex =>
        let lines := (List.range (maxRow + 1 - minRow)).map fun k =>
          links.find? fun l => r.rowNumber l = some (minRow + k)
        { r with minRow, startColumnIndex, lines, pc := .writeData }
    | _, _ => r.at_ .finalCounts

def Run.dataBlock (clock : LocalClock) (r : Run) : FormattedBlock where
  spreadsheetId := r.task.spreadsheetId
  sheetId := r.task.sheetGid
  startRowIndex := r.minRow - 1
  startColumnIndex := r.startColumnIndex
  cells := r.lines.map (dataLine clock)

def Run.headerBlock (r : Run) : FormattedBlock where
  spreadsheetId := r.task.spreadsheetId
  sheetId := r.task.sheetGid
  startRowIndex := r.task.headerRow - 1
  startColumnIndex := r.startColumnIndex
  cells := [headerRowCells]

def lastRunStatus (final : ProgressCounts) (total : ℕ) : String :=
  if final.errors = 0 then "OK · " ++ toString final.found ++ "/" ++ toString total ++ " found"
  else toString final.errors ++ " errors"

def Run.main (newURL : UrlParser) (clock : LocalClock) (w : World) (r : Run) (t : SheetsTurn) :
    Option (World × Run) :=
  match r.pc with
  | .acquire =>
    if t.rejects then some (w, r.at_ .skipped)
    else match LockManager.acquire (w.locks r.lockKey) t.now ⟨t.token, PROJECT_LOCK_TTL_MS⟩ with
      | (none, _) => some (w, r.at_ .skipped)
      | (some lock, key) =>
        some ({ w with
            locks := Function.update w.locks r.lockKey key, issued := t.token :: w.issued },
          { r with pc := .setRunning, lock := some lock, heartbeat := true })
  | .setRunning =>
    if t.rejects then some (w, r.fail t.message)
    else match setSheetsTaskStatus w.db r.task.id .RUNNING none t.now with
      | none => some (w, r.fail t.message)
      | some db => some ({ w with db }, r.at_ .setFlag)
  | .setFlag =>
    if t.rejects then some (w, r.fail t.message)
    else match setProjectSheetsChecking w.db r.task.projectId true with
      | none => some (w, r.fail t.message)
      | some db => some ({ w with db }, r.at_ .publishRunning)
  | .publishRunning =>
    some (w.publishNow t.toTurn (taskUpdated r.task .RUNNING none none), r.at_ .resolveTitle)
  | .resolveTitle =>
    if t.rejects then some (w, r.fail t.message)
    else match resolveSheetTitle t.sheets r.task.sheetGid with
      | none | some "" => some (w, r.fail ("Sheet with gid=" ++ toString r.task.sheetGid ++
          " not found in spreadsheet " ++ r.task.spreadsheetId))
      | some _ => some (w, r.at_ .readRows)
  | .readRows =>
    if t.rejects then some (w, r.fail t.message)
    else
      let rows := readDonorRows r.task.dataStartRow t.response
      some (w, { r with
        response := t.response, rows, validRows := filledRows newURL rows, pc := .replaceLinks })
  | .replaceLinks =>
    if t.rejects then some (w, r.fail t.message)
    else match replaceSheetsLinks w.db r.task.id r.task.projectId
        (r.validRows.map fun v => v.1.data) t.cuid with
      | none => some (w, r.fail t.message)
      | some db => some ({ w with db }, r.at_ .fetchLinks)
  | .fetchLinks =>
    if t.rejects then some (w, r.fail t.message)
    else some (w, { r with
      persistedLinks := findLinksBySheetsTaskOrdered w.db r.task.id, pc := .pair 0 })
  | .pair i => some (w, r.pair i t.now)
  | .markInvalid i now =>
    if t.rejects then some (w, r.fail t.message)
    else match r.persistedLinks[i]?, r.validRows[i]? with
      | some link, some vr =>
        match saveResult w.db link.id (invalidResult vr.1.errors) now with
        | none => some (w, r.fail t.message)
        | some (_, db) =>
          some ({ w with db }, { r with invalid := r.invalid ++ [link], pc := .pair (i + 1) })
      | _, _ => none
  | .awaitAll i =>
    match r.batch.all i with
    | none => none
    | some false => some (w, r.fail t.message)
    | some true => some (w, r.at_ (.counts i))
  | .counts i =>
    if t.rejects then some (w, r.fail t.message)
    else some (w, r.at_ (.publishProgress i (getSheetsProgressCounts w.db r.task.id)))
  | .publishProgress i counts =>
    some (w.publishNow t.toTurn (.sheets_task_progress r.task.id r.task.projectId
      { counts with total := r.persistedLinks.length }), r.loop (i + INTERNAL_CONCURRENCY))
  | .fetchFinal =>
    if t.rejects then some (w, r.fail t.message)
    else some (w, r.writeResultsBack (findLinksBySheetsTaskOrdered w.db r.task.id))
  | .writeData =>
    if t.rejects then some (w, r.fail t.message)
    else some (w, { r with
      calls := r.calls ++ (r.dataBlock clock).sent
      pc := if 0 < r.task.headerRow then .writeHeader else .setWidths })
  | .writeHeader =>
    if t.rejects then some (w, r.fail t.message)
    else some (w, { r with calls := r.calls ++ r.headerBlock.sent, pc := .setWidths })
  | .setWidths =>
    -- a failure here is caught and logged
    if t.rejects then some (w, r.at_ .finalCounts)
    else some (w, { r with
      calls := r.calls ++ [.setColumnWidths r.task.spreadsheetId r.task.sheetGid
        r.startColumnIndex COLUMN_WIDTHS]
      pc := .finalCounts })
  | .finalCounts =>
    if t.rejects then some (w, r.fail t.message)
    else some (w, r.at_ (.setCompleted
      (lastRunStatus (getSheetsProgressCounts w.db r.task.id) r.persistedLinks.length)))
  | .setCompleted status =>
    if t.rejects then some (w, r.fail t.message)
    else match setSheetsTaskStatus w.db r.task.id .COMPLETED (some status) t.now with
      | none => some (w, r.fail t.message)
      | some db => some ({ w with db }, r.at_ (.refind status))
  | .refind status =>
    if t.rejects then some (w, r.fail t.message)
    else some (w, r.at_ (.publishCompleted ((findSheetsTaskById w.db r.task.id).getD r.task) status))
  | .publishCompleted updated status =>
    some (w.publishNow t.toTurn (taskUpdated updated .COMPLETED (some t.now) (some status)),
      r.finally_)
  | .setFailed reason =>
    -- a failure here is swallowed
    if t.rejects then some (w, r.at_ (.refindFailed reason))
    else match setSheetsTaskStatus w.db r.task.id .FAILED (some reason) t.now with
      | none => some (w, r.at_ (.refindFailed reason))
      | some db => some ({ w with db }, r.at_ (.refindFailed reason))
  | .refindFailed reason =>
    if t.rejects then some (w, r.finally_)
    else match findSheetsTaskById w.db r.task.id with
      | none => some (w, r.finally_)
      | some updated => some (w, r.at_ (.publishFailed updated reason))
  | .publishFailed updated reason =>
    some (w.publishNow t.toTurn (taskUpdated updated .FAILED (some t.now) (some reason)),
      r.finally_)
  | .clearFlag =>
    if t.rejects then some (w, r.at_ .release)
    else match setProjectSheetsChecking w.db r.task.projectId false with
      | none => some (w, r.at_ .release)
      | some db => some ({ w with db }, r.at_ .release)
  | .release =>
    match r.lock with
    | none => none
    | some lock =>
      if t.rejects then some (w, r.at_ .ended)
      else some ({ w with
          locks := Function.update w.locks r.lockKey (lock.release (w.locks r.lockKey) t.now).2 },
        r.at_ .ended)
  | .ended => none
  | .skipped => none

/-- The timer of `startHeartbeat`; what the script answers is only logged. -/
def Run.beat (w : World) (r : Run) (t : Turn) : Option (World × Run) :=
  match r.heartbeat, r.lock with
  | true, some lock =>
    if t.rejects then some (w, r)
    else some ({ w with
        locks := Function.update w.locks r.lockKey (lock.heartbeat (w.locks r.lockKey) t.now).2 }, r)
  | _, _ => none

inductive Act
  | main (t : SheetsTurn)
  | child (k : ℕ) (t : Turn)
  | beat (t : Turn)

def Act.turn : Act → Turn
  | .main t => t.toTurn
  | .child _ t | .beat t => t

inductive Call
  | find (sheetsTaskId : SheetsTaskId)
  | body (r : Run)
  | missing

def Run.move (newURL : UrlParser) (clock : LocalClock) (w : World) (r : Run) :
    Act → Option (World × Run)
  | .main t => r.main newURL clock w t
  | .child k t => (r.batch.move newURL w k t).map fun s => (s.1, { r with batch := s.2 })
  | .beat t => r.beat w t

def Call.move (newURL : UrlParser) (clock : LocalClock) (w : World) (c : Call) (a : Act) :
    Option (World × Call) :=
  match c, a with
  | .find sheetsTaskId, .main t =>
    if t.rejects then some (w, .missing)
    else match findSheetsTaskById w.db sheetsTaskId with
      | none => some (w, .missing)
      | some task => some (w, .body { task })
  | .body r, a => (r.move newURL clock w a).map fun s => (s.1, .body s.2)
  | _, _ => none

end LinkBulker.Sheets
