import LinkBulker.Api.SheetsTasksService
import LinkBulker.Worker.SheetsPairing

/-! The cells that `writeResultsBack` writes, whatever the sheet says, beside the cells the task
reads. -/

namespace LinkBulker.Sheets

open Foundations Db Shared LinkRepository SingleLink Worker SheetsTasksService

def FormattedBlock.cellAt (block : FormattedBlock) (row col : ℕ) : Option FormattedCell :=
  if block.startRowIndex ≤ row ∧ block.startColumnIndex ≤ col then
    block.cells[row - block.startRowIndex]?.bind fun cells => cells[col - block.startColumnIndex]?
  else none

/-- The arguments of `writeResultsBack` once a content of the sheet has been read: some links, and a
map that gives no link a row but a filled one of the content. -/
structure WriteBack (newURL : UrlParser) (task : SheetsTask) where
  response : BatchGetResponse
  links : List Link
  sheetRowByLinkId : LinkId → Option SheetRow
  mapped : ∀ id, ∀ row ∈ sheetRowByLinkId id,
    row ∈ (filledRows newURL (readDonorRows task.dataStartRow response)).map Prod.snd

variable {newURL : UrlParser} {clock : LocalClock} {task : SheetsTask}

def WriteBack.run (wb : WriteBack newURL task) : Run :=
  Run.writeResultsBack { task, sheetRowByLinkId := wb.sheetRowByLinkId } wb.links

def WriteBack.blocks (clock : LocalClock) (wb : WriteBack newURL task) : List FormattedBlock :=
  if wb.run.pc = .writeData then
    if 0 < task.headerRow then [wb.run.dataBlock clock, wb.run.headerBlock]
    else [wb.run.dataBlock clock]
  else []

def InputColumn (task : SheetsTask) (col : ℕ) : Prop :=
  colLetterToIndex task.donorColumn = .ok col ∨ colLetterToIndex task.acceptorColumn = .ok col

def ResultColumn (task : SheetsTask) (col : ℕ) : Prop :=
  ∃ n, colLetterToIndex task.resultStartCol = .ok n ∧ n ≤ col ∧ col < n + RESULT_HEADERS.length

theorem cellAt_eq_some {block : FormattedBlock} {row col : ℕ} {cell : FormattedCell} :
    block.cellAt row col = some cell ↔ block.startRowIndex ≤ row ∧ block.startColumnIndex ≤ col ∧
      ∃ cells, block.cells[row - block.startRowIndex]? = some cells ∧
        cells[col - block.startColumnIndex]? = some cell := by
  unfold FormattedBlock.cellAt
  split
  · rename_i h
    simp [h.1, h.2, Option.bind_eq_some_iff]
  · rename_i h
    simp only [reduceCtorEq, false_iff]
    exact fun hcell => h ⟨hcell.1, hcell.2.1⟩

theorem row_lt_of_cellAt {block : FormattedBlock} {row col : ℕ} {cell : FormattedCell}
    (h : block.cellAt row col = some cell) :
    block.startRowIndex ≤ row ∧ row < block.startRowIndex + block.cells.length := by
  obtain ⟨hrow, -, line, hline, -⟩ := cellAt_eq_some.mp h
  have hlt := (List.getElem?_eq_some_iff.mp hline).1
  omega

theorem col_lt_of_cellAt {block : FormattedBlock} {row col n : ℕ} {cell : FormattedCell}
    (hlines : ∀ line ∈ block.cells, line.length = n) (h : block.cellAt row col = some cell) :
    block.startColumnIndex ≤ col ∧ col < block.startColumnIndex + n := by
  obtain ⟨-, hcol, line, hline, hcell⟩ := cellAt_eq_some.mp h
  have hlt := (List.getElem?_eq_some_iff.mp hcell).1
  have hlen := hlines line (List.mem_of_getElem? hline)
  omega

theorem length_of_mem_dataBlock {r : Run} {line : List FormattedCell}
    (h : line ∈ (r.dataBlock clock).cells) : line.length = RESULT_HEADERS.length := by
  obtain ⟨link, -, rfl⟩ := List.mem_map.mp h
  exact length_dataLine clock link

theorem length_of_mem_headerBlock {r : Run} {line : List FormattedCell}
    (h : line ∈ r.headerBlock.cells) : line.length = RESULT_HEADERS.length := by
  rw [List.mem_singleton.mp h]
  rfl

theorem writeResultsBack_eq {r : Run} {links : List Link} {minRow maxRow n : ℕ}
    (hmin : ((links.filterMap r.rowNumber).filter fun n => 0 < n).min? = some minRow)
    (hmax : ((links.filterMap r.rowNumber).filter fun n => 0 < n).max? = some maxRow)
    (hcol : colLetterToIndex r.task.resultStartCol = .ok n) :
    r.writeResultsBack links = { r with
      minRow
      startColumnIndex := n
      lines := (List.range (maxRow + 1 - minRow)).map fun k =>
        links.find? fun l => r.rowNumber l = some (minRow + k)
      pc := .writeData } := by
  have hne : links.length ≠ 0 := by
    intro hnil
    rw [List.eq_nil_of_length_eq_zero hnil] at hmin
    cases hmin
  unfold Run.writeResultsBack
  simp only [if_neg hne, hmin, hmax, hcol]

theorem writeResultsBack_planned {r : Run} {links : List Link}
    (hpc : (r.writeResultsBack links).pc = .writeData) :
    ∃ minRow maxRow n,
      ((links.filterMap r.rowNumber).filter fun n => 0 < n).min? = some minRow ∧
      ((links.filterMap r.rowNumber).filter fun n => 0 < n).max? = some maxRow ∧
      colLetterToIndex r.task.resultStartCol = .ok n ∧
      r.writeResultsBack links = { r with
        minRow
        startColumnIndex := n
        lines := (List.range (maxRow + 1 - minRow)).map fun k =>
          links.find? fun l => r.rowNumber l = some (minRow + k)
        pc := .writeData } := by
  unfold Run.writeResultsBack at hpc
  dsimp only at hpc
  split at hpc
  · cases hpc
  split at hpc
  · rename_i minRow maxRow hmin hmax
    split at hpc
    · cases hpc
    · rename_i n hcol
      exact ⟨minRow, maxRow, n, hmin, hmax, hcol, writeResultsBack_eq hmin hmax hcol⟩
  · cases hpc

theorem le_rowNumber_of_mem {start : ℕ} {result : BatchGetResponse} {row : SheetRow}
    (h : row ∈ (filledRows newURL (readDonorRows start result)).map Prod.snd) :
    start ≤ row.rowNumber := by
  obtain ⟨v, hv, rfl⟩ := List.mem_map.mp h
  obtain ⟨i, -, -, hrow⟩ := mem_readDonorRows.mp (mem_filledRows hv).1
  rw [hrow]
  exact Nat.le_add_right ..

theorem WriteBack.planned (wb : WriteBack newURL task) (hpc : wb.run.pc = .writeData) :
    task.dataStartRow ≤ wb.run.minRow ∧ wb.run.task = task ∧
      colLetterToIndex task.resultStartCol = .ok wb.run.startColumnIndex := by
  obtain ⟨minRow, maxRow, n, hmin, -, hcol, hrun⟩ := writeResultsBack_planned hpc
  have hrun : wb.run = _ := hrun
  rw [hrun]
  refine ⟨?_, rfl, hcol⟩
  have hmem := List.mem_of_mem_filter (List.min?_mem hmin)
  obtain ⟨link, -, hnumber⟩ := List.mem_filterMap.mp hmem
  obtain ⟨row, hrow, rfl⟩ := Option.map_eq_some_iff.mp hnumber
  exact le_rowNumber_of_mem (wb.mapped link.id row hrow)

theorem WriteBack.mem_blocks (wb : WriteBack newURL task) {block : FormattedBlock}
    (h : block ∈ wb.blocks clock) :
    wb.run.pc = .writeData ∧ (block = wb.run.dataBlock clock ∨ block = wb.run.headerBlock) := by
  unfold WriteBack.blocks at h
  split at h
  · rename_i hpc
    split at h
    · simpa [hpc] using h
    · exact ⟨hpc, .inl (List.mem_singleton.mp h)⟩
  · cases h

theorem WriteBack.dataBlock_mem (wb : WriteBack newURL task) (hpc : wb.run.pc = .writeData) :
    wb.run.dataBlock clock ∈ wb.blocks clock := by
  unfold WriteBack.blocks
  rw [if_pos hpc]
  split <;> simp

theorem WriteBack.headerBlock_mem (wb : WriteBack newURL task) (hpc : wb.run.pc = .writeData)
    (hheader : 0 < task.headerRow) : wb.run.headerBlock ∈ wb.blocks clock := by
  unfold WriteBack.blocks
  rw [if_pos hpc, if_pos hheader]
  simp

theorem WriteBack.resultColumn (wb : WriteBack newURL task) {block : FormattedBlock}
    (h : block ∈ wb.blocks clock) {row col : ℕ} {cell : FormattedCell}
    (hcell : block.cellAt row col = some cell) : ResultColumn task col := by
  obtain ⟨hpc, hblock⟩ := wb.mem_blocks h
  obtain ⟨-, -, hcol⟩ := wb.planned hpc
  refine ⟨_, hcol, ?_⟩
  obtain rfl | rfl := hblock
  · exact col_lt_of_cellAt (fun _ hline => length_of_mem_dataBlock hline) hcell
  · exact col_lt_of_cellAt (fun _ hline => length_of_mem_headerBlock hline) hcell

theorem WriteBack.header_above (wb : WriteBack newURL task) (hpc : wb.run.pc = .writeData)
    (hrow : task.headerRow < task.dataStartRow) (hheader : 0 < task.headerRow) {row col : ℕ}
    {cell : FormattedCell} (hcell : wb.run.headerBlock.cellAt row col = some cell) (col' : ℕ) :
    (wb.run.dataBlock clock).cellAt row col' = none := by
  obtain ⟨hmin, htask, -⟩ := wb.planned hpc
  obtain ⟨-, hlt⟩ := row_lt_of_cellAt hcell
  simp only [Run.headerBlock, htask, List.length_singleton] at hlt
  cases hdata : (wb.run.dataBlock clock).cellAt row col' with
  | none => rfl
  | some cell' =>
    obtain ⟨hle, -⟩ := row_lt_of_cellAt hdata
    simp only [Run.dataBlock] at hle
    omega

section Traced

variable {r r' : Run} {w w' : World} {t : SheetsTurn}

def Pc.unread : Pc → Bool
  | .acquire | .setRunning | .setFlag | .publishRunning | .resolveTitle | .readRows | .skipped => true
  | _ => false

structure Traced (newURL : UrlParser) (clock : LocalClock) (r : Run) : Prop where
  valid : r.validRows = filledRows newURL (readDonorRows r.task.dataStartRow r.response)
  unread : r.pc.unread → ∀ id, r.sheetRowByLinkId id = none
  mapped : ∀ id, ∀ row ∈ r.sheetRowByLinkId id, row ∈ r.validRows.map Prod.snd
  planned : r.pc = .writeData ∨ r.pc = .writeHeader → ∃ wb : WriteBack newURL r.task,
    wb.run.pc = .writeData ∧ wb.run.dataBlock clock = r.dataBlock clock ∧
      wb.run.headerBlock = r.headerBlock
  heading : r.pc = .writeHeader → 0 < r.task.headerRow
  calls : ∀ b, .writeFormattedBlock b ∈ r.calls → ∃ wb : WriteBack newURL r.task, b ∈ wb.blocks clock

theorem Traced.start (task : SheetsTask) : Traced newURL clock { task } where
  valid := rfl
  unread _ _ := rfl
  mapped _ _ hrow := by cases hrow
  planned hpc := by rcases hpc with hpc | hpc <;> cases hpc
  heading hpc := by cases hpc
  calls _ hb := by cases hb

theorem Traced.keep (h : Traced newURL clock r) {pc : Pc} {lock : Option LockManager.Lock}
    {heartbeat : Bool} {persistedLinks links invalid : List Link} {batch : Batch}
    {threw : Option String} (hun : pc.unread → r.pc.unread)
    (hpc : pc ≠ .writeData ∧ pc ≠ .writeHeader) :
    Traced newURL clock { r with
      pc, lock, heartbeat, persistedLinks
      validProcessableLinks := links, batch, invalid, threw } where
  valid := h.valid
  unread hpc := h.unread (hun hpc)
  mapped := h.mapped
  planned hw := absurd hw (not_or.mpr hpc)
  heading hw := absurd hw hpc.2
  calls := h.calls

theorem Traced.pair (h : Traced newURL clock r) {i : ℕ} {link : Link}
    {vr : NormalizedRow × SheetRow} (hvr : r.validRows[i]? = some vr) {links : List Link} {pc : Pc}
    (hun : pc.unread = false) (hpc : pc ≠ .writeData ∧ pc ≠ .writeHeader) :
    Traced newURL clock { r with
      sheetRowByLinkId := Function.update r.sheetRowByLinkId link.id vr.2
      validProcessableLinks := links, pc } where
  valid := h.valid
  unread hpc := absurd hpc (by rw [hun]; exact Bool.false_ne_true)
  mapped id row hrow := by
    dsimp only at hrow ⊢
    by_cases he : id = link.id
    · subst he
      rw [Function.update_self] at hrow
      obtain rfl := Option.some.inj hrow
      exact List.mem_map_of_mem (List.mem_of_getElem? hvr)
    · rw [Function.update_of_ne he] at hrow
      exact h.mapped id row hrow
  planned hw := absurd hw (not_or.mpr hpc)
  heading hw := absurd hw hpc.2
  calls := h.calls

theorem Traced.loop (h : Traced newURL clock r) (batch : Batch) (i : ℕ) :
    Traced newURL clock (Run.loop { r with batch } i) := by
  unfold Run.loop
  split <;> exact h.keep (fun hpc => by cases hpc) ⟨by rintro ⟨⟩, by rintro ⟨⟩⟩

def Traced.writeBack (h : Traced newURL clock r) (links : List Link) : WriteBack newURL r.task where
  response := r.response
  links := links
  sheetRowByLinkId := r.sheetRowByLinkId
  mapped id row hrow := h.valid ▸ h.mapped id row hrow

theorem Traced.calls_append (h : Traced newURL clock r) {sent : List SheetsCall}
    (hsent : ∀ b, .writeFormattedBlock b ∈ sent →
      ∃ wb : WriteBack newURL r.task, b ∈ wb.blocks clock) :
    ∀ b, .writeFormattedBlock b ∈ r.calls ++ sent →
      ∃ wb : WriteBack newURL r.task, b ∈ wb.blocks clock :=
  fun b hb => (List.mem_append.mp hb).elim (h.calls b) (hsent b)

theorem Traced.main (h : Traced newURL clock r) (hs : Step newURL clock w r t w' r') :
    Traced newURL clock r' := by
  cases hs with
  | read hpc =>
    have hnone := h.unread (by rw [hpc]; rfl)
    refine ⟨rfl, (fun hun => by cases hun), fun id row hrow => ?_, ?_, (fun hw => by cases hw),
      h.calls⟩
    · dsimp only at hrow
      rw [hnone id] at hrow
      cases hrow
    · rintro (hw | hw) <;> cases hw
  | pairedAll hpc hlink => exact h.loop _ _
  | toldProgress hpc => exact h.loop _ _
  | pairedValid hpc hlink hvr hok => exact h.pair hvr rfl ⟨by rintro ⟨⟩, by rintro ⟨⟩⟩
  | pairedInvalid hpc hlink hvr herr => exact h.pair hvr rfl ⟨by rintro ⟨⟩, by rintro ⟨⟩⟩
  | planned hpc hmin hmax hcol =>
    refine ⟨h.valid, (fun hun => by cases hun), h.mapped, fun _ => ?_, (fun hw => by cases hw),
      h.calls⟩
    refine ⟨h.writeBack (findLinksBySheetsTaskOrdered w.db r.task.id), ?_⟩
    have hrun : (h.writeBack (findLinksBySheetsTaskOrdered w.db r.task.id)).run = _ :=
      writeResultsBack_eq hmin hmax hcol
    rw [hrun]
    exact ⟨rfl, rfl, rfl⟩
  | wroteData hpc =>
    obtain ⟨wb, hplanned, hdata, hheader⟩ := h.planned (.inl hpc)
    refine ⟨h.valid, fun hun => ?_, h.mapped, fun _ => ⟨wb, hplanned, hdata, hheader⟩, ?_, ?_⟩
    · dsimp only at hun
      split at hun <;> cases hun
    · intro hw
      dsimp only at hw
      split at hw
      · assumption
      · cases hw
    · refine h.calls_append fun b hb => ?_
      rw [(FormattedBlock.mem_sent hb).1, ← hdata]
      exact ⟨wb, wb.dataBlock_mem hplanned⟩
  | wroteHeader hpc =>
    obtain ⟨wb, hplanned, -, hheader⟩ := h.planned (.inr hpc)
    refine ⟨h.valid, (fun hun => by cases hun), h.mapped, ?_, (fun hw => by cases hw), ?_⟩
    · rintro (hw | hw) <;> cases hw
    · refine h.calls_append fun b hb => ?_
      rw [(FormattedBlock.mem_sent hb).1, ← hheader]
      exact ⟨wb, wb.headerBlock_mem hplanned (h.heading hpc)⟩
  | wroteWidths hpc =>
    refine ⟨h.valid, (fun hun => by cases hun), h.mapped, ?_, (fun hw => by cases hw), ?_⟩
    · rintro (hw | hw) <;> cases hw
    · refine h.calls_append fun b hb => ?_
      cases List.mem_singleton.mp hb
  | skip hpc | locked hpc hacq | running hpc hset | raised hpc hset | toldRunning hpc | titled hpc =>
    exact h.keep (fun _ => by rw [hpc]; rfl) ⟨by rintro ⟨⟩, by rintro ⟨⟩⟩
  | _ => exact h.keep (fun hun => by cases hun) ⟨by rintro ⟨⟩, by rintro ⟨⟩⟩

theorem Traced.move {a : Act} (h : Traced newURL clock r)
    (hm : r.move newURL clock w a = some (w', r')) : Traced newURL clock r' := by
  cases a with
  | main t => exact h.main (main_eq_some hm)
  | child k t =>
    obtain ⟨b, -, rfl⟩ := child_eq_some hm
    exact ⟨h.valid, h.unread, h.mapped, h.planned, h.heading, h.calls⟩
  | beat t =>
    obtain ⟨lock, -, -, rfl, -⟩ := beat_eq_some hm
    exact h

theorem exists_writeBack_of_run {sheetsTaskId : SheetsTaskId} {labels : List Label}
    (hr : exec (step newURL clock) (w, .find sheetsTaskId) labels = some (w', .body r)) :
    ∀ b, .writeFormattedBlock b ∈ r.calls → ∃ wb : WriteBack newURL r.task, b ∈ wb.blocks clock := by
  have hinv := exec_invariant (I := fun s => ∀ r, s.2 = .body r → Traced newURL clock r) ?_
    (fun _ he => by cases he) hr
  · exact (hinv r rfl).calls
  rintro ⟨w, c⟩ l ⟨w', c'⟩ h hs r' rfl
  cases l with
  | act a =>
    obtain ⟨_, t, rfl, rfl, rfl, hc⟩ | ⟨r, r'', rfl, hm, hc⟩ := call_eq_some hs
    · obtain hc | ⟨task, -, hc⟩ := hc
      · cases hc
      · obtain ⟨⟩ := Call.body.inj hc
        exact .start task
    · obtain rfl := Call.body.inj hc
      exact (h r rfl).move hm
  | request q =>
    obtain ⟨rfl, rfl⟩ := Prod.mk.inj (Option.some.inj hs)
    exact h r' rfl

end Traced

def filledContent : BatchGetResponse :=
  ⟨some [⟨some [[.string "d"]]⟩, ⟨some [[.string "a"]]⟩]⟩

def filledLink : Link where
  id := "l"
  projectId := "p"
  sheetsTaskId := some "s"
  source := .SHEETS
  donorUrl := "d"
  acceptorHost := ""
  acceptorRaw := "a"

theorem filledRows_filledContent (start : ℕ) :
    (filledRows newURL (readDonorRows start filledContent)).map Prod.snd = [⟨start, "d", "a"⟩] := by
  have hrows : readDonorRows start filledContent = [⟨start, "d", "a"⟩] := rfl
  have hdonor : trim "d" ≠ "" := by decide
  have hacceptor : trim "a" ≠ "" := by decide
  simp [hrows, filledRows, hdonor, hacceptor]

def filledWriteBack (newURL : UrlParser) (task : SheetsTask) : WriteBack newURL task where
  response := filledContent
  links := [filledLink]
  sheetRowByLinkId id := if id = "l" then some ⟨task.dataStartRow, "d", "a"⟩ else none
  mapped id row hrow := by
    rw [filledRows_filledContent]
    split at hrow
    · rw [← Option.some.inj hrow]
      exact List.mem_singleton_self _
    · cases hrow

theorem filledWriteBack_run (newURL : UrlParser) {n : ℕ}
    (hcol : colLetterToIndex task.resultStartCol = .ok n) :
    (filledWriteBack newURL task).run = {
      task
      sheetRowByLinkId := (filledWriteBack newURL task).sheetRowByLinkId
      minRow := task.dataStartRow
      startColumnIndex := n
      lines := [some filledLink]
      pc := .writeData } := by
  have hpos := task.dataStartRow_pos
  simp [WriteBack.run, filledWriteBack, Run.writeResultsBack, Run.rowNumber, filledLink, hpos, hcol]

theorem exists_written (newURL : UrlParser) (clock : LocalClock) {col : ℕ}
    (hcol : ResultColumn task col) :
    ∃ wb : WriteBack newURL task, ∃ block ∈ wb.blocks clock,
      (block.cellAt (task.dataStartRow - 1) col).isSome := by
  obtain ⟨n, hn, hle, hlt⟩ := hcol
  have hrun := filledWriteBack_run newURL hn
  refine ⟨filledWriteBack newURL task, (filledWriteBack newURL task).run.dataBlock clock, ?_, ?_⟩
  · exact WriteBack.dataBlock_mem _ (by rw [hrun])
  · have hline : (dataLine clock (some filledLink)).length = RESULT_HEADERS.length :=
      length_dataLine clock _
    obtain ⟨cell, hcell⟩ : ∃ cell, (dataLine clock (some filledLink))[col - n]? = some cell :=
      ⟨_, List.getElem?_eq_getElem (by omega)⟩
    rw [hrun, Option.isSome_iff_exists]
    refine ⟨cell, cellAt_eq_some.mpr ⟨le_rfl, hle, dataLine clock (some filledLink), ?_, hcell⟩⟩
    simp [Run.dataBlock]

def KeepsInput (newURL : UrlParser) (clock : LocalClock) (task : SheetsTask) : Prop :=
  ∀ wb : WriteBack newURL task, ∀ block ∈ wb.blocks clock, ∀ row col,
    task.dataStartRow ≤ row + 1 → InputColumn task col → block.cellAt row col = none

def KeepsData (newURL : UrlParser) (clock : LocalClock) (task : SheetsTask) : Prop :=
  ∀ wb : WriteBack newURL task, ∀ data header, wb.blocks clock = [data, header] → ∀ row col,
    (header.cellAt row col).isSome → ∀ col', data.cellAt row col' = none

theorem keepsInput_iff : KeepsInput newURL clock task ↔
    ∀ col, InputColumn task col → ¬ ResultColumn task col := by
  constructor
  · intro hkeep col hin hresult
    obtain ⟨wb, block, hblock, hcell⟩ := exists_written newURL clock hresult
    have hnone := hkeep wb block hblock (task.dataStartRow - 1) col (by omega) hin
    simp [hnone] at hcell
  · intro hdisjoint wb block hblock row col _ hin
    cases hcell : block.cellAt row col with
    | none => rfl
    | some cell => exact absurd (wb.resultColumn hblock hcell) (hdisjoint col hin)

theorem keepsData (hrow : task.headerRow < task.dataStartRow) : KeepsData newURL clock task := by
  intro wb data header hblocks row col hcell col'
  unfold WriteBack.blocks at hblocks
  split at hblocks
  · rename_i hpc
    split at hblocks
    · rename_i hheader
      cases hblocks
      obtain ⟨cell, hcell⟩ := Option.isSome_iff_exists.mp hcell
      exact wb.header_above hpc hrow hheader hcell col'
    · cases hblocks
  · cases hblocks

/-- The settings are checked one by one, so nothing keeps the result columns off the columns that
are read: a run leaves those alone exactly where they lie outside, and its header line leaves the
data block alone where it stands above the first row. -/
theorem writeResultsBack_footprint {db : Database} (hempty : db.sheetsTasks.rows = [])
    (requests : List Request) (newURL : UrlParser) (clock : LocalClock) :
    ∀ task ∈ (requests.foldl Request.apply db).sheetsTasks.rows, ∃ donor acceptor result,
      colLetterToIndex task.donorColumn = .ok donor ∧
        colLetterToIndex task.acceptorColumn = .ok acceptor ∧
        colLetterToIndex task.resultStartCol = .ok result ∧
        (KeepsInput newURL clock task ↔
          ∀ col ∈ [donor, acceptor], col < result ∨ result + RESULT_HEADERS.length ≤ col) ∧
        (task.headerRow < task.dataStartRow → KeepsData newURL clock task) := by
  intro task htask
  have haccepted := accepted_of_requests (by simp [hempty]) requests task htask
  obtain ⟨donor, hdonor⟩ := colLetterToIndex_of_isColumnLetter haccepted.donorColumn
  obtain ⟨acceptor, hacceptor⟩ := colLetterToIndex_of_isColumnLetter haccepted.acceptorColumn
  obtain ⟨result, hresult⟩ := colLetterToIndex_of_isColumnLetter haccepted.resultStartCol
  refine ⟨donor, acceptor, result, hdonor, hacceptor, hresult, ?_, keepsData⟩
  rw [keepsInput_iff]
  simp only [InputColumn, ResultColumn, hdonor, hacceptor, hresult, Except.ok.injEq,
    List.forall_mem_cons, List.not_mem_nil, false_implies, implies_true, and_true]
  constructor
  · intro h
    have hd := h donor (.inl rfl)
    have ha := h acceptor (.inr rfl)
    simp only [exists_eq_left', not_and, Nat.not_lt] at hd ha
    omega
  · rintro ⟨hd, ha⟩ col (rfl | rfl) ⟨n, rfl, hle, hlt⟩
    · omega
    · omega

def letterInput (resultStartCol : ColumnLetter) : CreateSheetsTaskInput where
  name := ⟨"t", by decide⟩
  spreadsheetId := ⟨"x", by decide⟩
  donorColumn := ⟨"A", by decide⟩
  acceptorColumn := ⟨"B", by decide⟩
  resultStartCol

theorem writeResultsBack_footprint_sample :
    ∃ task ∈ (Request.apply (exampleDatabase .empty .empty)
        (.create "u" "p" (letterInput ⟨"C", by decide⟩) "s" 0)).sheetsTasks.rows,
      KeepsInput (fun _ => none) exampleClock task ∧ KeepsData (fun _ => none) exampleClock task := by
  have hmem : createdTask "p" (letterInput ⟨"C", by decide⟩) "s" 0 ∈
      (Request.apply (exampleDatabase .empty .empty)
        (.create "u" "p" (letterInput ⟨"C", by decide⟩) "s" 0)).sheetsTasks.rows := by decide
  obtain ⟨donor, acceptor, result, hdonor, hacceptor, hresult, hinput, hdata⟩ :=
    @writeResultsBack_footprint (exampleDatabase .empty .empty) rfl
      [.create "u" "p" (letterInput ⟨"C", by decide⟩) "s" 0] (fun _ => none) exampleClock _ hmem
  obtain rfl : 0 = donor := Except.ok.inj hdonor
  obtain rfl : 1 = acceptor := Except.ok.inj hacceptor
  obtain rfl : 2 = result := Except.ok.inj hresult
  exact ⟨_, hmem, hinput.mpr (by decide), hdata (by decide)⟩

/-- The results go to the donor column: a filled row loses its donor. -/
theorem results_over_donors : ¬ ∀ (db : Database), db.sheetsTasks.rows = [] →
    ∀ (requests : List Request) (newURL : UrlParser) (clock : LocalClock),
      ∀ task ∈ (requests.foldl Request.apply db).sheetsTasks.rows,
        KeepsInput newURL clock task ∧ KeepsData newURL clock task := by
  intro hall
  have hmem : createdTask "p" (letterInput ⟨"A", by decide⟩) "s" 0 ∈
      (Request.apply (exampleDatabase .empty .empty)
        (.create "u" "p" (letterInput ⟨"A", by decide⟩) "s" 0)).sheetsTasks.rows := by decide
  have hkeep := hall (exampleDatabase .empty .empty) rfl
    [.create "u" "p" (letterInput ⟨"A", by decide⟩) "s" 0] (fun _ => none) exampleClock _ hmem
  have hcolumn : colLetterToIndex "A" = .ok 0 := by decide +kernel
  exact keepsInput_iff.mp hkeep.1 0 (.inl hcolumn) ⟨0, hcolumn, le_rfl, by decide⟩

end LinkBulker.Sheets
