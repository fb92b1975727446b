import LinkBulker.Worker.SheetsFootprint
import LinkBulker.Worker.SheetsRun

/-! The sheet of a task as a grid of cells, rows and columns counted from zero: what a completed run
reads of it and leaves in it. -/

namespace LinkBulker.Sheets

open Foundations Db Shared Crawler SingleLink Worker

abbrev Grid := ℕ → ℕ → Cell

def CellValue.cell : CellValue → Cell
  | .text s => .string s
  | .number n => .number (toString n)

def FormattedBlock.write (block : FormattedBlock) (g : Grid) : Grid := fun row col =>
  match block.cellAt row col with
  | some cell => cell.value.cell
  | none => g row col

/-- The columns of `SheetsTask` that a request sets and a run only reads. -/
structure Settings where
  spreadsheetId : String
  sheetGid : ℕ
  donorColumn : String
  acceptorColumn : String
  resultStartCol : String
  headerRow : ℕ
  dataStartRow : ℕ
  deriving DecidableEq

def settings (task : SheetsTask) : Settings :=
  ⟨task.spreadsheetId, task.sheetGid, task.donorColumn, task.acceptorColumn, task.resultStartCol,
    task.headerRow, task.dataStartRow⟩

def SheetsCall.apply (s : Settings) (g : Grid) : SheetsCall → Grid
  | .writeFormattedBlock block =>
    if block.spreadsheetId = s.spreadsheetId ∧ block.sheetId = s.sheetGid then block.write g else g
  | .setColumnWidths .. => g

structure Layout extends Settings where
  donor : ℕ
  acceptor : ℕ
  result : ℕ
  donor_eq : colLetterToIndex donorColumn = .ok donor
  acceptor_eq : colLetterToIndex acceptorColumn = .ok acceptor
  result_eq : colLetterToIndex resultStartCol = .ok result
  donor_outside : donor < result ∨ result + RESULT_HEADERS.length ≤ donor
  acceptor_outside : acceptor < result ∨ result + RESULT_HEADERS.length ≤ acceptor
  header_above : headerRow < dataStartRow

namespace Layout

def Filled (L : Layout) (g : Grid) (row : ℕ) : Prop :=
  L.dataStartRow ≤ row + 1 ∧ trim (g row L.donor).toString ≠ "" ∧
    trim (g row L.acceptor).toString ≠ ""

def Spanned (L : Layout) (g : Grid) (row : ℕ) : Prop :=
  ∃ first last, L.Filled g first ∧ L.Filled g last ∧ first ≤ row ∧ row ≤ last

def Blank (L : Layout) (g : Grid) (row : ℕ) : Prop :=
  ∀ k < RESULT_HEADERS.length, (g row (L.result + k)).toString = ""

end Layout

structure CompletedRun (newURL : UrlParser) (clock : LocalClock) (sheetsTaskId : SheetsTaskId)
    (L : Layout) (g : Grid) (r : Run) : Prop where
  run : ∃ w₀ w labels, exec (soloStep newURL clock sheetsTaskId) (w₀, .find sheetsTaskId) labels =
    some (w, .body r)
  ended : r.pc = .ended
  completed : r.threw = none
  settings : settings r.task = L.toSettings
  donorCells : ∀ i, (r.response.column 0).text i =
    trim (g (L.dataStartRow - 1 + i) L.donor).toString
  acceptorCells : ∀ i, (r.response.column 1).text i =
    trim (g (L.dataStartRow - 1 + i) L.acceptor).toString

def Layout.after (L : Layout) (r : Run) (g : Grid) : Grid :=
  r.calls.foldl (SheetsCall.apply L.toSettings) g

section Sent

variable {newURL : UrlParser} {clock : LocalClock} {w w' w₀ : World} {r r' : Run}
  {t : SheetsTurn}

structure Sent (r : Run) : Prop where
  placed : r.lines = [] ∨ colLetterToIndex r.task.resultStartCol = .ok r.startColumnIndex
  heading : r.pc = .writeHeader → 0 < r.task.headerRow
  tail : ∀ b, .writeFormattedBlock b ∈ r.calls.tail → 0 < r.task.headerRow

theorem Sent.start (task : SheetsTask) : Sent { task } where
  placed := .inl rfl
  heading hpc := by cases hpc
  tail _ hb := by cases hb

theorem Sent.loop (h : Sent r) (batch : Batch) (i : ℕ) : Sent (Run.loop { r with batch } i) := by
  unfold Run.loop
  split
  · exact ⟨h.placed, nofun, h.tail⟩
  · exact ⟨h.placed, nofun, h.tail⟩

theorem mem_tail_append {α : Type} {x y : α} {xs : List α} (h : x ∈ (xs ++ [y]).tail) :
    x ∈ xs.tail ∨ x = y := by
  cases xs with
  | nil => cases h
  | cons z xs => simpa using h

theorem Sent.main (h : Sent r) (hcalls : r.pc = .writeData → r.calls = [])
    (hs : Step newURL clock w r t w' r') : Sent r' := by
  cases hs with
  | pairedAll hpc hlink => exact h.loop _ _
  | toldProgress hpc => exact h.loop _ _
  | planned hpc hmin hmax hcol => exact ⟨.inr hcol, nofun, h.tail⟩
  | wroteData hpc =>
    refine ⟨h.placed, fun hpc' => ?_, fun b hb => ?_⟩
    · dsimp only at hpc'
      split at hpc'
      · assumption
      · cases hpc'
    · simp only [hcalls hpc, List.nil_append, FormattedBlock.sent] at hb
      split at hb <;> cases hb
  | wroteHeader hpc => exact ⟨h.placed, nofun, fun _ _ => h.heading hpc⟩
  | wroteWidths hpc =>
    refine ⟨h.placed, nofun, fun b hb => ?_⟩
    obtain hb | hb := mem_tail_append hb
    · exact h.tail b hb
    · cases hb
  | _ => exact ⟨h.placed, nofun, h.tail⟩

theorem Sent.move {before : List LinkId} {sheetsTaskId : SheetsTaskId} {a : Act}
    (hsolo : Solo newURL clock before sheetsTaskId w r) (h : r.threw = none → Sent r)
    (hm : r.move newURL clock w a = some (w', r')) (hok : r'.threw = none) : Sent r' := by
  cases a with
  | main t =>
    have hs := main_eq_some hm
    have hok := hs.threw hok
    refine (h hok).main (fun hpc => ?_) hs
    have hstage := hsolo.stage hok
    rw [hpc] at hstage
    exact hstage.2.1
  | child k t =>
    obtain ⟨b, -, rfl⟩ := child_eq_some hm
    exact ⟨(h hok).placed, (h hok).heading, (h hok).tail⟩
  | beat t =>
    obtain ⟨lock, -, -, rfl, -⟩ := beat_eq_some hm
    exact h hok

theorem sent_of_run {sheetsTaskId : SheetsTaskId} {labels : List SoloLabel}
    (hr : exec (soloStep newURL clock sheetsTaskId) (w₀, .find sheetsTaskId) labels =
      some (w, .body r)) (hok : r.threw = none) : Sent r := by
  have hinv := exec_invariant
    (I := fun s => SoloCall newURL clock w₀.crawls sheetsTaskId s ∧
      ∀ r ∈ s.2.run, r.threw = none → Sent r) ?_
    ⟨show SoloCall _ _ _ _ (w₀, .find sheetsTaskId) from ⟨rfl, rfl⟩, fun r hr => by cases hr⟩ hr
  · exact hinv.2 r rfl hok
  rintro ⟨w, c⟩ l ⟨w', c'⟩ ⟨hsolo, hsent⟩ hs
  refine ⟨hsolo.label hs, fun r' hr' hok => ?_⟩
  cases l with
  | act a =>
    obtain ⟨id, t, rfl, rfl, rfl, hc⟩ | ⟨r, r₁, rfl, hm, rfl⟩ := call_eq_some hs
    · obtain rfl | ⟨task, -, rfl⟩ := hc
      · cases hr'
      · cases hr'
        exact Sent.start task
    · cases hr'
      exact Sent.move hsolo (hsent r rfl) hm hok
  | elsewhere db =>
    simp only [soloStep] at hs
    split at hs
    · cases hs
      exact hsent r' hr' hok
    · cases hs

end Sent

section Grid

variable {newURL : UrlParser} {clock : LocalClock} {sheetsTaskId : SheetsTaskId} {L : Layout}
  {g : Grid} {r : Run} {row : ℕ}

theorem foldl_apply_eq {s : Settings} {calls : List SheetsCall} {col : ℕ}
    (h : ∀ b, .writeFormattedBlock b ∈ calls → b.cellAt row col = none) (g : Grid) :
    calls.foldl (SheetsCall.apply s) g row col = g row col := by
  induction calls generalizing g with
  | nil => rfl
  | cons call calls ih =>
    rw [List.foldl_cons, ih fun b hb => h b (List.mem_cons_of_mem _ hb)]
    cases call with
    | setColumnWidths spreadsheetId sheetId startColumnIndex widths => rfl
    | writeFormattedBlock block =>
      simp only [SheetsCall.apply]
      split
      · simp [FormattedBlock.write, h block List.mem_cons_self]
      · rfl

theorem cellAt_resultBlock {task : SheetsTask} {col minRow maxRow : ℕ} {rows : List SheetRow}
    {links : List Link} (hmin : 0 < minRow) (row k : ℕ) :
    (resultBlock clock task col rows links minRow maxRow).cellAt row (col + k) =
      if minRow ≤ row + 1 ∧ row + 1 ≤ maxRow then
        (dataLine clock (((links.zip rows).find? fun e => e.2.rowNumber = row + 1).map Prod.fst))[k]?
      else none := by
  simp only [FormattedBlock.cellAt, resultBlock, Nat.le_add_right, and_true,
    Nat.add_sub_cancel_left]
  by_cases hlow : minRow ≤ row + 1
  · rw [if_pos (by omega), List.getElem?_map]
    have hplace : minRow + (row - (minRow - 1)) = row + 1 := by omega
    by_cases hhigh : row + 1 ≤ maxRow
    · rw [if_pos ⟨hlow, hhigh⟩, List.getElem?_range (by omega), Option.map_some, Option.bind_some,
        hplace]
    · rw [if_neg (by omega), List.getElem?_eq_none (by rw [List.length_range]; omega)]
      rfl
  · rw [if_neg (by omega), if_neg (by omega)]

theorem deriveLabel_ne_empty (link : Link) : deriveLabel link ≠ "" := by
  unfold deriveLabel
  dsimp only
  split
  · decide
  · decide
  · decide
  · decide
  · split
    · decide
    · split <;> decide

theorem dataLine_some (link : Link) :
    ((dataLine clock (some link))[0]?.map FormattedCell.value) = some (.text (deriveLabel link)) :=
  rfl

theorem dataLine_none {k : ℕ} (hk : k < RESULT_HEADERS.length) :
    (dataLine clock none)[k]? = some { value := .text "" } := by
  rw [dataLine, blankRowCells, List.getElem?_replicate, if_pos hk]

theorem text_eq_empty {column : Column} {i : ℕ} (h : column.length ≤ i) : column.text i = "" := by
  rw [Column.text, List.getElem?_eq_none h]
  rfl

theorem rowNumber_pos {n : ℕ} (hn : n ∈ r.filledCells.map SheetRow.rowNumber) : 0 < n := by
  obtain ⟨v, hv, rfl⟩ := List.mem_map.mp hn
  obtain ⟨i, -, rfl⟩ := List.mem_map.mp hv
  exact Nat.add_pos_left r.task.dataStartRow_pos i

namespace CompletedRun

variable (h : CompletedRun newURL clock sheetsTaskId L g r)

include h

theorem dataStartRow : r.task.dataStartRow = L.dataStartRow :=
  congrArg Settings.dataStartRow h.settings

theorem mem_filledCells {row : ℕ} :
    row + 1 ∈ r.filledCells.map SheetRow.rowNumber ↔ L.Filled g row := by
  have hpos := r.task.dataStartRow_pos
  rw [h.dataStartRow] at hpos
  simp only [Run.filledCells, filledCells, List.map_map, List.mem_map, List.mem_filter,
    List.mem_range, decide_eq_true_eq, Function.comp_apply, Layout.Filled, h.dataStartRow]
  constructor
  · rintro ⟨i, ⟨-, hdonor, hacceptor⟩, hrow⟩
    have hplace : L.dataStartRow - 1 + i = row := by omega
    rw [h.donorCells, hplace] at hdonor
    rw [h.acceptorCells, hplace] at hacceptor
    exact ⟨by omega, hdonor, hacceptor⟩
  · rintro ⟨hstart, hdonor, hacceptor⟩
    have hplace : L.dataStartRow - 1 + (row + 1 - L.dataStartRow) = row := by omega
    rw [← hplace, ← h.donorCells] at hdonor
    rw [← hplace, ← h.acceptorCells] at hacceptor
    refine ⟨row + 1 - L.dataStartRow, ⟨?_, hdonor, hacceptor⟩, by omega⟩
    by_contra! hlong
    exact hdonor (text_eq_empty (by omega))

theorem calls : r.filledCells = [] ∧ r.calls = [] ∨
    ∃ links minRow maxRow tail, links.length = r.filledCells.length ∧
      (r.filledCells.map SheetRow.rowNumber).min? = some minRow ∧
      (r.filledCells.map SheetRow.rowNumber).max? = some maxRow ∧
      r.calls = .writeFormattedBlock
        (resultBlock clock r.task L.result r.filledCells links minRow maxRow) :: tail ∧
      ∀ b, .writeFormattedBlock b ∈ tail → b = r.headerBlock ∧ 0 < L.headerRow := by
  obtain ⟨w₀, w, labels, hexec⟩ := h.run
  obtain ⟨hground, hcheck, hwrote⟩ := checked_of_run hexec h.ended h.completed
  have hsent := sent_of_run hexec h.completed
  have hnumbers : r.validRows.map (fun v => v.2.rowNumber) =
      r.filledCells.map SheetRow.rowNumber := by
    rw [hground.validRows, List.map_map]
    rfl
  obtain ⟨hnil, hcalls⟩ | ⟨maxRow, hplan, tail, hcalls, htail⟩ := hwrote
  · rw [hground.validRows, List.map_eq_nil_iff] at hnil
    exact .inl ⟨hnil, hcalls⟩
  · have hlen := congrArg List.length hcheck.keys
    rw [List.length_map, List.length_map, hground.validRows, List.length_map] at hlen
    have hle : r.minRow ≤ maxRow :=
      (List.min?_eq_some_iff.mp hplan.min).2 maxRow (List.max?_mem hplan.max)
    have hresult : r.startColumnIndex = L.result := by
      obtain hlines | hcol := hsent.placed
      · have hcount := congrArg List.length (hlines.symm.trans hplan.lines)
        rw [List.length_nil, List.length_map, List.length_range] at hcount
        omega
      · have hsame : r.task.resultStartCol = L.resultStartCol :=
          congrArg Settings.resultStartCol h.settings
        rw [hsame, L.result_eq] at hcol
        exact (Except.ok.inj hcol).symm
    refine .inr ⟨_, r.minRow, maxRow, tail, hlen, hnumbers ▸ hplan.min, hnumbers ▸ hplan.max, ?_, ?_⟩
    · rw [hcalls, hplan.dataBlock hcheck.toChecking hground, hresult]
    · intro b hb
      refine ⟨htail b hb, ?_⟩
      have hheader : r.task.headerRow = L.headerRow := congrArg Settings.headerRow h.settings
      rw [← hheader]
      exact hsent.tail b (by rw [hcalls]; exact hb)

theorem spanned_iff {minRow maxRow : ℕ}
    (hmin : (r.filledCells.map SheetRow.rowNumber).min? = some minRow)
    (hmax : (r.filledCells.map SheetRow.rowNumber).max? = some maxRow) :
    L.Spanned g row ↔ minRow ≤ row + 1 ∧ row + 1 ≤ maxRow := by
  obtain ⟨hminmem, hleast⟩ := List.min?_eq_some_iff.mp hmin
  obtain ⟨hmaxmem, hgreatest⟩ := List.max?_eq_some_iff.mp hmax
  constructor
  · rintro ⟨first, last, hfirst, hlast, hlow, hhigh⟩
    have hle := hleast _ (h.mem_filledCells.mpr hfirst)
    have hge := hgreatest _ (h.mem_filledCells.mpr hlast)
    omega
  · rintro ⟨hlow, hhigh⟩
    have hpos : ∀ n ∈ r.filledCells.map SheetRow.rowNumber, n - 1 + 1 = n := fun n hn =>
      Nat.sub_add_cancel (rowNumber_pos hn)
    refine ⟨minRow - 1, maxRow - 1, h.mem_filledCells.mp ?_, h.mem_filledCells.mp ?_, by omega,
      by omega⟩
    · rwa [hpos minRow hminmem]
    · rwa [hpos maxRow hmaxmem]

theorem after_eq (hrow : L.dataStartRow ≤ row + 1) :
    (¬ L.Spanned g row ∧ ∀ k, L.after r g row (L.result + k) = g row (L.result + k)) ∨
      L.Spanned g row ∧ ∃ links : List Link, links.length = r.filledCells.length ∧
        ∀ k cell, (dataLine clock (((links.zip r.filledCells).find? fun e =>
            e.2.rowNumber = row + 1).map Prod.fst))[k]? = some cell →
          L.after r g row (L.result + k) = cell.value.cell := by
  obtain ⟨hnil, hcalls⟩ | ⟨links, minRow, maxRow, tail, hlen, hmin, hmax, hcalls, htail⟩ := h.calls
  · refine .inl ⟨?_, fun k => by rw [Layout.after, hcalls, List.foldl_nil]⟩
    rintro ⟨first, -, hfirst, -⟩
    have hmem := h.mem_filledCells.mpr hfirst
    rw [hnil] at hmem
    cases hmem
  · have hheader : ∀ col b, .writeFormattedBlock b ∈ tail → b.cellAt row col = none := by
      intro col b hb
      obtain ⟨rfl, hpos⟩ := htail b hb
      cases hcell : r.headerBlock.cellAt row col with
      | none => rfl
      | some cell =>
        obtain ⟨-, hlt⟩ := row_lt_of_cellAt hcell
        have habove := L.header_above
        have hsame : r.task.headerRow = L.headerRow := congrArg Settings.headerRow h.settings
        simp only [Run.headerBlock, hsame, List.length_singleton] at hlt
        omega
    have hsheet : r.task.spreadsheetId = L.spreadsheetId ∧ r.task.sheetGid = L.sheetGid :=
      ⟨congrArg Settings.spreadsheetId h.settings, congrArg Settings.sheetGid h.settings⟩
    have hminpos : 0 < minRow := rowNumber_pos (List.min?_mem hmin)
    have hafter : ∀ k, L.after r g row (L.result + k) =
        (resultBlock clock r.task L.result r.filledCells links minRow maxRow).write g row
          (L.result + k) := by
      intro k
      rw [Layout.after, hcalls, List.foldl_cons, foldl_apply_eq (hheader _), SheetsCall.apply,
        if_pos (by exact hsheet)]
    simp only [hafter, FormattedBlock.write, cellAt_resultBlock hminpos]
    rw [h.spanned_iff hmin hmax]
    by_cases hspan : minRow ≤ row + 1 ∧ row + 1 ≤ maxRow
    · refine .inr ⟨hspan, links, hlen, fun k cell hcell => ?_⟩
      rw [if_pos hspan, hcell]
    · refine .inl ⟨hspan, fun k => ?_⟩
      rw [if_neg hspan]

theorem after_blank (hrow : L.dataStartRow ≤ row + 1) (hspan : L.Spanned g row)
    (hgap : ¬ L.Filled g row) : L.Blank (L.after r g) row := by
  intro k hk
  obtain ⟨hnot, -⟩ | ⟨-, links, -, hcells⟩ := h.after_eq hrow
  · exact absurd hspan hnot
  · have hfind : (links.zip r.filledCells).find? (fun e => e.2.rowNumber = row + 1) = none := by
      refine List.find?_eq_none.mpr fun e he hn => hgap (h.mem_filledCells.mp ?_)
      exact List.mem_map.mpr ⟨e.2, (List.of_mem_zip he).2, of_decide_eq_true hn⟩
    rw [hcells k { value := .text "" } (by rw [hfind]; exact dataLine_none hk)]
    rfl

theorem after_filled (hfilled : L.Filled g row) : ¬ L.Blank (L.after r g) row := by
  intro hblank
  obtain ⟨hnot, -⟩ | ⟨-, links, hlen, hcells⟩ := h.after_eq hfilled.1
  · exact hnot ⟨row, row, hfilled, hfilled, le_rfl, le_rfl⟩
  · obtain ⟨v, hv, hn⟩ := List.mem_map.mp (h.mem_filledCells.mpr hfilled)
    obtain ⟨j, hj⟩ := List.mem_iff_getElem?.mp hv
    have hlt : j < links.length := hlen ▸ (List.getElem?_eq_some_iff.mp hj).1
    have hmem : (links[j], v) ∈ links.zip r.filledCells :=
      List.mem_of_getElem? (List.getElem?_zip_eq_some.mpr ⟨List.getElem?_eq_getElem hlt, hj⟩)
    obtain ⟨e, he⟩ := Option.isSome_iff_exists.mp
      (List.find?_isSome.mpr ⟨_, hmem, decide_eq_true hn⟩ :
        ((links.zip r.filledCells).find? fun e => e.2.rowNumber = row + 1).isSome)
    have hline : (dataLine clock (some e.1))[0]?.map FormattedCell.value = _ := dataLine_some e.1
    obtain ⟨cell, hcell, hvalue⟩ := Option.map_eq_some_iff.mp hline
    have hwritten := hcells 0 cell (by rw [he]; exact hcell)
    have hempty := hblank 0 (by decide)
    rw [hwritten, hvalue] at hempty
    exact deriveLabel_ne_empty e.1 hempty

theorem after_outside (hrow : L.dataStartRow ≤ row + 1) (hspan : ¬ L.Spanned g row) :
    L.Blank (L.after r g) row ↔ L.Blank g row := by
  obtain ⟨-, hsame⟩ | ⟨hspan', -⟩ := h.after_eq hrow
  · simp only [Layout.Blank, hsame]
  · exact absurd hspan' hspan

end CompletedRun

theorem Layout.blank_congr {g' : Grid}
    (hedit : ∀ col, col ≠ L.donor → col ≠ L.acceptor → g' row col = g row col) :
    L.Blank g' row ↔ L.Blank g row := by
  refine forall_congr' fun k => imp_congr_right fun hk => ?_
  have hdonor := L.donor_outside
  have hacceptor := L.acceptor_outside
  rw [hedit _ (by omega) (by omega)]

/-- Two runs in a row, between which only donors and acceptors are edited: no row without a donor or
an acceptor shows a result it did not have before exactly when every row the first run has given a
result to lies between two filled rows of the second content. -/
theorem stale_verdicts {g₁ g₂ : Grid} {r₁ r₂ : Run}
    (h₁ : CompletedRun newURL clock sheetsTaskId L g₁ r₁)
    (h₂ : CompletedRun newURL clock sheetsTaskId L g₂ r₂)
    (hedit : ∀ row col, col ≠ L.donor → col ≠ L.acceptor → g₂ row col = L.after r₁ g₁ row col) :
    (∀ row, L.dataStartRow ≤ row + 1 → ¬ L.Filled g₂ row → L.Blank g₁ row →
        L.Blank (L.after r₂ g₂) row) ↔
      ∀ row, L.Filled g₁ row → L.Blank g₁ row → L.Spanned g₂ row := by
  have hbetween (row : ℕ) : L.Blank g₂ row ↔ L.Blank (L.after r₁ g₁) row :=
    L.blank_congr (hedit row)
  constructor
  · intro hclean row hfilled hblank
    by_contra hspan
    have hgap : ¬ L.Filled g₂ row := fun hf => hspan ⟨row, row, hf, hf, le_rfl, le_rfl⟩
    have hlast := hclean row hfilled.1 hgap hblank
    rw [h₂.after_outside hfilled.1 hspan, hbetween] at hlast
    exact h₁.after_filled hfilled hlast
  · intro hreach row hrow hgap hblank
    by_cases hspan : L.Spanned g₂ row
    · exact h₂.after_blank hrow hspan hgap
    · rw [h₂.after_outside hrow hspan, hbetween]
      have hgap₁ : ¬ L.Filled g₁ row := fun hf => hspan (hreach row hf hblank)
      by_cases hspan₁ : L.Spanned g₁ row
      · exact h₁.after_blank hrow hspan₁ hgap₁
      · exact (h₁.after_outside hrow hspan₁).mpr hblank

end Grid

section Examples

def exampleLayout : Layout where
  toSettings := settings exampleTask
  donor := 0
  acceptor := 1
  result := 2
  donor_eq := by decide +kernel
  acceptor_eq := by decide +kernel
  result_eq := by decide +kernel
  donor_outside := by decide
  acceptor_outside := by decide
  header_above := by decide

def exampleGrid (response : BatchGetResponse) : Grid := fun row col =>
  if 0 < row ∧ col < 2 then ((response.column col)[row - 1]?.bind fun cells => cells[0]?).getD .null
  else .null

def edited (g : Grid) (response : BatchGetResponse) : Grid := fun row col =>
  if col < 2 then exampleGrid response row col else g row col

theorem edited_eq (g : Grid) (response : BatchGetResponse) (row col : ℕ)
    (hdonor : col ≠ exampleLayout.donor) (hacceptor : col ≠ exampleLayout.acceptor) :
    edited g response row col = g row col := by
  have hdonor : col ≠ 0 := hdonor
  have hacceptor : col ≠ 1 := hacceptor
  exact if_neg (by omega)

def Reads (response : BatchGetResponse) (r : Run) : Prop :=
  r.pc = .ended ∧ r.threw = none ∧ settings r.task = settings exampleTask ∧ r.response = response

instance (response : BatchGetResponse) (r : Run) : Decidable (Reads response r) :=
  inferInstanceAs (Decidable (_ ∧ _ ∧ _ ∧ _))

theorem Reads.completed {response : BatchGetResponse} {r : Run} (h : Reads response r)
    {w₀ w : World} {labels : List SoloLabel}
    (hr : exec (soloStep exampleURL exampleClock "s") (w₀, .find "s") labels = some (w, .body r))
    (g : Grid) :
    CompletedRun exampleURL exampleClock "s" exampleLayout (edited g response) r := by
  obtain ⟨hended, hok, hsettings, rfl⟩ := h
  have hplace (i : ℕ) : exampleLayout.dataStartRow - 1 + i = i + 1 := Nat.add_comm 1 i
  refine ⟨⟨w₀, w, labels, hr⟩, hended, hok, hsettings, fun i => ?_, fun i => ?_⟩
  · rw [hplace]
    simp [Column.text, edited, exampleGrid, exampleLayout]
  · rw [hplace]
    simp [Column.text, edited, exampleGrid, exampleLayout]

def blankGrid : Grid := fun _ _ => .null

theorem blank_edited (response : BatchGetResponse) (row : ℕ) :
    exampleLayout.Blank (edited blankGrid response) row := by
  intro k _
  have hcol : ¬ exampleLayout.result + k < 2 := Nat.not_lt.mpr (Nat.le_add_right 2 k)
  rw [edited, if_neg hcol]
  rfl

def donorTurn (donors : List (List Cell)) : SheetsTurn := { exampleTurn with
  response := ⟨some [⟨some donors⟩, ⟨some (List.replicate 3 [.string "acceptor.example"])⟩]⟩
  cuid i := if i = 0 then "a" else if i = 1 then "b" else "c" }

def filledTurn : SheetsTurn :=
  donorTurn [[.string "donor"], [.string "https://donor.example/post"], [.string "donor"]]

def gappedTurn : SheetsTurn := donorTurn [[.string "donor"], [], [.string "donor"]]

def filledLabels : List SoloLabel :=
  List.replicate 15 (.act (.main filledTurn)) ++
    List.replicate 6 (.act (.child 0 { now := 1000, run := foundRun })) ++
    List.replicate 13 (.act (.main filledTurn))

def editedRuns : Option (World × Call) :=
  (exec (soloStep exampleURL exampleClock "s") (exampleWorld, .find "s") filledLabels).bind fun s =>
    exec (soloStep exampleURL exampleClock "s") (s.1, .find "s")
      (List.replicate 24 (.act (.main gappedTurn)))

theorem filled_edited {g : Grid} {response : BatchGetResponse} {row : ℕ} :
    exampleLayout.Filled (edited g response) row ↔
      exampleLayout.Filled (exampleGrid response) row := Iff.rfl

theorem row_le_of_filled {g : Grid} {donors : List (List Cell)} {row : ℕ}
    (h : exampleLayout.Filled (edited g (donorTurn donors).response) row) :
    row ≤ donors.length := by
  obtain ⟨-, hdonor, -⟩ := h
  by_contra hlt
  refine hdonor ?_
  have hnone : donors[row - 1]? = none := List.getElem?_eq_none (by omega)
  have hcell : edited g (donorTurn donors).response row exampleLayout.donor = .null := by
    simp [edited, exampleGrid, exampleLayout, BatchGetResponse.column, donorTurn, hnone]
  rw [hcell]
  rfl

theorem stale_verdicts_sample :
    ∃ r₁ r₂, CompletedRun exampleURL exampleClock "s" exampleLayout
        (edited blankGrid filledTurn.response) r₁ ∧
      CompletedRun exampleURL exampleClock "s" exampleLayout
        (edited (exampleLayout.after r₁ (edited blankGrid filledTurn.response))
          gappedTurn.response) r₂ ∧
      ¬ exampleLayout.Blank (exampleLayout.after r₁ (edited blankGrid filledTurn.response)) 2 ∧
      exampleLayout.Blank (exampleLayout.after r₂
        (edited (exampleLayout.after r₁ (edited blankGrid filledTurn.response))
          gappedTurn.response)) 2 := by
  obtain ⟨w₁, r₁, hr₁, hreads₁⟩ := exists_of_any (P := fun _ r => Reads filledTurn.response r)
    (s := exec (soloStep exampleURL exampleClock "s") (exampleWorld, .find "s") filledLabels)
    (by decide +kernel)
  obtain ⟨w₂, r₂, hr₂, hreads₂⟩ := exists_of_any (P := fun _ r => Reads gappedTurn.response r)
    (s := editedRuns) (by decide +kernel)
  rw [editedRuns, hr₁, Option.bind_some] at hr₂
  have h₁ := hreads₁.completed hr₁ blankGrid
  have h₂ := hreads₂.completed hr₂ (exampleLayout.after r₁ (edited blankGrid filledTurn.response))
  have hfilled : exampleLayout.Filled (exampleGrid filledTurn.response) 2 := by
    refine ⟨by decide, ?_, ?_⟩ <;> decide +kernel
  have hfirst : exampleLayout.Filled (exampleGrid gappedTurn.response) 1 := by
    refine ⟨by decide, ?_, ?_⟩ <;> decide +kernel
  have hlast : exampleLayout.Filled (exampleGrid gappedTurn.response) 3 := by
    refine ⟨by decide, ?_, ?_⟩ <;> decide +kernel
  have hgap : ¬ exampleLayout.Filled (exampleGrid gappedTurn.response) 2 := by
    rintro ⟨-, hdonor, -⟩
    exact hdonor (by decide +kernel)
  refine ⟨r₁, r₂, h₁, h₂, h₁.after_filled (filled_edited.mpr hfilled), ?_⟩
  refine (stale_verdicts h₁ h₂ (edited_eq _ gappedTurn.response)).mpr (fun row hrow _ => ?_) 2
    (by decide) (fun h => hgap (filled_edited.mp h)) (blank_edited _ 2)
  exact ⟨1, 3, filled_edited.mpr hfirst, filled_edited.mpr hlast,
    Nat.le_of_succ_le_succ hrow.1, row_le_of_filled hrow⟩

def emptiedTurn : SheetsTurn := { exampleTurn with response := ⟨none⟩ }

def twoRuns : Option (World × Call) :=
  (exec (soloStep exampleURL exampleClock "s") (exampleWorld, .find "s") soloLabels).bind fun s =>
    exec (soloStep exampleURL exampleClock "s") (s.1, .find "s")
      (List.replicate 17 (.act (.main emptiedTurn)))

theorem emptied_sheet_keeps_results : ¬ ∀ (newURL : UrlParser) (clock : LocalClock)
    (sheetsTaskId : SheetsTaskId) (L : Layout) (g₁ g₂ : Grid) (r₁ r₂ : Run),
    CompletedRun newURL clock sheetsTaskId L g₁ r₁ →
    CompletedRun newURL clock sheetsTaskId L g₂ r₂ →
    (∀ row col, col ≠ L.donor → col ≠ L.acceptor → g₂ row col = L.after r₁ g₁ row col) →
      ∀ row, L.dataStartRow ≤ row + 1 → ¬ L.Filled g₂ row → L.Blank g₁ row →
        L.Blank (L.after r₂ g₂) row := by
  intro hall
  obtain ⟨w₁, r₁, hr₁, hreads₁⟩ := exists_of_any (P := fun _ r => Reads exampleTurn.response r)
    (s := exec (soloStep exampleURL exampleClock "s") (exampleWorld, .find "s") soloLabels)
    (by decide +kernel)
  obtain ⟨w₂, r₂, hr₂, hreads₂⟩ := exists_of_any (P := fun _ r => Reads ⟨none⟩ r)
    (s := twoRuns) (by decide +kernel)
  rw [twoRuns, hr₁, Option.bind_some] at hr₂
  have h₁ := hreads₁.completed hr₁ blankGrid
  have h₂ := hreads₂.completed hr₂ (exampleLayout.after r₁ (edited blankGrid exampleTurn.response))
  have hnone : ∀ row, ¬ exampleLayout.Filled
      (edited (exampleLayout.after r₁ (edited blankGrid exampleTurn.response)) ⟨none⟩) row := by
    rintro row ⟨-, hdonor, -⟩
    refine hdonor ?_
    have hcell : edited (exampleLayout.after r₁ (edited blankGrid exampleTurn.response)) ⟨none⟩ row
        exampleLayout.donor = .null := by
      simp [edited, exampleGrid, exampleLayout, BatchGetResponse.column]
    rw [hcell]
    rfl
  have hfilled : exampleLayout.Filled (edited blankGrid exampleTurn.response) 1 := by
    refine ⟨by decide, ?_, ?_⟩ <;> decide +kernel
  have hblank := hall _ _ _ exampleLayout _ _ r₁ r₂ h₁ h₂ (edited_eq _ ⟨none⟩) 1 (by decide)
    (hnone 1) (blank_edited _ 1)
  rw [h₂.after_outside (by decide) fun ⟨_, _, hfirst, _⟩ => hnone _ hfirst,
    exampleLayout.blank_congr (edited_eq _ ⟨none⟩ 1)] at hblank
  exact h₁.after_filled hfilled hblank

end Examples

end LinkBulker.Sheets
