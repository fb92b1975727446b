import Mathlib.Data.Rat.Defs
import LinkBulker.Shared.Url

/-! `apps/worker/src/modules/sheets/sheets-client.service.ts`: what the Sheets API answers and what
is sent to it. -/

namespace LinkBulker.Sheets

open Shared

/-- A value of the API; a number comes as `String` writes it. -/
inductive Cell
  | string (s : String)
  | number (shown : String)
  | bool (b : Bool)
  | null
  deriving DecidableEq

/-- `String(cell ?? '')`. -/
def Cell.toString : Cell → String
  | .string s => s
  | .number shown => shown
  | .bool true => "true"
  | .bool false => "false"
  | .null => ""

abbrev Column := List (List Cell)

structure ValueRange where
  values : Option Column
  deriving DecidableEq

structure BatchGetResponse where
  valueRanges : Option (List ValueRange)
  deriving DecidableEq

/-- `valueRanges[k]?.values ?? []`. -/
def BatchGetResponse.column (result : BatchGetResponse) (k : ℕ) : Column :=
  ((result.valueRanges.getD [])[k]?.bind ValueRange.values).getD []

def Column.text (column : Column) (i : ℕ) : String :=
  trim ((column[i]?.bind fun row => row[0]?).getD Cell.null).toString

structure SheetRow where
  rowNumber : ℕ
  donorUrl : String
  acceptor : String
  deriving DecidableEq

def readDonorRows (dataStartRow : ℕ) (result : BatchGetResponse) : List SheetRow :=
  let donorValues := result.column 0
  let acceptorValues := result.column 1
  (List.range (max donorValues.length acceptorValues.length)).filterMap fun i =>
    let donorUrl := donorValues.text i
    let acceptor := acceptorValues.text i
    if donorUrl = "" ∧ acceptor = "" then none else some ⟨dataStartRow + i, donorUrl, acceptor⟩

structure SheetProperties where
  sheetId : Option ℕ
  title : Option String
  deriving DecidableEq

def resolveSheetTitle (sheets : List SheetProperties) (sheetGid : ℕ) : Option String :=
  (sheets.find? fun s => s.sheetId == some sheetGid).bind SheetProperties.title

structure RGB where
  r : ℚ
  g : ℚ
  b : ℚ
  deriving DecidableEq

inductive CellValue
  | text (s : String)
  | number (n : ℤ)
  deriving DecidableEq

structure FormattedCell where
  value : CellValue
  bgColor : Option RGB := none
  textColor : Option RGB := none
  bold : Bool := false
  deriving DecidableEq

/-- The parameters of `writeFormattedBlock`. -/
structure FormattedBlock where
  spreadsheetId : String
  sheetId : ℕ
  startRowIndex : ℕ
  startColumnIndex : ℕ
  cells : List (List FormattedCell)
  deriving DecidableEq

inductive SheetsCall
  | writeFormattedBlock (block : FormattedBlock)
  | setColumnWidths (spreadsheetId : String) (sheetId startColumnIndex : ℕ) (widths : List ℕ)
  deriving DecidableEq

def FormattedBlock.sent (block : FormattedBlock) : List SheetsCall :=
  if block.cells.length = 0 then [] else [.writeFormattedBlock block]

theorem FormattedBlock.mem_sent {block b : FormattedBlock}
    (h : .writeFormattedBlock b ∈ block.sent) : b = block ∧ block.cells ≠ [] := by
  unfold FormattedBlock.sent at h
  split at h
  · cases h
  · rename_i hne
    obtain ⟨⟩ := List.mem_singleton.mp h
    exact ⟨rfl, fun hnil => hne (by rw [hnil]; rfl)⟩

theorem Column.trim_text (column : Column) (i : ℕ) : trim (column.text i) = column.text i :=
  trim_trim _

theorem mem_readDonorRows {start : ℕ} {result : BatchGetResponse} {row : SheetRow} :
    row ∈ readDonorRows start result ↔
      ∃ i < max (result.column 0).length (result.column 1).length,
        ¬ ((result.column 0).text i = "" ∧ (result.column 1).text i = "") ∧
          row = ⟨start + i, (result.column 0).text i, (result.column 1).text i⟩ := by
  simp only [readDonorRows, List.mem_filterMap, List.mem_range]
  refine exists_congr fun i => and_congr_right fun _ => ?_
  split
  · rename_i hblank
    exact ⟨nofun, fun h => absurd hblank h.1⟩
  · rename_i hblank
    rw [Option.some.injEq, eq_comm]
    exact ⟨fun h => ⟨hblank, h⟩, And.right⟩

end LinkBulker.Sheets
