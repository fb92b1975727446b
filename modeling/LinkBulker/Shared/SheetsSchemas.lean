import Mathlib.Data.Rat.Defs
import LinkBulker.Shared.ColumnLetters
import LinkBulker.Shared.Url

/-! `packages/shared/src/schemas/sheets.ts`: what the API accepts as the settings of a sheets task.
Each field is checked alone. -/

namespace LinkBulker.Shared

/-- `/^[A-Z]{1,3}$/`. -/
def isColumnLetter (s : String) : Bool :=
  1 ≤ s.toList.length && s.toList.length ≤ 3 && s.toList.all Char.isUpper

abbrev ColumnLetter := {s : String // isColumnLetter s}

/-- `z.string().min(min).max(max)`. -/
abbrev BoundedString (min max : ℕ) := {s : String // min ≤ utf16Length s ∧ utf16Length s ≤ max}

/-- `z.number().int().min(min).max(max)`. -/
abbrev BoundedInt (min max : ℕ) := {n : ℕ // min ≤ n ∧ n ≤ max}

structure CreateSheetsTaskInput where
  name : BoundedString 1 120
  spreadsheetId : BoundedString 1 200
  sheetGid : ℕ := 0
  donorColumn : ColumnLetter
  acceptorColumn : ColumnLetter
  resultStartCol : ColumnLetter
  headerRow : BoundedInt 0 10 := ⟨1, by decide⟩
  dataStartRow : BoundedInt 1 1000 := ⟨2, by decide⟩
  scheduleCron : Option (BoundedString 0 120) := none

/-- `CreateSheetsTaskInput.partial()`: a field that is not given has no default. -/
structure UpdateSheetsTaskInput where
  name : Option (BoundedString 1 120) := none
  spreadsheetId : Option (BoundedString 1 200) := none
  sheetGid : Option ℕ := none
  donorColumn : Option ColumnLetter := none
  acceptorColumn : Option ColumnLetter := none
  resultStartCol : Option ColumnLetter := none
  headerRow : Option (BoundedInt 0 10) := none
  dataStartRow : Option (BoundedInt 1 1000) := none
  scheduleCron : Option (BoundedString 0 120) := none

structure SheetsTaskBody where
  name : Option String := none
  spreadsheetId : Option String := none
  sheetGid : Option ℚ := none
  donorColumn : Option String := none
  acceptorColumn : Option String := none
  resultStartCol : Option String := none
  headerRow : Option ℚ := none
  dataStartRow : Option ℚ := none
  scheduleCron : Option String := none

def parseString (min max : ℕ) (s : String) : Option (BoundedString min max) :=
  if h : min ≤ utf16Length s ∧ utf16Length s ≤ max then some ⟨s, h⟩ else none

def parseColumnLetter (s : String) : Option ColumnLetter :=
  if h : isColumnLetter s then some ⟨s, h⟩ else none

/-- `z.number().int().min(0)`. -/
def parseNat (q : ℚ) : Option ℕ := if (q.num.toNat : ℚ) = q then some q.num.toNat else none

def parseInt (min max : ℕ) (q : ℚ) : Option (BoundedInt min max) :=
  (parseNat q).bind fun n => if h : min ≤ n ∧ n ≤ max then some ⟨n, h⟩ else none

/-- `optional()` around a schema. -/
def optional {α β : Type} (parse : α → Option β) : Option α → Option (Option β)
  | none => some none
  | some a => (parse a).map some

def UpdateSheetsTaskInput.parse (body : SheetsTaskBody) : Option UpdateSheetsTaskInput := do
  let name ← optional (parseString 1 120) body.name
  let spreadsheetId ← optional (parseString 1 200) body.spreadsheetId
  let sheetGid ← optional parseNat body.sheetGid
  let donorColumn ← optional parseColumnLetter body.donorColumn
  let acceptorColumn ← optional parseColumnLetter body.acceptorColumn
  let resultStartCol ← optional parseColumnLetter body.resultStartCol
  let headerRow ← optional (parseInt 0 10) body.headerRow
  let dataStartRow ← optional (parseInt 1 1000) body.dataStartRow
  let scheduleCron ← optional (parseString 0 120) body.scheduleCron
  return ⟨name, spreadsheetId, sheetGid, donorColumn, acceptorColumn, resultStartCol, headerRow,
    dataStartRow, scheduleCron⟩

section Parse

variable {α β γ : Type} {parse : α → Option β} {val : β → γ} {x : Option α} {y : Option β}

theorem map_of_optional {f : α → γ} (h : optional parse x = some y)
    (hval : ∀ a b, parse a = some b → val b = f a) : y.map val = x.map f := by
  cases x with
  | none =>
    cases h
    rfl
  | some a =>
    obtain ⟨b, hb, rfl⟩ := Option.map_eq_some_iff.mp h
    rw [Option.map_some, Option.map_some, hval a b hb]

theorem val_of_parseString {min max : ℕ} (s : String) (b : BoundedString min max)
    (h : parseString min max s = some b) : b.val = s := by
  obtain ⟨_, hb⟩ := Option.dite_none_right_eq_some.mp h
  exact congrArg Subtype.val (Option.some.inj hb).symm

theorem val_of_parseColumnLetter (s : String) (b : ColumnLetter)
    (h : parseColumnLetter s = some b) : b.val = s := by
  obtain ⟨_, hb⟩ := Option.dite_none_right_eq_some.mp h
  exact congrArg Subtype.val (Option.some.inj hb).symm

theorem cast_of_parseNat (q : ℚ) (n : ℕ) (h : parseNat q = some n) : (n : ℚ) = q := by
  obtain ⟨hcast, hn⟩ := Option.ite_none_right_eq_some.mp h
  rw [← Option.some.inj hn]
  exact hcast

theorem cast_of_parseInt {min max : ℕ} (q : ℚ) (b : BoundedInt min max)
    (h : parseInt min max q = some b) : (b.val : ℚ) = q := by
  obtain ⟨n, hn, hb⟩ := Option.bind_eq_some_iff.mp h
  obtain ⟨_, hb⟩ := Option.dite_none_right_eq_some.mp hb
  have hval : b.val = n := congrArg Subtype.val (Option.some.inj hb).symm
  rw [hval]
  exact cast_of_parseNat q n hn

structure UpdateSheetsTaskInput.Holds (dto : UpdateSheetsTaskInput) (body : SheetsTaskBody) :
    Prop where
  name : dto.name.map Subtype.val = body.name
  spreadsheetId : dto.spreadsheetId.map Subtype.val = body.spreadsheetId
  sheetGid : dto.sheetGid.map Nat.cast = body.sheetGid
  donorColumn : dto.donorColumn.map Subtype.val = body.donorColumn
  acceptorColumn : dto.acceptorColumn.map Subtype.val = body.acceptorColumn
  resultStartCol : dto.resultStartCol.map Subtype.val = body.resultStartCol
  headerRow : dto.headerRow.map (fun n => (n.val : ℚ)) = body.headerRow
  dataStartRow : dto.dataStartRow.map (fun n => (n.val : ℚ)) = body.dataStartRow
  scheduleCron : dto.scheduleCron.map Subtype.val = body.scheduleCron

theorem UpdateSheetsTaskInput.holds_of_parse {body : SheetsTaskBody} {dto : UpdateSheetsTaskInput}
    (h : UpdateSheetsTaskInput.parse body = some dto) : dto.Holds body := by
  simp only [UpdateSheetsTaskInput.parse, Option.bind_eq_bind, Option.bind_eq_some_iff,
    Option.pure_def, Option.some.injEq] at h
  obtain ⟨name, hname, spreadsheetId, hspreadsheetId, sheetGid, hsheetGid, donorColumn, hdonorColumn,
    acceptorColumn, hacceptorColumn, resultStartCol, hresultStartCol, headerRow, hheaderRow,
    dataStartRow, hdataStartRow, scheduleCron, hscheduleCron, rfl⟩ := h
  constructor
  · simpa using map_of_optional (f := id) hname val_of_parseString
  · simpa using map_of_optional (f := id) hspreadsheetId val_of_parseString
  · simpa using map_of_optional (f := id) hsheetGid cast_of_parseNat
  · simpa using map_of_optional (f := id) hdonorColumn val_of_parseColumnLetter
  · simpa using map_of_optional (f := id) hacceptorColumn val_of_parseColumnLetter
  · simpa using map_of_optional (f := id) hresultStartCol val_of_parseColumnLetter
  · simpa using map_of_optional (f := id) hheaderRow cast_of_parseInt
  · simpa using map_of_optional (f := id) hdataStartRow cast_of_parseInt
  · simpa using map_of_optional (f := id) hscheduleCron val_of_parseString

theorem parseNat_natCast (n : ℕ) : parseNat n = some n := by
  simp [parseNat]

theorem exists_parse {body : SheetsTaskBody} {dto : UpdateSheetsTaskInput} {id : String} (gid : ℕ)
    (h : UpdateSheetsTaskInput.parse body = some dto)
    (hid : 1 ≤ utf16Length id ∧ utf16Length id ≤ 200) : ∃ dto',
      UpdateSheetsTaskInput.parse { body with spreadsheetId := some id, sheetGid := some gid } =
        some dto' := by
  have hsome : optional (parseString 1 200) (some id) = some (some ⟨id, hid⟩) := by
    rw [optional, parseString, dif_pos hid, Option.map_some]
  have hgid : optional parseNat (some (gid : ℚ)) = some (some gid) := by
    rw [optional, parseNat_natCast, Option.map_some]
  simp only [UpdateSheetsTaskInput.parse, Option.bind_eq_bind, Option.bind_eq_some_iff,
    Option.pure_def, Option.some.injEq] at h
  obtain ⟨name, hname, -, -, -, -, donorColumn, hdonorColumn, acceptorColumn, hacceptorColumn,
    resultStartCol, hresultStartCol, headerRow, hheaderRow, dataStartRow, hdataStartRow,
    scheduleCron, hscheduleCron, -⟩ := h
  refine ⟨⟨name, some ⟨id, hid⟩, some gid, donorColumn, acceptorColumn, resultStartCol, headerRow,
    dataStartRow, scheduleCron⟩, ?_⟩
  simp only [UpdateSheetsTaskInput.parse, hname, hsome, hgid, hdonorColumn, hacceptorColumn,
    hresultStartCol, hheaderRow, hdataStartRow, hscheduleCron]
  rfl

end Parse

theorem colLetterToIndex_of_isColumnLetter {s : String} (h : isColumnLetter s) :
    ∃ n, colLetterToIndex s = .ok n := by
  simp only [isColumnLetter, Bool.and_eq_true, decide_eq_true_eq] at h
  obtain ⟨⟨hpos, -⟩, hall⟩ := h
  have hcolumn : IsColumn s := by
    refine ⟨List.ne_nil_of_length_pos hpos, fun c hc => ?_⟩
    rw [Char.isAlpha, List.all_eq_true.mp hall c hc, Bool.true_or]
  obtain ⟨n, hn, -⟩ := hcolumn.index_eq
  exact ⟨n, hn⟩

end LinkBulker.Shared
