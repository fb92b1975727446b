import LinkBulker.Foundations.Munch
import LinkBulker.Shared.ColumnLetters

/-! A reader gets the arguments of `buildA1Range` back from the range. -/

namespace LinkBulker.Shared

open Foundations

def readTitle : List Char → Option (Option String × List Char)
  | '\'' :: cs =>
    (Quoting.readQuoted '\'' cs).bind fun quoted =>
      match quoted.2 with
      | '!' :: rest => some (some (String.ofList quoted.1), rest)
      | _ => none
  | cs => some (none, cs)

def readCell (cs : List Char) : Option ((String × ℕ) × List Char) :=
  (Munch.munch Char.isUpper cs).bind fun col =>
    (Munch.readNumber col.2).map fun row => ((String.ofList col.1, row.1), row.2)

def readEnd (cs : List Char) : Option (String × Option ℕ) :=
  (Munch.munch Char.isUpper cs).bind fun col =>
    if col.2 = [] then some (String.ofList col.1, none)
    else (Munch.readNumber col.2).bind fun row =>
      if row.2 = [] then some (String.ofList col.1, some row.1) else none

def readA1Range (range : String) : Option A1Range :=
  (readTitle range.toList).bind fun title =>
    (readCell title.2).bind fun start =>
      match start.2 with
      | ':' :: rest =>
        (readEnd rest).map fun stop => ⟨title.1, start.1.1, stop.1, start.1.2, stop.2⟩
      | _ => none

structure IsUpperColumn (col : String) : Prop where
  ne_nil : col.toList ≠ []
  isUpper : ∀ c ∈ col.toList, c.isUpper

structure A1Range.Valid (opts : A1Range) : Prop where
  sheetName : opts.sheetName ≠ some ""
  fromCol : IsUpperColumn opts.fromCol
  toCol : IsUpperColumn opts.toCol
  fromRow : 1 ≤ opts.fromRow
  toRow : opts.toRow ≠ some 0

def titleChars : Option String → List Char
  | none => []
  | some name => '\'' :: (Quoting.escape '\'' name.toList ++ ['\'', '!'])

def rowChars : Option ℕ → List Char
  | none => []
  | some row => (toString row).toList

theorem toList_buildA1Range {opts : A1Range} (h : opts.Valid) :
    (buildA1Range opts).toList = titleChars opts.sheetName ++ (opts.fromCol.toList ++
      ((toString opts.fromRow).toList ++ ':' :: (opts.toCol.toList ++ rowChars opts.toRow))) := by
  obtain ⟨sheetName, fromCol, toCol, fromRow, toRow⟩ := opts
  cases sheetName with
  | none =>
    cases toRow with
    | none => simp [buildA1Range, titleChars, rowChars]
    | some row =>
      have hrow : row ≠ 0 := fun h0 => h.toRow (congrArg some h0)
      simp [buildA1Range, titleChars, rowChars, hrow]
  | some name =>
    have hname : name ≠ "" := fun h0 => h.sheetName (congrArg some h0)
    cases toRow with
    | none => simp [buildA1Range, titleChars, rowChars, hname]
    | some row =>
      have hrow : row ≠ 0 := fun h0 => h.toRow (congrArg some h0)
      simp [buildA1Range, titleChars, rowChars, hname, hrow]

theorem readTitle_append (sheetName : Option String) {rest : List Char}
    (hrest : rest.head? ≠ some '\'') :
    readTitle (titleChars sheetName ++ rest) = some (sheetName, rest) := by
  cases sheetName with
  | none =>
    cases rest with
    | nil => rfl
    | cons c cs =>
      have hc : c ≠ '\'' := fun h => hrest (congrArg some h)
      show readTitle (c :: cs) = _
      unfold readTitle
      split
      · exact absurd (List.cons.inj ‹_›).1 hc
      · rfl
  | some name =>
    -- The quote that closes the title is followed by `!`, so it is not one half of a pair.
    have hquoted : Quoting.readQuoted '\'' (Quoting.escape '\'' name.toList ++ '\'' :: '!' :: rest) =
        some (name.toList, '!' :: rest) := Quoting.readQuoted_escape (by simp)
    have htitle : titleChars (some name) ++ rest =
        '\'' :: (Quoting.escape '\'' name.toList ++ '\'' :: '!' :: rest) := by
      simp [titleChars]
    rw [htitle]
    simp [readTitle, hquoted]

theorem not_isUpper_of_isDigit {c : Char} (h : c.isDigit) : ¬ c.isUpper := by
  have hdigit : '0'.toNat ≤ c.toNat ∧ c.toNat ≤ '9'.toNat := Char.isDigit_iff_toNat.mp h
  rw [isUpper_iff_toNat]
  exact fun hupper => absurd (hupper.1.trans hdigit.2) (by decide)

theorem munch_isUpper_append {col : String} (hcol : IsUpperColumn col) {rest : List Char}
    (hrest : ∀ c ∈ rest.head?, ¬ c.isUpper) :
    Munch.munch Char.isUpper (col.toList ++ rest) = some (col.toList, rest) :=
  Munch.munch_append hcol.ne_nil hcol.isUpper hrest

theorem readCell_append {col : String} (hcol : IsUpperColumn col) (row : ℕ) {rest : List Char}
    (hrest : ∀ c ∈ rest.head?, ¬ c.isDigit) :
    readCell (col.toList ++ ((toString row).toList ++ rest)) = some ((col, row), rest) := by
  unfold readCell
  rw [munch_isUpper_append hcol fun c hc => not_isUpper_of_isDigit (Munch.isDigit_of_mem_head? c hc),
    Option.bind_some, Munch.readNumber_append row hrest, Option.map_some, String.ofList_toList]

theorem readEnd_append {col : String} (hcol : IsUpperColumn col) (row : Option ℕ) :
    readEnd (col.toList ++ rowChars row) = some (col, row) := by
  unfold readEnd
  cases row with
  | none =>
    rw [munch_isUpper_append hcol (by simp [rowChars])]
    simp [rowChars]
  | some row =>
    have hne : rowChars (some row) ≠ [] := Munch.toList_toString_ne_nil row
    have hnumber : Munch.readNumber (rowChars (some row)) = some (row, []) := by
      rw [← List.append_nil (rowChars _)]
      exact Munch.readNumber_append row (by simp)
    have hstop : ∀ c ∈ (rowChars (some row)).head?, ¬ c.isUpper := by
      intro c hc
      exact not_isUpper_of_isDigit (Munch.isDigit_of_mem_toString (List.mem_of_mem_head? hc))
    rw [munch_isUpper_append hcol hstop, Option.bind_some, if_neg hne, hnumber]
    simp

theorem head?_fromCol {opts : A1Range} (h : opts.Valid) (rest : List Char) :
    (opts.fromCol.toList ++ rest).head? ≠ some '\'' := by
  rw [List.head?_append_of_ne_nil _ h.fromCol.ne_nil]
  intro hquote
  exact absurd (h.fromCol.isUpper '\'' (List.mem_of_mem_head? hquote)) (by decide)

theorem readA1Range_buildA1Range {opts : A1Range} (h : opts.Valid) :
    readA1Range (buildA1Range opts) = some opts := by
  unfold readA1Range
  rw [toList_buildA1Range h, readTitle_append _ (head?_fromCol h _), Option.bind_some,
    readCell_append h.fromCol _ (by simp), Option.bind_some]
  show (readEnd _).map _ = _
  rw [readEnd_append h.toCol]
  rfl

/-- A title may look like the rest of a range: it is read back all the same. -/
theorem buildA1Range_unambiguous :
    (∀ opts : A1Range, opts.Valid → readA1Range (buildA1Range opts) = some opts) ∧
    (∀ a b : A1Range, a.Valid → b.Valid → buildA1Range a = buildA1Range b → a = b) := by
  refine ⟨fun opts h => readA1Range_buildA1Range h, fun a b ha hb hrange => ?_⟩
  have hread : some a = some b := by
    rw [← readA1Range_buildA1Range ha, hrange, readA1Range_buildA1Range hb]
  exact Option.some.inj hread

theorem buildA1Range_unambiguous_sample :
    readA1Range (buildA1Range ⟨some "A'!B2:C", "A", "BC", 2, some 30⟩) =
      some ⟨some "A'!B2:C", "A", "BC", 2, some 30⟩ :=
  buildA1Range_unambiguous.1 _ ⟨by decide, ⟨by decide, List.all_eq_true.mp (by decide)⟩,
    ⟨by decide, List.all_eq_true.mp (by decide)⟩, by decide, by decide⟩

end LinkBulker.Shared
