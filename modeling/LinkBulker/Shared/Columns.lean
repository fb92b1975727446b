import LinkBulker.Foundations.Quoting
import Mathlib.Data.Nat.Basic

/-! `packages/shared/src/columns.ts`.  Column letters are ASCII: of a letter such as `ı`, whose upper
case is ASCII, `toUpperCase` makes a column letter too. -/

namespace LinkBulker.Shared

open Foundations

def colLetterToIndex (letter : String) : Except String ℕ :=
  let upper := letter.toList.map Char.toUpper
  if upper ≠ [] ∧ upper.all Char.isUpper then
    .ok (upper.foldl (fun index c => index * 26 + (c.toNat - 64)) 0 - 1)
  else .error ("Invalid column letter: \"" ++ letter ++ "\"")

example : colLetterToIndex "ba" = .ok 52 := by decide +kernel

def colLetterLoop (n : ℕ) (result : List Char) : List Char :=
  if 0 < n then colLetterLoop ((n - 1) / 26) (Char.ofNat (65 + (n - 1) % 26) :: result)
  else result
termination_by n

def indexToColLetter (index : ℤ) : Except String String :=
  if index < 0 then .error ("Invalid column index: " ++ toString index)
  else .ok (String.ofList (colLetterLoop (index.toNat + 1) []))

def offsetColLetter (letter : String) (delta : ℤ) : Except String String := do
  let index ← colLetterToIndex letter
  indexToColLetter (index + delta)

structure A1Range where
  sheetName : Option String
  fromCol : String
  toCol : String
  fromRow : ℕ
  toRow : Option ℕ
  deriving DecidableEq

/-- A title that is empty and an end row `0` count as absent. -/
def buildA1Range (opts : A1Range) : String :=
  let title :=
    match opts.sheetName with
    | some name =>
      if name = "" then "" else "'" ++ String.ofList (Quoting.escape '\'' name.toList) ++ "'!"
    | none => ""
  let tail :=
    match opts.toRow with
    | some toRow => if toRow = 0 then opts.toCol else opts.toCol ++ toString toRow
    | none => opts.toCol
  title ++ opts.fromCol ++ toString opts.fromRow ++ ":" ++ tail

example : buildA1Range ⟨some "John's", "A", "A", 1, none⟩ = "'John''s'!A1:A" := by decide +kernel

end LinkBulker.Shared
