import LinkBulker.Foundations.Munch
import LinkBulker.Shared.Url

/-! `packages/shared/src/sheets-url.ts`: the spreadsheet and the tab that a Google Sheets URL names.
`Number` of a row of digits is exact. -/

namespace LinkBulker.Shared

open Foundations

structure ParsedSheetUrl where
  spreadsheetId : String
  sheetGid : ℕ
  deriving DecidableEq

/-- `[a-zA-Z0-9_-]`. -/
def isIdChar (c : Char) : Bool := c.isAlphanum || c == '_' || c == '-'

def afterPrefix : List Char → List Char → Option (List Char)
  | [], cs => some cs
  | _ :: _, [] => none
  | t :: ts, c :: cs => if t = c then afterPrefix ts cs else none

/-- The first match of an unanchored regular expression, given its match at one place. -/
def firstMatch {α : Type} (matchAt : List Char → Option α) : List Char → Option α
  | [] => matchAt []
  | c :: cs => (matchAt (c :: cs)).or (firstMatch matchAt cs)

/-- `/\/spreadsheets\/d\/([a-zA-Z0-9_-]{20,})/`. -/
def SPREADSHEET_ID_RE : List Char → Option (List Char) :=
  firstMatch fun cs => (afterPrefix "/spreadsheets/d/".toList cs).bind fun rest =>
    let id := rest.takeWhile isIdChar
    if 20 ≤ id.length then some id else none

/-- `/^([a-zA-Z0-9_-]{20,})$/`. -/
def BARE_ID_RE (cs : List Char) : Option (List Char) :=
  if 20 ≤ cs.length ∧ cs.all isIdChar then some cs else none

/-- `/[?#&]gid=(\d+)/`. -/
def GID_RE : List Char → Option (List Char) :=
  firstMatch fun cs =>
    match cs with
    | c :: cs =>
      if c = '?' ∨ c = '#' ∨ c = '&' then
        (afterPrefix "gid=".toList cs).bind fun rest =>
          let digits := rest.takeWhile Char.isDigit
          if digits = [] then none else some digits
      else none
    | [] => none

def numberOfDigits (digits : List Char) : ℕ :=
  digits.foldl (fun n c => 10 * n + (c.toNat - '0'.toNat)) 0

def parseSheetUrl (input : String) : Option ParsedSheetUrl :=
  let trimmed := trimChars input.toList
  if trimmed = [] then none
  else
    match BARE_ID_RE trimmed with
    | some id => some ⟨String.ofList id, 0⟩
    | none => (SPREADSHEET_ID_RE trimmed).map fun id =>
      ⟨String.ofList id, ((GID_RE trimmed).map numberOfDigits).getD 0⟩

example : parseSheetUrl "https://docs.google.com/spreadsheets/d/abcdefghij1234567890/edit#gid=12345" =
    some ⟨"abcdefghij1234567890", 12345⟩ := by decide +kernel

section FirstMatch

variable {α : Type} {matchAt : List Char → Option α} {a : α}

theorem firstMatch_of_matchAt {cs : List Char} (h : matchAt cs = some a) :
    firstMatch matchAt cs = some a := by
  cases cs with
  | nil => exact h
  | cons c cs => rw [firstMatch, h, Option.some_or]

theorem firstMatch_append {text : List Char} (rest : List Char)
    (h : ∀ c ∈ text, ∀ cs, matchAt (c :: cs) = none) :
    firstMatch matchAt (text ++ rest) = firstMatch matchAt rest := by
  induction text with
  | nil => rfl
  | cons c text ih =>
    rw [List.forall_mem_cons] at h
    rw [List.cons_append, firstMatch, h.1, Option.none_or, ih h.2]

theorem exists_matchAt {cs : List Char} (h : firstMatch matchAt cs = some a) :
    ∃ rest, matchAt rest = some a := by
  induction cs with
  | nil => exact ⟨[], h⟩
  | cons c cs ih =>
    rcases Option.or_eq_some_iff.mp h with hat | ⟨-, hlater⟩
    · exact ⟨c :: cs, hat⟩
    · exact ih hlater

end FirstMatch

theorem afterPrefix_append (text rest : List Char) : afterPrefix text (text ++ rest) = some rest := by
  induction text with
  | nil => rfl
  | cons c text ih => rw [List.cons_append, afterPrefix, if_pos rfl, ih]

theorem afterPrefix_cons_of_ne {t c : Char} {cs : List Char} (ts : List Char) (h : t ≠ c) :
    afterPrefix (t :: ts) (c :: cs) = none := if_neg h

theorem SPREADSHEET_ID_RE_append {text : List Char} (h : ∀ c ∈ text, c ≠ '/') (cs : List Char) :
    SPREADSHEET_ID_RE (text ++ cs) = SPREADSHEET_ID_RE cs := by
  refine firstMatch_append cs fun c hc rest => ?_
  have htext : "/spreadsheets/d/".toList = '/' :: "spreadsheets/d/".toList := by simp
  rw [htext, afterPrefix_cons_of_ne _ (h c hc).symm, Option.bind_none]

theorem SPREADSHEET_ID_RE_slash {c : Char} (h : c ≠ 's') (cs : List Char) :
    SPREADSHEET_ID_RE ('/' :: c :: cs) = SPREADSHEET_ID_RE (c :: cs) := by
  have htext : "/spreadsheets/d/".toList = '/' :: 's' :: "preadsheets/d/".toList := by simp
  have hnone : afterPrefix "/spreadsheets/d/".toList ('/' :: c :: cs) = none := by
    rw [htext, afterPrefix, if_pos rfl, afterPrefix_cons_of_ne _ h.symm]
  unfold SPREADSHEET_ID_RE
  rw [firstMatch, hnone, Option.bind_none, Option.none_or]

theorem GID_RE_append {text : List Char} (h : ∀ c ∈ text, c ≠ '?' ∧ c ≠ '#' ∧ c ≠ '&')
    (cs : List Char) : GID_RE (text ++ cs) = GID_RE cs := by
  refine firstMatch_append cs fun c hc rest => ?_
  obtain ⟨h1, h2, h3⟩ := h c hc
  exact if_neg (by simp [h1, h2, h3])

theorem GID_RE_hash (gid : ℕ) :
    GID_RE ('#' :: ("gid=".toList ++ (toString gid).toList)) = some (toString gid).toList := by
  apply firstMatch_of_matchAt
  have hdigits : (toString gid).toList.takeWhile Char.isDigit = (toString gid).toList :=
    List.takeWhile_eq_self_iff.mpr fun _ hc => Munch.isDigit_of_mem_toString hc
  dsimp only
  rw [if_pos (by decide), afterPrefix_append, Option.bind_some, hdigits]
  exact if_neg (Munch.toList_toString_ne_nil gid)

theorem ne_mark_of_isIdChar {c : Char} (h : isIdChar c) : c ≠ '?' ∧ c ≠ '#' ∧ c ≠ '&' := by
  refine ⟨?_, ?_, ?_⟩ <;> rintro rfl <;> exact absurd h (by decide)

theorem numberOfDigits_toString (n : ℕ) : numberOfDigits (toString n).toList = n :=
  Munch.ofDigitChars_toString n

def IsSpreadsheetId (id : String) : Prop := 20 ≤ id.toList.length ∧ ∀ c ∈ id.toList, isIdChar c

theorem SPREADSHEET_ID_RE_eq_some {cs id : List Char} (h : SPREADSHEET_ID_RE cs = some id) :
    20 ≤ id.length ∧ ∀ c ∈ id, isIdChar c := by
  obtain ⟨text, htext⟩ := exists_matchAt h
  obtain ⟨rest, -, hrest⟩ := Option.bind_eq_some_iff.mp htext
  obtain ⟨hlen, hid⟩ := Option.ite_none_right_eq_some.mp hrest
  obtain rfl := Option.some.inj hid
  exact ⟨hlen, fun _ hc => List.mem_takeWhile_imp hc⟩

theorem BARE_ID_RE_eq_some {cs id : List Char} (h : BARE_ID_RE cs = some id) :
    20 ≤ id.length ∧ ∀ c ∈ id, isIdChar c := by
  obtain ⟨⟨hlen, hall⟩, hid⟩ := Option.ite_none_right_eq_some.mp h
  obtain rfl := Option.some.inj hid
  exact ⟨hlen, List.all_eq_true.mp hall⟩

theorem isSpreadsheetId_of_parseSheetUrl {input : String} {parsed : ParsedSheetUrl}
    (h : parseSheetUrl input = some parsed) : IsSpreadsheetId parsed.spreadsheetId := by
  unfold parseSheetUrl at h
  dsimp only at h
  split at h
  · cases h
  split at h
  · rename_i id hbare
    obtain rfl := Option.some.inj h
    rw [IsSpreadsheetId, String.toList_ofList]
    exact BARE_ID_RE_eq_some hbare
  · obtain ⟨id, hid, rfl⟩ := Option.map_eq_some_iff.mp h
    rw [IsSpreadsheetId, String.toList_ofList]
    exact SPREADSHEET_ID_RE_eq_some hid

end LinkBulker.Shared
