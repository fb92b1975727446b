import LinkBulker.Foundations.Csv
import LinkBulker.Web.ParseCsv
import LinkBulker.Web.Status

/-! `apps/web/src/lib/csv-export.ts`: what a reader of CSV gets back of the rows that are exported,
and what the import of `parse-csv.ts` makes of it. -/

namespace LinkBulker.Web

open Foundations Db Shared

def COLUMNS : List String :=
  ["donor_url", "acceptor", "status", "found", "occurrences", "follow", "http_status", "indexable",
    "canonical_match", "last_checked", "error"]

inductive Value
  | string (s : String)
  | number (n : ℤ)
  | boolean (b : Bool)
  | null
  | undefined

def Value.toText : Value → String
  | .string s => s
  | .number n => toString n
  | .boolean b => if b then "true" else "false"
  | .null => "null"
  | .undefined => "undefined"

def escapeCell (value : Value) : String :=
  match value with
  | .null | .undefined => "\"\""
  | value => "\"" ++ String.ofList (Quoting.escape '"' value.toText.toList) ++ "\""

def FollowKind.toText : FollowKind → String
  | .dofollow => "dofollow"
  | .nofollow => "nofollow"

structure WireRow extends LinkRow where
  lastCheckedAtText : Option String

def yesNo : Option Bool → String
  | none => ""
  | some true => "yes"
  | some false => "no"

def cells (row : WireRow) : List Value :=
  let status := computeRowStatus row.toLinkRow
  let follow := computeFollowKind row.toLinkRow
  [.string row.donorUrl,
    .string row.acceptorRaw,
    .string (rowStatusLabel status),
    .string (yesNo row.linkFound),
    .number row.occurrencesCount,
    (follow.map fun kind => Value.string kind.toText).getD (.string ""),
    (row.donorStatusCode.map Value.number).getD (.string ""),
    .string (yesNo row.donorIndexable),
    .string (yesNo row.canonicalMatches),
    .string (row.lastCheckedAtText.getD ""),
    .string (row.error.getD "")]

def linksToCsv (rows : List WireRow) : String :=
  let header := ",".intercalate COLUMNS
  let lines := rows.map fun row => ",".intercalate ((cells row).map escapeCell)
  "\n".intercalate (header :: lines)

def columnStrings (row : WireRow) : List String :=
  [row.donorUrl, row.acceptorRaw, rowStatusLabel (computeRowStatus row.toLinkRow),
    yesNo row.linkFound, toString row.occurrencesCount,
    ((computeFollowKind row.toLinkRow).map FollowKind.toText).getD "",
    (row.donorStatusCode.map toString).getD "", yesNo row.donorIndexable,
    yesNo row.canonicalMatches, row.lastCheckedAtText.getD "", row.error.getD ""]

section Laws

variable {newURL : UrlParser}

theorem written_escapeCell (value : Value) (hnull : value ≠ .null) (hundefined : value ≠ .undefined) :
    Csv.Written (escapeCell value) value.toText := by
  cases value with
  | null => exact absurd rfl hnull
  | undefined => exact absurd rfl hundefined
  | string s => exact .quoted s
  | number n => exact .quoted _
  | boolean b => exact .quoted _

theorem mem_cells {row : WireRow} {value : Value} (h : value ∈ cells row) :
    value ≠ .null ∧ value ≠ .undefined := by
  have hfollow : ∃ s, ((computeFollowKind row.toLinkRow).map fun kind =>
      Value.string kind.toText).getD (.string "") = .string s := by
    cases computeFollowKind row.toLinkRow with
    | none => exact ⟨_, rfl⟩
    | some kind => exact ⟨_, rfl⟩
  have hcode : (row.donorStatusCode.map Value.number).getD (.string "") ≠ .null ∧
      (row.donorStatusCode.map Value.number).getD (.string "") ≠ .undefined := by
    cases row.donorStatusCode with
    | none => exact ⟨nofun, nofun⟩
    | some code => exact ⟨nofun, nofun⟩
  obtain ⟨s, hfollow⟩ := hfollow
  simp only [cells, hfollow, List.mem_cons, List.not_mem_nil, or_false] at h
  rcases h with rfl | rfl | rfl | rfl | rfl | rfl | rfl | rfl | rfl | rfl | rfl
  case inr.inr.inr.inr.inr.inr.inl => exact hcode
  all_goals exact ⟨nofun, nofun⟩

theorem map_toText_cells (row : WireRow) : (cells row).map Value.toText = columnStrings row := by
  have hfollow : (((computeFollowKind row.toLinkRow).map fun kind =>
      Value.string kind.toText).getD (.string "")).toText =
        ((computeFollowKind row.toLinkRow).map FollowKind.toText).getD "" := by
    cases computeFollowKind row.toLinkRow <;> rfl
  have hcode : ((row.donorStatusCode.map Value.number).getD (.string "")).toText =
      (row.donorStatusCode.map toString).getD "" := by
    cases row.donorStatusCode <;> rfl
  simp only [cells, List.map_cons, List.map_nil, hfollow, hcode]
  rfl

theorem written_cells (row : WireRow) :
    List.Forall₂ Csv.Written ((cells row).map escapeCell) (columnStrings row) := by
  rw [← map_toText_cells, List.forall₂_map_left_iff, List.forall₂_map_right_iff,
    List.forall₂_same]
  intro value hvalue
  obtain ⟨hnull, hundefined⟩ := mem_cells hvalue
  exact written_escapeCell value hnull hundefined

theorem written_COLUMNS : List.Forall₂ Csv.Written COLUMNS COLUMNS := by
  have hbare : COLUMNS.all fun name => name ≠ "" ∧ name.toList.all fun c => !Csv.isSpecial c := by
    decide
  rw [List.forall₂_same]
  intro name hname
  obtain ⟨hne, hchars⟩ := of_decide_eq_true (List.all_eq_true.mp hbare name hname)
  refine .plain hne fun c hc => ?_
  simpa using List.all_eq_true.mp hchars c hc

theorem written_lines (rows : List WireRow) :
    List.Forall₂ Csv.WrittenLine
      (",".intercalate COLUMNS :: rows.map fun row => ",".intercalate ((cells row).map escapeCell))
      (COLUMNS :: rows.map columnStrings) := by
  refine .cons ⟨COLUMNS, by decide, rfl, written_COLUMNS⟩ ?_
  rw [List.forall₂_map_left_iff, List.forall₂_map_right_iff, List.forall₂_same]
  exact fun row _ => ⟨_, List.cons_ne_nil _ _, rfl, written_cells row⟩

/-- A reader of CSV gets the header and the rows back, whatever their texts are, and the import
takes the donor and the acceptor of each row from its record. -/
theorem linksToCsv_round_trip (newURL : UrlParser) (rows : List WireRow) :
    Csv.read (linksToCsv rows) = some (COLUMNS :: rows.map columnStrings) ∧
    COLUMNS.length = 11 ∧
    (∀ row ∈ rows, (columnStrings row).length = 11 ∧
      (columnStrings row).take 2 = [row.donorUrl, row.acceptorRaw]) ∧
    (parseLinksCsv newURL (COLUMNS :: rows.map columnStrings) true).rows =
      rows.mapIdx fun i row => validateRow newURL (i + 2) row.donorUrl row.acceptorRaw := by
  refine ⟨Csv.read_lines (written_lines rows) (List.cons_ne_nil _ _) (.inl rfl), rfl,
    fun row _ => ⟨rfl, rfl⟩, ?_⟩
  have hdonor (row : WireRow) : (columnStrings row)[0]? = some row.donorUrl := rfl
  have hacceptor (row : WireRow) : (columnStrings row)[1]? = some row.acceptorRaw := rfl
  apply List.ext_getElem?
  intro i
  simp only [parseLinksCsv, if_true, List.drop_one, List.tail_cons, List.getElem?_mapIdx,
    List.getElem?_map, Option.map_map, Function.comp_def, hdonor, hacceptor, Option.getD_some]

end Laws

end LinkBulker.Web
