import LinkBulker.Db.Schema
import LinkBulker.Worker.SheetsClient

/-! The pure helpers of `apps/worker/src/modules/sheets/sheets-task.service.ts`: what a row of the
sheet says and what is written beside it. -/

namespace LinkBulker.Sheets

open Db Shared

structure NormalizedRow where
  donorUrl : String
  acceptor : String
  acceptorHost : Option String
  errors : List String
  deriving DecidableEq

def normalizeRow (newURL : UrlParser) (row : SheetRow) : NormalizedRow :=
  let donorUrl := trim row.donorUrl
  let acceptor := trim row.acceptor
  let donorErrors :=
    if donorUrl = "" then ["donor empty"]
    else if isValidDonorUrl newURL donorUrl then [] else ["donor not a valid URL"]
  if acceptor = "" then ⟨donorUrl, acceptor, none, donorErrors ++ ["acceptor empty"]⟩
  else match extractAcceptorHost newURL acceptor with
    | .ok host => ⟨donorUrl, acceptor, some host, donorErrors⟩
    | .error message => ⟨donorUrl, acceptor, none, donorErrors ++ ["acceptor invalid: " ++ message]⟩

def RESULT_HEADERS : List String :=
  ["Status", "HTTP", "Found", "Indexable", "Canonical match", "Last checked"]

def COLUMN_WIDTHS : List ℕ := [120, 70, 100, 90, 110, 160]

namespace COLORS

def greenBg : RGB := ⟨0.85, 0.94, 0.84⟩
def greenText : RGB := ⟨0.13, 0.45, 0.18⟩
def yellowBg : RGB := ⟨1.0, 0.95, 0.78⟩
def yellowText : RGB := ⟨0.55, 0.4, 0.04⟩
def redBg : RGB := ⟨0.99, 0.86, 0.86⟩
def redText : RGB := ⟨0.6, 0.06, 0.06⟩
def blueBg : RGB := ⟨0.85, 0.92, 0.99⟩
def blueText : RGB := ⟨0.1, 0.31, 0.65⟩
def neutralText : RGB := ⟨0.13, 0.13, 0.13⟩
def headerBg : RGB := ⟨0.93, 0.93, 0.93⟩
def headerText : RGB := ⟨0.13, 0.13, 0.13⟩

end COLORS

def NOFOLLOW_RELS : List String := ["nofollow", "sponsored", "ugc"]

def deriveFoundCell (link : Link) : String :=
  if link.linkFound ≠ some true then "no"
  else
    let occurrences := link.occurrences.getD []
    let hasDofollow := occurrences.any fun o => !o.rel.any fun r => toLowerCase r ∈ NOFOLLOW_RELS
    if hasDofollow then "dofollow" else "nofollow"

def deriveCanonicalCell (link : Link) : String :=
  match link.donorCanonical with
  | none => "not found"
  | some _ => if link.canonicalMatches = some true then "match" else "differs"

def deriveLabel (link : Link) : String :=
  match link.status with
  | .PENDING | .QUEUED => "Pending"
  | .CHECKING => "Checking"
  | .ERROR => "Error"
  | .DONE =>
    let isOk := link.donorStatusCode.any fun code => 200 ≤ code && code < 300
    if !isOk || link.linkFound != some true || link.donorIndexable != some true then "Problem"
    else if link.canonicalMatches = some true then "Done" else "Done (canonical mismatch)"

structure RowResult where
  status : String
  http : Option ℤ
  found : String
  indexable : String
  canonicalMatch : String
  deriving DecidableEq

def formatRow (link : Link) : RowResult where
  status := deriveLabel link
  http := link.donorStatusCode
  found := deriveFoundCell link
  indexable :=
    match link.donorIndexable with
    | none => ""
    | some indexable => if indexable then "yes" else "no"
  canonicalMatch := deriveCanonicalCell link

/-- The getters of `Date`, which read the clock of the worker's time zone. -/
structure LocalTime where
  getFullYear : ℤ
  getMonth : ℕ
  getDate : ℕ
  getHours : ℕ
  getMinutes : ℕ
  deriving DecidableEq

abbrev LocalClock := ℤ → LocalTime

def pad (n : ℕ) : String := if n < 10 then "0" ++ toString n else toString n

def formatTimestamp (d : LocalTime) : String :=
  toString d.getFullYear ++ "-" ++ pad (d.getMonth + 1) ++ "-" ++ pad d.getDate ++ " " ++
    pad d.getHours ++ ":" ++ pad d.getMinutes

def buildDataRowCells (clock : LocalClock) (link : Link) : List FormattedCell :=
  let r := formatRow link
  let (statusBg, statusText) :=
    if r.status = "Done (canonical mismatch)" then (COLORS.yellowBg, COLORS.yellowText)
    else if r.status = "Problem" ∨ r.status = "Error" then (COLORS.redBg, COLORS.redText)
    else if r.status = "Pending" ∨ r.status = "Checking" then (COLORS.headerBg, COLORS.neutralText)
    else (COLORS.greenBg, COLORS.greenText)
  let httpText :=
    match r.http with
    | some code => if 200 ≤ code ∧ code < 300 then COLORS.greenText else COLORS.redText
    | none => COLORS.neutralText
  let (foundBg, foundText) :=
    if r.found = "dofollow" then (COLORS.greenBg, COLORS.greenText)
    else if r.found = "nofollow" then (COLORS.greenBg, COLORS.yellowText)
    else (COLORS.redBg, COLORS.redText)
  let (idxBg, idxText) :=
    if r.indexable = "yes" then (some COLORS.greenBg, COLORS.greenText)
    else if r.indexable = "no" then (some COLORS.redBg, COLORS.redText)
    else (none, COLORS.neutralText)
  let (canonBg, canonText) :=
    if r.canonicalMatch = "differs" then (COLORS.yellowBg, COLORS.yellowText)
    else if r.canonicalMatch = "not found" then (COLORS.blueBg, COLORS.blueText)
    else (COLORS.greenBg, COLORS.greenText)
  let lastCheckedText := (link.lastCheckedAt.map fun t => formatTimestamp (clock t)).getD ""
  [{ value := .text r.status, bgColor := statusBg, textColor := statusText, bold := true },
    { value := (r.http.map CellValue.number).getD (.text ""), textColor := httpText,
      bold := r.http.isSome },
    { value := .text r.found, bgColor := foundBg, textColor := foundText, bold := true },
    { value := .text r.indexable, bgColor := idxBg, textColor := idxText, bold := true },
    { value := .text r.canonicalMatch, bgColor := canonBg, textColor := canonText, bold := true },
    { value := .text lastCheckedText, textColor := COLORS.neutralText }]

def blankRowCells : List FormattedCell :=
  List.replicate RESULT_HEADERS.length { value := .text "" }

def headerRowCells : List FormattedCell :=
  RESULT_HEADERS.map fun h =>
    { value := .text h, bold := true, bgColor := COLORS.headerBg, textColor := COLORS.headerText }

def dataLine (clock : LocalClock) : Option Link → List FormattedCell
  | some link => buildDataRowCells clock link
  | none => blankRowCells

theorem length_dataLine (clock : LocalClock) (link : Option Link) :
    (dataLine clock link).length = RESULT_HEADERS.length := by
  cases link <;> rfl

variable {newURL : UrlParser} {row row' : SheetRow}

@[simp] theorem normalizeRow_donorUrl : (normalizeRow newURL row).donorUrl = trim row.donorUrl := by
  unfold normalizeRow
  dsimp only
  split
  · rfl
  · split <;> rfl

@[simp] theorem normalizeRow_acceptor : (normalizeRow newURL row).acceptor = trim row.acceptor := by
  unfold normalizeRow
  dsimp only
  split
  · rfl
  · split <;> rfl

end LinkBulker.Sheets
