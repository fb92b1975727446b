import LinkBulker.Foundations.Munch
import LinkBulker.Web.SheetsTaskDialog

/-! The URL that the dialog makes of a task's spreadsheet and tab, and what is read back from it. -/

namespace LinkBulker.Web

open Foundations Db Shared SheetsTasksService

def editPage (id rest : List Char) : List Char :=
  "https:".toList ++ ("//".toList ++
    ("docs.google.com".toList ++ ("/spreadsheets/d/".toList ++ (id ++ rest))))

def tabPart (gid : ℕ) : List Char :=
  "/edit".toList ++ '#' :: ("gid=".toList ++ (toString gid).toList)

section EditPage

variable {id rest : List Char}

theorem SPREADSHEET_ID_RE_editPage (hlen : 20 ≤ id.length) (hid : ∀ c ∈ id, isIdChar c)
    (hrest : ∀ c ∈ rest.head?, ¬ isIdChar c) : SPREADSHEET_ID_RE (editPage id rest) = some id := by
  have hslashes : "//".toList = ['/', '/'] := by simp
  have hhost : "docs.google.com".toList = 'd' :: "ocs.google.com".toList := by simp
  unfold editPage
  rw [SPREADSHEET_ID_RE_append (by simp), hslashes, hhost, List.cons_append, List.cons_append,
    List.nil_append, List.cons_append, SPREADSHEET_ID_RE_slash (by decide),
    SPREADSHEET_ID_RE_slash (by decide), ← List.cons_append, ← hhost,
    SPREADSHEET_ID_RE_append (by simp)]
  apply firstMatch_of_matchAt
  rw [afterPrefix_append, Option.bind_some, Munch.takeWhile_append_of_stop hid hrest]
  exact if_pos hlen

theorem GID_RE_editPage (hid : ∀ c ∈ id, isIdChar c) (gid : ℕ) :
    GID_RE (editPage id (tabPart gid)) = some (toString gid).toList := by
  unfold editPage tabPart
  rw [GID_RE_append (by simp), GID_RE_append (by simp), GID_RE_append (by simp),
    GID_RE_append (by simp), GID_RE_append fun c hc => ne_mark_of_isIdChar (hid c hc),
    GID_RE_append (by simp), GID_RE_hash]

theorem trimChars_editPage (gid : ℕ) :
    trimChars (editPage id (tabPart gid)) = editPage id (tabPart gid) := by
  obtain ⟨digits, d, hdigits⟩ :=
    (List.eq_nil_or_concat (toString gid).toList).resolve_left (Munch.toList_toString_ne_nil gid)
  rw [List.concat_eq_append] at hdigits
  have hd : isWhiteSpace d = false := by
    apply isWhiteSpace_of_isDigit
    apply Munch.isDigit_of_mem_toString (n := gid)
    rw [hdigits]
    exact List.mem_append_right _ (List.mem_singleton_self d)
  have hhttps : "https:".toList = 'h' :: "ttps:".toList := by simp
  unfold editPage tabPart
  rw [hdigits, hhttps, List.cons_append]
  simp only [← List.append_assoc, ← List.cons_append]
  exact trimChars_of_ends (by decide) hd

theorem BARE_ID_RE_editPage : BARE_ID_RE (editPage id rest) = none := by
  refine if_neg ?_
  rintro ⟨-, hall⟩
  have hcolon : ':' ∈ editPage id rest := List.mem_append_left _ (by simp)
  exact absurd (List.all_eq_true.mp hall ':' hcolon) (by decide)

theorem toList_sheetUrl (task : SheetsTask) :
    (prefill task).sheetUrl.toList =
      editPage task.spreadsheetId.toList (tabPart task.sheetGid) := by
  have hhead : "https://docs.google.com/spreadsheets/d/".toList = "https:".toList ++ ("//".toList ++
      ("docs.google.com".toList ++ "/spreadsheets/d/".toList)) := by simp
  have htab : "/edit#gid=".toList = "/edit".toList ++ '#' :: "gid=".toList := by simp
  show ("https://docs.google.com/spreadsheets/d/" ++ task.spreadsheetId ++ "/edit#gid=" ++
    toString task.sheetGid).toList = _
  unfold editPage tabPart
  simp only [String.toList_append, hhead, htab, List.append_assoc, List.cons_append]

theorem parseSheetUrl_sheetUrl {task : SheetsTask} (h : IsSpreadsheetId task.spreadsheetId) :
    parseSheetUrl (prefill task).sheetUrl = some ⟨task.spreadsheetId, task.sheetGid⟩ := by
  have hne : editPage task.spreadsheetId.toList (tabPart task.sheetGid) ≠ [] :=
    List.append_ne_nil_of_left_ne_nil (by simp) _
  have hslash : ∀ c ∈ (tabPart task.sheetGid).head?, ¬ isIdChar c := by
    have hedit : "/edit".toList = '/' :: "edit".toList := by simp
    rw [tabPart, hedit]
    rintro c ⟨⟩
    decide
  unfold parseSheetUrl
  rw [toList_sheetUrl, trimChars_editPage]
  dsimp only
  rw [if_neg hne, BARE_ID_RE_editPage]
  dsimp only
  rw [SPREADSHEET_ID_RE_editPage h.1 h.2 hslash, GID_RE_editPage h.2, Option.map_some,
    Option.map_some, Option.getD_some, String.ofList_toList, numberOfDigits_toString]

end EditPage

section Saving

variable {s s₁ s' : SheetsSchedules.Store} {userId : UserId} {now : ℤ} {task : SheetsTask}

theorem validate_sheetUrl (form : FormState) (sheetUrl : String) (parsedOk : Bool) :
    validate { form with sheetUrl } parsedOk = validate form parsedOk := by
  simp only [validate]

theorem exists_submit {form : FormState} {editing : SheetsTaskId} {sheetUrl : String}
    {parsed : ParsedSheetUrl} (h : submit s userId editing { form with sheetUrl } now = .ok s₁)
    (hparsed : parseSheetUrl form.sheetUrl = some parsed)
    (hid : 1 ≤ utf16Length parsed.spreadsheetId ∧ utf16Length parsed.spreadsheetId ≤ 200) :
    ∃ s', submit s userId editing form now = .ok s' := by
  unfold submit at h ⊢
  rw [hparsed]
  split at h
  · cases h
  · cases h
  · rename_i pasted hvalid hpasted
    rw [hpasted, validate_sheetUrl, Option.isSome_some] at hvalid
    rw [Option.isSome_some, hvalid]
    dsimp only
    unfold patchSheetsTask at h ⊢
    split at h
    · cases h
    · rename_i dto hdto
      obtain ⟨dto', hdto'⟩ := exists_parse parsed.sheetGid hdto hid
      have hbody : UpdateSheetsTaskInput.parse (stringify (formInput form parsed)) = some dto' :=
        hdto'
      rw [hbody]
      dsimp only
      split at h
      · cases h
      · rename_i hupdate
        obtain ⟨r', hr'⟩ := SheetsSchedules.exists_update hupdate dto' now
        rw [hr']
        exact ⟨_, rfl⟩

theorem saved_sheet
    (hshown : parseSheetUrl (prefill task).sheetUrl = some ⟨task.spreadsheetId, task.sheetGid⟩)
    (hsubmit : submit s userId task.id (prefill task) now = .ok s') : ∃ task',
      s'.db.sheetsTasks.find? task.id = some task' ∧
        task'.spreadsheetId = task.spreadsheetId ∧ task'.sheetGid = task.sheetGid := by
  obtain ⟨parsed, dto, db, calls, hparsed, hdto, hupdate, rfl⟩ := submit_eq_ok hsubmit
  obtain rfl := Option.some.inj (hshown.symm.trans hparsed)
  obtain ⟨stored, -, hrow, -⟩ := SheetsSchedules.update_eq_ok hupdate
  exact ⟨updateData dto now stored, hrow, sheet_updateData stored now hdto⟩

end Saving

/-- The dialog opens on the task's own sheet. Where the form can be saved with some other URL it can
be saved as it is, and the row that has been saved so names the same spreadsheet and tab. -/
structure Reopens (task : SheetsTask) : Prop where
  shown : parseSheetUrl (prefill task).sheetUrl = some ⟨task.spreadsheetId, task.sheetGid⟩
  possible : ∀ (s s₁ : SheetsSchedules.Store) (userId : UserId) (sheetUrl : String)
    (now : ℤ), submit s userId task.id { prefill task with sheetUrl } now = .ok s₁ →
      ∃ s', submit s userId task.id (prefill task) now = .ok s'
  kept : ∀ (s s' : SheetsSchedules.Store) (userId : UserId) (now : ℤ),
    submit s userId task.id (prefill task) now = .ok s' → ∃ task',
      s'.db.sheetsTasks.find? task.id = some task' ∧
        task'.spreadsheetId = task.spreadsheetId ∧ task'.sheetGid = task.sheetGid

/-- The schema asks for one to two hundred characters, the URL for twenty that can stand in it. -/
theorem createdTask_reopens_iff (projectId : ProjectId) (dto : CreateSheetsTaskInput)
    (cuid : SheetsTaskId) (now : ℤ) : Reopens (createdTask projectId dto cuid now) ↔
      20 ≤ dto.spreadsheetId.val.toList.length ∧
        ∀ c ∈ dto.spreadsheetId.val.toList, isIdChar c := by
  constructor
  · exact fun h => isSpreadsheetId_of_parseSheetUrl h.shown
  · intro h
    have hid : IsSpreadsheetId (createdTask projectId dto cuid now).spreadsheetId := h
    have hshown := parseSheetUrl_sheetUrl hid
    exact ⟨hshown, fun _ _ _ _ _ hsubmit => exists_submit hsubmit hshown dto.spreadsheetId.2,
      fun _ _ _ _ hsubmit => saved_sheet hshown hsubmit⟩

def queryInput : CreateSheetsTaskInput where
  name := ⟨"Query", by decide⟩
  spreadsheetId := ⟨"abcdefghij1234567890?gid=7", by decide⟩
  donorColumn := ⟨"P", by decide⟩
  acceptorColumn := ⟨"Q", by decide⟩
  resultStartCol := ⟨"R", by decide⟩
  headerRow := ⟨5, by decide⟩
  dataStartRow := ⟨6, by decide⟩

/-- The dialog opens on another spreadsheet, and on its tab `7`. -/
theorem query_retargets : ¬ ∀ (projectId : ProjectId) (dto : CreateSheetsTaskInput)
    (cuid : SheetsTaskId) (now : ℤ), dto.sheetGid < 2 ^ 31 →
      Reopens (createdTask projectId dto cuid now) := by
  intro hall
  have hshown := (hall "p" queryInput "s" 0 (by decide)).shown
  have hread : parseSheetUrl (prefill (createdTask "p" queryInput "s" 0)).sheetUrl =
      some ⟨"abcdefghij1234567890", 7⟩ := by decide +kernel
  rw [hread] at hshown
  exact absurd (congrArg (Option.map ParsedSheetUrl.sheetGid) hshown) (by decide)

end LinkBulker.Web
