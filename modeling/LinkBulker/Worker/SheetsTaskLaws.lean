import LinkBulker.Worker.BatchLaws
import LinkBulker.Worker.SheetsTask

namespace LinkBulker.Sheets

open Foundations Db Shared LinkRepository SingleLink Worker

variable {newURL : UrlParser} {clock : LocalClock} {w w' : World} {r r' : Run} {t : SheetsTurn}

def linkKey (l : Link) : String × String := (l.donorUrl, l.acceptorRaw)

def rowKey (v : NormalizedRow × SheetRow) : String × String := (v.1.donorUrl, v.1.acceptor)

def Pc.tries : Pc → Bool
  | .setRunning | .setFlag | .resolveTitle | .readRows | .replaceLinks | .fetchLinks | .pair _
  | .markInvalid .. | .counts _ | .fetchFinal | .writeData | .writeHeader | .finalCounts
  | .setCompleted _ | .refind _ => true
  | _ => false

inductive Step (newURL : UrlParser) (clock : LocalClock) (w : World) (r : Run) (t : SheetsTurn) :
    World → Run → Prop
  | skip (hpc : r.pc = .acquire) : Step newURL clock w r t w (r.at_ .skipped)
  | locked {lock : LockManager.Lock} {key : LockManager.Key} (hpc : r.pc = .acquire)
    (hacq : LockManager.acquire (w.locks r.lockKey) t.now ⟨t.token, PROJECT_LOCK_TTL_MS⟩ =
      (some lock, key)) :
    Step newURL clock w r t
      { w with locks := Function.update w.locks r.lockKey key, issued := t.token :: w.issued }
      { r with pc := .setRunning, lock := some lock, heartbeat := true }
  | fails (hpc : r.pc.tries) (reason : String) : Step newURL clock w r t w (r.fail reason)
  | running {db : Database} (hpc : r.pc = .setRunning)
    (hset : setSheetsTaskStatus w.db r.task.id .RUNNING none t.now = some db) :
    Step newURL clock w r t { w with db } (r.at_ .setFlag)
  | raised {db : Database} (hpc : r.pc = .setFlag)
    (hset : setProjectSheetsChecking w.db r.task.projectId true = some db) :
    Step newURL clock w r t { w with db } (r.at_ .publishRunning)
  | toldRunning (hpc : r.pc = .publishRunning) :
    Step newURL clock w r t (w.publishNow t.toTurn (taskUpdated r.task .RUNNING none none))
      (r.at_ .resolveTitle)
  | titled (hpc : r.pc = .resolveTitle) : Step newURL clock w r t w (r.at_ .readRows)
  | read (hpc : r.pc = .readRows) :
    Step newURL clock w r t w { r with
      response := t.response
      rows := readDonorRows r.task.dataStartRow t.response
      validRows := filledRows newURL (readDonorRows r.task.dataStartRow t.response)
      pc := .replaceLinks }
  | replaced {db : Database} (hpc : r.pc = .replaceLinks)
    (hset : replaceSheetsLinks w.db r.task.id r.task.projectId
      (r.validRows.map fun v => v.1.data) t.cuid = some db) :
    Step newURL clock w r t { w with db } (r.at_ .fetchLinks)
  | fetched (hpc : r.pc = .fetchLinks) :
    Step newURL clock w r t w { r with
      persistedLinks := findLinksBySheetsTaskOrdered w.db r.task.id, pc := .pair 0 }
  | pairedAll {i : ℕ} (hpc : r.pc = .pair i) (hlink : r.persistedLinks[i]? = none) :
    Step newURL clock w r t w
      (Run.loop { r with batch := ⟨r.validProcessableLinks.map Link.id, []⟩ } 0)
  | pairedValid {i : ℕ} {link : Link} {vr : NormalizedRow × SheetRow} (hpc : r.pc = .pair i)
    (hlink : r.persistedLinks[i]? = some link) (hvr : r.validRows[i]? = some vr)
    (hok : vr.1.errors = []) :
    Step newURL clock w r t w { r with
      sheetRowByLinkId := Function.update r.sheetRowByLinkId link.id vr.2
      validProcessableLinks := r.validProcessableLinks ++ [link], pc := .pair (i + 1) }
  | pairedInvalid {i : ℕ} {link : Link} {vr : NormalizedRow × SheetRow} (hpc : r.pc = .pair i)
    (hlink : r.persistedLinks[i]? = some link) (hvr : r.validRows[i]? = some vr)
    (herr : vr.1.errors ≠ []) :
    Step newURL clock w r t w { r with
      sheetRowByLinkId := Function.update r.sheetRowByLinkId link.id vr.2, pc := .markInvalid i t.now }
  | marked {i : ℕ} {now : ℤ} {link row : Link} {vr : NormalizedRow × SheetRow} {db : Database}
    (hpc : r.pc = .markInvalid i now) (hlink : r.persistedLinks[i]? = some link)
    (hvr : r.validRows[i]? = some vr)
    (hsave : saveResult w.db link.id (invalidResult vr.1.errors) now = some (row, db)) :
    Step newURL clock w r t { w with db }
      { r with invalid := r.invalid ++ [link], pc := .pair (i + 1) }
  | rejected {i : ℕ} (hpc : r.pc = .awaitAll i) (hall : r.batch.all i = some false)
    (reason : String) : Step newURL clock w r t w (r.fail reason)
  | resolved {i : ℕ} (hpc : r.pc = .awaitAll i) (hall : r.batch.all i = some true) :
    Step newURL clock w r t w (r.at_ (.counts i))
  | counted {i : ℕ} (hpc : r.pc = .counts i) :
    Step newURL clock w r t w
      (r.at_ (.publishProgress i (getSheetsProgressCounts w.db r.task.id)))
  | toldProgress {i : ℕ} {counts : ProgressCounts} (hpc : r.pc = .publishProgress i counts) :
    Step newURL clock w r t
      (w.publishNow t.toTurn (.sheets_task_progress r.task.id r.task.projectId
        { counts with total := r.persistedLinks.length }))
      (r.loop (i + INTERNAL_CONCURRENCY))
  | nothing (hpc : r.pc = .fetchFinal)
    (hnone : ((findLinksBySheetsTaskOrdered w.db r.task.id).filterMap r.rowNumber).filter
      (fun n => 0 < n) = []) :
    Step newURL clock w r t w (r.at_ .finalCounts)
  | planned {minRow maxRow startColumnIndex : ℕ} (hpc : r.pc = .fetchFinal)
    (hmin : (((findLinksBySheetsTaskOrdered w.db r.task.id).filterMap r.rowNumber).filter
      (fun n => 0 < n)).min? = some minRow)
    (hmax : (((findLinksBySheetsTaskOrdered w.db r.task.id).filterMap r.rowNumber).filter
      (fun n => 0 < n)).max? = some maxRow)
    (hcol : colLetterToIndex r.task.resultStartCol = .ok startColumnIndex) :
    Step newURL clock w r t w { r with
      minRow, startColumnIndex
      lines := (List.range (maxRow + 1 - minRow)).map fun k =>
        (findLinksBySheetsTaskOrdered w.db r.task.id).find? fun l =>
          r.rowNumber l = some (minRow + k)
      pc := .writeData }
  | wroteData (hpc : r.pc = .writeData) :
    Step newURL clock w r t w { r with
      calls := r.calls ++ (r.dataBlock clock).sent
      pc := if 0 < r.task.headerRow then .writeHeader else .setWidths }
  | wroteHeader (hpc : r.pc = .writeHeader) :
    Step newURL clock w r t w
      { r with calls := r.calls ++ r.headerBlock.sent, pc := .setWidths }
  | wroteWidths (hpc : r.pc = .setWidths) :
    Step newURL clock w r t w { r with
      calls := r.calls ++ [.setColumnWidths r.task.spreadsheetId r.task.sheetGid
        r.startColumnIndex COLUMN_WIDTHS]
      pc := .finalCounts }
  | widthsFailed (hpc : r.pc = .setWidths) : Step newURL clock w r t w (r.at_ .finalCounts)
  | countedAll (hpc : r.pc = .finalCounts) :
    Step newURL clock w r t w (r.at_ (.setCompleted
      (lastRunStatus (getSheetsProgressCounts w.db r.task.id) r.persistedLinks.length)))
  | completed {status : String} {db : Database} (hpc : r.pc = .setCompleted status)
    (hset : setSheetsTaskStatus w.db r.task.id .COMPLETED (some status) t.now = some db) :
    Step newURL clock w r t { w with db } (r.at_ (.refind status))
  | refound {status : String} (hpc : r.pc = .refind status) :
    Step newURL clock w r t w
      (r.at_ (.publishCompleted ((findSheetsTaskById w.db r.task.id).getD r.task) status))
  | toldCompleted {updated : SheetsTask} {status : String}
    (hpc : r.pc = .publishCompleted updated status) :
    Step newURL clock w r t
      (w.publishNow t.toTurn (taskUpdated updated .COMPLETED (some t.now) (some status)))
      r.finally_
  | failedSet {reason : String} {db : Database} (hpc : r.pc = .setFailed reason)
    (hset : setSheetsTaskStatus w.db r.task.id .FAILED (some reason) t.now = some db) :
    Step newURL clock w r t { w with db } (r.at_ (.refindFailed reason))
  | failedUnset {reason : String} (hpc : r.pc = .setFailed reason) :
    Step newURL clock w r t w (r.at_ (.refindFailed reason))
  | refoundFailed {reason : String} {updated : SheetsTask} (hpc : r.pc = .refindFailed reason) :
    Step newURL clock w r t w (r.at_ (.publishFailed updated reason))
  | unfoundFailed {reason : String} (hpc : r.pc = .refindFailed reason) :
    Step newURL clock w r t w r.finally_
  | toldFailed {updated : SheetsTask} {reason : String} (hpc : r.pc = .publishFailed updated reason) :
    Step newURL clock w r t
      (w.publishNow t.toTurn (taskUpdated updated .FAILED (some t.now) (some reason))) r.finally_
  | lowered {db : Database} (hpc : r.pc = .clearFlag)
    (hset : setProjectSheetsChecking w.db r.task.projectId false = some db) :
    Step newURL clock w r t { w with db } (r.at_ .release)
  | lowerFailed (hpc : r.pc = .clearFlag)
    (hset : t.rejects ∨ setProjectSheetsChecking w.db r.task.projectId false = none) :
    Step newURL clock w r t w (r.at_ .release)
  | released {lock : LockManager.Lock} (hpc : r.pc = .release) (hlock : r.lock = some lock) :
    Step newURL clock w r t
      { w with
        locks := Function.update w.locks r.lockKey (lock.release (w.locks r.lockKey) t.now).2 }
      (r.at_ .ended)
  | releaseFailed (hpc : r.pc = .release) (hr : t.rejects) :
    Step newURL clock w r t w (r.at_ .ended)

theorem pair_step {i : ℕ} (hpc : r.pc = .pair i) :
    Step newURL clock w r t w (r.pair i t.now) := by
  unfold Run.pair
  split
  · rename_i hlink
    exact .pairedAll hpc hlink
  · rename_i link hlink
    split
    · exact .fails (by rw [hpc]; rfl) _
    · rename_i vr hvr
      dsimp only
      split
      · rename_i hok
        exact .pairedValid hpc hlink hvr (List.eq_nil_of_length_eq_zero hok)
      · rename_i herr
        exact .pairedInvalid hpc hlink hvr fun h => herr (by rw [h]; rfl)

theorem writeResultsBack_step (hpc : r.pc = .fetchFinal) :
    Step newURL clock w r t w (r.writeResultsBack (findLinksBySheetsTaskOrdered w.db r.task.id)) := by
  unfold Run.writeResultsBack
  split
  · rename_i hnil
    refine .nothing hpc ?_
    rw [List.eq_nil_of_length_eq_zero hnil]
    rfl
  · dsimp only
    split
    · rename_i minRow maxRow hmin hmax
      split
      · exact .fails (by rw [hpc]; rfl) _
      · rename_i startColumnIndex hcol
        exact .planned hpc hmin hmax hcol
    · rename_i hnone
      refine .nothing hpc ?_
      by_contra hne
      obtain ⟨minRow, hmin⟩ := Option.isSome_iff_exists.mp (List.isSome_min?_iff.mpr hne)
      obtain ⟨maxRow, hmax⟩ := Option.isSome_iff_exists.mp (List.isSome_max?_iff.mpr hne)
      exact hnone minRow maxRow hmin hmax

theorem Step.ite_fails {x : Option (World × Run)} {reason : String} (hpc : r.pc.tries)
    (h : (if t.rejects then some (w, r.fail reason) else x) = some (w', r')) :
    Step newURL clock w r t w' r' ∨ x = some (w', r') := by
  split at h
  · cases h
    exact .inl (.fails hpc _)
  · exact .inr h

theorem main_eq_some (hm : r.main newURL clock w t = some (w', r')) :
    Step newURL clock w r t w' r' := by
  unfold Run.main at hm
  split at hm
  case h_1 hpc =>
    split at hm
    · cases hm; exact .skip hpc
    · split at hm
      · cases hm; exact .skip hpc
      · rename_i hacq
        cases hm; exact .locked hpc hacq
  case h_2 hpc =>
    rcases Step.ite_fails (by rw [hpc]; rfl) hm with hs | hm
    · exact hs
    · split at hm
      · cases hm; exact .fails (by rw [hpc]; rfl) _
      · rename_i hset
        cases hm; exact .running hpc hset
  case h_3 hpc =>
    rcases Step.ite_fails (by rw [hpc]; rfl) hm with hs | hm
    · exact hs
    · split at hm
      · cases hm; exact .fails (by rw [hpc]; rfl) _
      · rename_i hset
        cases hm; exact .raised hpc hset
  case h_4 hpc => cases hm; exact .toldRunning hpc
  case h_5 hpc =>
    rcases Step.ite_fails (by rw [hpc]; rfl) hm with hs | hm
    · exact hs
    · split at hm
      · cases hm; exact .fails (by rw [hpc]; rfl) _
      · cases hm; exact .fails (by rw [hpc]; rfl) _
      · cases hm; exact .titled hpc
  case h_6 hpc =>
    rcases Step.ite_fails (by rw [hpc]; rfl) hm with hs | hm
    · exact hs
    · cases hm; exact .read hpc
  case h_7 hpc =>
    rcases Step.ite_fails (by rw [hpc]; rfl) hm with hs | hm
    · exact hs
    · split at hm
      · cases hm; exact .fails (by rw [hpc]; rfl) _
      · rename_i hset
        cases hm; exact .replaced hpc hset
  case h_8 hpc =>
    rcases Step.ite_fails (by rw [hpc]; rfl) hm with hs | hm
    · exact hs
    · cases hm; exact .fetched hpc
  case h_9 hpc => cases hm; exact pair_step hpc
  case h_10 hpc =>
    rcases Step.ite_fails (by rw [hpc]; rfl) hm with hs | hm
    · exact hs
    · split at hm
      · rename_i hlink hvr
        split at hm
        · cases hm; exact .fails (by rw [hpc]; rfl) _
        · rename_i hsave
          cases hm; exact .marked hpc hlink hvr hsave
      · cases hm
  case h_11 hpc =>
    split at hm
    · cases hm
    · rename_i hall
      cases hm; exact .rejected hpc hall _
    · rename_i hall
      cases hm; exact .resolved hpc hall
  case h_12 hpc =>
    rcases Step.ite_fails (by rw [hpc]; rfl) hm with hs | hm
    · exact hs
    · cases hm; exact .counted hpc
  case h_13 hpc => cases hm; exact .toldProgress hpc
  case h_14 hpc =>
    rcases Step.ite_fails (by rw [hpc]; rfl) hm with hs | hm
    · exact hs
    · cases hm; exact writeResultsBack_step hpc
  case h_15 hpc =>
    rcases Step.ite_fails (by rw [hpc]; rfl) hm with hs | hm
    · exact hs
    · cases hm; exact .wroteData hpc
  case h_16 hpc =>
    rcases Step.ite_fails (by rw [hpc]; rfl) hm with hs | hm
    · exact hs
    · cases hm; exact .wroteHeader hpc
  case h_17 hpc =>
    split at hm
    · cases hm; exact .widthsFailed hpc
    · cases hm; exact .wroteWidths hpc
  case h_18 hpc =>
    rcases Step.ite_fails (by rw [hpc]; rfl) hm with hs | hm
    · exact hs
    · cases hm; exact .countedAll hpc
  case h_19 hpc =>
    rcases Step.ite_fails (by rw [hpc]; rfl) hm with hs | hm
    · exact hs
    · split at hm
      · cases hm; exact .fails (by rw [hpc]; rfl) _
      · rename_i hset
        cases hm; exact .completed hpc hset
  case h_20 hpc =>
    rcases Step.ite_fails (by rw [hpc]; rfl) hm with hs | hm
    · exact hs
    · cases hm; exact .refound hpc
  case h_21 hpc => cases hm; exact .toldCompleted hpc
  case h_22 hpc =>
    split at hm
    · cases hm; exact .failedUnset hpc
    · split at hm
      · cases hm; exact .failedUnset hpc
      · rename_i hset
        cases hm; exact .failedSet hpc hset
  case h_23 hpc =>
    split at hm
    · cases hm; exact .unfoundFailed hpc
    · split at hm <;> cases hm
      · exact .unfoundFailed hpc
      · exact .refoundFailed hpc
  case h_24 hpc => cases hm; exact .toldFailed hpc
  case h_25 hpc =>
    split at hm
    · rename_i hr
      cases hm; exact .lowerFailed hpc (.inl hr)
    · split at hm
      · rename_i hset
        cases hm; exact .lowerFailed hpc (.inr hset)
      · rename_i hset
        cases hm; exact .lowered hpc hset
  case h_26 hpc =>
    split at hm
    · cases hm
    · rename_i hlock
      split at hm
      · rename_i hr
        cases hm; exact .releaseFailed hpc hr
      · cases hm; exact .released hpc hlock
  case h_27 => cases hm
  case h_28 => cases hm

theorem loop_task (i : ℕ) : (r.loop i).task = r.task := by
  unfold Run.loop
  split <;> rfl

theorem Step.task (hs : Step newURL clock w r t w' r') : r'.task = r.task := by
  cases hs with
  | pairedAll hpc hlink => exact loop_task 0
  | toldProgress hpc => exact loop_task _
  | _ => rfl

theorem beat_eq_some {t : Turn} (hb : r.beat w t = some (w', r')) :
    ∃ lock, r.heartbeat ∧ r.lock = some lock ∧ r' = r ∧
      (w' = w ∨ w' = { w with
        locks := Function.update w.locks r.lockKey (lock.heartbeat (w.locks r.lockKey) t.now).2 }) := by
  unfold Run.beat at hb
  split at hb
  · rename_i lock hbeat hlock
    split at hb <;> cases hb
    · exact ⟨lock, hbeat, hlock, rfl, .inl rfl⟩
    · exact ⟨lock, hbeat, hlock, rfl, .inr rfl⟩
  · cases hb

theorem child_eq_some {k : ℕ} {t : Turn} (hm : r.move newURL clock w (.child k t) = some (w', r')) :
    ∃ b, r.batch.move newURL w k t = some (w', b) ∧ r' = { r with batch := b } := by
  simp only [Run.move, Option.map_eq_some_iff, Prod.exists, Prod.mk.injEq] at hm
  obtain ⟨w₁, b, hmove, rfl, rfl⟩ := hm
  exact ⟨b, hmove, rfl⟩

theorem call_eq_some {c c' : Call} {a : Act} (hm : c.move newURL clock w a = some (w', c')) :
    (∃ sheetsTaskId t, c = .find sheetsTaskId ∧ a = .main t ∧ w' = w ∧
      (c' = .missing ∨ ∃ task, findSheetsTaskById w.db sheetsTaskId = some task ∧
        c' = .body { task })) ∨
    ∃ r r', c = .body r ∧ r.move newURL clock w a = some (w', r') ∧ c' = .body r' := by
  unfold Call.move at hm
  split at hm
  · rename_i sheetsTaskId t
    split at hm
    · cases hm
      exact .inl ⟨sheetsTaskId, t, rfl, rfl, rfl, .inl rfl⟩
    · split at hm
      · cases hm
        exact .inl ⟨sheetsTaskId, t, rfl, rfl, rfl, .inl rfl⟩
      · rename_i task hfind
        cases hm
        exact .inl ⟨sheetsTaskId, t, rfl, rfl, rfl, .inr ⟨task, hfind, rfl⟩⟩
  · rename_i r
    simp only [Option.map_eq_some_iff, Prod.exists, Prod.mk.injEq] at hm
    obtain ⟨w₁, r', hmove, rfl, rfl⟩ := hm
    exact .inr ⟨r, r', rfl, hmove, rfl⟩
  · cases hm

def Call.run : Call → Option Run
  | .body r => some r
  | _ => none

theorem exists_of_any {P : World → Run → Prop} [∀ w r, Decidable (P w r)]
    {s : Option (World × Call)} (h : s.any fun s => s.2.run.any fun r => P s.1 r) :
    ∃ w r, s = some (w, .body r) ∧ P w r := by
  obtain ⟨⟨w, c⟩, rfl, h⟩ := (Option.any_eq_true _ _).mp h
  cases c with
  | body r => exact ⟨w, r, rfl, of_decide_eq_true h⟩
  | find sheetsTaskId => cases h
  | missing => cases h

def exampleTask : SheetsTask where
  id := "s"
  projectId := "p"
  name := "Task"
  spreadsheetId := "x"
  donorColumn := "A"
  acceptorColumn := "B"
  resultStartCol := "C"

def exampleWorld : World where
  db := exampleDatabase .empty ⟨[exampleTask], by decide⟩

def exampleClock : LocalClock := fun _ => ⟨2024, 0, 1, 0, 0⟩

def exampleTurn : SheetsTurn where
  token := "t"
  sheets := [⟨some 0, some "Sheet1"⟩]
  response := ⟨some [⟨some [[.string "donor"], [.string "https://donor.example/post"]]⟩,
    ⟨some [[.string "acceptor.example"], [.string " acceptor.example "]]⟩]⟩
  cuid i := if i = 0 then "a" else "b"

end LinkBulker.Sheets
