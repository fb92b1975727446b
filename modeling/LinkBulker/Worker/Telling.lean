import LinkBulker.Worker.ProjectLock

/-! What each step tells the channels of the projects, and that nothing comes back from there: with
other events on the channels, and another outcome of the publish, a step does the same. -/

namespace LinkBulker.SingleLink

open Foundations Db Shared LinkRepository

variable {newURL : UrlParser}

def World.say (w : World) (ps : List ProgressEvent) : World := { w with published := ps }

def Turn.losing (t : Turn) (lost : Bool) : Turn := { t with lost }

theorem ite_eq_map {α β : Type} {p : Prop} [Decidable p] {f : α → β} {x y : Option β}
    {x' y' : Option α} (hx : x = x'.map f) (hy : y = y'.map f) :
    (if p then x else y) = (if p then x' else y').map f := by
  split
  · exact hx
  · exact hy

def heard {α : Type} (ps : List ProgressEvent) (lost : Bool) (told : Option ProgressEvent)
    (r : World × α) : World × α :=
  (r.1.say (ps ++ if lost then [] else told.toList), r.2)

theorem heard_none {α : Type} (ps : List ProgressEvent) (lost : Bool) :
    heard ps lost none = fun r : World × α => (r.1.say ps, r.2) := by
  funext r
  cases lost <;> simp [heard]

theorem say_publishNow {α : Type} (w : World) (ps : List ProgressEvent) (t : Turn) (lost : Bool)
    (event : ProgressEvent) (x : α) :
    ((w.say ps).publishNow (t.losing lost) event, x) =
      heard ps lost (some event) (w.publishNow t event, x) := by
  unfold World.publishNow heard Turn.losing World.say
  cases lost <;> cases t.lost <;> simp

def ProcessOne.told (p : ProcessOne) : Option ProgressEvent :=
  match p.pc with
  | .publishChecking link => some (.link_updated (checkingEvent p.linkId link))
  | .publishSaved link saved => some (.link_updated (savedEvent p.linkId link saved))
  | _ => none

theorem ProcessOne.move_say (p : ProcessOne) (w : World) (ps : List ProgressEvent) (t : Turn)
    (lost : Bool) :
    p.move newURL (w.say ps) (t.losing lost) = (p.move newURL w t).map (heard ps lost p.told) := by
  obtain ⟨linkId, pc⟩ := p
  cases pc with
  | publishChecking link | publishSaved link saved =>
    simp only [move, told, Option.map_some, ← say_publishNow]
  | findById =>
    simp only [told, heard_none, move, World.say, Turn.losing]
    apply ite_eq_map
    · rfl
    · cases findById w.db linkId <;> rfl
  | markStatus link =>
    simp only [told, heard_none, move, World.say, Turn.losing]
    apply ite_eq_map
    · rfl
    · cases LinkRepository.markStatus w.db linkId .CHECKING <;> rfl
  | crawl link =>
    simp only [told, heard_none]
    rfl
  | saveResult link result now =>
    simp only [told, heard_none, move, World.say, Turn.losing]
    apply ite_eq_map
    · rfl
    · cases LinkRepository.saveResult w.db linkId result now <;> rfl
  | resolved | rejected => rfl

end LinkBulker.SingleLink

namespace LinkBulker.Worker
open Foundations Db Shared SingleLink
variable {newURL : UrlParser}

def Batch.told (b : Batch) (k : ℕ) : Option ProgressEvent := (b.calls[k]?).bind ProcessOne.told

theorem Batch.move_say (b : Batch) (w : World) (ps : List ProgressEvent) (k : ℕ) (t : Turn)
    (lost : Bool) :
    b.move newURL (w.say ps) k (t.losing lost) =
      (b.move newURL w k t).map (heard ps lost (b.told k)) := by
  unfold move told Pool.step
  cases b.calls[k]? with
  | none => rfl
  | some c =>
    simp only [Option.bind_some, c.move_say, Option.map_map]
    rfl

end LinkBulker.Worker

namespace LinkBulker.ManualCheck
open Foundations Db Shared LinkRepository SingleLink Worker
variable {newURL : UrlParser}

def Act.losing (lost : Bool) : Act → Act
  | .main t => .main (t.losing lost)
  | .child k t => .child k (t.losing lost)
  | .beat t => .beat (t.losing lost)

def Handle.mainTold (h : Handle) : Option ProgressEvent :=
  match h.pc with
  | .publishLocked => some (.lock_changed h.job.projectId true)
  | .publishProgress _ counts =>
    some (.progress h.job.projectId { counts with total := h.job.linkIds.length })
  | .publishDone final =>
    some (.done h.job.projectId h.job.linkIds.length final.found final.errors)
  | .publishUnlocked => some (.lock_changed h.job.projectId false)
  | _ => none

def Handle.told (h : Handle) : Act → Option ProgressEvent
  | .main _ => h.mainTold
  | .child k _ => h.batch.told k
  | .beat _ => none

theorem Handle.main_say (h : Handle) (w : World) (ps : List ProgressEvent) (t : Turn)
    (lost : Bool) :
    h.main (w.say ps) (t.losing lost) = (h.main w t).map (heard ps lost h.mainTold) := by
  obtain ⟨job, pc, lock, heartbeat, batch, threw⟩ := h
  cases pc with
  | publishLocked | publishProgress i counts | publishDone final | publishUnlocked =>
    simp only [main, mainTold, Option.map_some, ← say_publishNow]
  | acquire =>
    simp only [mainTold, heard_none, main, lockKey, World.say, Turn.losing]
    apply ite_eq_map
    · rfl
    · cases LockManager.acquire (w.locks (REDIS_KEYS.projectManualLock job.projectId)) t.now
          ⟨t.token, PROJECT_LOCK_TTL_MS⟩ with
      | mk lock key => cases lock <;> rfl
  | setFlag | clearFlag =>
    simp only [mainTold, heard_none, main, World.say, Turn.losing]
    apply ite_eq_map
    · rfl
    · cases setProjectManualChecking w.db job.projectId _ <;> rfl
  | markQueued | counts i | updateProgress i | finalCounts =>
    simp only [mainTold, heard_none, main, World.say, Turn.losing]
    apply ite_eq_map <;> rfl
  | awaitAll i =>
    simp only [mainTold, heard_none, main]
    cases batch.all i with
    | none => rfl
    | some resolved => cases resolved <;> rfl
  | release =>
    simp only [mainTold, heard_none, main, lockKey, World.say, Turn.losing]
    cases lock with
    | none => rfl
    | some lock => apply ite_eq_map <;> rfl
  | ended | skipped => rfl

theorem Handle.beat_say (h : Handle) (w : World) (ps : List ProgressEvent) (t : Turn)
    (lost : Bool) :
    h.beat (w.say ps) (t.losing lost) = (h.beat w t).map (heard ps lost none) := by
  simp only [heard_none, beat, lockKey, World.say, Turn.losing]
  cases h.heartbeat with
  | false => rfl
  | true =>
    cases h.lock with
    | none => rfl
    | some lock => apply ite_eq_map <;> rfl

theorem Handle.move_say (h : Handle) (w : World) (ps : List ProgressEvent) (a : Act) (lost : Bool) :
    h.move newURL (w.say ps) (a.losing lost) =
      (h.move newURL w a).map (heard ps lost (h.told a)) := by
  cases a with
  | main t => exact h.main_say w ps t lost
  | child k t =>
    simp only [move, Act.losing, h.batch.move_say, Option.map_map]
    rfl
  | beat t => exact h.beat_say w ps t lost

end LinkBulker.ManualCheck

namespace LinkBulker.Sheets

open Foundations Db Shared LinkRepository SingleLink Worker

variable {newURL : UrlParser} {clock : LocalClock}

def SheetsTurn.losing (t : SheetsTurn) (lost : Bool) : SheetsTurn := { t with lost }

def Act.losing (lost : Bool) : Act → Act
  | .main t => .main (t.losing lost)
  | .child k t => .child k (t.losing lost)
  | .beat t => .beat (t.losing lost)

def Run.mainTold (r : Run) (now : ℤ) : Option ProgressEvent :=
  match r.pc with
  | .publishRunning => some (taskUpdated r.task .RUNNING none none)
  | .publishProgress _ counts => some (.sheets_task_progress r.task.id r.task.projectId
      { counts with total := r.persistedLinks.length })
  | .publishCompleted updated status => some (taskUpdated updated .COMPLETED (some now) (some status))
  | .publishFailed updated reason => some (taskUpdated updated .FAILED (some now) (some reason))
  | _ => none

def Run.told (r : Run) : Act → Option ProgressEvent
  | .main t => r.mainTold t.now
  | .child k _ => r.batch.told k
  | .beat _ => none

def Call.told : Call → Act → Option ProgressEvent
  | .body r, a => r.told a
  | .find _, _ | .missing, _ => none

theorem Run.main_say (r : Run) (w : World) (ps : List ProgressEvent) (t : SheetsTurn)
    (lost : Bool) :
    r.main newURL clock (w.say ps) (t.losing lost) =
      (r.main newURL clock w t).map (heard ps lost (r.mainTold t.now)) := by
  have hturn : (t.losing lost).toTurn = t.toTurn.losing lost := rfl
  have hnow : (t.toTurn.losing lost).now = t.now := rfl
  cases hpc : r.pc with
  | publishRunning | publishProgress i counts | publishCompleted updated status
  | publishFailed updated reason =>
    simp only [main, mainTold, hpc, hturn, hnow, Option.map_some, ← say_publishNow]
  | acquire =>
    simp only [mainTold, heard_none, main, lockKey, hpc, World.say, SheetsTurn.losing]
    apply ite_eq_map
    · rfl
    · cases LockManager.acquire (w.locks (REDIS_KEYS.projectSheetsLock r.task.projectId)) t.now
          ⟨t.token, PROJECT_LOCK_TTL_MS⟩ with
      | mk lock key => cases lock <;> rfl
  | setRunning | setCompleted status | setFailed reason =>
    simp only [mainTold, heard_none, main, hpc, World.say, SheetsTurn.losing]
    apply ite_eq_map
    · rfl
    · cases setSheetsTaskStatus w.db r.task.id _ _ t.now <;> rfl
  | setFlag | clearFlag =>
    simp only [mainTold, heard_none, main, hpc, World.say, SheetsTurn.losing]
    apply ite_eq_map
    · rfl
    · cases setProjectSheetsChecking w.db r.task.projectId _ <;> rfl
  | resolveTitle =>
    simp only [mainTold, heard_none, main, hpc, SheetsTurn.losing]
    apply ite_eq_map
    · rfl
    · split <;> rfl
  | replaceLinks =>
    simp only [mainTold, heard_none, main, hpc, World.say, SheetsTurn.losing]
    apply ite_eq_map
    · rfl
    · cases replaceSheetsLinks w.db r.task.id r.task.projectId
          (r.validRows.map fun v => v.1.data) t.cuid <;> rfl
  | markInvalid i now =>
    simp only [mainTold, heard_none, main, hpc, World.say, SheetsTurn.losing]
    apply ite_eq_map
    · rfl
    · cases r.persistedLinks[i]? with
      | none => rfl
      | some link =>
        cases r.validRows[i]? with
        | none => rfl
        | some vr =>
          dsimp only
          cases saveResult w.db link.id (invalidResult vr.1.errors) now <;> rfl
  | refindFailed reason =>
    simp only [mainTold, heard_none, main, hpc, World.say, SheetsTurn.losing]
    apply ite_eq_map
    · rfl
    · cases findSheetsTaskById w.db r.task.id <;> rfl
  | readRows | fetchLinks | counts i | fetchFinal | writeData | writeHeader | setWidths | finalCounts
  | refind status =>
    simp only [mainTold, heard_none, main, hpc, World.say, SheetsTurn.losing]
    apply ite_eq_map <;> rfl
  | awaitAll i =>
    simp only [mainTold, heard_none, main, hpc]
    cases r.batch.all i with
    | none => rfl
    | some resolved => cases resolved <;> rfl
  | release =>
    simp only [mainTold, heard_none, main, lockKey, hpc, World.say, SheetsTurn.losing]
    cases r.lock with
    | none => rfl
    | some lock => apply ite_eq_map <;> rfl
  | pair i =>
    simp only [mainTold, heard_none, main, hpc]
    rfl
  | ended | skipped =>
    simp only [main, hpc]
    rfl

theorem Run.beat_say (r : Run) (w : World) (ps : List ProgressEvent) (t : Turn) (lost : Bool) :
    r.beat (w.say ps) (t.losing lost) = (r.beat w t).map (heard ps lost none) := by
  simp only [heard_none, beat, lockKey, World.say, Turn.losing]
  cases r.heartbeat with
  | false => rfl
  | true =>
    cases r.lock with
    | none => rfl
    | some lock => apply ite_eq_map <;> rfl

theorem Run.move_say (r : Run) (w : World) (ps : List ProgressEvent) (a : Act) (lost : Bool) :
    r.move newURL clock (w.say ps) (a.losing lost) =
      (r.move newURL clock w a).map (heard ps lost (r.told a)) := by
  cases a with
  | main t => exact r.main_say w ps t lost
  | child k t =>
    simp only [move, Act.losing, r.batch.move_say, Option.map_map]
    rfl
  | beat t => exact r.beat_say w ps t lost

theorem Call.move_say (c : Call) (w : World) (ps : List ProgressEvent) (a : Act) (lost : Bool) :
    c.move newURL clock (w.say ps) (a.losing lost) =
      (c.move newURL clock w a).map (heard ps lost (c.told a)) := by
  cases c with
  | find sheetsTaskId =>
    cases a with
    | main t =>
      simp only [told, heard_none, move, Act.losing, World.say, SheetsTurn.losing]
      apply ite_eq_map
      · rfl
      · cases findSheetsTaskById w.db sheetsTaskId <;> rfl
    | child k t | beat t => rfl
  | body r =>
    simp only [move, r.move_say, Option.map_map]
    rfl
  | missing => cases a <;> rfl

end LinkBulker.Sheets

namespace LinkBulker.ProjectLock

open Foundations Db Shared LinkRepository SingleLink Worker

variable {newURL : UrlParser} {clock : Sheets.LocalClock}

def Act.losing (lost : Bool) : Act → Act
  | .manual a => .manual (a.losing lost)
  | .sheets a => .sheets (a.losing lost)

def Check.told : Check → Act → Option ProgressEvent
  | .manual h, .manual a => h.told a
  | .sheets c, .sheets a => c.told a
  | .manual _, .sheets _ | .sheets _, .manual _ => none

theorem Check.move_say (c : Check) (w : World) (ps : List ProgressEvent) (a : Act) (lost : Bool) :
    c.move newURL clock (w.say ps) (a.losing lost) =
      (c.move newURL clock w a).map (heard ps lost (c.told a)) := by
  cases c with
  | manual h =>
    cases a with
    | manual a =>
      simp only [move, Act.losing, h.move_say, Option.map_map]
      rfl
    | sheets a => rfl
  | sheets c =>
    cases a with
    | manual a => rfl
    | sheets a =>
      simp only [move, Act.losing, c.move_say, Option.map_map]
      rfl

end LinkBulker.ProjectLock
