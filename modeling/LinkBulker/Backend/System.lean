import LinkBulker.Api.RowRequests
import LinkBulker.Api.SheetsSchedules
import LinkBulker.Db.History
import LinkBulker.Worker.Dispatch

/-! The whole backend: every request of the API on its awaits, the job schedulers, the three queues
and the workers, over one database and one Redis. -/

namespace LinkBulker.Backend

open Foundations Db Shared SingleLink Worker
open ProjectLock (Act Check)
open SheetsSchedules (JobScheduler Store)

/-- `given` are the ids that have been drawn.  A settings request comes with what it asked for. -/
structure State (newURL : UrlParser) extends Dispatch.State where
  schedulers : Table JobScheduler.id := .empty
  rowRequests : List (RowRequests.Request newURL) := []
  taskRequests : List (SheetsSchedules.Op × SheetsSchedules.Request) := []
  given : List String := []

variable {newURL : UrlParser}

def State.start (db : Database) (locks : String → LockManager.Key) (clock : ℤ) : State newURL where
  world := { db, locks, clock }
  given := db.ids

/-- What happens: something the dispatcher knows, a request for rows or for the settings of a task
comes in, or the `i`-th one takes a step. -/
inductive Label (newURL : UrlParser)
  | dispatch (l : Dispatch.Label newURL)
  | row (userId : UserId) (op : RowRequests.Op newURL)
  | serveRow (i : ℕ) (cuid : ℕ → String)
  | task (op : SheetsSchedules.Op)
  | serveTask (i : ℕ) (t : SheetsSchedules.Turn)

def opUser : SheetsSchedules.Op → UserId
  | .create userId _ _ | .update userId _ _ | .remove userId _ | .removeProject userId _ => userId

def askUser : Dispatch.Ask → UserId
  | .startManualCheck userId _ | .recheckOne userId _ | .runNow userId _ => userId

def Label.user : Label newURL → Option UserId
  | .dispatch (.ask a) => some (askUser a)
  | .row userId _ => some userId
  | .task op => some (opUser op)
  | _ => none

/-- Rows are created and deleted by the requests on their awaits, and a scheduler that has not been
registered adds no job. -/
def State.allows (s : State newURL) : Dispatch.Label newURL → Bool
  | .createManualLinks .. | .delete _ => false
  | .schedule sheetsTaskId => s.schedulers.rows.any fun j => j.data = ⟨sheetsTaskId, some true⟩
  | _ => true

def Label.now (clock : ℤ) : Label newURL → ℤ
  | .dispatch l => l.now clock
  | .serveTask _ t => t.now
  | _ => clock

def checkDraws : Check → Act → List String
  | .sheets (.body r), .sheets (.main t) =>
    if r.pc = .replaceLinks then (List.range r.validRows.length).map t.cuid else []
  | _, _ => []

def taskDraws (r : SheetsSchedules.Request) (cuid : SheetsTaskId) : List String :=
  match r with
  | .createRow _ _ => [cuid]
  | _ => []

def State.draws (s : State newURL) : Label newURL → List String
  | .dispatch (.work i a) => (s.checks[i]?.map fun c => checkDraws c a).getD []
  | .serveRow i cuid => (s.rowRequests[i]?.map fun r => r.draws cuid).getD []
  | .serveTask i t => (s.taskRequests[i]?.map fun r => taskDraws r.2 t.cuid).getD []
  | _ => []

def moveTask (s : Store) (r : SheetsSchedules.Op × SheetsSchedules.Request)
    (t : SheetsSchedules.Turn) :
    Option (Store × (SheetsSchedules.Op × SheetsSchedules.Request)) :=
  (r.2.move s t).map fun p => (p.1, (r.1, p.2))

def State.move (clock : Sheets.LocalClock) (s : State newURL) :
    Label newURL → Option (State newURL)
  | .dispatch l =>
    if s.allows l then
      ((s.toState.at_ (l.now s.world.clock)).move clock l).map fun d => { s with toState := d }
    else none
  | .row userId op => some { s with rowRequests := s.rowRequests ++ [⟨userId, op.start⟩] }
  | .serveRow i cuid =>
    (Pool.step RowRequests.Request.move s.world.db s.rowRequests i cuid).map fun r =>
      { s with world := { s.world with db := r.1 }, rowRequests := r.2 }
  | .task op => some { s with taskRequests := s.taskRequests ++ [(op, op.start)] }
  | .serveTask i t =>
    (Pool.step moveTask ⟨s.world.db, s.schedulers⟩ s.taskRequests i t).map fun r => { s with
      world := { s.world with db := r.1.db, clock := t.now }
      schedulers := r.1.schedulers
      taskRequests := r.2 }

def step (clock : Sheets.LocalClock) (s : State newURL) (l : Label newURL) :
    Option (State newURL) :=
  if s.world.clock ≤ l.now s.world.clock ∧ ∀ id ∈ s.draws l, id ∉ s.given then
    (s.move clock l).map fun s' => { s' with given := s.given ++ s.draws l }
  else none

end LinkBulker.Backend
