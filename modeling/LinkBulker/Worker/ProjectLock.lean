import LinkBulker.Foundations.Mirror
import LinkBulker.Foundations.Run
import LinkBulker.Worker.ManualCheck
import LinkBulker.Worker.SheetsTask

/-! The calls of `ManualCheckProcessor.handle` and `SheetsTaskService.run` on all workers, over one
Redis and one database.  Both take a lock of their project, mirror it in a column of the project
and run their links in chunks. -/

namespace LinkBulker.ProjectLock

open Foundations Db Shared LinkRepository SingleLink Worker

inductive Kind
  | manual
  | sheets
  deriving DecidableEq

namespace Kind

def lockKey : Kind → ProjectId → String
  | .manual => REDIS_KEYS.projectManualLock
  | .sheets => REDIS_KEYS.projectSheetsLock

def concurrency : Kind → ℕ
  | .manual => ManualCheck.INTERNAL_CONCURRENCY
  | .sheets => Sheets.INTERNAL_CONCURRENCY

def flag : Kind → Project → Bool
  | .manual => Project.manualChecking
  | .sheets => Project.sheetsChecking

def setFlag : Kind → Database → ProjectId → Bool → Option Database
  | .manual => setProjectManualChecking
  | .sheets => setProjectSheetsChecking

end Kind

/-- The stretches of a call, the same for both kinds.  `away` has not got the lock, `preparing` to
`finishing` is the body after the flag has gone up, `closing` a `catch`, `clearing` the await of
the statement that lowers the flag. -/
inductive Stage
  | away
  | entered
  | preparing
  | awaiting (i : ℕ)
  | between (i : ℕ)
  | finishing
  | closing
  | clearing
  | lowered
  | released
  deriving DecidableEq

def Stage.holds : Stage → Bool
  | .away | .released => false
  | _ => true

def Stage.works : Stage → Bool
  | .preparing | .awaiting _ | .between _ | .finishing => true
  | _ => false

def Stage.phase (b : Batch) : Stage → Mirror.Phase
  | .away | .released => .outside
  | .entered => .entered
  | .preparing | .awaiting _ | .between _ | .finishing => .raised
  | .closing | .clearing => if b.calls = [] then .closing else .raised
  | .lowered => .lowered

def manualStage : ManualCheck.Pc → Stage
  | .acquire | .skipped => .away
  | .setFlag => .entered
  | .publishLocked | .markQueued => .preparing
  | .awaitAll i => .awaiting i
  | .counts i | .publishProgress i _ | .updateProgress i => .between i
  | .finalCounts | .publishDone _ => .finishing
  | .clearFlag => .clearing
  | .publishUnlocked | .release => .lowered
  | .ended => .released

def sheetsStage : Sheets.Pc → Stage
  | .acquire | .skipped => .away
  | .setRunning | .setFlag => .entered
  | .publishRunning | .resolveTitle | .readRows | .replaceLinks | .fetchLinks | .pair _
  | .markInvalid .. => .preparing
  | .awaitAll i => .awaiting i
  | .counts i | .publishProgress i _ => .between i
  | .fetchFinal | .writeData | .writeHeader | .setWidths | .finalCounts | .setCompleted _
  | .refind _ | .publishCompleted .. => .finishing
  | .setFailed _ | .refindFailed _ | .publishFailed .. => .closing
  | .clearFlag => .clearing
  | .release => .lowered
  | .ended => .released

structure View where
  kind : Kind
  projectId : ProjectId
  stage : Stage
  lock : Option LockManager.Lock
  batch : Batch
  deriving DecidableEq

namespace View

def lockKey (v : View) : String := v.kind.lockKey v.projectId

def processes (v : View) : Bool := v.stage.works || !v.batch.settled

def phase (v : View) : Mirror.Phase := v.stage.phase v.batch

end View

def manualView (h : ManualCheck.Handle) : View where
  kind := .manual
  projectId := h.job.projectId
  stage := manualStage h.pc
  lock := h.lock
  batch := h.batch

def sheetsView (r : Sheets.Run) : View where
  kind := .sheets
  projectId := r.task.projectId
  stage := sheetsStage r.pc
  lock := r.lock
  batch := r.batch

inductive Check
  | manual (h : ManualCheck.Handle)
  | sheets (c : Sheets.Call)

def Check.view : Check → Option View
  | .manual h => some (manualView h)
  | .sheets (.body r) => some (sheetsView r)
  | .sheets (.find _) | .sheets .missing => none

def Check.viewOf (kind : Kind) (p : ProjectId) (c : Check) : Option View :=
  c.view.filter fun v => v.kind = kind ∧ v.projectId = p

def Check.away (c : Check) : Bool := c.view.all fun v => v.stage = .away

def Check.over : Check → Bool
  | .manual h => h.pc = .ended || h.pc = .skipped
  | .sheets (.find _) => false
  | .sheets (.body r) => r.pc = .ended || r.pc = .skipped
  | .sheets .missing => true

inductive Request
  | manual (job : ManualCheckJobData)
  | sheets (sheetsTaskId : SheetsTaskId)

def Request.start : Request → Check
  | .manual job => .manual { job }
  | .sheets sheetsTaskId => .sheets (.find sheetsTaskId)

inductive Act
  | manual (a : ManualCheck.Act)
  | sheets (a : Sheets.Act)

def Act.turn : Act → Turn
  | .manual a => a.turn
  | .sheets a => a.turn

def Act.main : Act → Bool
  | .manual (.main _) | .sheets (.main _) => true
  | _ => false

def Check.move (newURL : UrlParser) (clock : Sheets.LocalClock) (w : World) (c : Check) (a : Act) :
    Option (World × Check) :=
  match c, a with
  | .manual h, .manual a => (h.move newURL w a).map fun r => (r.1, .manual r.2)
  | .sheets c, .sheets a => (c.move newURL clock w a).map fun r => (r.1, .sheets r.2)
  | _, _ => none

abbrev Fleet := World × List Check

def step (newURL : UrlParser) (clock : Sheets.LocalClock) (s : Fleet) (a : ℕ × Act) : Option Fleet :=
  if s.1.clock ≤ a.2.turn.now then
    Pool.act (Check.move newURL clock) ({ s.1 with clock := a.2.turn.now }, s.2) a
  else none

section Properties

variable (kind : Kind) (p : ProjectId)

def flagUp (db : Database) : Bool := (db.projects.find? p).any kind.flag

def lockFree (w : World) (now : ℤ) : Bool := ((w.locks (kind.lockKey p)).read now).isNone

structure Mirrors (s : Fleet) : Prop where
  alone : s.2.countP (fun c => (c.viewOf kind p).any fun v => v.stage.holds) ≤ 1
  down : lockFree kind p s.1 s.1.clock → flagUp kind p s.1.db = false
  up : ∀ c ∈ s.2, ∀ v ∈ c.viewOf kind p, v.processes → flagUp kind p s.1.db = true

def clearing (s : Fleet) (a : ℕ × Act) : Option View :=
  (s.2[a.1]?.bind (Check.viewOf kind p)).filter fun v => v.stage = .clearing ∧ a.2.main

def Assumed (s : Fleet) (a : ℕ × Act) : Prop :=
  ((∃ c ∈ s.2, (c.viewOf kind p).any fun v => v.stage.holds) →
    lockFree kind p s.1 a.2.turn.now = false) ∧
  ∀ v ∈ clearing kind p s a,
    a.2.turn.rejects = false ∧ (v.kind.setFlag s.1.db v.projectId false).isSome

/-- A call with a rejected `processOne` lowers the flag after its other ones have settled. -/
def Waits (s : Fleet) (a : ℕ × Act) : Prop :=
  ∀ v ∈ clearing kind p s a, (∃ c ∈ v.batch.calls, c.pc = .rejected) → v.batch.settled

instance (s : Fleet) (a : ℕ × Act) : Decidable (Assumed kind p s a) :=
  inferInstanceAs (Decidable (_ ∧ ∀ v ∈ clearing kind p s a, _))

instance (s : Fleet) (a : ℕ × Act) : Decidable (Waits kind p s a) :=
  inferInstanceAs (Decidable (∀ v ∈ clearing kind p s a, _))

def Untouched (newURL : UrlParser) (clock : Sheets.LocalClock) (s₀ s : Fleet) (as : List (ℕ × Act)) :
    Prop :=
  ∀ before a after s₁ s₂, as = before ++ a :: after → exec (step newURL clock) s₀ before = some s₁ →
    step newURL clock s₁ a = some s₂ → (∀ c ∈ s.2[a.1]?, c.away) →
    s₂.1.db = s₁.1.db ∧ s₂.1.locks = s₁.1.locks

end Properties

end LinkBulker.ProjectLock
