import LinkBulker.Api.ManualLinks
import LinkBulker.Foundations.Run
import LinkBulker.Worker.BatchLaws
import LinkBulker.Worker.ProjectLock

/-! Bulk checks from the request to the worker: `LinksService.startManualCheck` on its awaits, the
`manual-check` queue, and the workers that take the jobs off it one at a time, oldest first. -/

namespace LinkBulker.BulkQueue

open Foundations Db Shared SingleLink Worker
open ManualCheck (Handle Act)

/-- A job of the queue.  `since` counts the results that had been stored when it was added. -/
structure Queued where
  data : ManualCheckJobData
  since : ℕ
  deriving DecidableEq

structure StartManualCheckResponse where
  jobId : ℕ
  queued : ℕ
  deriving DecidableEq

inductive Pc
  | assertProject
  | isLocked
  | findMany
  | add (linkIds : List LinkId)
  | over (answer : Except String StartManualCheckResponse)

structure Request where
  userId : UserId
  projectId : ProjectId
  pc : Pc := .assertProject

def Request.at_ (r : Request) (pc : Pc) : Request := { r with pc }

def Request.move (w : World) (queue : List Queued) (r : Request) (now : ℤ) :
    Option (List Queued × Request) :=
  match r.pc with
  | .assertProject =>
    match LinksService.assertProject w.db r.userId r.projectId with
    | .error message => some (queue, r.at_ (.over (.error message)))
    | .ok () => some (queue, r.at_ .isLocked)
  | .isLocked =>
    if LockManager.isLocked (w.locks (REDIS_KEYS.projectManualLock r.projectId)) now then
      some (queue, r.at_ (.over (.error "A manual check is already running for this project")))
    else some (queue, r.at_ .findMany)
  | .findMany =>
    let links := w.db.links.rows.filter fun l =>
      l.projectId == r.projectId && l.source == .MANUAL && LinksService.eligible.contains l.status
    if links.length = 0 then
      some (queue, r.at_ (.over (.error
        "No links to check (only PENDING and ERROR links are eligible)")))
    else some (queue, r.at_ (.add (links.map Link.id)))
  | .add linkIds =>
    some (queue ++ [⟨⟨r.projectId, linkIds⟩, w.stored.length⟩],
      r.at_ (.over (.ok ⟨queue.length, linkIds.length⟩)))
  | .over _ => none

def isOver (h : Handle) : Bool := h.pc = .ended || h.pc = .skipped

def completed (h : Handle) : Bool := isOver h && !h.threw

/-- `queue` is every job ever added and `runs` the calls of `handle`, so the `i`-th run is the one
of the `i`-th job and the jobs from the `runs.length`-th on still wait.  `ids` are the ids that
links have had. -/
structure State where
  world : World
  ids : List LinkId
  queue : List Queued := []
  requests : List Request := []
  runs : List Handle := []

def State.start (w : World) : State where
  world := w
  ids := w.db.links.rows.map Link.id

def FreshIds (s : State) (db : Database) : Prop :=
  ∀ l ∈ db.links.rows, l.id ∈ s.ids → ∃ l₀ ∈ s.world.db.links.rows, l₀.id = l.id

instance (s : State) (db : Database) : Decidable (FreshIds s db) :=
  inferInstanceAs (Decidable (∀ l ∈ db.links.rows, _ → ∃ l₀ ∈ s.world.db.links.rows, _))

/-- `startManualCheck` is a request that comes in, `serve` a step of the `i`-th one, `pickUp` a
worker that takes the next job and `work` a step of the `i`-th run.  One common clock never runs
back. -/
inductive Label (newURL : UrlParser)
  | startManualCheck (userId : UserId) (projectId : ProjectId)
  | serve (i : ℕ) (now : ℤ)
  | createManualLinks (cuid : ℕ → LinkId) (userId : UserId) (projectId : ProjectId)
      (dto : LinksService.CreateManualLinksInput newURL)
  | delete (r : LinksService.Request)
  | pickUp
  | work (i : ℕ) (a : Act)

def step (newURL : UrlParser) (workers : ℕ) (s : State) : Label newURL → Option State
  | .startManualCheck userId projectId =>
    some { s with requests := s.requests ++ [{ userId, projectId }] }
  | .serve i now =>
    if s.world.clock ≤ now then
      (Pool.step (Request.move s.world) s.queue s.requests i now).map fun r =>
        { s with world := { s.world with clock := now }, queue := r.1, requests := r.2 }
    else none
  | .createManualLinks cuid userId projectId dto =>
    match LinksService.createManualLinks newURL cuid s.world.db userId projectId dto with
    | .error _ => some s
    | .ok db =>
      if FreshIds s db then
        some { s with
          world := { s.world with db }
          ids := s.ids ++ db.links.rows.map Link.id }
      else none
  | .delete r => some { s with world := { s.world with db := r.apply s.world.db } }
  | .pickUp =>
    match s.queue[s.runs.length]? with
    | none => none
    | some q =>
      if s.runs.countP (fun h => !isOver h) < workers then
        some { s with runs := s.runs ++ [{ job := q.data }] }
      else none
  | .work i a =>
    if s.world.clock ≤ a.turn.now then
      (Pool.step (Handle.move newURL) { s.world with clock := a.turn.now } s.runs i a).map fun r =>
        { s with world := r.1, runs := r.2 }
    else none

def Label.served {newURL : UrlParser} : Label newURL → Bool
  | .work _ a => !a.turn.rejects
  | _ => true

def StoredSince (w : World) (since : ℕ) (id : LinkId) : Prop :=
  ∃ saved ∈ w.stored.drop since, saved.linkId = id

instance (w : World) (since : ℕ) (id : LinkId) : Decidable (StoredSince w since id) :=
  inferInstanceAs (Decidable (∃ saved ∈ w.stored.drop since, _))

def Checked (w : World) (q : Queued) : Prop :=
  ∀ id ∈ q.data.linkIds, ¬ Gone w.db id → StoredSince w q.since id

instance (w : World) (q : Queued) : Decidable (Checked w q) :=
  inferInstanceAs (Decidable (∀ id ∈ q.data.linkIds, _ → _))

def holds (h : Handle) : Bool := (ProjectLock.manualStage h.pc).holds

def FoundLocked (newURL : UrlParser) (workers : ℕ) (s₀ : State) (labels : List (Label newURL))
    (i : ℕ) : Prop :=
  ∃ before t s h, before ++ [.work i (.main t)] <+: labels ∧
    exec (step newURL workers) s₀ before = some s ∧ s.runs[i]? = some h ∧ h.pc = .acquire ∧
    ∃ other ∈ s.runs, holds other ∧ other.job.projectId = h.job.projectId

/-- Undisturbed, a request answers what `LinksService.startManualCheck` does. -/
theorem exec_move (w : World) (queue : List Queued) (userId : UserId) (projectId : ProjectId)
    (now : ℤ) :
    ∃ n, exec (fun s t => Request.move w s.1 s.2 t) (queue, { userId, projectId })
        (List.replicate n now) =
      match LinksService.startManualCheck w.db
        (LockManager.isLocked (w.locks (REDIS_KEYS.projectManualLock projectId)) now)
        userId projectId with
      | .error message => some (queue, ⟨userId, projectId, .over (.error message)⟩)
      | .ok job => some (queue ++ [⟨job, w.stored.length⟩],
          ⟨userId, projectId, .over (.ok ⟨queue.length, job.linkIds.length⟩)⟩) := by
  unfold LinksService.startManualCheck
  cases hp : LinksService.assertProject w.db userId projectId with
  | error message => exact ⟨1, by simp [exec, Request.move, hp, Request.at_]⟩
  | ok _ =>
    by_cases hl : LockManager.isLocked (w.locks (REDIS_KEYS.projectManualLock projectId)) now
    · exact ⟨2, by simp [exec, Request.move, hp, hl, Request.at_]⟩
    · dsimp only
      rw [if_neg hl]
      generalize hlinks : w.db.links.rows.filter _ = links
      have hfind : Request.move w queue ⟨userId, projectId, .findMany⟩ now =
          if links.length = 0 then some (queue, ⟨userId, projectId, .over (.error
            "No links to check (only PENDING and ERROR links are eligible)")⟩)
          else some (queue, ⟨userId, projectId, .add (links.map Link.id)⟩) := by
        rw [← hlinks]
        rfl
      have hask : Request.move w queue ⟨userId, projectId, .assertProject⟩ now =
          some (queue, ⟨userId, projectId, .isLocked⟩) := by simp [Request.move, hp, Request.at_]
      have hlock : Request.move w queue ⟨userId, projectId, .isLocked⟩ now =
          some (queue, ⟨userId, projectId, .findMany⟩) := by simp [Request.move, hl, Request.at_]
      by_cases hnone : links.length = 0
      · rw [if_pos hnone] at hfind ⊢
        exact ⟨3, by simp [exec, hask, hlock, hfind]⟩
      · rw [if_neg hnone] at hfind ⊢
        have hadd : Request.move w queue ⟨userId, projectId, .add (links.map Link.id)⟩ now =
            some (queue ++ [⟨⟨projectId, links.map Link.id⟩, w.stored.length⟩],
              ⟨userId, projectId, .over (.ok ⟨queue.length, (links.map Link.id).length⟩)⟩) := rfl
        exact ⟨4, by simp [exec, hask, hlock, hfind, hadd]⟩

end LinkBulker.BulkQueue
