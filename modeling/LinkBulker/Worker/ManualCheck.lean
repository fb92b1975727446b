import LinkBulker.Worker.Batch

/-! `apps/worker/src/modules/queue/manual-check.processor.ts`. -/

namespace LinkBulker.ManualCheck

open Foundations Db Shared LinkRepository SingleLink Worker

def INTERNAL_CONCURRENCY : ℕ := 15

def PROJECT_LOCK_TTL_MS : ℤ := 30 * 60 * 1000

/-- The await at which a call of `handle` stands.  `skipped` is a call that got no lock. -/
inductive Pc
  | acquire
  | setFlag
  | publishLocked
  | markQueued
  | awaitAll (i : ℕ)
  | counts (i : ℕ)
  | publishProgress (i : ℕ) (counts : ProgressCounts)
  | updateProgress (i : ℕ)
  | finalCounts
  | publishDone (final : ProgressCounts)
  | clearFlag
  | publishUnlocked
  | release
  | ended
  | skipped
  deriving DecidableEq

structure Handle where
  job : ManualCheckJobData
  pc : Pc := .acquire
  lock : Option LockManager.Lock := none
  heartbeat : Bool := false
  batch : Batch := ⟨job.linkIds, []⟩
  threw : Bool := false

def Handle.lockKey (h : Handle) : String := REDIS_KEYS.projectManualLock h.job.projectId

def Handle.loop (h : Handle) (i : ℕ) : Handle :=
  if i < h.job.linkIds.length then
    { h with batch := h.batch.start INTERNAL_CONCURRENCY i, pc := .awaitAll i }
  else { h with pc := .finalCounts }

def Handle.finally_ (h : Handle) (threw : Bool) : Handle :=
  { h with pc := .clearFlag, heartbeat := false, threw }

def Handle.main (w : World) (h : Handle) (t : Turn) : Option (World × Handle) :=
  match h.pc with
  | .acquire =>
    if t.rejects then some (w, { h with pc := .skipped })
    else match LockManager.acquire (w.locks h.lockKey) t.now ⟨t.token, PROJECT_LOCK_TTL_MS⟩ with
      | (none, _) => some (w, { h with pc := .skipped })
      | (some lock, key) =>
        some ({ w with
            locks := Function.update w.locks h.lockKey key, issued := t.token :: w.issued },
          { h with pc := .setFlag, lock := some lock, heartbeat := true })
  | .setFlag =>
    if t.rejects then some (w, h.finally_ true)
    else match setProjectManualChecking w.db h.job.projectId true with
      | none => some (w, h.finally_ true)
      | some db => some ({ w with db }, { h with pc := .publishLocked })
  | .publishLocked =>
    some (w.publishNow t (.lock_changed h.job.projectId true), { h with pc := .markQueued })
  | .markQueued =>
    if t.rejects then some (w, h.finally_ true)
    else some ({ w with db := markManyStatus w.db h.job.linkIds .QUEUED }, h.loop 0)
  | .awaitAll i =>
    match h.batch.all i with
    | none => none
    | some false => some (w, h.finally_ true)
    | some true => some (w, { h with pc := .counts i })
  | .counts i =>
    if t.rejects then some (w, h.finally_ true)
    else some (w, { h with pc := .publishProgress i (getProgressCounts w.db h.job.linkIds) })
  | .publishProgress i counts =>
    some (w.publishNow t
        (.progress h.job.projectId { counts with total := h.job.linkIds.length }),
      { h with pc := .updateProgress i })
  | .updateProgress i =>
    if t.rejects then some (w, h.finally_ true)
    else some (w, h.loop (i + INTERNAL_CONCURRENCY))
  | .finalCounts =>
    if t.rejects then some (w, h.finally_ true)
    else some (w, { h with pc := .publishDone (getProgressCounts w.db h.job.linkIds) })
  | .publishDone final =>
    some (w.publishNow t
        (.done h.job.projectId h.job.linkIds.length final.found final.errors), h.finally_ false)
  | .clearFlag =>
    -- a failure here is caught and logged
    if t.rejects then some (w, { h with pc := .publishUnlocked })
    else match setProjectManualChecking w.db h.job.projectId false with
      | none => some (w, { h with pc := .publishUnlocked })
      | some db => some ({ w with db }, { h with pc := .publishUnlocked })
  | .publishUnlocked =>
    some (w.publishNow t (.lock_changed h.job.projectId false), { h with pc := .release })
  | .release =>
    match h.lock with
    | none => none
    | some lock =>
      if t.rejects then some (w, { h with pc := .ended })
      else some ({ w with
          locks := Function.update w.locks h.lockKey (lock.release (w.locks h.lockKey) t.now).2 },
        { h with pc := .ended })
  | .ended => none
  | .skipped => none

/-- The timer of `startHeartbeat`; what the script answers is only logged. -/
def Handle.beat (w : World) (h : Handle) (t : Turn) : Option (World × Handle) :=
  match h.heartbeat, h.lock with
  | true, some lock =>
    if t.rejects then some (w, h)
    else some ({ w with
        locks := Function.update w.locks h.lockKey (lock.heartbeat (w.locks h.lockKey) t.now).2 }, h)
  | _, _ => none

/-- Who moves in one call: the function itself, one of its `processOne` calls, the timer. -/
inductive Act
  | main (t : Turn)
  | child (k : ℕ) (t : Turn)
  | beat (t : Turn)
  deriving DecidableEq

def Act.turn : Act → Turn
  | .main t | .child _ t | .beat t => t

def Handle.move (newURL : UrlParser) (w : World) (h : Handle) : Act → Option (World × Handle)
  | .main t => h.main w t
  | .child k t => (h.batch.move newURL w k t).map fun r => (r.1, { h with batch := r.2 })
  | .beat t => h.beat w t

end LinkBulker.ManualCheck
