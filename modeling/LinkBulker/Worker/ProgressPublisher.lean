import LinkBulker.Foundations.Throttle
import LinkBulker.Shared.Jobs

/-! `apps/worker/src/modules/queue/progress.publisher.ts`: which events go out. -/

namespace LinkBulker.Worker

open Foundations Db Shared

structure ProgressPublisher where
  progressThrottle : ProjectId → Option ℤ := fun _ => none

namespace ProgressPublisher

variable (p : ProgressPublisher)

def publish (now : ℤ) : ProgressEvent → ProgressPublisher × Bool
  | .progress projectId _ =>
    let last := (p.progressThrottle projectId).getD 0
    if now - last < LIMITS.SSE_THROTTLE_MS then (p, false)
    else ({ progressThrottle := Function.update p.progressThrottle projectId (some now) }, true)
  | _ => (p, true)

end ProgressPublisher

def isProgress : ProgressEvent → Bool
  | .progress _ _ => true
  | _ => false

variable {p : ProgressPublisher} {now : ℤ} {event : ProgressEvent}

theorem publish_progress (projectId : ProjectId) (counts : ProgressCounts) :
    p.publish now (.progress projectId counts) =
      let r := Throttle.gate LIMITS.SSE_THROTTLE_MS 0 p.progressThrottle projectId now
      (⟨r.1⟩, r.2) := by
  unfold ProgressPublisher.publish Throttle.gate
  dsimp only
  split <;> rfl

theorem publish_other (h : isProgress event = false) : p.publish now event = (p, true) := by
  cases event with
  | progress projectId counts => cases h
  | _ => rfl

end LinkBulker.Worker
