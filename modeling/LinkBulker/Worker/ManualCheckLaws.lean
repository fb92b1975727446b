import LinkBulker.Worker.BatchLaws
import LinkBulker.Worker.ManualCheck

namespace LinkBulker.ManualCheck

open Foundations Db Shared LinkRepository SingleLink Worker

variable {newURL : UrlParser} {w w' : World} {h h' : Handle} {t : Turn}

def Pc.tries : Pc → Bool
  | .setFlag | .markQueued | .counts _ | .updateProgress _ | .finalCounts => true
  | _ => false

def Pc.counting : Pc → Bool
  | .counts _ | .finalCounts => true
  | _ => false

def Handle.at_ (h : Handle) (pc : Pc) : Handle := { h with pc }

inductive Step (w : World) (h : Handle) (t : Turn) : World → Handle → Prop
  | skip (hpc : h.pc = .acquire) : Step w h t w (h.at_ .skipped)
  | locked {lock : LockManager.Lock} {key : LockManager.Key} (hpc : h.pc = .acquire)
    (hacq : LockManager.acquire (w.locks h.lockKey) t.now ⟨t.token, PROJECT_LOCK_TTL_MS⟩ =
      (some lock, key)) :
    Step w h t
      { w with locks := Function.update w.locks h.lockKey key, issued := t.token :: w.issued }
      { h with pc := .setFlag, lock := some lock, heartbeat := true }
  | throws (hpc : h.pc.tries) (hr : t.rejects) : Step w h t w (h.finally_ true)
  | flagGone (hpc : h.pc = .setFlag)
    (hset : setProjectManualChecking w.db h.job.projectId true = none) :
    Step w h t w (h.finally_ true)
  | raised {db : Database} (hpc : h.pc = .setFlag)
    (hset : setProjectManualChecking w.db h.job.projectId true = some db) :
    Step w h t { w with db } (h.at_ .publishLocked)
  | toldLocked (hpc : h.pc = .publishLocked) :
    Step w h t (w.publishNow t (.lock_changed h.job.projectId true)) (h.at_ .markQueued)
  | queued (hpc : h.pc = .markQueued) :
    Step w h t { w with db := markManyStatus w.db h.job.linkIds .QUEUED } (h.loop 0)
  | rejected {i : ℕ} (hpc : h.pc = .awaitAll i) (hall : h.batch.all i = some false) :
    Step w h t w (h.finally_ true)
  | resolved {i : ℕ} (hpc : h.pc = .awaitAll i) (hall : h.batch.all i = some true) :
    Step w h t w (h.at_ (.counts i))
  | counted {i : ℕ} (hpc : h.pc = .counts i) :
    Step w h t w (h.at_ (.publishProgress i (getProgressCounts w.db h.job.linkIds)))
  | toldProgress {i : ℕ} {counts : ProgressCounts} (hpc : h.pc = .publishProgress i counts) :
    Step w h t (w.publishNow t
      (.progress h.job.projectId { counts with total := h.job.linkIds.length }))
      (h.at_ (.updateProgress i))
  | next {i : ℕ} (hpc : h.pc = .updateProgress i) :
    Step w h t w (h.loop (i + INTERNAL_CONCURRENCY))
  | countedAll (hpc : h.pc = .finalCounts) :
    Step w h t w (h.at_ (.publishDone (getProgressCounts w.db h.job.linkIds)))
  | toldDone {final : ProgressCounts} (hpc : h.pc = .publishDone final) :
    Step w h t (w.publishNow t
      (.done h.job.projectId h.job.linkIds.length final.found final.errors)) (h.finally_ false)
  | lowered {db : Database} (hpc : h.pc = .clearFlag)
    (hset : setProjectManualChecking w.db h.job.projectId false = some db) :
    Step w h t { w with db } (h.at_ .publishUnlocked)
  | lowerFailed (hpc : h.pc = .clearFlag)
    (hset : t.rejects ∨ setProjectManualChecking w.db h.job.projectId false = none) :
    Step w h t w (h.at_ .publishUnlocked)
  | toldUnlocked (hpc : h.pc = .publishUnlocked) :
    Step w h t (w.publishNow t (.lock_changed h.job.projectId false)) (h.at_ .release)
  | released {lock : LockManager.Lock} (hpc : h.pc = .release) (hlock : h.lock = some lock) :
    Step w h t
      { w with
        locks := Function.update w.locks h.lockKey (lock.release (w.locks h.lockKey) t.now).2 }
      (h.at_ .ended)
  | releaseFailed (hpc : h.pc = .release) (hr : t.rejects) : Step w h t w (h.at_ .ended)

theorem main_eq_some (hm : h.main w t = some (w', h')) : Step w h t w' h' := by
  unfold Handle.main at hm
  split at hm
  case h_1 hpc =>
    split at hm
    · cases hm; exact .skip hpc
    · split at hm
      · cases hm; exact .skip hpc
      · rename_i hacq
        cases hm; exact .locked hpc hacq
  case h_2 hpc =>
    split at hm
    · cases hm; exact .throws (by rw [hpc]; rfl) ‹_›
    · split at hm
      · rename_i hset
        cases hm; exact .flagGone hpc hset
      · rename_i hset
        cases hm; exact .raised hpc hset
  case h_3 hpc => cases hm; exact .toldLocked hpc
  case h_4 hpc =>
    split at hm
    · cases hm; exact .throws (by rw [hpc]; rfl) ‹_›
    · cases hm; exact .queued hpc
  case h_5 hpc =>
    split at hm
    · cases hm
    · rename_i hall
      cases hm; exact .rejected hpc hall
    · rename_i hall
      cases hm; exact .resolved hpc hall
  case h_6 hpc =>
    split at hm
    · cases hm; exact .throws (by rw [hpc]; rfl) ‹_›
    · cases hm; exact .counted hpc
  case h_7 hpc => cases hm; exact .toldProgress hpc
  case h_8 hpc =>
    split at hm
    · cases hm; exact .throws (by rw [hpc]; rfl) ‹_›
    · cases hm; exact .next hpc
  case h_9 hpc =>
    split at hm
    · cases hm; exact .throws (by rw [hpc]; rfl) ‹_›
    · cases hm; exact .countedAll hpc
  case h_10 hpc => cases hm; exact .toldDone hpc
  case h_11 hpc =>
    split at hm
    · rename_i hr
      cases hm; exact .lowerFailed hpc (.inl hr)
    · split at hm
      · rename_i hset
        cases hm; exact .lowerFailed hpc (.inr hset)
      · rename_i hset
        cases hm; exact .lowered hpc hset
  case h_12 hpc => cases hm; exact .toldUnlocked hpc
  case h_13 hpc =>
    split at hm
    · cases hm
    · rename_i hlock
      split at hm
      · rename_i hr
        cases hm; exact .releaseFailed hpc hr
      · cases hm; exact .released hpc hlock
  case h_14 => cases hm
  case h_15 => cases hm

theorem loop_job (i : ℕ) : (h.loop i).job = h.job := by
  unfold Handle.loop
  split <;> rfl

theorem Step.job (hs : Step w h t w' h') : h'.job = h.job := by
  cases hs with
  | queued => exact loop_job 0
  | next => exact loop_job _
  | _ => rfl

theorem beat_eq_some (hb : h.beat w t = some (w', h')) :
    ∃ lock, h.heartbeat ∧ h.lock = some lock ∧ h' = h ∧
      (w' = w ∨ w' = { w with
        locks := Function.update w.locks h.lockKey (lock.heartbeat (w.locks h.lockKey) t.now).2 }) := by
  unfold Handle.beat at hb
  split at hb
  · rename_i lock hbeat hlock
    split at hb <;> cases hb
    · exact ⟨lock, hbeat, hlock, rfl, .inl rfl⟩
    · exact ⟨lock, hbeat, hlock, rfl, .inr rfl⟩
  · cases hb

theorem child_eq_some {k : ℕ} (hm : h.move newURL w (.child k t) = some (w', h')) :
    ∃ b, h.batch.move newURL w k t = some (w', b) ∧ h' = { h with batch := b } := by
  simp only [Handle.move, Option.map_eq_some_iff, Prod.exists, Prod.mk.injEq] at hm
  obtain ⟨w₁, b, hmove, rfl, rfl⟩ := hm
  exact ⟨b, hmove, rfl⟩

theorem move_job {a : Act} (hm : h.move newURL w a = some (w', h')) : h'.job = h.job := by
  cases a with
  | main t => exact (main_eq_some hm).job
  | child k t =>
    obtain ⟨b, -, rfl⟩ := child_eq_some hm
    rfl
  | beat t =>
    obtain ⟨lock, -, -, rfl, -⟩ := beat_eq_some hm
    rfl

end LinkBulker.ManualCheck
