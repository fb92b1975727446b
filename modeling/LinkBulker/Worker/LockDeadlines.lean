import LinkBulker.Worker.LockExclusion

/-! How long the lock of a project outlives what its calls do with it. -/

namespace LinkBulker.ProjectLock

open Foundations Db Shared LinkRepository SingleLink Worker
open ManualCheck (PROJECT_LOCK_TTL_MS)

variable {newURL : UrlParser} {clock : Sheets.LocalClock} {main : Bool} {w w' : World} {v v' : View}
  {t : Turn} {a : Act} {c c' : Check}

def Check.Timed (c : Check) : Prop :=
  ∀ v ∈ c.view, ∀ lock ∈ v.lock, lock.ttlMs = PROJECT_LOCK_TTL_MS

theorem Check.timed_manual {h : ManualCheck.Handle} :
    (Check.manual h).Timed ↔ ∀ lock ∈ h.lock, lock.ttlMs = PROJECT_LOCK_TTL_MS :=
  ⟨fun ht => ht _ rfl, fun ht v hv => by cases hv; exact ht⟩

theorem Check.timed_body {r : Sheets.Run} :
    (Check.sheets (.body r)).Timed ↔ ∀ lock ∈ r.lock, lock.ttlMs = PROJECT_LOCK_TTL_MS :=
  ⟨fun ht => ht _ rfl, fun ht v hv => by cases hv; exact ht⟩

theorem timed_of_acquire {key key' : LockManager.Key} {now : ℤ} {token : LockManager.Token}
    {lock : LockManager.Lock}
    (hacq : LockManager.acquire key now ⟨token, PROJECT_LOCK_TTL_MS⟩ = (some lock, key')) :
    ∀ lock' ∈ some lock, lock'.ttlMs = PROJECT_LOCK_TTL_MS := by
  obtain ⟨rfl, -⟩ := LockManager.acquire_eq_some hacq
  intro lock' hlock'
  cases hlock'
  rfl

theorem Check.Timed.step (h : c.Timed) (hs : Steps newURL clock w c a w' c') : c'.Timed := by
  cases hs with
  | manual hs =>
    rw [Check.timed_manual] at h ⊢
    cases hs with
    | locked hpc hacq => exact timed_of_acquire hacq
    | queued hpc | next hpc =>
      unfold ManualCheck.Handle.loop
      split <;> exact h
    | _ => exact h
  | manualChild hm =>
    rw [Check.timed_manual] at h ⊢
    exact h
  | sheetsChild hm =>
    rw [Check.timed_body] at h ⊢
    exact h
  | manualBeat hlock hw | sheetsBeat hlock hw => exact h
  | missing => nofun
  | found hfind => exact Check.timed_body.mpr nofun
  | sheets hs =>
    rw [Check.timed_body] at h ⊢
    cases hs with
    | locked hpc hacq => exact timed_of_acquire hacq
    | pairedAll hpc | toldProgress hpc =>
      unfold Sheets.Run.loop
      split <;> exact h
    | _ => exact h

theorem deadline_of_heartbeat {key : LockManager.Key} {now : ℤ} {lock : LockManager.Lock}
    {e : Expiring LockManager.Token} (h : (lock.heartbeat key now).2 = some e) :
    key = some e ∨ e.deadline = now + lock.ttlMs := by
  by_cases hread : key.read now = some lock.token
  · rw [LockManager.heartbeat_of_eq hread, Slot.write] at h
    split at h
    · cases h
    · cases h
      exact .inr rfl
  · rw [LockManager.heartbeat_of_ne hread] at h
    exact .inl h

theorem of_release {key : LockManager.Key} {now : ℤ} {lock : LockManager.Lock}
    {e : Expiring LockManager.Token} (h : (lock.release key now).2 = some e) : key = some e := by
  by_cases hread : key.read now = some lock.token
  · rw [LockManager.Lock.release, LockManager.RELEASE_LUA, if_pos hread] at h
    cases h
  · rw [LockManager.release_of_ne hread] at h
    exact h

theorem LockStep.deadline (hs : LockStep main w v t w' v')
    (hv : ∀ lock ∈ v.lock, lock.ttlMs = PROJECT_LOCK_TTL_MS)
    (hv' : ∀ lock ∈ v'.lock, lock.ttlMs = PROJECT_LOCK_TTL_MS) {key : String}
    {e : Expiring LockManager.Token} (he : w'.locks key = some e) :
    w.locks key = some e ∨ key = v.lockKey ∧ e.deadline = t.now + PROJECT_LOCK_TTL_MS := by
  have update {slot : LockManager.Key}
      (hlocks : w'.locks = Function.update w.locks v.lockKey slot)
      (hslot : slot = some e → w.locks v.lockKey = some e ∨
        e.deadline = t.now + PROJECT_LOCK_TTL_MS) :
      w.locks key = some e ∨ key = v.lockKey ∧ e.deadline = t.now + PROJECT_LOCK_TTL_MS := by
    rw [hlocks] at he
    by_cases hkey : key = v.lockKey
    · rw [hkey, Function.update_self] at he
      rw [hkey]
      exact (hslot he).imp_right fun hnow => ⟨rfl, hnow⟩
    · rw [Function.update_of_ne hkey] at he
      exact .inl he
  cases hs with
  | keeps hlocks hholds hlock => exact .inl (hlocks ▸ he)
  | takes hout hacq hlocks hholds hlock =>
    refine update hlocks fun hslot => .inr ?_
    have httl := hv' _ hlock
    obtain ⟨rfl, -, -, rfl⟩ := LockManager.acquire_eq_some hacq
    cases hslot
    exact congrArg (t.now + ·) httl
  | beats hlock hlocks =>
    refine update hlocks fun hslot => ?_
    rw [← hv _ hlock]
    exact deadline_of_heartbeat hslot
  | frees hstage hlock hlocks hout => exact update hlocks fun hslot => .inl (of_release hslot)
  | fails hmain hr hstage hout => exact .inl he

end LinkBulker.ProjectLock
