import LinkBulker.WorkerCore.LockManager
import Mathlib.Order.Basic

namespace LinkBulker.LockManager

open Foundations

variable {s s' : Session} {es : List Event}

theorem acquire_of_free {key : Key} {now : ℤ} {lock : Lock} (hpos : 0 < lock.ttlMs)
    (h : key.read now = none) :
    acquire key now lock = (some lock, some ⟨lock.token, now + lock.ttlMs⟩) := by
  have hpos' : ¬ lock.ttlMs ≤ 0 := by omega
  simp [acquire, h, hpos', Slot.write]

theorem acquire_of_held {key : Key} {now : ℤ} {lock : Lock} {token : Token}
    (h : key.read now = some token) : acquire key now lock = (none, key) := by
  simp [acquire, h]

theorem acquire_isSome {key : Key} {now : ℤ} {lock : Lock}
    (h : (acquire key now lock).1.isSome) :
    0 < lock.ttlMs ∧ key.read now = none ∧
      (acquire key now lock).2 = some ⟨lock.token, now + lock.ttlMs⟩ := by
  by_cases hpos : lock.ttlMs ≤ 0
  · simp [acquire, hpos] at h
  · cases hr : key.read now with
    | some token => simp [acquire_of_held hr] at h
    | none =>
      have hpos : 0 < lock.ttlMs := by omega
      rw [acquire_of_free hpos hr]
      exact ⟨hpos, rfl, rfl⟩

theorem acquire_eq_some {key key' : Key} {now : ℤ} {lock lock' : Lock}
    (h : acquire key now lock = (some lock', key')) :
    lock' = lock ∧ 0 < lock.ttlMs ∧ key.read now = none ∧
      key' = some ⟨lock.token, now + lock.ttlMs⟩ := by
  obtain ⟨hpos, hread, hkey⟩ := acquire_isSome (by rw [h]; rfl)
  rw [acquire_of_free hpos hread] at h
  obtain ⟨h1, h2⟩ := Prod.mk.inj h
  exact ⟨(Option.some.inj h1).symm, hpos, hread, h2.symm⟩

theorem heartbeat_of_ne {key : Key} {now : ℤ} {lock : Lock} (h : key.read now ≠ some lock.token) :
    lock.heartbeat key now = (false, key) := by
  simp [Lock.heartbeat, HEARTBEAT_LUA, h]

theorem release_of_ne {key : Key} {now : ℤ} {lock : Lock} (h : key.read now ≠ some lock.token) :
    lock.release key now = (false, key) := by
  simp [Lock.release, RELEASE_LUA, h]

theorem heartbeat_of_eq {key : Key} {now : ℤ} {lock : Lock} (h : key.read now = some lock.token) :
    lock.heartbeat key now = (true, Slot.write lock.token now lock.ttlMs) := by
  simp [Lock.heartbeat, HEARTBEAT_LUA, h]

theorem read_heartbeat {key : Key} {now : ℤ} {lock : Lock} (hpos : 0 < lock.ttlMs) :
    (lock.heartbeat key now).2.read now = key.read now := by
  by_cases h : key.read now = some lock.token
  · rw [heartbeat_of_eq h, h, Slot.read_write hpos, if_pos (by omega)]
  · rw [heartbeat_of_ne h]

theorem read_of_heartbeat {key : Key} {now t : ℤ} {lock : Lock} {token : Token} (ht : now ≤ t)
    (hr : (lock.heartbeat key now).2.read t = some token) : key.read now = some token := by
  by_cases h : key.read now = some lock.token
  · rw [heartbeat_of_eq h, Slot.write] at hr
    split at hr
    · cases hr
    · obtain ⟨d, hd, -⟩ := Slot.read_eq_some.mp hr
      cases hd
      exact h
  · rw [heartbeat_of_ne h] at hr
    exact Slot.read_mono ht hr

theorem read_of_release {key : Key} {now t : ℤ} {lock : Lock} {token : Token} (ht : now ≤ t)
    (hr : (lock.release key now).2.read t = some token) :
    key.read now = some token ∧ token ≠ lock.token := by
  by_cases h : key.read now = some lock.token
  · rw [Lock.release, RELEASE_LUA, if_pos h] at hr
    cases hr
  · rw [release_of_ne h] at hr
    have hnow := Slot.read_mono ht hr
    exact ⟨hnow, fun he => h (he ▸ hnow)⟩

theorem Session.step_eq_some {e : Event} :
    s.step e = some s' ↔
      s.clock ≤ e.time ∧ e.op.allowed s ∧ (serve s.key e.time e.op).1 = e.ok ∧
        s' = {
          key := (serve s.key e.time e.op).2
          clock := e.time
          issued := e.op.issues.map Lock.token ++ s.issued
          locks := (if e.ok then e.op.issues else []) ++ s.locks } := by
  unfold Session.step
  split
  · rename_i h
    obtain ⟨h1, h2, h3⟩ := h
    rw [Option.some_inj]
    exact ⟨fun e => ⟨h1, h2, h3, e.symm⟩, fun e => e.2.2.2.symm⟩
  · rename_i h
    simp only [reduceCtorEq, false_iff]
    rintro ⟨h1, h2, h3, -⟩
    exact h ⟨h1, h2, h3⟩

theorem exec_clock (hr : exec Session.step s es = some s') :
    s.clock ≤ s'.clock ∧ ∀ e ∈ es, s.clock ≤ e.time := by
  induction es generalizing s with
  | nil => cases hr; simp
  | cons e es ih =>
    obtain ⟨t, ht, hr⟩ := exec_cons.mp hr
    obtain ⟨hle, -, -, rfl⟩ := Session.step_eq_some.mp ht
    obtain ⟨h1, h2⟩ := ih hr
    refine ⟨hle.trans h1, ?_⟩
    simp only [List.mem_cons, forall_eq_or_imp]
    exact ⟨hle, fun x hx => hle.trans (h2 x hx)⟩

theorem le_of_mem_refreshes {lock : Lock} {t : ℤ} (hr : exec Session.step s es = some s')
    (h : t ∈ refreshes lock es) : s.clock ≤ t := by
  simp only [refreshes, List.mem_filterMap] at h
  obtain ⟨e, he, hif⟩ := h
  split at hif
  · cases hif
    exact (exec_clock hr).2 e he
  · cases hif

theorem refreshes_cons (lock : Lock) (e : Event) (es : List Event) :
    refreshes lock (e :: es) =
      if e.op = .heartbeat lock ∧ e.ok then e.time :: refreshes lock es else refreshes lock es := by
  simp only [refreshes, List.filterMap_cons]
  split <;> split <;> simp_all

structure Holds (lock : Lock) (last : ℤ) (s : Session) : Prop where
  key : s.key = some ⟨lock.token, last + lock.ttlMs⟩
  since : last ≤ s.clock
  issued : lock.token ∈ s.issued
  unique : ∀ l ∈ s.locks, l.token = lock.token → l = lock

theorem Holds.read {lock : Lock} {last t : ℤ} (h : Holds lock last s) (ht : t - last < lock.ttlMs) :
    s.key.read t = some lock.token :=
  Slot.read_eq_some.mpr ⟨_, h.key, by omega⟩

theorem Holds.step {lock : Lock} {last : ℤ} (h : Holds lock last s) {e : Event}
    (hs : s.step e = some s') (ht : e.time - last < lock.ttlMs) (hrel : e.op ≠ .release lock) :
    e.acquires = false ∧
      Holds lock (if e.op = .heartbeat lock ∧ e.ok then e.time else last) s' := by
  obtain ⟨t, op, ok⟩ := e
  obtain ⟨hle, hall, hok, rfl⟩ := Session.step_eq_some.mp hs
  simp only at ht hrel hle hall hok ⊢
  have hread := h.read ht
  cases op with
  | acquire l =>
    have hok' : ok = false := by
      rw [← hok]; simp [serve, acquire_of_held hread]
    subst hok'
    refine ⟨rfl, ?_⟩
    simp only [reduceCtorEq, false_and, if_false]
    refine ⟨?_, h.since.trans hle, List.mem_append_right _ h.issued, by simpa using h.unique⟩
    simpa [serve, acquire_of_held hread] using h.key
  | heartbeat l =>
    refine ⟨rfl, ?_⟩
    have hl : l ∈ s.locks := by simpa [Op.allowed] using hall
    by_cases htok : l.token = lock.token
    · obtain rfl := h.unique l hl htok
      have hok' : ok = true := by
        rw [← hok]; simp [serve, heartbeat_of_eq hread]
      subst hok'
      have hpos : ¬ l.ttlMs ≤ 0 := by have := h.since; omega
      simp only [true_and, if_true]
      refine ⟨?_, le_rfl, by simpa [Op.issues] using h.issued, by simpa [Op.issues] using h.unique⟩
      simp [serve, heartbeat_of_eq hread, Slot.write, hpos]
    · have hne : s.key.read t ≠ some l.token := by
        rw [hread]; exact fun he => htok (Option.some.inj he).symm
      have hlock : l ≠ lock := fun he => htok (he ▸ rfl)
      simp only [Op.heartbeat.injEq, hlock, false_and, if_false]
      refine ⟨?_, h.since.trans hle, by simpa [Op.issues] using h.issued,
        by simpa [Op.issues] using h.unique⟩
      simpa [serve, heartbeat_of_ne hne] using h.key
  | release l =>
    refine ⟨rfl, ?_⟩
    have hl : l ∈ s.locks := by simpa [Op.allowed] using hall
    have htok : l.token ≠ lock.token := fun he => hrel (by rw [h.unique l hl he])
    have hne : s.key.read t ≠ some l.token := by
      rw [hread]; exact fun he => htok (Option.some.inj he).symm
    simp only [reduceCtorEq, false_and, if_false]
    refine ⟨?_, h.since.trans hle, by simpa [Op.issues] using h.issued,
      by simpa [Op.issues] using h.unique⟩
    simpa [serve, release_of_ne hne] using h.key

/-- As long as the gaps between refreshes, up to `last`, stay below `ttl`, nobody else acquires. -/
theorem Holds.exec {lock : Lock} {last until_ : ℤ} (h : Holds lock last s)
    (hr : exec Session.step s es = some s') (hrel : ∀ e ∈ es, e.op ≠ .release lock)
    (huntil : s'.clock ≤ until_)
    (hgap : (last :: (refreshes lock es ++ [until_])).IsChain fun a b => b - a < lock.ttlMs) :
    ∀ e ∈ es, e.acquires = false := by
  induction es generalizing s last with
  | nil => simp
  | cons e es ih =>
    obtain ⟨t, ht, hr⟩ := exec_cons.mp hr
    have hclock : t.clock = e.time := by
      obtain ⟨-, -, -, rfl⟩ := Session.step_eq_some.mp ht
      rfl
    -- the next refresh, or the end, is not before this event
    have hnext : e.time - last < lock.ttlMs := by
      rw [refreshes_cons] at hgap
      split at hgap
      · rw [List.cons_append, List.isChain_cons_cons] at hgap
        exact hgap.1
      · cases hn : refreshes lock es ++ [until_] with
        | nil => simp at hn
        | cons r rest =>
          rw [hn, List.isChain_cons_cons] at hgap
          have hmem : r ∈ refreshes lock es ++ [until_] := by simp [hn]
          have hle : e.time ≤ r := by
            rw [← hclock]
            rcases List.mem_append.mp hmem with hm | hm
            · exact le_of_mem_refreshes hr hm
            · rw [List.mem_singleton.mp hm]
              exact (exec_clock hr).1.trans huntil
          omega
    obtain ⟨hacq, hholds⟩ := h.step ht hnext (hrel e List.mem_cons_self)
    have hrest := ih hholds hr (fun x hx => hrel x (List.mem_cons_of_mem _ hx)) (by
      rw [refreshes_cons] at hgap
      split at hgap
      · rename_i hc
        rw [if_pos hc]
        rw [List.cons_append, List.isChain_cons_cons] at hgap
        exact hgap.2
      · rename_i hc
        rwa [if_neg hc])
    simp only [List.mem_cons, forall_eq_or_imp]
    exact ⟨hacq, hrest⟩

theorem locks_issued {clock : ℤ} (hr : exec Session.step (Session.start clock) es = some s) :
    ∀ l ∈ s.locks, l.token ∈ s.issued := by
  refine exec_invariant (I := fun s => ∀ l ∈ s.locks, l.token ∈ s.issued) ?_
    (by simp [Session.start]) hr
  intro s e s' h hs l hl
  obtain ⟨-, -, -, rfl⟩ := Session.step_eq_some.mp hs
  rcases List.mem_append.mp hl with hl | hl
  · split at hl
    · exact List.mem_append_left _ (List.mem_map_of_mem hl)
    · cases hl
  · exact List.mem_append_right _ (h l hl)

theorem Holds.start {clock : ℤ} (hr : Foundations.exec Session.step (Session.start clock) es = some s)
    {t : ℤ} {lock : Lock} (hs : s.step ⟨t, .acquire lock, true⟩ = some s') : Holds lock t s' := by
  obtain ⟨-, hall, hok, rfl⟩ := Session.step_eq_some.mp hs
  simp only [serve] at hok
  obtain ⟨-, -, hkey⟩ := acquire_isSome hok
  refine ⟨hkey, le_rfl, by simp [Op.issues], ?_⟩
  intro l hl htok
  simp only [if_true, Op.issues, List.cons_append, List.nil_append, List.mem_cons] at hl
  rcases hl with rfl | hl
  · rfl
  · have := locks_issued hr l hl
    rw [htok] at this
    exact absurd this (by simpa [Op.allowed] using hall)

/-- Until its release at `until_` a holder that refreshes in time is alone, and an object whose
token is not the stored one can neither extend nor free the key. -/
theorem acquire_exclusive_and_owned :
    (∀ (clock t until_ : ℤ) (lock : Lock) (before during : List Event) (s : Session),
      exec Session.step (Session.start clock)
        (before ++ ⟨t, .acquire lock, true⟩ :: during) = some s →
      (∀ e ∈ during, e.op ≠ .release lock) → s.clock ≤ until_ →
      (t :: (refreshes lock during ++ [until_])).IsChain (fun a b => b - a < lock.ttlMs) →
      ∀ e ∈ during, e.acquires = false) ∧
    (∀ (key : Key) (now : ℤ) (lock : Lock), key.read now ≠ some lock.token →
      serve key now (.heartbeat lock) = (false, key) ∧
        serve key now (.release lock) = (false, key)) := by
  refine ⟨?_, fun key now lock h => ⟨heartbeat_of_ne h, release_of_ne h⟩⟩
  intro clock t until_ lock before during s hr hrel huntil hgap
  obtain ⟨s₀, hbefore, hr⟩ := exec_append.mp hr
  obtain ⟨s₁, hacq, hr⟩ := exec_cons.mp hr
  exact (Holds.start hbefore hacq).exec hr hrel huntil hgap

/-- A holder that refreshes at 6 keeps a rival out at 12; once expired it cannot touch the
rival's key. -/
theorem acquire_exclusive_and_owned_sample :
    (∀ e ∈ [(⟨6, .heartbeat ⟨"a", 10⟩, true⟩ : Event), ⟨12, .acquire ⟨"b", 10⟩, false⟩],
      e.acquires = false) ∧
    serve (some ⟨"b", 40⟩) 35 (.heartbeat ⟨"a", 10⟩) = (false, some ⟨"b", 40⟩) ∧
    serve (some ⟨"b", 40⟩) 35 (.release ⟨"a", 10⟩) = (false, some ⟨"b", 40⟩) := by
  constructor
  · exact acquire_exclusive_and_owned.1 0 0 15 ⟨"a", 10⟩ [] _ _ rfl (by decide) (by decide)
      (by decide)
  · exact acquire_exclusive_and_owned.2 _ _ _ (by decide)

end LinkBulker.LockManager
