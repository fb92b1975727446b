import LinkBulker.Worker.BulkQueueRun
import LinkBulker.Worker.ProjectLockEffect

/-! The whole queue: every job is accounted for, and only a lock that is held turns one away. -/

namespace LinkBulker.BulkQueue

open Foundations Db Shared Crawler LinkRepository SingleLink Worker
open ManualCheck (Handle Act Step main_eq_some child_eq_some beat_eq_some)

variable {newURL : UrlParser} {workers : ℕ} {w w' : World} {h h' : Handle} {t : Turn} {a : Act}
  {ids : List LinkId}

section System

variable {s s' : State} {queue queue' : List Queued} {r r' : Request} {now : ℤ} {l : Label newURL}

inductive Request.Moves (w : World) (queue : List Queued) (r : Request) :
    List Queued → Request → Prop
  | goes {pc : Pc} (hadd : ∀ linkIds, pc = .add linkIds →
      ∀ id ∈ linkIds, ∃ l ∈ w.db.links.rows, l.id = id)
    (hover : ∀ answer, pc ≠ .over (.ok answer)) : Moves w queue r queue (r.at_ pc)
  | added {linkIds : List LinkId} (hpc : r.pc = .add linkIds) :
    Moves w queue r (queue ++ [⟨⟨r.projectId, linkIds⟩, w.stored.length⟩])
      (r.at_ (.over (.ok ⟨queue.length, linkIds.length⟩)))

theorem Request.move_eq_some (hm : r.move w queue now = some (queue', r')) :
    Request.Moves w queue r queue' r' := by
  unfold Request.move at hm
  split at hm
  case h_1 => split at hm <;> cases hm <;> exact .goes nofun nofun
  case h_2 => split at hm <;> cases hm <;> exact .goes nofun nofun
  case h_3 =>
    dsimp only at hm
    split at hm <;> cases hm
    · exact .goes nofun nofun
    · refine .goes (fun linkIds hpc id hid => ?_) nofun
      cases hpc
      obtain ⟨l, hl, rfl⟩ := List.mem_map.mp hid
      exact ⟨l, (List.mem_filter.mp hl).1, rfl⟩
  case h_4 hpc =>
    cases hm
    exact .added hpc
  case h_5 => cases hm

inductive Steps (newURL : UrlParser) (workers : ℕ) (s : State) : Label newURL → State → Prop
  | asked {userId : UserId} {projectId : ProjectId} :
    Steps newURL workers s (.startManualCheck userId projectId)
      { s with requests := s.requests ++ [{ userId, projectId }] }
  | served {i : ℕ} {now : ℤ} {r r' : Request} {queue : List Queued} (hclock : s.world.clock ≤ now)
    (hget : s.requests[i]? = some r) (hm : Request.Moves s.world s.queue r queue r') :
    Steps newURL workers s (.serve i now)
      { s with world := { s.world with clock := now }, queue, requests := s.requests.set i r' }
  | refused {cuid : ℕ → LinkId} {userId : UserId} {projectId : ProjectId}
    {dto : LinksService.CreateManualLinksInput newURL} :
    Steps newURL workers s (.createManualLinks cuid userId projectId dto) s
  | created {cuid : ℕ → LinkId} {userId : UserId} {projectId : ProjectId}
    {dto : LinksService.CreateManualLinksInput newURL} {db : Database} (hfresh : FreshIds s db) :
    Steps newURL workers s (.createManualLinks cuid userId projectId dto)
      { s with world := { s.world with db }, ids := s.ids ++ db.links.rows.map Link.id }
  | deleted {r : LinksService.Request} :
    Steps newURL workers s (.delete r)
      { s with world := { s.world with db := r.apply s.world.db } }
  | picked {q : Queued} (hq : s.queue[s.runs.length]? = some q)
    (hidle : s.runs.countP (fun h => !isOver h) < workers) :
    Steps newURL workers s .pickUp { s with runs := s.runs ++ [{ job := q.data }] }
  | worked {i : ℕ} {a : Act} {h h' : Handle} {w' : World} (hclock : s.world.clock ≤ a.turn.now)
    (hget : s.runs[i]? = some h)
    (hm : h.move newURL { s.world with clock := a.turn.now } a = some (w', h')) :
    Steps newURL workers s (.work i a) { s with world := w', runs := s.runs.set i h' }

theorem step_eq_some (hs : step newURL workers s l = some s') : Steps newURL workers s l s' := by
  cases l with
  | startManualCheck userId projectId => cases hs; exact .asked
  | serve i now =>
    simp only [step] at hs
    split at hs
    · rename_i hclock
      obtain ⟨⟨queue, rs⟩, hmove, rfl⟩ := Option.map_eq_some_iff.mp hs
      obtain ⟨r, r', hget, hm, rfl⟩ := Pool.step_eq_some.mp hmove
      exact .served hclock hget (Request.move_eq_some hm)
    · cases hs
  | createManualLinks cuid userId projectId dto =>
    simp only [step] at hs
    split at hs
    · cases hs; exact .refused
    · split at hs
      · rename_i hfresh
        cases hs; exact .created hfresh
      · cases hs
  | delete r => cases hs; exact .deleted
  | pickUp =>
    simp only [step] at hs
    split at hs
    · cases hs
    · rename_i hq
      split at hs
      · rename_i hidle
        cases hs; exact .picked hq hidle
      · cases hs
  | work i a =>
    simp only [step] at hs
    split at hs
    · rename_i hclock
      obtain ⟨⟨w', hs⟩, hmove, rfl⟩ := Option.map_eq_some_iff.mp hs
      obtain ⟨h, h', hget, hm, rfl⟩ := Pool.step_eq_some.mp hmove
      exact .worked hclock hget hm
    · cases hs

structure Accounted (s : State) : Prop where
  ids : ∀ l ∈ s.world.db.links.rows, l.id ∈ s.ids
  queue : ∀ q ∈ s.queue, (∀ id ∈ q.data.linkIds, id ∈ s.ids) ∧ q.since ≤ s.world.stored.length
  adding : ∀ r ∈ s.requests, ∀ linkIds, r.pc = .add linkIds → ∀ id ∈ linkIds, id ∈ s.ids
  answered : ∀ r ∈ s.requests, ∀ answer, r.pc = .over (.ok answer) →
    ∃ q, s.queue[answer.jobId]? = some q ∧ q.data.projectId = r.projectId ∧
      q.data.linkIds.length = answer.queued
  runs : ∀ (i : ℕ) h, s.runs[i]? = some h → ∃ q, s.queue[i]? = some q ∧ h.job = q.data ∧
    Answers s.world q.since h

theorem Accounted.start (w : World) : Accounted (.start w) where
  ids _ hl := List.mem_map_of_mem hl
  queue := nofun
  adding := nofun
  answered := nofun
  runs := nofun

theorem Accounted.later (ha : Accounted s) (hw : Later s.ids s.world w')
    (hids : ∀ l ∈ w'.db.links.rows, l.id ∈ ids) (hsub : ∀ id ∈ s.ids, id ∈ ids) :
    Accounted { s with world := w', ids } where
  ids := hids
  queue q hq := ⟨fun id hid => hsub id ((ha.queue q hq).1 id hid),
    (ha.queue q hq).2.trans hw.stored.length_le⟩
  adding r hr linkIds hpc id hid := hsub id (ha.adding r hr linkIds hpc id hid)
  answered := ha.answered
  runs i h hget := by
    obtain ⟨q, hq, hjob, hans⟩ := ha.runs i h hget
    refine ⟨q, hq, hjob, hans.later (hw.subset fun id hid => ?_)⟩
    exact (ha.queue q (List.mem_of_getElem? hq)).1 id (hjob ▸ hid)

theorem Accounted.serve {i : ℕ} (ha : Accounted s) (hget : s.requests[i]? = some r)
    (hm : Request.Moves s.world s.queue r queue r') :
    Accounted { s with queue, requests := s.requests.set i r' } := by
  have hr := List.mem_of_getElem? hget
  cases hm with
  | goes hadd hover =>
    rename_i pc
    refine ⟨ha.ids, ha.queue, Pool.forall_set ha.adding ?_, Pool.forall_set ha.answered ?_, ha.runs⟩
    · intro linkIds hpc id hid
      obtain ⟨l, hl, rfl⟩ := hadd linkIds hpc id hid
      exact ha.ids l hl
    · exact fun answer hpc => absurd hpc (hover answer)
  | added hpc =>
    rename_i linkIds
    have old {j : ℕ} {q : Queued} (hq : s.queue[j]? = some q) (q' : Queued) :
        (s.queue ++ [q'])[j]? = some q := by
      rw [List.getElem?_append_left (List.getElem?_eq_some_iff.mp hq).1, hq]
    refine ⟨ha.ids, ?_, Pool.forall_set ha.adding nofun, Pool.forall_set ?_ ?_, ?_⟩
    · intro q hq
      rcases List.mem_append.mp hq with hq | hq
      · exact ha.queue q hq
      · obtain rfl := List.mem_singleton.mp hq
        exact ⟨ha.adding r hr linkIds hpc, le_rfl⟩
    · intro d hd answer hover
      obtain ⟨q, hq, hrest⟩ := ha.answered d hd answer hover
      exact ⟨q, old hq _, hrest⟩
    · intro answer hover
      cases hover
      exact ⟨_, List.getElem?_concat_length, rfl, rfl⟩
    · intro j h hrun
      obtain ⟨q, hq, hrest⟩ := ha.runs j h hrun
      exact ⟨q, old hq _, hrest⟩

theorem Accounted.pick {q : Queued} (ha : Accounted s) (hq : s.queue[s.runs.length]? = some q) :
    Accounted { s with runs := s.runs ++ [{ job := q.data }] } := by
  refine ⟨ha.ids, ha.queue, ha.adding, ha.answered, fun j h hget => ?_⟩
  rcases lt_or_ge j s.runs.length with hlt | hge
  · exact ha.runs j h (by rwa [List.getElem?_append_left hlt] at hget)
  · rw [List.getElem?_append_right hge, List.getElem?_singleton] at hget
    split at hget
    · rename_i hj
      cases hget
      obtain rfl : j = s.runs.length := by omega
      exact ⟨q, hq, rfl, .start (ha.queue q (List.mem_of_getElem? hq)).2⟩
    · cases hget

theorem Accounted.work {i : ℕ} (ha : Accounted s) (hget : s.runs[i]? = some h)
    (hm : h.move newURL { s.world with clock := now } a = some (w', h')) :
    Accounted { s with world := w', runs := s.runs.set i h' } := by
  have hk := move_keeps hm
  have hw : Later s.ids s.world w' := ⟨hk.stored, fun id _ => (hk.gone id).mpr⟩
  have hids : ∀ l ∈ w'.db.links.rows, l.id ∈ s.ids := by
    intro l hl
    by_contra hno
    have hgone : Gone s.world.db l.id := fun l₀ hl₀ he => hno (he ▸ ha.ids l₀ hl₀)
    exact (hk.gone l.id).mpr hgone l hl rfl
  have hl := ha.later hw hids fun _ => id
  refine ⟨hl.ids, hl.queue, hl.adding, hl.answered, fun j d hd => ?_⟩
  by_cases hij : i = j
  · subst hij
    rw [Pool.getElem?_set_self hget] at hd
    cases hd
    obtain ⟨q, hq, hjob, hans⟩ := ha.runs i h hget
    exact ⟨q, hq, (ManualCheck.move_job hm).trans hjob, (hans.later (.of_clock now)).move hm⟩
  · rw [List.getElem?_set_ne hij] at hd
    exact hl.runs j d hd

theorem Accounted.step (ha : Accounted s) (hs : Steps newURL workers s l s') : Accounted s' := by
  cases hs with
  | asked =>
    refine ⟨ha.ids, ha.queue, ?_, ?_, ha.runs⟩
    · intro r hr linkIds hpc
      rcases List.mem_append.mp hr with hr | hr
      · exact ha.adding r hr linkIds hpc
      · obtain rfl := List.mem_singleton.mp hr
        cases hpc
    · intro r hr answer hpc
      rcases List.mem_append.mp hr with hr | hr
      · exact ha.answered r hr answer hpc
      · obtain rfl := List.mem_singleton.mp hr
        cases hpc
  | served hclock hget hm =>
    have hserve := ha.serve hget hm
    exact hserve.later (.of_clock _) hserve.ids fun _ => id
  | refused => exact ha
  | created hfresh =>
    refine ha.later ⟨List.prefix_refl _, fun id hid hgone l hl he => ?_⟩
      (fun l hl => List.mem_append_right _ (List.mem_map_of_mem hl))
      fun _ => List.mem_append_left _
    subst he
    obtain ⟨l₀, hl₀, he⟩ := hfresh l hl hid
    exact hgone l₀ hl₀ he
  | deleted =>
    rename_i req
    have hsub : ∀ l ∈ (req.apply s.world.db).links.rows, l ∈ s.world.db.links.rows := by
      intro l hl
      obtain ⟨p, hp⟩ := req.apply_eq s.world.db
      rw [hp] at hl
      exact (Table.mem_deleteWhere.mp hl).1
    exact ha.later ⟨List.prefix_refl _, fun id _ hgone l hl => hgone l (hsub l hl)⟩
      (fun l hl => ha.ids l (hsub l hl)) fun _ => id
  | picked hq hidle => exact ha.pick hq
  | worked hclock hget hm => exact ha.work hget hm

end System

section Locked

open REDIS_KEYS (projectManualLock)

variable {s s' s₀ : State} {l : Label newURL} {labels : List (Label newURL)}

theorem projectManualLock_inj {p p' : ProjectId} (h : projectManualLock p = projectManualLock p') :
    p = p' :=
  (@ProjectLock.lockKey_inj .manual .manual p p' h).2

def Guarded (w : World) (runs : List Handle) : Prop :=
  ∀ p time token, w.clock ≤ time → (w.locks (projectManualLock p)).read time = some token →
    ∃ h ∈ runs, holds h ∧ h.job.projectId = p ∧ ∃ lock, h.lock = some lock ∧ lock.token = token

inductive Locks (w : World) (h : Handle) (now : ℤ) : World → Handle → Prop
  | keeps {w' : World} {h' : Handle} (hlocks : w'.locks = w.locks) (hholds : holds h' = holds h)
    (hlock : h'.lock = h.lock) : Locks w h now w' h'
  | takes {w' : World} {h' : Handle} {lock lock' : LockManager.Lock} {key : LockManager.Key}
    (hacq : LockManager.acquire (w.locks h.lockKey) now lock = (some lock', key))
    (hlocks : w'.locks = Function.update w.locks h.lockKey key) (hholds : holds h')
    (hlock : h'.lock = some lock') : Locks w h now w' h'
  | beats {w' : World} {lock : LockManager.Lock}
    (hlocks : w'.locks =
      Function.update w.locks h.lockKey (lock.heartbeat (w.locks h.lockKey) now).2) :
    Locks w h now w' h
  | frees {w' : World} {h' : Handle} {lock : LockManager.Lock} (hlock : h.lock = some lock)
    (hlocks : w'.locks =
      Function.update w.locks h.lockKey (lock.release (w.locks h.lockKey) now).2) :
    Locks w h now w' h'

theorem Step.locks (hs : Step w h t w' h') (hserved : t.rejects = false) :
    Locks w h t.now w' h' := by
  cases hs with
  | skip hpc => exact .keeps rfl (by rw [holds, holds, hpc]; rfl) rfl
  | locked hpc hacq => exact .takes hacq rfl rfl rfl
  | throws hpc hr => rw [hserved] at hr; cases hr
  | flagGone hpc hset => exact .keeps rfl (by rw [holds, holds, hpc]; rfl) rfl
  | raised hpc hset => exact .keeps rfl (by rw [holds, holds, hpc]; rfl) rfl
  | queued hpc | next hpc =>
    unfold Handle.loop
    split <;> exact .keeps rfl (by rw [holds, holds, hpc]; rfl) rfl
  | rejected hpc hall | resolved hpc hall => exact .keeps rfl (by rw [holds, holds, hpc]; rfl) rfl
  | counted hpc | countedAll hpc => exact .keeps rfl (by rw [holds, holds, hpc]; rfl) rfl
  | toldLocked hpc | toldProgress hpc | toldDone hpc | toldUnlocked hpc =>
    exact .keeps (publishNow_locks _) (by rw [holds, holds, hpc]; rfl) rfl
  | lowered hpc hset | lowerFailed hpc hset =>
    exact .keeps rfl (by rw [holds, holds, hpc]; rfl) rfl
  | released hpc hlock => exact .frees hlock rfl
  | releaseFailed hpc hr => rw [hserved] at hr; cases hr

theorem move_locks (hm : h.move newURL w a = some (w', h')) (hserved : a.turn.rejects = false) :
    Locks w h a.turn.now w' h' := by
  cases a with
  | main t => exact Step.locks (main_eq_some hm) hserved
  | child k t =>
    obtain ⟨b, hmove, rfl⟩ := child_eq_some hm
    obtain ⟨c, c', -, -, hmoves, -⟩ := Batch.move_eq_some hmove
    exact .keeps hmoves.frame.locks rfl rfl
  | beat t =>
    obtain ⟨lock, -, -, rfl, hw⟩ := beat_eq_some hm
    rcases hw with rfl | rfl
    · exact .keeps rfl rfl rfl
    · exact .beats rfl

theorem Guarded.move {runs : List Handle} {i : ℕ} (hg : Guarded w runs) (hget : runs[i]? = some h)
    (hclock : w.clock = a.turn.now) (hserved : a.turn.rejects = false)
    (hm : h.move newURL w a = some (w', h')) : Guarded w' (runs.set i h') := by
  have hjob := ManualCheck.move_job hm
  have hclock' := (move_keeps hm).clock
  intro p time token htime hread
  rw [hclock'] at htime
  -- the holder before the step is not the run that moves, or that one goes on
  have before {time : ℤ} (htime : w.clock ≤ time)
      (hread : (w.locks (projectManualLock p)).read time = some token)
      (hmover : h.job.projectId = p → ∀ lock, h.lock = some lock → lock.token = token →
        holds h → holds h' ∧ h'.lock = h.lock) :
      ∃ d ∈ runs.set i h', holds d ∧ d.job.projectId = p ∧
        ∃ lock, d.lock = some lock ∧ lock.token = token := by
    obtain ⟨d, hd, hholds, hp, lock, hlock, htoken⟩ := hg p time token htime hread
    rcases Pool.mem_set_of_mem hget hd with rfl | hd
    · obtain ⟨hholds', hlock'⟩ := hmover hp lock hlock htoken hholds
      exact ⟨h', Pool.mem_set_self hget, hholds', hjob ▸ hp, lock, hlock' ▸ hlock, htoken⟩
    · exact ⟨d, hd, hholds, hp, lock, hlock, htoken⟩
  -- the lock of another project is not touched
  have other {key : LockManager.Key} (hlocks : w'.locks = Function.update w.locks h.lockKey key)
      (hp : h.job.projectId ≠ p) : ∃ d ∈ runs.set i h', holds d ∧ d.job.projectId = p ∧
        ∃ lock, d.lock = some lock ∧ lock.token = token := by
    rw [hlocks, Handle.lockKey,
      Function.update_of_ne fun he => hp (projectManualLock_inj he).symm] at hread
    exact before htime hread fun he => absurd he hp
  cases move_locks hm hserved with
  | keeps hlocks hholds hlock =>
    rw [hlocks] at hread
    exact before htime hread fun _ _ _ _ hh => ⟨hholds ▸ hh, hlock⟩
  | takes hacq hlocks hholds hlock =>
    by_cases hp : h.job.projectId = p
    · obtain ⟨rfl, -, -, rfl⟩ := LockManager.acquire_eq_some hacq
      rw [hlocks, Handle.lockKey, hp, Function.update_self] at hread
      obtain ⟨d, hd, -⟩ := Slot.read_eq_some.mp hread
      cases hd
      exact ⟨h', Pool.mem_set_self hget, hholds, hjob ▸ hp, _, hlock, rfl⟩
    · exact other hlocks hp
  | beats hlocks =>
    by_cases hp : h.job.projectId = p
    · rw [hlocks, Handle.lockKey, hp, Function.update_self] at hread
      have hnow := LockManager.read_of_heartbeat (hclock ▸ htime) hread
      exact before hclock.le hnow fun _ _ _ _ hh => ⟨hh, rfl⟩
    · exact other hlocks hp
  | frees hlock hlocks =>
    by_cases hp : h.job.projectId = p
    · rw [hlocks, Handle.lockKey, hp, Function.update_self] at hread
      obtain ⟨hnow, hne⟩ := LockManager.read_of_release (hclock ▸ htime) hread
      refine before hclock.le hnow fun _ lock hmine htoken _ => ?_
      rw [hlock] at hmine
      cases hmine
      exact absurd htoken.symm hne
    · exact other hlocks hp

theorem Guarded.mono {runs runs' : List Handle} (hg : Guarded w runs) (hclock : w.clock ≤ w'.clock)
    (hlocks : w'.locks = w.locks) (hruns : ∀ h ∈ runs, h ∈ runs') : Guarded w' runs' := by
  intro p time token htime hread
  rw [hlocks] at hread
  obtain ⟨h, hh, hrest⟩ := hg p time token (hclock.trans htime) hread
  exact ⟨h, hruns h hh, hrest⟩

theorem Guarded.step (hg : Guarded s.world s.runs) (hserved : l.served)
    (hs : Steps newURL workers s l s') : Guarded s'.world s'.runs := by
  cases hs with
  | asked | refused => exact hg
  | served hclock hget hm => exact hg.mono hclock rfl fun _ => id
  | created hfresh | deleted => exact hg.mono le_rfl rfl fun _ => id
  | picked hq hidle => exact hg.mono le_rfl rfl fun _ => List.mem_append_left _
  | worked hclock hget hm =>
    rename_i i a h h' w'
    have hmoved : Guarded { s.world with clock := a.turn.now } s.runs :=
      hg.mono hclock rfl fun _ => id
    exact hmoved.move hget rfl (by simpa [Label.served] using hserved) hm

theorem skips (hm : h.move newURL w a = some (w', h')) (hserved : a.turn.rejects = false)
    (hskip : h'.pc = .skipped) (hpc : h.pc ≠ .skipped) :
    ∃ t, a = .main t ∧ h.pc = .acquire ∧
      ∃ token, (w.locks h.lockKey).read t.now = some token := by
  cases a with
  | main t =>
    have hacquire : h.pc = .acquire := by
      cases main_eq_some hm with
      | skip hpc => exact hpc
      | locked hpc hacq => cases hskip
      | queued hpc | next hpc =>
        unfold Handle.loop at hskip
        split at hskip <;> cases hskip
      | _ => cases hskip
    refine ⟨t, rfl, hacquire, ?_⟩
    cases hread : (w.locks h.lockKey).read t.now with
    | some token => exact ⟨token, rfl⟩
    | none =>
      have hpos : 0 < ManualCheck.PROJECT_LOCK_TTL_MS := by decide
      have hfree := @LockManager.acquire_of_free _ t.now ⟨t.token, ManualCheck.PROJECT_LOCK_TTL_MS⟩
        hpos hread
      have hno : t.rejects = false := hserved
      simp only [Handle.move, Handle.main, hacquire, hno, hfree] at hm
      cases hm
      cases hskip
  | child k t =>
    obtain ⟨b, -, rfl⟩ := child_eq_some hm
    exact absurd hskip hpc
  | beat t =>
    obtain ⟨lock, -, -, rfl, -⟩ := beat_eq_some hm
    exact absurd hskip hpc

theorem FoundLocked.append {i : ℕ} (hf : FoundLocked newURL workers s₀ labels i)
    (l : Label newURL) : FoundLocked newURL workers s₀ (labels ++ [l]) i := by
  obtain ⟨before, t, s, h, hpre, hrest⟩ := hf
  exact ⟨before, t, s, h, hpre.trans (List.prefix_append ..), hrest⟩

theorem foundLocked_of_skipped (hfree : ∀ p, w.locks (projectManualLock p) = none)
    (hserved : ∀ l ∈ labels, l.served)
    (hr : exec (step newURL workers) (.start w) labels = some s) (i : ℕ)
    (hget : s.runs[i]? = some h) (hskip : h.pc = .skipped) :
    FoundLocked newURL workers (.start w) labels i := by
  have hist := exec_history (P := fun labels s =>
    exec (step newURL workers) (.start w) labels = some s ∧ ((∀ l ∈ labels, l.served) →
      Guarded s.world s.runs ∧ ∀ (i : ℕ) h, s.runs[i]? = some h → h.pc = .skipped →
        FoundLocked newURL workers (.start w) labels i)) ?_ ?_ hr
  · exact (hist.2 hserved).2 i h hget hskip
  · refine ⟨rfl, fun _ => ⟨fun p time token _ hread => ?_, nofun⟩⟩
    rw [State.start, hfree] at hread
    cases hread
  · rintro labels s l s' ⟨hr, hist⟩ hs
    refine ⟨exec_concat.mpr ⟨s, hr, hs⟩, fun hserved => ?_⟩
    obtain ⟨hg, hskipped⟩ := hist fun l hl => hserved l (List.mem_append_left _ hl)
    have hl : l.served := hserved l (List.mem_append_right _ List.mem_cons_self)
    have hcases := step_eq_some hs
    refine ⟨hg.step hl hcases, fun i h hget hskip => ?_⟩
    have old (hold : s.runs[i]? = some h) :
        FoundLocked newURL workers (.start w) (labels ++ [l]) i :=
      (hskipped i h hold hskip).append l
    cases hcases with
    | picked hq hidle =>
      rcases lt_or_ge i s.runs.length with hlt | hge
      · exact old (by rwa [List.getElem?_append_left hlt] at hget)
      · rw [List.getElem?_append_right hge, List.getElem?_singleton] at hget
        split at hget <;> cases hget
        cases hskip
    | worked hclock hmover hm =>
      rename_i j a g g' w'
      by_cases hji : j = i
      · subst hji
        rw [Pool.getElem?_set_self hmover] at hget
        cases hget
        by_cases hpc : g.pc = .skipped
        · exact (hskipped j g hmover hpc).append _
        · obtain ⟨t, rfl, hacquire, token, hread⟩ :=
            skips hm (by simpa [Label.served] using hl) hskip hpc
          obtain ⟨other, hother, hholds, hp, -⟩ := hg g.job.projectId t.now token hclock hread
          exact ⟨labels, t, s, g, List.prefix_refl _, hr, hmover, hacquire, other, hother, hholds,
            hp⟩
      · exact old (by rwa [List.getElem?_set_ne hji] at hget)
    | _ => exact old hget

end Locked

section Results

open REDIS_KEYS (projectManualLock)

variable {w₀ : World} {s : State} {labels : List (Label newURL)}

theorem Accounted.checked {i : ℕ} {q : Queued} (ha : Accounted s) (hq : s.queue[i]? = some q)
    (hget : s.runs[i]? = some h) (hended : h.pc = .ended) (hthrew : h.threw = false) :
    Checked s.world q := by
  obtain ⟨q', hq', hjob, hans⟩ := ha.runs i h hget
  obtain rfl : q = q' := Option.some.inj (hq.symm.trans hq')
  intro id hid hexists
  exact (hans.settled hended hthrew id (hjob ▸ hid)).resolve_left hexists

theorem completed_iff :
    completed h ↔ (h.pc = .ended ∨ h.pc = .skipped) ∧ h.threw = false := by
  simp [completed, isOver]

/-- In every run of requests, deletions and checks without failures: the job of an accepted request
is in the queue, and once its check has completed without an error, every link of it that still
exists has had a result stored since, or the check came to a lock that another check of the project
held. -/
theorem accepted_check_answered (hfree : ∀ p, w₀.locks (projectManualLock p) = none)
    (hserved : ∀ l ∈ labels, l.served)
    (hr : exec (step newURL workers) (.start w₀) labels = some s) :
    ∀ r ∈ s.requests, ∀ answer, r.pc = .over (.ok answer) →
      ∃ q, s.queue[answer.jobId]? = some q ∧ q.data.projectId = r.projectId ∧
        q.data.linkIds.length = answer.queued ∧
        ∀ h, s.runs[answer.jobId]? = some h → completed h →
          Checked s.world q ∨
            h.pc = .skipped ∧ FoundLocked newURL workers (.start w₀) labels answer.jobId := by
  intro r hmem answer hover
  have ha : Accounted s :=
    exec_invariant (fun _ _ _ ha hs => ha.step (step_eq_some hs)) (.start w₀) hr
  obtain ⟨q, hq, hproject, hlen⟩ := ha.answered r hmem answer hover
  refine ⟨q, hq, hproject, hlen, fun h hget hdone => ?_⟩
  obtain ⟨hended | hskip, hthrew⟩ := completed_iff.mp hdone
  · exact .inl (ha.checked hq hget hended hthrew)
  · exact .inr ⟨hskip, foundLocked_of_skipped hfree hserved hr answer.jobId hget hskip⟩

def exampleItems : LinksService.CreateManualLinksInput exampleURL where
  items := [⟨"https://donor.example/post", "acceptor.example"⟩]
  items_valid := by decide
  min := by decide
  max := by decide

def requestLabels (i : ℕ) : List (Label exampleURL) :=
  .startManualCheck "u" "p" :: List.replicate 4 (.serve i 0)

def mainLabels (i n : ℕ) : List (Label exampleURL) :=
  List.replicate n (.work i (.main { now := 1000, token := "t" }))

def checkLabels (i : ℕ) : List (Label exampleURL) :=
  mainLabels i 3 ++ (checkTurns 0 foundRun 1000).map (fun a =>
    .work i (.child a.1 { a.2 with now := 1000 })) ++ mainLabels i 9

def meetingLabels : List (Label exampleURL) :=
  requestLabels 0 ++ .createManualLinks (fun _ => "m") "u" "p" exampleItems :: requestLabels 1 ++
    [.pickUp, .pickUp] ++ mainLabels 0 1 ++ mainLabels 1 1 ++ checkLabels 0

/-- The second check finds the lock taken and completes, and the new link is never checked. -/
theorem second_check_dropped :
    (∀ l ∈ meetingLabels, l.served) ∧
    ∃ s, exec (step exampleURL 2) (.start exampleWorld) meetingLabels = some s ∧
      ∃ r ∈ s.requests, r.pc = .over (.ok ⟨1, 2⟩) ∧
        ∃ q h, s.queue[1]? = some q ∧ s.runs[1]? = some h ∧ completed h ∧ ¬ Checked s.world q := by
  refine ⟨by decide, _, rfl, _, List.mem_cons_of_mem _ List.mem_cons_self, rfl, _, _, rfl, rfl,
    ?_, ?_⟩
  · decide +kernel
  · decide +kernel

/-- The first of the two jobs, which is checked. -/
theorem accepted_check_answered_sample :
    ∃ s, exec (step exampleURL 1) (.start exampleWorld)
        (requestLabels 0 ++ [.pickUp] ++ mainLabels 0 1 ++ checkLabels 0) = some s ∧
      ∀ r ∈ s.requests, ∀ answer, r.pc = .over (.ok answer) →
        ∃ q, s.queue[answer.jobId]? = some q ∧ q.data.projectId = r.projectId ∧
          q.data.linkIds.length = answer.queued ∧
          ∀ h, s.runs[answer.jobId]? = some h → completed h →
            Checked s.world q ∨ h.pc = .skipped ∧ FoundLocked exampleURL 1 (.start exampleWorld)
              (requestLabels 0 ++ [.pickUp] ++ mainLabels 0 1 ++ checkLabels 0) answer.jobId := by
  have hr : exec (step exampleURL 1) (.start exampleWorld)
      (requestLabels 0 ++ [.pickUp] ++ mainLabels 0 1 ++ checkLabels 0) = some _ := rfl
  exact ⟨_, hr, accepted_check_answered (fun _ => rfl) (by decide) hr⟩

theorem isOver_of_move (hm : h.move newURL w a = some (w', h')) (hover : isOver h) : isOver h' := by
  cases a with
  | main t =>
    have hnone : h.main w t = none := by
      have hpc : h.pc = .ended ∨ h.pc = .skipped := by simpa [isOver] using hover
      unfold Handle.main
      rcases hpc with hpc | hpc <;> rw [hpc]
    simp only [Handle.move, hnone] at hm
    cases hm
  | child k t =>
    obtain ⟨b, -, rfl⟩ := child_eq_some hm
    exact hover
  | beat t =>
    obtain ⟨lock, -, -, rfl, -⟩ := beat_eq_some hm
    exact hover

theorem isOver_of_holds (hholds : holds h) : isOver h = false := by
  by_contra hover
  rw [Bool.not_eq_false, isOver, Bool.or_eq_true, decide_eq_true_iff, decide_eq_true_iff] at hover
  rcases hover with hpc | hpc <;> rw [holds, hpc] at hholds <;> cases hholds

theorem countP_runs_le (hr : exec (step newURL workers) (.start w₀) labels = some s) :
    s.runs.countP (fun h => !isOver h) ≤ workers := by
  refine exec_invariant (I := fun s => s.runs.countP (fun h => !isOver h) ≤ workers)
    (fun s l s' hle hs => ?_) (Nat.zero_le workers) hr
  cases step_eq_some hs with
  | picked hq hidle =>
    rw [List.countP_append]
    exact (Nat.add_le_add_left List.countP_le_length _).trans hidle
  | worked hclock hget hm =>
    rename_i i a h h' w'
    obtain ⟨rest, hold, hnew⟩ := Pool.exists_rest hget
    rw [hold.countP_eq, List.countP_cons] at hle
    rw [(hnew h').countP_eq, List.countP_cons]
    have hover := isOver_of_move hm
    cases hh : isOver h with
    | true =>
      rw [hh] at hle
      rw [hover hh]
      exact hle
    | false =>
      rw [hh] at hle
      refine le_trans (Nat.add_le_add_left ?_ _) hle
      split <;> decide
  | _ => exact hle

/-- With a single worker no check meets another one, so every accepted check is carried out. -/
theorem one_worker_drops_nothing (hfree : ∀ p, w₀.locks (projectManualLock p) = none)
    (hserved : ∀ l ∈ labels, l.served)
    (hr : exec (step newURL 1) (.start w₀) labels = some s) {i : ℕ} {q : Queued}
    (hq : s.queue[i]? = some q) (hget : s.runs[i]? = some h) (hdone : completed h) :
    Checked s.world q := by
  have ha : Accounted s :=
    exec_invariant (fun _ _ _ ha hs => ha.step (step_eq_some hs)) (.start w₀) hr
  obtain ⟨hended | hskip, hthrew⟩ := completed_iff.mp hdone
  · exact ha.checked hq hget hended hthrew
  · obtain ⟨before, t, s₁, g, -, hr₁, hg, hpc, other, hother, hholds, -⟩ :=
      foundLocked_of_skipped hfree hserved hr i hget hskip
    have hle := countP_runs_le hr₁
    obtain ⟨rest, hperm, -⟩ := Pool.exists_rest hg
    rw [hperm.countP_eq, List.countP_cons, if_pos (by rw [isOver, hpc]; rfl)] at hle
    rcases List.mem_cons.mp (hperm.mem_iff.mp hother) with rfl | hmem
    · rw [holds, hpc] at hholds
      cases hholds
    · have hopen : (!isOver other) = true := by rw [isOver_of_holds hholds]; rfl
      have hpos : 0 < rest.countP fun h => !isOver h :=
        List.countP_pos_iff.mpr ⟨other, hmem, hopen⟩
      omega

end Results

end LinkBulker.BulkQueue
