import LinkBulker.Api.LinksService
import LinkBulker.Foundations.Run
import LinkBulker.Worker.CheckHistory
import LinkBulker.Worker.ManualCheckLaws

/-! One bulk check while the users of the project delete links: which links it can leave behind. -/

namespace LinkBulker.ManualCheck

open Foundations Db Shared Crawler LinkRepository SingleLink Worker

variable {newURL : UrlParser} {w w' : World} {h h' : Handle} {t : Turn}

inductive Label
  | act (a : Act)
  | request (r : LinksService.Request)
  deriving DecidableEq

def step (newURL : UrlParser) (s : World × Handle) : Label → Option (World × Handle)
  | .act a => s.2.move newURL s.1 a
  | .request r => some ({ s.1 with db := r.apply s.1.db }, s.2)

def Label.served : Label → Bool
  | .act a => !a.turn.rejects
  | .request _ => true

/-- A request that takes the row from under a call of `processOne`, between its read and the update
that stores the result, leaves no row that is still to be started. -/
def Harmless (s : World × Handle) : Label → Prop
  | .act _ => True
  | .request r =>
    (∃ c ∈ s.2.batch.calls, c.inFlight ∧ ¬ Gone s.1.db c.linkId ∧
      Gone (r.apply s.1.db) c.linkId) →
    ∀ id ∈ s.2.batch.unstarted, Gone (r.apply s.1.db) id

instance (s : World × Handle) : (l : Label) → Decidable (Harmless s l)
  | .act _ => .isTrue trivial
  | .request r => inferInstanceAs (Decidable ((∃ c ∈ s.2.batch.calls, c.inFlight ∧
      ¬ Gone s.1.db c.linkId ∧ Gone (r.apply s.1.db) c.linkId) →
    ∀ id ∈ s.2.batch.unstarted, Gone (r.apply s.1.db) id))

def waiting : LinkStatus → Bool
  | .QUEUED | .CHECKING => true
  | _ => false

def Doomed (db : Database) (c : ProcessOne) : Prop :=
  c.pc = .rejected ∨ c.inFlight ∧ Gone db c.linkId

def Pc.unmarked : Pc → Bool
  | .acquire | .setFlag | .publishLocked | .markQueued | .skipped => true
  | _ => false

def Pc.chunk : Pc → Option ℕ
  | .awaitAll i | .counts i | .publishProgress i _ | .updateProgress i => some i
  | _ => none

def Pc.left : Pc → Bool
  | .finalCounts | .publishDone _ | .clearFlag | .publishUnlocked | .release | .ended => true
  | _ => false

structure Covered (w : World) (h : Handle) : Prop where
  ids : h.batch.ids = h.job.linkIds
  project : ∀ l ∈ w.db.links.rows, l.id ∈ h.job.linkIds →
    ∃ p ∈ w.db.projects.rows, p.id = h.job.projectId
  unmarked : h.pc.unmarked → h.batch.calls = []
  chunk : ∀ i, h.pc.chunk = some i → i < h.job.linkIds.length ∧
    h.batch.calls.length = min (i + INTERNAL_CONCURRENCY) h.job.linkIds.length
  queued : h.pc.unmarked = false → ∀ l ∈ w.db.links.rows, l.id ∈ h.job.linkIds →
    waiting l.status → l.id ∈ h.batch.unstarted ∨ ∃ c ∈ h.batch.calls, c.linkId = l.id ∧ c.unsaved
  doomed : (∃ c ∈ h.batch.calls, Doomed w.db c) → ∀ id ∈ h.batch.unstarted, Gone w.db id
  left : h.pc.left → ∀ id ∈ h.batch.unstarted, Gone w.db id

theorem Covered.start {job : ManualCheckJobData}
    (hproject : ∀ l ∈ w.db.links.rows, l.id ∈ job.linkIds →
      ∃ p ∈ w.db.projects.rows, p.id = job.projectId) : Covered w { job } where
  ids := rfl
  project := hproject
  unmarked _ := rfl
  chunk := nofun
  queued := nofun
  doomed := by rintro ⟨c, hc, -⟩; cases hc
  left := nofun

theorem Covered.pass (hc : Covered w h) (hdb : w'.db = w.db) (hjob : h'.job = h.job)
    (hbatch : h'.batch = h.batch) (hun : h'.pc.unmarked = h.pc.unmarked)
    (hchunk : h'.pc.chunk = h.pc.chunk ∨ h'.pc.chunk = none)
    (hleft : h'.pc.left → ∀ id ∈ h.batch.unstarted, Gone w.db id) : Covered w' h' where
  ids := by rw [hbatch, hjob]; exact hc.ids
  project := by rw [hdb, hjob]; exact hc.project
  unmarked := by rw [hun, hbatch]; exact hc.unmarked
  chunk := by
    rw [hjob, hbatch]
    rcases hchunk with he | he
    · rw [he]; exact hc.chunk
    · rw [he]; nofun
  queued := by rw [hun, hdb, hjob, hbatch]; exact hc.queued
  doomed := by rw [hdb, hbatch]; exact hc.doomed
  left := by rw [hdb, hbatch]; exact hleft

theorem Covered.flag {db : Database} {value : Bool} (hc : Covered w h)
    (hs : setProjectManualChecking w.db h.job.projectId value = some db) :
    Covered { w with db } h := by
  obtain ⟨hlinks, hkeys⟩ := updateProject_keys hs
  have hgone : ∀ id, Gone db id ↔ Gone w.db id := by intro id; rw [Gone, Gone, hlinks]
  refine ⟨hc.ids, ?_, hc.unmarked, hc.chunk, ?_, ?_, ?_⟩
  · simp only [hlinks]
    intro l hl hid
    obtain ⟨p, hp, hpid⟩ := hc.project l hl hid
    have hmem : h.job.projectId ∈ db.projects.rows.map Project.id := by
      rw [hkeys, ← hpid]
      exact List.mem_map_of_mem hp
    simpa using hmem
  · simp only [hlinks]
    exact hc.queued
  · simp only [Doomed, hgone]
    exact hc.doomed
  · simp only [hgone]
    exact hc.left

structure Looping (w : World) (h : Handle) : Prop where
  ids : h.batch.ids = h.job.linkIds
  project : ∀ l ∈ w.db.links.rows, l.id ∈ h.job.linkIds →
    ∃ p ∈ w.db.projects.rows, p.id = h.job.projectId
  queued : ∀ l ∈ w.db.links.rows, l.id ∈ h.job.linkIds →
    waiting l.status → l.id ∈ h.batch.unstarted ∨ ∃ c ∈ h.batch.calls, c.linkId = l.id ∧ c.unsaved
  doomed : (∃ c ∈ h.batch.calls, Doomed w.db c) → ∀ id ∈ h.batch.unstarted, Gone w.db id

theorem Looping.loop {i : ℕ} (hl : Looping w h)
    (hi : i < h.job.linkIds.length → h.batch.calls.length = i)
    (hend : h.job.linkIds.length ≤ i → h.batch.unstarted = []) : Covered w (h.loop i) := by
  unfold Handle.loop
  split
  · rename_i hlt
    have hlen := hi hlt
    refine ⟨hl.ids, hl.project, nofun, ?_, ?_, ?_, nofun⟩
    · intro j hj
      obtain rfl : i = j := by simpa [Pc.chunk] using hj
      have hstart := Batch.length_start (n := INTERNAL_CONCURRENCY) hlen
      rw [hl.ids, Nat.max_eq_right hlt.le] at hstart
      exact ⟨hlt, hstart⟩
    · intro _ l hmem hid hw
      rcases hl.queued l hmem hid hw with hu | ⟨c, hcc, hcid, hcu⟩
      · rcases Batch.unstarted_start hlen hu with hu | hs
        · exact .inl hu
        · exact .inr ⟨_, hs, rfl, rfl⟩
      · exact .inr ⟨c, List.mem_append_left _ hcc, hcid, hcu⟩
    · rintro ⟨c, hcc, hd⟩ id hid
      rcases Batch.mem_calls_start hcc with hcc | ⟨hpc, -⟩
      · exact hl.doomed ⟨c, hcc, hd⟩ id (Batch.mem_unstarted_of_start hid)
      · rcases hd with hd | ⟨hd, -⟩
        · rw [hpc] at hd
          cases hd
        · rw [ProcessOne.inFlight, hpc] at hd
          cases hd
  · rename_i hlt
    have hnil : h.batch.unstarted = [] := hend (by omega)
    refine ⟨hl.ids, hl.project, nofun, nofun, fun _ => hl.queued, hl.doomed, fun _ => ?_⟩
    rw [hnil]
    nofun

theorem gone_markManyStatus {db : Database} {ids : List LinkId} {status : LinkStatus}
    {id : LinkId} : Gone (markManyStatus db ids status) id ↔ Gone db id := by
  unfold markManyStatus
  split
  · rfl
  · apply gone_iff_of_inputs
    exact Table.map_updateWhere _ _ _ (statusData_id status) fun _ => rfl

theorem Covered.queue (hc : Covered w h) (hpc : h.pc = .markQueued) :
    Covered { w with db := markManyStatus w.db h.job.linkIds .QUEUED } (h.loop 0) := by
  have hcalls : h.batch.calls = [] := hc.unmarked (by rw [hpc]; rfl)
  have hun : h.batch.unstarted = h.job.linkIds := by
    rw [Batch.unstarted, hcalls, hc.ids]
    rfl
  have hl : Looping { w with db := markManyStatus w.db h.job.linkIds .QUEUED } h := by
    refine ⟨hc.ids, ?_, ?_, ?_⟩
    · intro l hl hid
      rw [markManyStatus_projects]
      by_contra hno
      have hgone : Gone w.db l.id := fun l' hl' he => hno (hc.project l' hl' (he ▸ hid))
      exact gone_markManyStatus.mpr hgone l hl rfl
    · intro l _ hid _
      exact .inl (hun ▸ hid)
    · rw [hcalls]
      rintro ⟨c, hcc, -⟩
      cases hcc
  refine hl.loop (fun _ => by rw [hcalls]; rfl) fun hle => ?_
  rw [hun]
  exact List.eq_nil_of_length_eq_zero (Nat.le_zero.mp hle)

theorem Covered.flagGone (hc : Covered w h) (hpc : h.pc = .setFlag)
    (hset : setProjectManualChecking w.db h.job.projectId true = none) :
    Covered w (h.finally_ true) := by
  have hcalls : h.batch.calls = [] := hc.unmarked (by rw [hpc]; rfl)
  have hno := updateProject_eq_none.mp hset
  have hgone : ∀ id ∈ h.job.linkIds, Gone w.db id := by
    rintro id hid l hl rfl
    obtain ⟨p, hp, hpid⟩ := hc.project l hl hid
    exact hno p hp hpid
  refine ⟨hc.ids, hc.project, nofun, nofun, ?_, hc.doomed, ?_⟩
  · intro _ l hl hid
    exact absurd rfl (hgone _ hid l hl)
  · intro _ id hid
    refine hgone id ?_
    rw [← hc.ids]
    exact List.mem_of_mem_drop hid

theorem Covered.main (hc : Covered w h) (hserved : t.rejects = false)
    (hs : Step w h t w' h') : Covered w' h' := by
  cases hs with
  | skip hpc => exact hc.pass rfl rfl rfl (by rw [hpc]; rfl) (.inr rfl) nofun
  | locked hpc hacq => exact hc.pass rfl rfl rfl (by rw [hpc]; rfl) (.inr rfl) nofun
  | throws hpc hr => rw [hserved] at hr; cases hr
  | flagGone hpc hset => exact hc.flagGone hpc hset
  | raised hpc hset => exact (hc.flag hset).pass rfl rfl rfl (by rw [hpc]; rfl) (.inr rfl) nofun
  | toldLocked hpc =>
    exact hc.pass (publishNow_db _) rfl rfl (by rw [hpc]; rfl) (.inr rfl) nofun
  | queued hpc => exact hc.queue hpc
  | rejected hpc hall =>
    refine hc.pass rfl rfl rfl (by rw [hpc]; rfl) (.inr rfl) fun _ => ?_
    obtain ⟨c, hcc, hcpc⟩ := Batch.rejected_of_all hall
    exact hc.doomed ⟨c, hcc, .inl hcpc⟩
  | resolved hpc hall => exact hc.pass rfl rfl rfl (by rw [hpc]; rfl) (.inl (by rw [hpc]; rfl)) nofun
  | counted hpc => exact hc.pass rfl rfl rfl (by rw [hpc]; rfl) (.inl (by rw [hpc]; rfl)) nofun
  | toldProgress hpc =>
    exact hc.pass (publishNow_db _) rfl rfl (by rw [hpc]; rfl) (.inl (by rw [hpc]; rfl)) nofun
  | next hpc =>
    rename_i i
    obtain ⟨hi, hlen⟩ := hc.chunk i (by rw [hpc]; rfl)
    have hl : Looping w h := ⟨hc.ids, hc.project, hc.queued (by rw [hpc]; rfl), hc.doomed⟩
    refine hl.loop (fun hlt => ?_) (fun hle => ?_)
    · rw [hlen, Nat.min_eq_left hlt.le]
    · rw [Batch.unstarted, hlen, Nat.min_eq_right hle, hc.ids, List.drop_length]
  | countedAll hpc =>
    exact hc.pass rfl rfl rfl (by rw [hpc]; rfl) (.inr rfl) fun _ => hc.left (by rw [hpc]; rfl)
  | toldDone hpc =>
    exact hc.pass (publishNow_db _) rfl rfl (by rw [hpc]; rfl) (.inr rfl)
      fun _ => hc.left (by rw [hpc]; rfl)
  | lowered hpc hset =>
    have hf := hc.flag hset
    exact hf.pass rfl rfl rfl (by rw [hpc]; rfl) (.inr rfl) fun _ => hf.left (by rw [hpc]; rfl)
  | lowerFailed hpc hset =>
    exact hc.pass rfl rfl rfl (by rw [hpc]; rfl) (.inr rfl) fun _ => hc.left (by rw [hpc]; rfl)
  | toldUnlocked hpc =>
    exact hc.pass (publishNow_db _) rfl rfl (by rw [hpc]; rfl) (.inr rfl)
      fun _ => hc.left (by rw [hpc]; rfl)
  | released hpc hlock =>
    exact hc.pass rfl rfl rfl (by rw [hpc]; rfl) (.inr rfl) fun _ => hc.left (by rw [hpc]; rfl)
  | releaseFailed hpc hr =>
    exact hc.pass rfl rfl rfl (by rw [hpc]; rfl) (.inr rfl) fun _ => hc.left (by rw [hpc]; rfl)

theorem Moves.waiting {id : LinkId} {pc pc' : SingleLink.Pc} (hserved : t.rejects = false)
    (hm : Moves newURL w id t pc w' pc') {l : Link} (hl : l ∈ w'.db.links.rows)
    (hw : waiting l.status) :
    (id = l.id ∧ ProcessOne.unsaved ⟨id, pc'⟩) ∨
      (l ∈ w.db.links.rows ∧ (id = l.id → ProcessOne.unsaved ⟨id, pc⟩ → False)) := by
  cases hm with
  | fails ha hr => rw [hserved] at hr; cases hr
  | missing hr hno => exact .inr ⟨hl, fun he _ => hno l hl he.symm⟩
  | found hr hrow hid =>
    by_cases he : id = l.id
    · exact .inl ⟨he, rfl⟩
    · exact .inr ⟨hl, fun h _ => he h⟩
  | markGone hr hno => exact .inr ⟨hl, fun he _ => hno l hl he.symm⟩
  | marked hr hdb =>
    obtain ⟨-, -, hrows⟩ := markStatus_eq_some hdb
    simp only [hrows, List.mem_map] at hl
    obtain ⟨l₀, hl₀, rfl⟩ := hl
    by_cases he : l₀.id = id
    · rw [if_pos he]
      exact .inl ⟨he.symm, rfl⟩
    · rw [if_neg he]
      exact .inr ⟨hl₀, fun h _ => he h.symm⟩
  | checking =>
    rw [publishNow_db] at hl
    by_cases he : id = l.id
    · exact .inl ⟨he, rfl⟩
    · exact .inr ⟨hl, fun h _ => he h⟩
  | crawled =>
    by_cases he : id = l.id
    · exact .inl ⟨he, rfl⟩
    · exact .inr ⟨hl, fun h _ => he h⟩
  | saveGone hr hno => exact .inr ⟨hl, fun he _ => hno l hl he.symm⟩
  | saved hr hdb =>
    rename_i link row result now db
    obtain ⟨-, -, hrows⟩ := saveResult_rows hdb
    simp only [hrows, List.mem_map] at hl
    obtain ⟨l₀, hl₀, rfl⟩ := hl
    by_cases he : l₀.id = id
    · rw [if_pos he] at hw
      cases hok : result.ok <;> simp [saveResultData, hok, ManualCheck.waiting] at hw
    · rw [if_neg he]
      exact .inr ⟨hl₀, fun h _ => he h.symm⟩
  | published =>
    rw [publishNow_db] at hl
    exact .inr ⟨hl, fun _ h => by cases h⟩

theorem Moves.doomed {id : LinkId} {pc pc' : SingleLink.Pc} (hserved : t.rejects = false)
    (hm : Moves newURL w id t pc w' pc') (hd : Doomed w'.db ⟨id, pc'⟩) :
    Doomed w.db ⟨id, pc⟩ := by
  have hgone : Gone w'.db id ↔ Gone w.db id := gone_iff_of_inputs hm.inputs
  cases hm with
  | fails ha hr => rw [hserved] at hr; cases hr
  | missing hr hno => rcases hd with hd | ⟨hd, -⟩ <;> cases hd
  | found hr hrow hid =>
    rcases hd with hd | ⟨-, hd⟩
    · cases hd
    · exact absurd hid (hd _ hrow)
  | markGone hr hno => exact .inr ⟨rfl, hno⟩
  | marked hr hdb =>
    rcases hd with hd | ⟨-, hd⟩
    · cases hd
    · exact .inr ⟨rfl, hgone.mp hd⟩
  | checking =>
    rcases hd with hd | ⟨-, hd⟩
    · cases hd
    · exact .inr ⟨rfl, hgone.mp hd⟩
  | crawled =>
    rcases hd with hd | ⟨-, hd⟩
    · cases hd
    · exact .inr ⟨rfl, hgone.mp hd⟩
  | saveGone hr hno => exact .inr ⟨rfl, hno⟩
  | saved hr hdb => rcases hd with hd | ⟨hd, -⟩ <;> cases hd
  | published => rcases hd with hd | ⟨hd, -⟩ <;> cases hd

theorem Covered.child {k : ℕ} {b : Batch} (hc : Covered w h) (hserved : t.rejects = false)
    (hmove : h.batch.move newURL w k t = some (w', b)) : Covered w' { h with batch := b } := by
  obtain ⟨c, c', hget, hlink, hm, rfl⟩ := Batch.move_eq_some hmove
  have hgone : ∀ id, Gone w'.db id ↔ Gone w.db id := fun id => gone_iff_of_inputs hm.inputs
  have hun : Batch.unstarted { h.batch with calls := h.batch.calls.set k c' } =
      h.batch.unstarted := Batch.unstarted_set
  refine ⟨hc.ids, ?_, ?_, ?_, ?_, ?_, ?_⟩
  · intro l hl hid
    rw [hm.frame.projects]
    by_contra hno
    exact (hgone l.id).mpr (fun l' hl' he => hno (hc.project l' hl' (he ▸ hid))) l hl rfl
  · intro hpc
    rw [hc.unmarked hpc] at hget
    cases hget
  · intro i hi
    obtain ⟨hlt, hlen⟩ := hc.chunk i hi
    exact ⟨hlt, (List.length_set ..).trans hlen⟩
  · intro hpc l hl hid hw
    rw [hun]
    rcases Moves.waiting hserved hm hl hw with ⟨he, hu⟩ | ⟨hl, hother⟩
    · exact .inr ⟨c', Pool.mem_set_self hget, hlink.trans he, hu⟩
    · rcases hc.queued hpc l hl hid hw with hu | ⟨d, hd, hdid, hdu⟩
      · exact .inl hu
      · rcases Pool.mem_set_of_mem hget hd with rfl | hd'
        · exact absurd hdu (hother hdid)
        · exact .inr ⟨d, hd', hdid, hdu⟩
  · rintro ⟨d, hd, hdoom⟩ id hid
    rw [hgone]
    refine hc.doomed ?_ id (hun ▸ hid)
    rcases List.mem_or_eq_of_mem_set hd with hd | rfl
    · refine ⟨d, hd, ?_⟩
      rwa [Doomed, hgone] at hdoom
    · refine ⟨c, List.mem_of_getElem? hget, Moves.doomed hserved hm ?_⟩
      rw [← hlink]
      exact hdoom
  · intro hpc id hid
    rw [hgone]
    exact hc.left hpc id (hun ▸ hid)

theorem Covered.request {r : LinksService.Request} (hc : Covered w h)
    (hharm : Harmless (w, h) (.request r)) : Covered { w with db := r.apply w.db } h := by
  obtain ⟨p, hp⟩ := r.apply_eq w.db
  have hsub : ∀ l ∈ (r.apply w.db).links.rows, l ∈ w.db.links.rows := by
    intro l hl
    rw [hp] at hl
    exact (Table.mem_deleteWhere.mp hl).1
  have hgone : ∀ {id}, Gone w.db id → Gone (r.apply w.db) id := fun h l hl => h l (hsub l hl)
  refine ⟨hc.ids, ?_, hc.unmarked, hc.chunk, ?_, ?_, ?_⟩
  · intro l hl hid
    have hproj : (r.apply w.db).projects = w.db.projects := by rw [hp]
    exact hproj ▸ hc.project l (hsub l hl) hid
  · exact fun hpc l hl => hc.queued hpc l (hsub l hl)
  · rintro ⟨c, hcc, hd⟩ id hid
    rcases hd with hd | ⟨hfl, hd⟩
    · exact hgone (hc.doomed ⟨c, hcc, .inl hd⟩ id hid)
    · by_cases hw : Gone w.db c.linkId
      · exact hgone (hc.doomed ⟨c, hcc, .inr ⟨hfl, hw⟩⟩ id hid)
      · exact hharm ⟨c, hcc, hfl, hw, hd⟩ id hid
  · exact fun hpc id hid => hgone (hc.left hpc id hid)

theorem Covered.label {l : Label} (hc : Covered w h) (hserved : l.served)
    (hharm : Harmless (w, h) l) (hs : step newURL (w, h) l = some (w', h')) : Covered w' h' := by
  cases l with
  | act a =>
    have hr : a.turn.rejects = false := by simpa [Label.served] using hserved
    cases a with
    | main t => exact hc.main hr (main_eq_some hs)
    | child k t =>
      obtain ⟨b, hmove, rfl⟩ := child_eq_some hs
      exact hc.child hr hmove
    | beat t =>
      obtain ⟨lock, -, -, rfl, hw⟩ := beat_eq_some hs
      rcases hw with rfl | rfl
      · exact hc
      · exact ⟨hc.ids, hc.project, hc.unmarked, hc.chunk, hc.queued, hc.doomed, hc.left⟩
  | request r =>
    cases hs
    exact hc.request hharm

/-- In every run of a bulk check among requests that delete links, as long as no row is taken from
under a call while another link of the job is still to be started: once the call that had the lock
has ended and its calls of `processOne` have settled, every link of the job that still exists is
checked or can be picked again. -/
theorem no_link_stranded {job : ManualCheckJobData} {w₀ : World} {labels : List Label}
    (hproject : ∀ l ∈ w₀.db.links.rows, l.id ∈ job.linkIds →
      ∃ p ∈ w₀.db.projects.rows, p.id = job.projectId)
    (hserved : ∀ l ∈ labels, l.served)
    (hharmless : Meets (step newURL) Harmless (w₀, { job }) labels)
    (hr : exec (step newURL) (w₀, { job }) labels = some (w, h))
    (hended : h.pc = .ended) (hsettled : h.batch.settled) :
    ∀ l ∈ w.db.links.rows, l.id ∈ job.linkIds →
      l.status = .DONE ∨ l.status ∈ LinksService.eligible := by
  have hinv := exec_invariant_of_meets (I := fun s => s.2.job = job ∧ Covered s.1 s.2) ?_
    ⟨rfl, .start hproject⟩ ((Meets.of_forall hserved _).and hharmless) hr
  · obtain ⟨rfl, hc⟩ := hinv
    intro l hl hid
    have hw : waiting l.status = false := by
      by_contra hw
      rcases hc.queued (by rw [hended]; rfl) l hl hid (by simpa using hw) with hu | ⟨c, hcc, -, hcu⟩
      · exact hc.left (by rw [hended]; rfl) l.id hu l hl rfl
      · have hset := List.all_eq_true.mp hsettled c hcc
        unfold ProcessOne.unsaved at hcu
        unfold ProcessOne.settled at hset
        split at hcu <;> simp_all
    cases hst : l.status with
    | PENDING => exact .inr (by decide)
    | QUEUED => rw [hst] at hw; cases hw
    | CHECKING => rw [hst] at hw; cases hw
    | DONE => exact .inl rfl
    | ERROR => exact .inr (by decide)
  · rintro ⟨w₁, h₁⟩ l ⟨w₂, h₂⟩ ⟨hjob, hc⟩ ⟨hsv, hharm⟩ hs
    refine ⟨?_, hc.label hsv hharm hs⟩
    cases l with
    | act a => exact (move_job hs).trans hjob
    | request r => cases hs; exact hjob

def exampleBatch : ManualCheckJobData where
  projectId := "p"
  linkIds := ["a", "b", "c", "d", "e", "f", "g", "h", "i", "j", "k", "l", "m", "n", "o", "q"]

def exampleBatchWorld (ids : List LinkId) (hids : ids.Nodup) : World where
  db := exampleDatabase
    ⟨ids.map SingleLink.exampleLink, by simpa [Function.comp_def, exampleLink] using hids⟩ .empty

def openingLabels : List Label :=
  List.replicate 4 (.act (.main { token := "t" }))

/-- Two links of a job of sixteen are left.  The first is deleted between the read of its row and
its mark, and the last, of the second chunk, stays queued for good. -/
theorem deleted_link_strands_another :
    ∃ w h,
      exec (step exampleURL) (exampleBatchWorld ["a", "q"] (by decide), { job := exampleBatch })
        (openingLabels ++ [.act (.child 0 {}), .request (.deleteOne "u" "a"), .act (.child 0 {})] ++
          List.replicate 4 (.act (.main {})) ++
          (List.range 14).map fun k => .act (.child (k + 1) {})) = some (w, h) ∧
      h.pc = .ended ∧ h.batch.settled ∧
      (w.db.links.rows.map fun l => (l.id, l.status)) = [("q", .QUEUED)] :=
  ⟨_, _, rfl, rfl, by decide +kernel, by decide +kernel⟩

def harmlessLabels : List Label :=
  openingLabels ++ [.act (.child 0 {}), .request (.deleteOne "u" "b")] ++
    ((checkTurns 0 foundRun 1000).drop 1).map (fun a => .act (.child a.1 a.2)) ++
    (List.range 14).map (fun k => .act (.child (k + 1) {})) ++
    List.replicate 4 (.act (.main {})) ++
    [.act (.child 15 {}), .request (.deleteOne "u" "q"), .act (.child 15 {})] ++
    List.replicate 4 (.act (.main {}))

theorem no_link_stranded_sample :
    ∃ w h,
      exec (step exampleURL) (exampleBatchWorld ["a", "b", "q"] (by decide), { job := exampleBatch })
        harmlessLabels = some (w, h) ∧ w.db.links.rows.map Link.id = ["a"] ∧
      ∀ l ∈ w.db.links.rows, l.id ∈ exampleBatch.linkIds →
        l.status = .DONE ∨ l.status ∈ LinksService.eligible := by
  have hr : exec (step exampleURL)
      (exampleBatchWorld ["a", "b", "q"] (by decide), { job := exampleBatch }) harmlessLabels =
      some (_, _) := rfl
  refine ⟨_, _, hr, by decide +kernel, ?_⟩
  exact no_link_stranded (by decide) (by decide) (by decide +kernel) hr rfl (by decide +kernel)

end LinkBulker.ManualCheck
