import LinkBulker.Backend.Jobs
import LinkBulker.Backend.Rewrites
import LinkBulker.Worker.Freshness

/-! A bulk job that has ended without an error leaves no link of its snapshot with an old result. -/

namespace LinkBulker.Backend

open Foundations Db Shared LinkRepository SingleLink Worker
open ProjectLock (Check Steps)

variable {newURL : UrlParser} {clock : Sheets.LocalClock} {db : Database}
  {locks : String → LockManager.Key} {time : ℤ} {before after : List (Label newURL)}
  {s s' s₀ s₁ s₂ : State newURL} {i : ℕ} {id : LinkId} {c : Check}

def Renewed (s₀ : State newURL) (l : Link) : Prop :=
  ∃ t ∈ l.lastCheckedAt, s₀.world.clock ≤ t ∨ (l.id, t) ∈ s₀.stamps

def Checked (s₀ s : State newURL) (id : LinkId) : Prop :=
  id ∈ s.given ∧ ∀ l ∈ s.world.db.links.rows, l.id = id → Renewed s₀ l

theorem Checked.step {l : Label newURL} (h : Checked s₀ s id) (hread : ReadSince s₀ s)
    (hfiled : Filed s) (hs : Backend.step clock s l = some s') : Checked s₀ s' id := by
  obtain ⟨hgiven, hrow⟩ := h
  obtain ⟨-, hrewritten, -⟩ := hfiled.step hs
  obtain ⟨hfresh, hgiven'⟩ := step_given hs
  refine ⟨hgiven' ▸ List.mem_append_left _ hgiven, fun l' hl' hid => ?_⟩
  obtain ⟨l, hl, hr⟩ | ⟨-, hnew⟩ := hrewritten l' hl'
  · have hold := hrow l hl (hr.id.symm.trans hid)
    cases hr with
    | saved hwf hstamp => exact ⟨_, rfl, (hread.stamps _ hstamp).symm⟩
    | kept | marked hstatus | cooled hvalue => exact hold
  · -- a new row has an id that no row has ever had
    exact absurd hgiven (hfresh id (hid ▸ hnew))

theorem Checked.saved {l : Label newURL} {result : Crawler.CrawlAndAnalyzeResult} {row : Link}
    {now : ℤ} {w : World} (htidy : Tidy s.given s.world.db) (hdb : w.db = s.world.db)
    (hnow : s₀.world.clock ≤ now) (hs : Backend.step clock s l = some s')
    (hsave : saveResult w.db id result now = some (row, s'.world.db)) : Checked s₀ s' id := by
  rw [hdb] at hsave
  obtain ⟨l₀, hl₀, rfl, -, -⟩ := saveResult_eq_some.mp hsave
  refine ⟨?_, fun l hl hid => ?_⟩
  · rw [(step_given hs).2]
    exact List.mem_append_left _ (htidy.link_given hl₀)
  · rw [(saveResult_rows hsave).2.2] at hl
    obtain ⟨l', -, rfl⟩ := List.mem_map.mp hl
    split at hid
    · rename_i hmine
      rw [if_pos hmine]
      exact ⟨now, rfl, .inl hnow⟩
    · contradiction

theorem mem_given_of_called {u : UserId} (h : s.Holds u (checkRefs c)) (hid : id ∈ called c) :
    id ∈ s.given := by
  have hbatch {b : Batch} (hb : s.Holds u (batchRefs b))
      (hmem : id ∈ b.calls.map ProcessOne.linkId) : id ∈ s.given := by
    obtain ⟨call, hcall, rfl⟩ := List.mem_map.mp hmem
    exact ((holds_batch.mp hb).2 call hcall).given
  cases c with
  | manual h' => exact hbatch (holds_append.mp h).2 hid
  | sheets call =>
    cases call with
    | find sheetsTaskId | missing => exact absurd hid List.not_mem_nil
    | body r => exact hbatch (holds_sheets.mp h).batch hid

structure Refreshing (s₀ s : State newURL) : Prop where
  guarded : Guarded (fun _ => True) s
  filed : Filed s
  sweeping : Sweeping s
  read : ReadSince s₀ s
  stamps : ∀ i c, s₀.checks.length ≤ i → s.checks[i]? = some c →
    ∀ p ∈ checkStamps c, s₀.world.clock ≤ p.2
  seen : ∀ i c, s₀.checks.length ≤ i → s.checks[i]? = some c → CheckSeen (Checked s₀ s) c

theorem Refreshing.settles {l : Label newURL} {now : ℤ} (h : Refreshing s₀ s)
    (hs : Backend.step clock s l = some s') (hi : s₀.checks.length ≤ i)
    (hget : s.checks[i]? = some c) :
    Settles { s.world with clock := now } s'.world (checkStamps c) (called c) (Checked s₀ s)
      (Checked s₀ s') where
  mono id hid := hid.step h.read h.filed hs
  missing id hid hgone := by
    obtain ⟨u, -, hholds⟩ := h.guarded.checks c (List.mem_of_getElem? hget)
    have hvacuous : Checked s₀ s id :=
      ⟨mem_given_of_called hholds hid, fun l hl hmine => absurd hmine (hgone l hl)⟩
    exact hvacuous.step h.read h.filed hs
  saved id result now row hp hsave :=
    .saved h.guarded.tidy rfl (h.stamps i c hi hget _ hp) hs hsave

theorem Moved.getElem? {l : Label newURL} (h : Moved clock s l s') (hc : s'.checks[i]? = some c) :
    s.checks[i]? = some c ∨ (∃ job, c = .manual { job }) ∨
      (∃ sheetsTaskId, c = .sheets (.find sheetsTaskId)) ∨
      ∃ a c₀, s.checks[i]? = some c₀ ∧
        ProjectLock.Steps newURL clock { s.world with clock := a.turn.now } c₀ a s'.world c ∧
        s'.world.clock = a.turn.now := by
  cases h with
  | idle hl hlocks hchecks => exact .inl (hchecks ▸ hc)
  | taken hl hlocks hnew hchecks =>
    rw [hchecks, List.getElem?_append] at hc
    split at hc
    · exact .inl hc
    · rw [List.getElem?_singleton] at hc
      split at hc
      · cases hc
        obtain ⟨q, -, rfl⟩ | hfind := hnew
        · exact .inr (.inl ⟨q.data, rfl⟩)
        · exact .inr (.inr (.inl hfind))
      · cases hc
  | @worked j a c₀ c' hl hget hm hchecks =>
    rw [hchecks, List.getElem?_set] at hc
    split at hc
    · rename_i hji
      obtain rfl := hji
      rw [if_pos (List.getElem?_eq_some_iff.mp hget).1] at hc
      cases hc
      exact .inr (.inr (.inr ⟨a, c₀, hget, ProjectLock.steps_of_move hm, clock_check hm⟩))
    · exact .inl hc

theorem Refreshing.step {l : Label newURL} (h : Refreshing s₀ s)
    (hs : Backend.step clock s l = some s') : Refreshing s₀ s' := by
  obtain ⟨-, -, hdoes⟩ := step_eq_some hs
  have hread := h.read.step h.filed hs
  refine ⟨(h.guarded.step (fun _ hl => hl) trivial hs).1, (h.filed.step hs).2.2, h.sweeping.step hs,
    hread, fun i c hi hc => ?_, fun i c hi hc => ?_⟩
  · obtain hold | ⟨job, rfl⟩ | ⟨sheetsTaskId, rfl⟩ | ⟨a, c₀, hget, hsteps, hnow⟩ :=
      hdoes.moved.getElem? hc
    · exact h.stamps i c hi hold
    · exact fun p hp => absurd hp List.not_mem_nil
    · exact fun p hp => absurd hp List.not_mem_nil
    · intro p hp
      obtain hold | hnew := checkStamps_step hsteps p hp
      · exact h.stamps i c₀ hi hget p hold
      · exact hnew ▸ hnow ▸ hread.clock
  · obtain hold | ⟨job, rfl⟩ | ⟨sheetsTaskId, rfl⟩ | ⟨a, c₀, hget, hsteps, -⟩ :=
      hdoes.moved.getElem? hc
    · exact (h.seen i c hi hold).mono fun id hid => hid.step h.read h.filed hs
    · exact .nil job.linkIds
    · trivial
    · have hsweeps := (h.sweeping.jobs c₀ (List.mem_of_getElem? hget)).2
      exact (h.seen i c₀ hi hget).step hsweeps (h.settles hs hi hget) hsteps

/-- When a bulk job that `s₁` did not have yet has ended without an error, every link of its
snapshot, and every row that a sheets run has read back, has a result that was stored since then, or
is gone: whatever was added, deleted, rechecked or run again in the meantime.  Its `lastCheckedAt`
was read since then, or by a check that was already about to store it. -/
theorem bulk_jobs_refresh (hc : db.Consistent) (hs : ∀ l ∈ db.links.rows, Sourced l)
    (h₁ : exec (Backend.step clock) (.start db locks time) before = some s₁)
    (h₂ : exec (Backend.step clock) s₁ after = some s₂) (hi : s₁.checks.length ≤ i) :
    (∀ h, s₂.checks[i]? = some (.manual h) → h.pc = .ended → h.threw = false →
      ∀ l ∈ s₂.world.db.links.rows, l.id ∈ h.job.linkIds → Renewed s₁ l) ∧
    ∀ r, s₂.checks[i]? = some (.sheets (.body r)) → r.pc = .ended → r.threw = none →
      ∀ l ∈ s₂.world.db.links.rows, l.id ∈ r.persistedLinks.map Link.id → Renewed s₁ l := by
  have hguarded : Guarded (fun _ => True) s₁ :=
    exec_invariant (fun _ _ _ h hs => (Guarded.step (fun _ hl => hl) h trivial hs).1)
      (Guarded.start hc hs) h₁
  have hfiled : Filed s₁ :=
    exec_invariant (fun _ _ _ h hs => (Filed.step h hs).2.2) Filed.start h₁
  have hsweeping : Sweeping s₁ :=
    exec_invariant (fun _ _ _ h hs => Sweeping.step h hs) Sweeping.start h₁
  have hstart : Refreshing s₁ s₁ := by
    refine ⟨hguarded, hfiled, hsweeping, .refl s₁, fun i c hi hc => ?_, fun i c hi hc => ?_⟩ <;>
      rw [List.getElem?_eq_none hi] at hc <;> cases hc
  have hend := exec_invariant (fun _ _ _ h hs => Refreshing.step h hs) hstart h₂
  refine ⟨fun h hc hpc hthrew l hl hid => ?_, fun r hc hpc hthrew l hl hid => ?_⟩
  · have hseen : BatchSeen (Checked s₁ s₂) h.batch := hend.seen i _ hi hc
    have hsweeps : ManualSweeps h := (hend.sweeping.jobs _ (List.mem_of_getElem? hc)).2
    have hcomplete := hsweeps.done (by rw [hpc]; rfl) hthrew
    exact (hseen.complete hcomplete l.id (hsweeps.ids ▸ hid)).2 l hl rfl
  · have hseen : RunSeen (Checked s₁ s₂) r := hend.seen i _ hi hc
    have hsweeps : SheetsSweeps r := (hend.sweeping.jobs _ (List.mem_of_getElem? hc)).2
    obtain ⟨link, hlink, hsame⟩ := List.mem_map.mp hid
    exact (hseen.ended hsweeps hpc hthrew link hlink).2 l hl hsame.symm

section Examples

def overtaking : List (Label Crawler.exampleURL) :=
  (.ask (.startManualCheck "u" "p") :: Dispatch.serves 0 4 100000 ++
    .ask (.recheckOne "u" "a") :: Dispatch.serves 1 6 100000 ++
    .takeSingle :: Dispatch.checks 4 100000 Crawler.foundRun ++
    .ask (.recheckOne "u" "a") :: Dispatch.serves 2 1 100001 ++
    .takeManual :: Dispatch.works 4 100001 ++ Dispatch.children 6 100002 Crawler.foundRun ++
    Dispatch.works 9 100003 ++ Dispatch.checks 2 100004 Crawler.foundRun).map .dispatch

/-- Split where the worker takes the bulk job; the recheck stores its older time last. -/
theorem bulk_jobs_refresh_sample : ∃ s₁ s₂, run begun (overtaking.take 19) = some s₁ ∧
    run s₁ (overtaking.drop 19) = some s₂ ∧ s₁.world.clock = 100001 ∧
    s₁.stamps = [("a", 100000)] ∧
    s₂.world.db.links.rows.map (fun l => (l.id, l.lastCheckedAt)) = [("a", some 100000)] ∧
    ∀ l ∈ s₂.world.db.links.rows, l.id = "a" → Renewed s₁ l := by
  obtain ⟨s₁, h₁, ⟨hclock, hlength, hstamps⟩, hrest⟩ := exists_of_any
    (P := fun s : State _ => (s.world.clock = 100001 ∧ s.checks.length = 0 ∧
      s.stamps = [("a", 100000)]) ∧ (run s (overtaking.drop 19)).any fun s =>
        s.world.db.links.rows.map (fun l => (l.id, l.lastCheckedAt)) = [("a", some 100000)] ∧
          s.checks.any (endedWell ["a"]))
    (s := run begun (overtaking.take 19)) (by decide +kernel)
  obtain ⟨s₂, h₂, hrows, hend⟩ := exists_of_any hrest
  obtain ⟨c, hc, hwell⟩ := List.any_eq_true.mp hend
  obtain ⟨i, hi⟩ := List.mem_iff_getElem?.mp hc
  refine ⟨s₁, s₂, h₁, h₂, hclock, hstamps, hrows, fun l hl hid => ?_⟩
  cases c with
  | manual h =>
    simp only [endedWell, Bool.and_eq_true, decide_eq_true_eq, Bool.not_eq_true'] at hwell
    obtain ⟨⟨hids, hpc⟩, hthrew⟩ := hwell
    have hrefresh := (bulk_jobs_refresh twoUsers_consistent twoUsers_sourced h₁ h₂ (i := i)
      (hlength ▸ Nat.zero_le i)).1 h hi hpc hthrew l hl
    rw [hids] at hrefresh
    exact hrefresh (hid ▸ List.mem_singleton.mpr rfl)
  | sheets call => cases hwell

end Examples

end LinkBulker.Backend
