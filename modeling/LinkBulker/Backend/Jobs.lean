import LinkBulker.Backend.Results
import LinkBulker.Worker.Sweeps

/-! What the bulk jobs do with their links, in every run of the backend. -/

namespace LinkBulker.Backend

open Foundations Db Shared SingleLink Worker
open ProjectLock (Check manualStage sheetsStage)

variable {newURL : UrlParser} {clock : Sheets.LocalClock} {db : Database}
  {locks : String → LockManager.Key} {time : ℤ} {labels : List (Label newURL)} {s s' : State newURL}

def snapshotNodup : Dispatch.Request → Prop
  | .startManualCheck r => ∀ linkIds, r.pc = .add linkIds → linkIds.Nodup
  | .recheckOne _ | .runNow _ => True

def JobNodup : Check → Prop
  | .manual h => h.job.linkIds.Nodup
  | .sheets _ => True

structure Sweeping (s : State newURL) : Prop where
  requests : ∀ r ∈ s.requests, snapshotNodup r
  queue : ∀ q ∈ s.manualQueue, q.data.linkIds.Nodup
  jobs : ∀ c ∈ s.checks, JobNodup c ∧ CheckSweeps c

theorem Sweeping.start : Sweeping (State.start db locks time : State newURL) :=
  ⟨fun _ hr => absurd hr List.not_mem_nil, fun _ hq => absurd hq List.not_mem_nil,
    fun _ hc => absurd hc List.not_mem_nil⟩

theorem snapshot_bulk {w : World} {queue queue' : List BulkQueue.Queued}
    {r r' : BulkQueue.Request} {now : ℤ} (h : snapshotNodup (.startManualCheck r))
    (hqueue : ∀ q ∈ queue, q.data.linkIds.Nodup) (hm : r.move w queue now = some (queue', r')) :
    snapshotNodup (.startManualCheck r') ∧ ∀ q ∈ queue', q.data.linkIds.Nodup := by
  obtain ⟨u, projectId, pc⟩ := r
  cases pc with
  | assertProject | isLocked =>
    simp only [BulkQueue.Request.move] at hm
    split at hm <;> cases hm <;> exact ⟨fun _ hpc => (by cases hpc), hqueue⟩
  | findMany =>
    simp only [BulkQueue.Request.move] at hm
    split at hm <;> cases hm
    · exact ⟨fun _ hpc => (by cases hpc), hqueue⟩
    · refine ⟨fun linkIds hpc => ?_, hqueue⟩
      cases hpc
      exact w.db.links.nodup.sublist (List.filter_sublist.map Link.id)
  | add linkIds =>
    cases hm
    refine ⟨fun _ hpc => (by cases hpc), fun q hq => ?_⟩
    obtain hq | hq := List.mem_append.mp hq
    · exact hqueue q hq
    · rw [List.mem_singleton.mp hq]
      exact h linkIds rfl
  | _ => cases hm

theorem JobNodup.step {c c' : Check} {a : ProjectLock.Act} {w w' : World} (h : JobNodup c)
    (hs : ProjectLock.Steps newURL clock w c a w' c') : JobNodup c' := by
  cases hs with
  | manual hs =>
    rw [JobNodup, hs.job]
    exact h
  | manualChild hm | manualBeat hlock hw => exact h
  | missing | found hfind | sheets hs | sheetsChild hm | sheetsBeat hlock hw => trivial

theorem Sweeping.dispatch {l : Dispatch.Label newURL} {now : ℤ} {d : Dispatch.State}
    (h : Sweeping s) (hd : Dispatch.Does clock (s.toState.at_ now) l d) :
    Sweeping { s with toState := d } := by
  cases hd with
  | @asked a =>
    refine ⟨fun r hr => ?_, h.queue, h.jobs⟩
    obtain hr | hr := List.mem_append.mp hr
    · exact h.requests r hr
    · rw [List.mem_singleton.mp hr]
      cases a with
      | startManualCheck userId projectId => nofun
      | _ => trivial
  | bulk hget hm =>
    obtain ⟨hsnapshot, hqueue⟩ :=
      snapshot_bulk (h.requests _ (List.mem_of_getElem? hget)) h.queue hm
    exact ⟨Pool.forall_set h.requests hsnapshot, hqueue, h.jobs⟩
  | recheck hget hm | run hget hm =>
    exact ⟨Pool.forall_set h.requests trivial, h.queue, h.jobs⟩
  | created | refused | deleted | scheduled | tookSingle | checked =>
    exact ⟨h.requests, h.queue, h.jobs⟩
  | tookManual hq =>
    refine ⟨h.requests, h.queue, fun c hc => ?_⟩
    obtain hc | hc := List.mem_append.mp hc
    · exact h.jobs c hc
    · rw [List.mem_singleton.mp hc]
      exact ⟨h.queue _ (List.mem_of_getElem? hq), .start _⟩
  | tookSheets hjob =>
    refine ⟨h.requests, h.queue, fun c hc => ?_⟩
    obtain hc | hc := List.mem_append.mp hc
    · exact h.jobs c hc
    · rw [List.mem_singleton.mp hc]
      exact ⟨trivial, trivial⟩
  | worked hget hm =>
    obtain ⟨hnodup, hsweeps⟩ := h.jobs _ (List.mem_of_getElem? hget)
    have hsteps := ProjectLock.steps_of_move hm
    exact ⟨h.requests, h.queue, Pool.forall_set h.jobs ⟨hnodup.step hsteps, hsweeps.step hsteps⟩⟩

theorem Sweeping.step {l : Label newURL} (h : Sweeping s) (hs : step clock s l = some s') :
    Sweeping s' := by
  obtain ⟨-, -, hdoes⟩ := step_eq_some hs
  cases hdoes with
  | dispatch hallows hd =>
    have hnext := h.dispatch hd
    exact ⟨hnext.requests, hnext.queue, hnext.jobs⟩
  | row | serveRow hget hm | task | serveTask hget hm => exact ⟨h.requests, h.queue, h.jobs⟩

/-- In every state a bulk job has called `processOne` for the first of its links, for each of them
once and with at most fifteen calls under way, and a job that has ended without an error has called
it for all of them and had every call come back. -/
theorem jobs_sweep_links (hr : exec (Backend.step clock) (.start db locks time) labels = some s) :
    (∀ h, .manual h ∈ s.checks → h.job.linkIds.Nodup ∧ h.batch.ids = h.job.linkIds ∧
      h.batch.Front 15 ∧ (h.pc = .ended → h.threw = false → h.batch.Complete)) ∧
    ∀ r, .sheets (.body r) ∈ s.checks → r.batch.Front 15 ∧
      (r.pc = .ended → r.threw = none →
        r.batch.Complete ∧ r.batch.ids = r.validProcessableLinks.map Link.id) := by
  have hjobs := (exec_invariant (fun _ _ _ h hs => Sweeping.step h hs) Sweeping.start hr).jobs
  refine ⟨fun h hc => ?_, fun r hc => ?_⟩
  · obtain ⟨hnodup, hsweeps⟩ := hjobs _ hc
    have hsweeps : ManualSweeps h := hsweeps
    exact ⟨hnodup, hsweeps.ids, hsweeps.sweeps.front, fun hpc => hsweeps.done (by rw [hpc]; rfl)⟩
  · have hsweeps : SheetsSweeps r := (hjobs _ hc).2
    exact ⟨hsweeps.sweeps.front, fun hpc => hsweeps.done (by rw [hpc]; rfl)⟩

section Examples

def swept : List (Label Crawler.exampleURL) :=
  .dispatch (.ask (.startManualCheck "u" "p")) :: (Dispatch.serves 0 4 100000).map .dispatch ++
    .dispatch .takeManual :: (Dispatch.works 4 100001 ++
      Dispatch.children 6 100002 Crawler.foundRun ++ Dispatch.works 9 100003).map .dispatch

def sixteenIds : List LinkId :=
  ["a", "b", "c", "d", "e", "f", "g", "h", "i", "j", "k", "l", "m", "n", "o", "q"]

def sixteenLinks : Database :=
  exampleDatabase ⟨sixteenIds.map exampleLink, by decide⟩ .empty

def chunked : List (Label Crawler.exampleURL) :=
  .dispatch (.ask (.startManualCheck "u" "p")) :: (Dispatch.serves 0 4 100000).map .dispatch ++
    .dispatch .takeManual :: (Dispatch.works 4 100001).map .dispatch

def wholeCall (now : ℤ) (k : ℕ) : List (Label Crawler.exampleURL) :=
  List.replicate 6 (.dispatch (.work 0 (.manual (.child k { now, run := Crawler.foundRun }))))

def finished : List (Label Crawler.exampleURL) :=
  (List.range 15).flatMap (wholeCall 100002) ++ (Dispatch.works 4 100003).map .dispatch ++
    wholeCall 100004 15 ++ (Dispatch.works 9 100005).map .dispatch

def busy (ids : List LinkId) : Check → Bool
  | .manual h => h.job.linkIds = ids && h.batch.unsettled = 15
  | .sheets _ => false

def endedWell (ids : List LinkId) : Check → Bool
  | .manual h => h.job.linkIds = ids && h.pc = .ended && !h.threw
  | .sheets _ => false

theorem jobs_sweep_links_sample :
    (∃ s h, run (.start sixteenLinks (fun _ => none) 0) chunked = some s ∧ .manual h ∈ s.checks ∧
      h.job.linkIds = sixteenIds ∧ h.batch.unsettled = 15 ∧ h.batch.Front 15) ∧
    ∃ s h, run (.start sixteenLinks (fun _ => none) 0) (chunked ++ finished) = some s ∧
      .manual h ∈ s.checks ∧ h.job.linkIds = sixteenIds ∧ h.pc = .ended ∧ h.batch.Complete := by
  constructor
  · obtain ⟨s, hrun, hbusy⟩ := exists_of_any (P := fun s : State _ => s.checks.any (busy sixteenIds))
      (s := run (.start sixteenLinks (fun _ => none) 0) chunked) (by decide +kernel)
    obtain ⟨c, hc, hbusy⟩ := List.any_eq_true.mp hbusy
    cases c with
    | manual h =>
      simp only [busy, Bool.and_eq_true, decide_eq_true_eq] at hbusy
      obtain ⟨hids, hunsettled⟩ := hbusy
      obtain ⟨-, -, hfront, -⟩ := (jobs_sweep_links hrun).1 h hc
      exact ⟨s, h, hrun, hc, hids, hunsettled, hfront⟩
    | sheets call => cases hbusy
  · obtain ⟨s, hrun, hend⟩ := exists_of_any (P := fun s : State _ => s.checks.any (endedWell sixteenIds))
      (s := run (.start sixteenLinks (fun _ => none) 0) (chunked ++ finished)) (by decide +kernel)
    obtain ⟨c, hc, hwell⟩ := List.any_eq_true.mp hend
    cases c with
    | manual h =>
      simp only [endedWell, Bool.and_eq_true, decide_eq_true_eq, Bool.not_eq_true'] at hwell
      obtain ⟨⟨hids, hpc⟩, hthrew⟩ := hwell
      obtain ⟨-, -, -, hcomplete⟩ := (jobs_sweep_links hrun).1 h hc
      exact ⟨s, h, hrun, hc, hids, hpc, hcomplete hpc hthrew⟩
    | sheets call => cases hwell

end Examples

end LinkBulker.Backend
