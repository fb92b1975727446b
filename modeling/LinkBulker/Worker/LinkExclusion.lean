import LinkBulker.Worker.DispatchLaws
import LinkBulker.Worker.LinkOwners
import LinkBulker.Worker.LinkRows

/-! The bulk jobs check a link one at a time. -/

namespace LinkBulker.Dispatch

open Foundations Db Shared Crawler LinkRepository SingleLink Worker
open ProjectLock (Act Check View Kind Exclusive steps_of_move lockFree)
open Sheets (taskKey)

variable {newURL : UrlParser} {clock : Sheets.LocalClock} {owner : LinkId → LinkInput}
  {keys : List (SheetsTaskId × ProjectId)} {s s' : State} {l : Label newURL} {id : LinkId}

section Selection

variable {γ δ : Type} {f : γ → List δ} {q : δ → Bool} {cs : List γ}

theorem countP_flatMap_le (hone : ∀ c ∈ cs, (f c).countP q ≤ 1) :
    (cs.flatMap f).countP q ≤ cs.countP fun c => (f c).any q := by
  induction cs with
  | nil => exact Nat.le_refl _
  | cons c cs ih =>
    have hrest := ih fun d hd => hone d (List.mem_cons_of_mem c hd)
    have hc := hone c List.mem_cons_self
    rw [List.flatMap_cons, List.countP_append, List.countP_cons]
    split
    · omega
    · rename_i hnone
      have hzero : (f c).countP q = 0 := List.countP_eq_zero.mpr fun x hx hq =>
        hnone (List.any_eq_true.mpr ⟨x, hx, hq⟩)
      omega

end Selection

def RequestFits (owner : LinkId → LinkInput) (keys : List (SheetsTaskId × ProjectId)) :
    Request → Prop
  | .startManualCheck r =>
    match r.pc with
    | .add linkIds => Batch.Fits (Owns owner keys .manual r.projectId) ⟨linkIds, []⟩
    | _ => True
  | .recheckOne _ | .runNow _ => True

theorem requestFits_ask (a : Ask) : RequestFits owner keys a.request := by
  cases a <;> trivial

structure Grounded (owner : LinkId → LinkInput) (keys : List (SheetsTaskId × ProjectId))
    (db : Database) : Prop where
  named : Named owner db
  sourced : ∀ l ∈ db.links.rows, l.source = .MANUAL → l.sheetsTaskId = none
  tasks : db.sheetsTasks.rows.map taskKey = keys

structure Orderly (owner : LinkId → LinkInput) (keys : List (SheetsTaskId × ProjectId)) (s : State) :
    Prop where
  grounded : Grounded owner keys s.world.db
  sane : AllSane s
  queue : ∀ q ∈ s.manualQueue,
    Batch.Fits (Owns owner keys .manual q.data.projectId) ⟨q.data.linkIds, []⟩
  requests : ∀ r ∈ s.requests, RequestFits owner keys r
  checks : ∀ c ∈ s.checks, CheckFits owner keys c
  exclusive : ∀ kind p, Exclusive kind p (s.world, s.checks)
  late : ∀ c ∈ s.checks, ∀ v ∈ c.view, v.stage.late → v.batch.settled

theorem Orderly.start {db : Database} {locks : String → LockManager.Key} {time : ℤ}
    (h : Grounded owner keys db) : Orderly owner keys (State.start db locks time) where
  grounded := h
  sane := .start db locks time
  queue _ hq := absurd hq List.not_mem_nil
  requests _ hr := absurd hr List.not_mem_nil
  checks _ hc := absurd hc List.not_mem_nil
  exclusive _ _ := .start _ []
  late _ hc := absurd hc List.not_mem_nil

theorem snapshot_fits (h : Orderly owner keys s) (p : ProjectId) :
    Batch.Fits (Owns owner keys .manual p)
      ⟨(s.world.db.links.rows.filter fun l => l.projectId == p && l.source == .MANUAL &&
        LinksService.eligible.contains l.status).map Link.id, []⟩ := by
  refine .fresh (s.world.db.links.nodup.sublist (List.filter_sublist.map _)) fun id hid => ?_
  obtain ⟨l, hl, rfl⟩ := List.mem_map.mp hid
  obtain ⟨hmem, hsel⟩ := List.mem_filter.mp hl
  simp only [Bool.and_eq_true, beq_iff_eq] at hsel
  obtain ⟨⟨rfl, hsource⟩, -⟩ := hsel
  have hinput := h.grounded.named l hmem
  exact ⟨hinput ▸ h.grounded.sourced l hmem hsource, hinput ▸ rfl⟩

theorem Orderly.bulk {now : ℤ} {r r' : BulkQueue.Request} {queue : List BulkQueue.Queued}
    (h : Orderly owner keys s) (hr : RequestFits owner keys (.startManualCheck r))
    (hm : r.move s.world s.manualQueue now = some (queue, r')) :
    RequestFits owner keys (.startManualCheck r') ∧ ∀ q ∈ queue,
      Batch.Fits (Owns owner keys .manual q.data.projectId) ⟨q.data.linkIds, []⟩ := by
  unfold BulkQueue.Request.move at hm
  split at hm
  case h_1 hpc => split at hm <;> cases hm <;> exact ⟨trivial, h.queue⟩
  case h_2 hpc => split at hm <;> cases hm <;> exact ⟨trivial, h.queue⟩
  case h_3 hpc =>
    dsimp only at hm
    split at hm <;> cases hm
    · exact ⟨trivial, h.queue⟩
    · exact ⟨snapshot_fits h r.projectId, h.queue⟩
  case h_4 linkIds hpc =>
    cases hm
    refine ⟨trivial, fun q hq => ?_⟩
    rcases List.mem_append.mp hq with hq | hq
    · exact h.queue q hq
    · rw [List.mem_singleton.mp hq]
      simpa only [RequestFits, hpc] using hr
  case h_5 => cases hm

theorem Orderly.wait {now : ℤ} (h : Orderly owner keys s)
    (hu : ∀ c ∈ s.checks, ∀ v ∈ c.view, v.stage.holds →
      lockFree v.kind v.projectId s.world now = false) : Orderly owner keys (s.at_ now) := by
  refine ⟨h.grounded, ⟨h.sane.checks, h.sane.singles⟩, h.queue, h.requests, h.checks,
    fun kind p => ?_, h.late⟩
  refine (h.exclusive kind p).wait rfl fun ⟨c, hc, hin⟩ => ?_
  obtain ⟨v, hv, hholds⟩ := ProjectLock.Check.inside_iff.mp hin
  obtain ⟨hview, rfl, rfl⟩ := ProjectLock.mem_viewOf.mp hv
  exact hu c hc v hview hholds

theorem Does.tasks (hd : Does clock s l s') :
    s'.world.db.sheetsTasks.rows.map taskKey = s.world.db.sheetsTasks.rows.map taskKey := by
  cases hd with
  | recheck hget hm =>
    dsimp only
    rw [(written_recheckOne hm).1]
  | created hdb =>
    obtain ⟨links, rfl, -⟩ := LinksService.createManualLinks_eq_ok hdb
    rfl
  | deleted =>
    obtain ⟨p, h⟩ := LinksService.Request.apply_eq s.world.db _
    dsimp only
    rw [h]
  | worked hget hm => exact ProjectLock.Check.tasks hm
  | checked hget hm =>
    obtain ⟨-, hmoves⟩ := SingleLink.move_eq_some hm
    dsimp only
    rw [hmoves.frame.sheetsTasks]
  | _ => rfl

theorem Orderly.work {i : ℕ} {a : Act} {c c' : Check} {world : World} (h : Orderly owner keys s)
    (hget : s.checks[i]? = some c) (hm : c.move newURL clock s.world a = some (world, c'))
    (hwaits : ∀ v ∈ c.view, v.stage = .clearing → a.main →
      (∃ d ∈ v.batch.calls, d.pc = .rejected) → v.batch.settled) :
    (∀ d ∈ s.checks.set i c', CheckFits owner keys d) ∧
      ∀ d ∈ s.checks.set i c', ∀ v ∈ d.view, v.stage.late → v.batch.settled := by
  have hmem := List.mem_of_getElem? hget
  have hpaced : ∀ v ∈ c.view, v.Paced := (h.exclusive .manual "").paced c hmem
  constructor
  · exact Pool.forall_set h.checks ((h.checks c hmem).step (steps_of_move hm) hpaced
      h.grounded.named h.grounded.tasks)
  · exact Pool.forall_set h.late fun v' hv' => ProjectLock.Check.late hm hpaced hv' fun v hv _ =>
      ⟨h.late c hmem v hv, hwaits v hv⟩

theorem Orderly.take (h : Orderly owner keys s) (r : ProjectLock.Request)
    (hfits : CheckFits owner keys r.start) :
    (∀ c ∈ s.checks ++ [r.start], CheckFits owner keys c) ∧
      ∀ c ∈ s.checks ++ [r.start], ∀ v ∈ c.view, v.stage.late → v.batch.settled := by
  constructor <;> intro c hc <;> rcases List.mem_append.mp hc with hc | hc
  · exact h.checks c hc
  · exact List.mem_singleton.mp hc ▸ hfits
  · exact h.late c hc
  · intro v hv hlate
    rw [List.mem_singleton.mp hc] at hv
    rw [(r.paced_start v hv).2] at hlate
    cases hlate

theorem Orderly.does (h : Orderly owner keys s) (hd : Does clock s l s') (hw : Waits s l)
    (hnow : s.world.clock = l.now s.world.clock) (hnamed : Named owner s'.world.db) :
    Orderly owner keys s' := by
  obtain ⟨hsane, hwritten⟩ := h.sane.does hd
  have hground : Grounded owner keys s'.world.db :=
    ⟨hnamed, hwritten.sourced h.grounded.sourced, hd.tasks.trans h.grounded.tasks⟩
  -- a step that leaves the locks and the clock alone
  have still {world : World} (hlocks : world.locks = s.world.locks)
      (hclock : world.clock = s.world.clock) (kind : Kind) (p : ProjectId) :
      Exclusive kind p (world, s.checks) := by
    refine (h.exclusive kind p).wait hlocks fun ⟨c, hc, hin⟩ => ?_
    rw [hclock]
    exact (h.exclusive kind p).places.held (hin ▸ List.mem_map_of_mem hc)
  cases hd with
  | asked =>
    refine ⟨hground, hsane, h.queue, fun r hr => ?_, h.checks, h.exclusive, h.late⟩
    rcases List.mem_append.mp hr with hr | hr
    · exact h.requests r hr
    · rw [List.mem_singleton.mp hr]
      exact requestFits_ask _
  | bulk hget hm =>
    obtain ⟨hfits, hqueue⟩ := h.bulk (h.requests _ (List.mem_of_getElem? hget)) hm
    exact ⟨hground, hsane, hqueue, Pool.forall_set h.requests hfits, h.checks, h.exclusive, h.late⟩
  | recheck hget hm =>
    exact ⟨hground, hsane, h.queue, Pool.forall_set h.requests trivial, h.checks, still rfl rfl,
      h.late⟩
  | run hget hm =>
    exact ⟨hground, hsane, h.queue, Pool.forall_set h.requests trivial, h.checks, h.exclusive,
      h.late⟩
  | created hdb | deleted =>
    exact ⟨hground, hsane, h.queue, h.requests, h.checks, still rfl rfl, h.late⟩
  | refused | scheduled | tookSingle hjob =>
    exact ⟨hground, hsane, h.queue, h.requests, h.checks, h.exclusive, h.late⟩
  | tookManual hq =>
    rename_i q
    have hfits : CheckFits owner keys (ProjectLock.Request.manual q.data).start :=
      h.queue q (List.mem_of_getElem? hq)
    obtain ⟨hchecks, hlate⟩ := h.take _ hfits
    exact ⟨hground, hsane, h.queue, h.requests, hchecks,
      fun kind p => (h.exclusive kind p).join (.manual q.data), hlate⟩
  | tookSheets hjob =>
    rename_i job
    obtain ⟨hchecks, hlate⟩ := h.take (.sheets job.sheetsTaskId) trivial
    exact ⟨hground, hsane, h.queue, h.requests, hchecks,
      fun kind p => (h.exclusive kind p).join (.sheets job.sheetsTaskId), hlate⟩
  | worked hget hm =>
    obtain ⟨hchecks, hlate⟩ := h.work hget hm (hw _ hget)
    exact ⟨hground, hsane, h.queue, h.requests, hchecks,
      fun kind p => (h.exclusive kind p).move hnow hget hm, hlate⟩
  | checked hget hm =>
    obtain ⟨-, hmoves⟩ := SingleLink.move_eq_some hm
    exact ⟨hground, hsane, h.queue, h.requests, h.checks, still hmoves.frame.locks hmoves.frame.clock,
      h.late⟩

theorem Orderly.step (h : Orderly owner keys s) (hu : Unexpired s l) (hw : Waits s l)
    (hs : Dispatch.step clock owner s l = some s') : Orderly owner keys s' := by
  obtain ⟨-, hd, hnamed⟩ := step_eq_some hs
  have hnow : (s.at_ (l.now s.world.clock)).world.clock =
      l.now (s.at_ (l.now s.world.clock)).world.clock := by
    cases l <;> rfl
  refine (h.wait hu).does hd ?_ hnow hnamed
  cases l with
  | work i a => exact hw
  | _ => trivial

def callsOf (c : Check) : List ProcessOne := (c.view.map fun v => v.batch.calls).getD []

def busy (id : LinkId) (call : ProcessOne) : Bool := call.linkId = id && call.checking

theorem busy_iff {call : ProcessOne} :
    busy id call ↔ call.linkId = id ∧ call.checking := by
  simp [busy]

theorem not_settled_of_checking {call : ProcessOne} (h : call.checking) : call.settled = false := by
  obtain ⟨linkId, pc⟩ := call
  cases pc <;> first | rfl | cases h

theorem Orderly.busy (h : Orderly owner keys s) {c : Check} (hc : c ∈ s.checks)
    (hbusy : (callsOf c).any (busy id)) :
    ∃ v ∈ c.view, v.stage.holds ∧ Owns owner keys v.kind v.projectId id := by
  obtain ⟨call, hcall, hcall'⟩ := List.any_eq_true.mp hbusy
  obtain ⟨rfl, hchecking⟩ := busy_iff.mp hcall'
  unfold callsOf at hcall
  cases hv : c.view with
  | none =>
    rw [hv] at hcall
    cases hcall
  | some v =>
    rw [hv] at hcall
    have hpaced := (h.exclusive v.kind v.projectId).paced c hc v hv
    refine ⟨v, rfl, hpaced.holds (h.late c hc v hv) fun hsettled => ?_,
      ((h.checks c hc).view hv).own_of_mem hcall⟩
    have hcall := Batch.settled_iff.mp hsettled call hcall
    rw [not_settled_of_checking hchecking] at hcall
    cases hcall

theorem Orderly.alone (h : Orderly owner keys s) (hkeys : (keys.map Prod.fst).Nodup)
    (id : LinkId) : (s.checks.countP fun c => (callsOf c).any (Dispatch.busy id)) ≤ 1 := by
  by_cases hsome : ∃ c ∈ s.checks, (callsOf c).any (Dispatch.busy id)
  · obtain ⟨c, hc, hbusy⟩ := hsome
    obtain ⟨v, -, -, howns⟩ := h.busy hc hbusy
    have halone := (h.exclusive v.kind v.projectId).places.alone
    rw [List.count, List.countP_map] at halone
    refine le_trans (List.countP_mono_left fun d hd hbusy => ?_) halone
    obtain ⟨u, hu, hholds, howns'⟩ := h.busy hd hbusy
    obtain ⟨hkind, hproject⟩ := howns'.unique hkeys howns
    exact beq_iff_eq.mpr (ProjectLock.Check.inside_iff.mpr
      ⟨u, ProjectLock.mem_viewOf.mpr ⟨hu, hkind, hproject⟩, hholds⟩)
  · rw [List.countP_eq_zero.mpr fun c hc hbusy => hsome ⟨c, hc, hbusy⟩]
    exact Nat.zero_le 1

theorem Orderly.inProgress_le (h : Orderly owner keys s) (hkeys : (keys.map Prod.fst).Nodup)
    (id : LinkId) : inProgress s.bulkCalls id ≤ 1 := by
  refine le_trans (countP_flatMap_le (f := callsOf) (q := Dispatch.busy id) fun c hc => ?_)
    (h.alone hkeys id)
  unfold callsOf
  cases hv : c.view with
  | none => exact Nat.zero_le 1
  | some v =>
    refine le_trans (List.countP_mono_left fun call _ hbusy => ?_)
      (((h.checks c hc).view hv).countP_le id)
    exact decide_eq_true (busy_iff.mp hbusy).1

theorem orderly_of_run {db : Database} {locks : String → LockManager.Key} {time : ℤ}
    {as : List (Label newURL)} (hg : Grounded owner keys db)
    (hr : exec (step clock owner) (State.start db locks time) as = some s)
    (hu : Meets (step clock owner) Unexpired (State.start db locks time) as)
    (hw : Meets (step clock owner) Waits (State.start db locks time) as) :
    Orderly owner keys s :=
  exec_invariant_of_meets (fun _ _ _ h hc hs => h.step hc.1 hc.2 hs) (.start hg) (hu.and hw) hr

/-- Any requests, jobs and failures in any order, while no lock runs out and no job gives up its
lock over a check of its own: two checks of one link at once are not both those of bulk jobs. -/
theorem bulk_checks_take_turns {db : Database} {locks : String → LockManager.Key} {time : ℤ}
    {as : List (Label newURL)} (hnamed : Named owner db)
    (hsourced : ∀ l ∈ db.links.rows, l.source = .MANUAL → l.sheetsTaskId = none)
    (hr : exec (step clock owner) (State.start db locks time) as = some s)
    (hu : Meets (step clock owner) Unexpired (State.start db locks time) as)
    (hw : Meets (step clock owner) Waits (State.start db locks time) as) (id : LinkId) :
    inProgress s.bulkCalls id ≤ 1 ∧ inProgress s.calls id ≤ inProgress s.singles id + 1 := by
  have hkeys : ((db.sheetsTasks.rows.map taskKey).map Prod.fst).Nodup := by
    rw [List.map_map]
    exact db.sheetsTasks.nodup
  have hone := (orderly_of_run ⟨hnamed, hsourced, rfl⟩ hr hu hw).inProgress_le hkeys id
  refine ⟨hone, ?_⟩
  rw [inProgress, State.calls, List.countP_append, Nat.add_comm]
  exact Nat.add_le_add_left hone _

def overlapLabels : List (Label exampleURL) :=
  bothAsked ++ children 4 100002 .noSlot ++ checks 2 100003 foundRun

def overwriteLabels : List (Label exampleURL) :=
  checks 4 100004 foundRun ++ children 2 100005 .noSlot

theorem recheck_overlaps_bulk_check :
    ∃ s s', exec (step Sheets.exampleClock fun id => (exampleLink id).input)
        (State.start oneLink (fun _ => none) 0) overlapLabels = some s ∧
      Meets (step Sheets.exampleClock fun id => (exampleLink id).input) Unexpired
        (State.start oneLink (fun _ => none) 0) overlapLabels ∧
      2 ≤ inProgress s.calls "a" ∧ s.world.crawls = ["a"] ∧
      exec (step Sheets.exampleClock fun id => (exampleLink id).input) s overwriteLabels = some s' ∧
      s'.world.stored.map (fun saved => saved.result.linkFound) = [some true, none] ∧
      s'.world.db.links.rows.map Link.linkFound = [none] := by
  obtain ⟨s, hs, htwo, hcrawls, hrest⟩ := exists_of_any
    (P := fun s => 2 ≤ inProgress s.calls "a" ∧ s.world.crawls = ["a"] ∧
      ((exec (step Sheets.exampleClock fun id => (exampleLink id).input) s overwriteLabels).any
        fun s' : State => s'.world.stored.map (fun saved => saved.result.linkFound) = [some true, none] ∧
          s'.world.db.links.rows.map Link.linkFound = [none]))
    (s := exec (step Sheets.exampleClock fun id => (exampleLink id).input)
      (State.start oneLink (fun _ => none) 0) overlapLabels) (by decide +kernel)
  obtain ⟨s', hs', hstored, hrows⟩ := exists_of_any
    (P := fun s' : State => s'.world.stored.map (fun saved => saved.result.linkFound) = [some true, none] ∧
      s'.world.db.links.rows.map Link.linkFound = [none]) hrest
  exact ⟨s, s', hs, by decide +kernel, htwo, hcrawls, hs', hstored, hrows⟩

theorem bulk_checks_take_turns_sample :
    ∃ s, exec (step Sheets.exampleClock fun id => (exampleLink id).input)
        (State.start oneLink (fun _ => none) 0) overlapLabels = some s ∧
      inProgress s.calls "a" ≤ inProgress s.singles "a" + 1 := by
  obtain ⟨s, hs, -⟩ := exists_of_any (P := fun _ => True)
    (s := exec (step Sheets.exampleClock fun id => (exampleLink id).input)
      (State.start oneLink (fun _ => none) 0) overlapLabels) (by decide +kernel)
  exact ⟨s, hs, (bulk_checks_take_turns (by decide) (by decide) hs (by decide +kernel)
    (by decide +kernel) "a").2⟩

end LinkBulker.Dispatch
