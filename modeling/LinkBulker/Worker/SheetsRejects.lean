import LinkBulker.Worker.LockCleanup
import LinkBulker.Worker.SheetsSequence

/-! What comes out of a call of `run`: its promise, and the row of a task whose run has failed. -/

namespace LinkBulker.Sheets

open Foundations Db Shared LinkRepository SingleLink Worker

structure Promise where
  call : Call
  escaping : Option String := none

/-- The awaits of `run` before its `try`, and the one of its `catch` that has no handler. -/
def Call.uncaught : Call → Bool
  | .find _ => true
  | .body r =>
    match r.pc with
    | .acquire | .refindFailed _ => true
    | _ => false
  | .missing => false

def Call.throws (c : Call) : Act → Option String
  | .main t => if c.uncaught ∧ t.rejects then some t.message else none
  | .child .. | .beat _ => none

def Promise.move (newURL : UrlParser) (clock : LocalClock) (w : World) (p : Promise) (a : Act) :
    Option (World × Promise) :=
  (p.call.move newURL clock w a).map fun s => (s.1, ⟨s.2, (p.call.throws a).or p.escaping⟩)

def Promise.outcome (p : Promise) : Option (Except String Unit) :=
  if (ProjectLock.Check.sheets p.call).over then
    some (p.escaping.elim (.ok ()) .error)
  else none

inductive RunLabel
  | move (a : Act)
  | others (w : World)

def RunLabel.step (newURL : UrlParser) (clock : LocalClock) (s : World × Promise) :
    RunLabel → Option (World × Promise)
  | .move a => s.2.move newURL clock s.1 a
  | .others w => some (w, s.2)

def Handled (s : World × Promise) : RunLabel → Prop
  | .move a => s.2.call.throws a = none
  | .others _ => True

instance (s : World × Promise) : (l : RunLabel) → Decidable (Handled s l)
  | .move a => inferInstanceAs (Decidable (s.2.call.throws a = none))
  | .others _ => .isTrue trivial

def Pc.failing : Pc → Bool
  | .refindFailed _ | .publishFailed .. | .clearFlag | .release | .ended => true
  | _ => false

/-- The statement that records a failure finds its row and succeeds, and nobody else writes the row
from then on. -/
def Served (s : World × Promise) (l : RunLabel) : Prop :=
  ∀ r, s.2.call = .body r →
    match l with
    | .move (.main t) => ∀ reason, r.pc = .setFailed reason →
      t.rejects = false ∧ (s.1.db.sheetsTasks.find? r.task.id).isSome
    | .others w => r.pc.failing →
      w.db.sheetsTasks.find? r.task.id = s.1.db.sheetsTasks.find? r.task.id
    | _ => True

def FailedWith (db : Database) (id : SheetsTaskId) (reason : String) : Prop :=
  ∃ row, db.sheetsTasks.find? id = some row ∧ row.status = .FAILED ∧ row.isChecking = false ∧
    row.lastRunStatus = some (sliceReason reason)

def Records (newURL : UrlParser) (clock : LocalClock) (s₀ s : World × Promise)
    (labels : List RunLabel) : Prop :=
  Meets (RunLabel.step newURL clock) Served s₀ labels →
    ∀ r reason, s.2.call = .body r → r.threw = some reason →
      FailedWith s.1.db r.task.id reason

section Laws

variable {newURL : UrlParser} {clock : LocalClock} {w w' : World} {r r' : Run} {t : SheetsTurn}
  {p p' : Promise} {s s' : World × Promise} {l : RunLabel}

theorem escaping_step (hs : l.step newURL clock s = some s') :
    s'.2.escaping = none ↔ s.2.escaping = none ∧ Handled s l := by
  cases l with
  | others w =>
    cases hs
    simp [Handled]
  | move a =>
    obtain ⟨⟨w', c'⟩, -, rfl⟩ := Option.map_eq_some_iff.mp hs
    simp only [Option.or_eq_none_iff, Handled]
    exact And.comm

theorem escaping_iff {s₀ : World × Promise} {labels : List RunLabel}
    (hr : exec (RunLabel.step newURL clock) s₀ labels = some s) :
    s.2.escaping = none ↔
      s₀.2.escaping = none ∧ Meets (RunLabel.step newURL clock) Handled s₀ labels := by
  induction labels generalizing s₀ with
  | nil =>
    cases hr
    simp [Meets]
  | cons l labels ih =>
    obtain ⟨t, ht, hr⟩ := exec_cons.mp hr
    rw [ih hr, escaping_step ht, Meets, and_assoc]
    refine and_congr_right fun _ => and_congr_right fun _ => ⟨fun h t' ht' => ?_, fun h => h t ht⟩
    obtain rfl := Option.some.inj (ht.symm.trans ht')
    exact h

def Failing (w : World) (r : Run) : Prop :=
  ∀ reason, r.threw = some reason →
    r.pc = .setFailed (sliceReason reason) ∨ r.pc.failing ∧ FailedWith w.db r.task.id reason

def Pc.sane : Pc → Bool
  | .setFailed _ => false
  | pc => !pc.failing

theorem Failing.sane (h : Failing w r) {pc : Pc} (hpc : r.pc = pc) (hsane : pc.sane)
    (hthrew : r'.threw = r.threw) : Failing w' r' := by
  intro reason hreason
  rcases h reason (hthrew.symm.trans hreason) with hset | ⟨hfailing, -⟩
  · rw [← hpc, hset] at hsane
    cases hsane
  · rw [hpc] at hfailing
    cases pc <;> first | cases hfailing; done | cases hsane

theorem Failing.keeps (h : Failing w r) {pc : Pc} (hpc : r.pc = pc) (hfailing : pc.failing)
    (hpc' : r'.pc.failing) (hthrew : r'.threw = r.threw) (htask : r'.task = r.task)
    (hdb : w'.db.sheetsTasks = w.db.sheetsTasks) : Failing w' r' := by
  intro reason hreason
  refine .inr ⟨hpc', ?_⟩
  rcases h reason (hthrew.symm.trans hreason) with hset | ⟨-, hfailed⟩
  · rw [← hpc, hset] at hfailing
    cases hfailing
  · rwa [FailedWith, htask, hdb]

theorem Failing.fail (reason : String) : Failing w' (r.fail reason) := by
  intro reason' hreason
  obtain rfl := Option.some.inj hreason
  exact .inl rfl

theorem failedWith_of_set {db db' : Database} {id : SheetsTaskId} {reason : String} {now : ℤ}
    (h : setSheetsTaskStatus db id .FAILED (some (sliceReason reason)) now = some db') :
    FailedWith db' id reason := by
  obtain ⟨⟨task, -, hfind⟩, -⟩ := setSheetsTaskStatus_eq_some h
  exact ⟨_, hfind, rfl, rfl, rfl⟩

theorem Failing.setFailed (h : Failing w r) {reason : String} (hpc : r.pc = .setFailed reason)
    (hrejects : t.rejects = false) (hfound : (w.db.sheetsTasks.find? r.task.id).isSome)
    (hm : r.main newURL clock w t = some (w', r')) : Failing w' r' := by
  obtain ⟨task, htask⟩ := Option.isSome_iff_exists.mp hfound
  obtain ⟨db, hset⟩ := setSheetsTaskStatus_isSome .FAILED (some reason) t.now htask
  simp only [Run.main, hpc, hrejects, hset, Bool.false_eq_true, if_false] at hm
  obtain ⟨rfl, rfl⟩ := Prod.mk.inj (Option.some.inj hm)
  intro reason' hreason
  rcases h reason' hreason with hset' | ⟨hfailing, -⟩
  · cases hpc.symm.trans hset'
    exact .inr ⟨rfl, failedWith_of_set hset⟩
  · rw [hpc] at hfailing
    cases hfailing

theorem Failing.main (h : Failing w r)
    (hserved : ∀ reason, r.pc = .setFailed reason →
      t.rejects = false ∧ (w.db.sheetsTasks.find? r.task.id).isSome)
    (hm : r.main newURL clock w t = some (w', r')) : Failing w' r' := by
  cases main_eq_some hm with
  | fails hpc reason | rejected hpc hall reason => exact .fail reason
  | failedSet hpc hset =>
    obtain ⟨hrejects, hfound⟩ := hserved _ hpc
    exact h.setFailed hpc hrejects hfound hm
  | failedUnset hpc =>
    obtain ⟨hrejects, hfound⟩ := hserved _ hpc
    exact h.setFailed hpc hrejects hfound hm
  | refoundFailed hpc | unfoundFailed hpc => exact h.keeps hpc rfl rfl rfl rfl rfl
  | toldFailed hpc =>
    exact h.keeps hpc rfl rfl rfl rfl (by rw [publishNow_db])
  | lowered hpc hset =>
    obtain ⟨-, rfl⟩ := updateProject_eq_some.mp hset
    exact h.keeps hpc rfl rfl rfl rfl rfl
  | lowerFailed hpc hset => exact h.keeps hpc rfl rfl rfl rfl rfl
  | released hpc hlock => exact h.keeps hpc rfl rfl rfl rfl rfl
  | releaseFailed hpc hr => exact h.keeps hpc rfl rfl rfl rfl rfl
  | pairedAll hpc | toldProgress hpc =>
    unfold Run.loop
    split <;> exact h.sane hpc rfl rfl
  | skip hpc | locked hpc | running hpc | raised hpc | toldRunning hpc | titled hpc | read hpc
  | replaced hpc | fetched hpc | pairedValid hpc | pairedInvalid hpc | marked hpc | resolved hpc
  | counted hpc | nothing hpc | planned hpc | wroteData hpc | wroteHeader hpc | wroteWidths hpc
  | widthsFailed hpc | countedAll hpc | completed hpc | refound hpc | toldCompleted hpc =>
    exact h.sane hpc rfl rfl

theorem Failing.of_tasks (h : Failing w r) (hpc : r'.pc = r.pc) (hthrew : r'.threw = r.threw)
    (htask : r'.task = r.task)
    (hdb : r.pc.failing → w'.db.sheetsTasks.find? r.task.id = w.db.sheetsTasks.find? r.task.id) :
    Failing w' r' := by
  intro reason hreason
  rcases h reason (hthrew.symm.trans hreason) with hset | ⟨hfailing, hfailed⟩
  · exact .inl (hpc.trans hset)
  · refine .inr ⟨by rwa [hpc], ?_⟩
    rwa [FailedWith, htask, hdb hfailing]

theorem failing_step (h : ∀ r, s.2.call = .body r → Failing s.1 r) (hserved : Served s l)
    (hs : l.step newURL clock s = some s') : ∀ r, s'.2.call = .body r → Failing s'.1 r := by
  intro r' hr'
  cases l with
  | others w =>
    cases hs
    exact (h r' hr').of_tasks rfl rfl rfl (hserved r' hr')
  | move a =>
    obtain ⟨⟨w', c'⟩, hm, rfl⟩ := Option.map_eq_some_iff.mp hs
    dsimp only at hr'
    subst hr'
    rcases call_eq_some hm with ⟨id, t, -, -, rfl, hc' | ⟨task, -, hc'⟩⟩ |
      ⟨r, r₁, hc, hmove, hr₁⟩
    · cases hc'
    · cases hc'
      exact fun reason hreason => by cases hreason
    · cases hr₁
      cases a with
      | main t => exact (h r hc).main (hserved r hc) hmove
      | child k t =>
        obtain ⟨b, hb, rfl⟩ := child_eq_some hmove
        obtain ⟨d, d', -, -, hmoves, -⟩ := Batch.move_eq_some hb
        exact (h r hc).of_tasks rfl rfl rfl fun _ => by rw [hmoves.frame.sheetsTasks]
      | beat t =>
        obtain ⟨lock, -, -, rfl, rfl | rfl⟩ := beat_eq_some hmove
        · exact h _ hc
        · exact (h _ hc).of_tasks rfl rfl rfl fun _ => rfl

theorem records_of_run {sheetsTaskId : SheetsTaskId} {labels : List RunLabel}
    (hr : exec (RunLabel.step newURL clock) (w, ⟨.find sheetsTaskId, none⟩) labels = some s)
    (hover : (ProjectLock.Check.sheets s.2.call).over) :
    Records newURL clock (w, ⟨.find sheetsTaskId, none⟩) s labels := by
  intro hserved r reason hcall hthrew
  have hfailing : ∀ r, s.2.call = .body r → Failing s.1 r :=
    exec_invariant_of_meets (I := fun s => ∀ r, s.2.call = .body r → Failing s.1 r)
      (fun _ _ _ h hl hs => failing_step h hl hs) (fun r hr => by cases hr) hserved hr
  rcases hfailing r hcall reason hthrew with hset | ⟨-, hfailed⟩
  · rw [hcall, ProjectLock.Check.over, hset] at hover
    cases hover
  · exact hfailed

theorem sound_step (h : (ProjectLock.Check.sheets s.2.call).Sound)
    (hs : l.step newURL clock s = some s') : (ProjectLock.Check.sheets s'.2.call).Sound := by
  cases l with
  | others w =>
    cases hs
    exact h
  | move a =>
    obtain ⟨⟨w', c'⟩, hm, rfl⟩ := Option.map_eq_some_iff.mp hs
    have hmove : ProjectLock.Label.step newURL clock (s.1, .sheets s.2.call) (.move (.sheets a)) =
        some (w', .sheets c') := by
      rw [ProjectLock.Label.step, ProjectLock.Check.move, hm]
      rfl
    exact ProjectLock.Check.Sound.step (s := (s.1, .sheets s.2.call)) h hmove

theorem outcome_eq_some {outcome : Except String Unit} (h : s.2.outcome = some outcome) :
    (ProjectLock.Check.sheets s.2.call).over ∧ (outcome = .ok () ↔ s.2.escaping = none) := by
  unfold Promise.outcome at h
  split at h
  · rename_i hover
    obtain rfl := Option.some.inj h
    refine ⟨hover, ?_⟩
    cases s.2.escaping <;> simp
  · cases h

/-- Whatever the calls of `run` are answered and whatever others write meanwhile, `run` comes to an
end.  It then has resolved, with a failure of its body recorded, exactly when neither the read of the
task, nor the lock, nor the second read in `catch` has rejected. -/
theorem run_resolves_iff (newURL : UrlParser) (clock : LocalClock) (w : World)
    (sheetsTaskId : SheetsTaskId) {labels : List RunLabel}
    (hr : exec (RunLabel.step newURL clock) (w, ⟨.find sheetsTaskId, none⟩) labels = some s) :
    (∀ outcome, s.2.outcome = some outcome →
      ((outcome = .ok () ∧ Records newURL clock (w, ⟨.find sheetsTaskId, none⟩) s labels) ↔
        Meets (RunLabel.step newURL clock) Handled (w, ⟨.find sheetsTaskId, none⟩) labels)) ∧
    (s.2.outcome = none → ∀ turn, ∃ a, ProjectLock.Act.Answered turn (.sheets a) ∧
      (RunLabel.step newURL clock s (.move a)).isSome) ∧
    WellFounded (ProjectLock.Advances newURL clock) := by
  refine ⟨fun outcome houtcome => ?_, fun hpending turn => ?_,
    ProjectLock.advances_wellFounded newURL clock⟩
  · obtain ⟨hover, hok⟩ := outcome_eq_some houtcome
    rw [hok, escaping_iff hr]
    exact ⟨fun h => h.1.2, fun h => ⟨⟨rfl, h⟩, records_of_run hr hover⟩⟩
  · have hstart : (ProjectLock.Check.sheets (.find sheetsTaskId)).Sound :=
      ProjectLock.Check.Sound.start (.sheets sheetsTaskId)
    have hsound : (ProjectLock.Check.sheets s.2.call).Sound :=
      exec_invariant (I := fun s => (ProjectLock.Check.sheets s.2.call).Sound)
        (fun _ _ _ h hs => sound_step h hs) hstart hr
    have hover : (ProjectLock.Check.sheets s.2.call).over = false := by
      rw [Bool.eq_false_iff]
      intro hover
      simp [Promise.outcome, hover] at hpending
    obtain ⟨a, hanswered, hgoes⟩ := hsound.goes_on hover newURL clock turn
    cases a with
    | manual a => exact absurd (hgoes s.1) Bool.false_ne_true
    | sheets a =>
      have hmove := hgoes s.1
      rw [ProjectLock.Check.move, Option.isSome_map] at hmove
      exact ⟨a, hanswered, by simpa [RunLabel.step, Promise.move] using hmove⟩

def brokenLabels : List RunLabel :=
  [.move (.main {}), .move (.main { token := "t" }),
    .move (.main { rejects := true, message := "unreachable" }), .move (.main { now := 7 }),
    .move (.main {}), .move (.main {}), .move (.main {}), .move (.main { rejects := true })]

theorem run_resolves_sample :
    ∃ s, exec (RunLabel.step Crawler.exampleURL exampleClock) (exampleWorld, ⟨.find "s", none⟩)
        brokenLabels = some s ∧ s.2.outcome = some (.ok ()) ∧
      Records Crawler.exampleURL exampleClock (exampleWorld, ⟨.find "s", none⟩) s brokenLabels := by
  obtain ⟨s, hs, hover⟩ := Foundations.exists_of_any (P := fun s => s.2.outcome.isSome)
    (s := exec (RunLabel.step Crawler.exampleURL exampleClock) (exampleWorld, ⟨.find "s", none⟩)
      brokenLabels) (by decide +kernel)
  obtain ⟨outcome, houtcome⟩ := Option.isSome_iff_exists.mp hover
  obtain ⟨rfl, hrecords⟩ := ((run_resolves_iff Crawler.exampleURL exampleClock exampleWorld "s" hs).1
    outcome houtcome).mpr (by decide +kernel)
  exact ⟨s, hs, houtcome, hrecords⟩

/-- The database comes back in `catch` for the statement that records the failure, and is gone again
at the read after it. -/
theorem rejects_from_catch :
    ∃ s, exec (RunLabel.step Crawler.exampleURL exampleClock) (exampleWorld, ⟨.find "s", none⟩)
        [.move (.main {}), .move (.main { token := "t" }),
          .move (.main { rejects := true, message := "unreachable" }), .move (.main { now := 7 }),
          .move (.main { rejects := true, message := "unreachable" }), .move (.main {}),
          .move (.main {})] = some s ∧
      s.2.outcome = some (.error "unreachable") := by
  refine Foundations.exists_of_any ?_
  decide +kernel

end Laws

end LinkBulker.Sheets
