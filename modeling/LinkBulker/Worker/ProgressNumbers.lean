import LinkBulker.Worker.DispatchLaws
import LinkBulker.Worker.LinkRows

/-! The numbers in the events of a bulk check. -/

namespace LinkBulker.Dispatch

open Foundations Db Shared Crawler LinkRepository SingleLink Worker
open ProjectLock (Act Check Steps steps_of_move)

variable {newURL : UrlParser} {clock : Sheets.LocalClock} {owner : LinkId → LinkInput}
  {w w' : World} {db db' : Database} {ids : List LinkId}

section Counts

theorem countP_add_le {α : Type} {p q r : α → Bool} {xs : List α} (hp : ∀ x ∈ xs, p x → r x)
    (hq : ∀ x ∈ xs, q x → r x) (hdisj : ∀ x ∈ xs, p x → ¬ q x) :
    xs.countP p + xs.countP q ≤ xs.countP r := by
  induction xs with
  | nil => exact Nat.le_refl _
  | cons x xs ih =>
    have hrest := ih (fun y hy => hp y (List.mem_cons_of_mem x hy))
      (fun y hy => hq y (List.mem_cons_of_mem x hy))
      (fun y hy => hdisj y (List.mem_cons_of_mem x hy))
    have hp := hp x List.mem_cons_self
    have hq := hq x List.mem_cons_self
    have hdisj := hdisj x List.mem_cons_self
    simp only [List.countP_cons]
    split <;> split <;> split <;> first | omega | grind

theorem countP_le_add {α : Type} {p q r : α → Bool} {xs : List α}
    (h : ∀ x ∈ xs, p x → q x ∨ r x) : xs.countP p ≤ xs.countP q + xs.countP r := by
  induction xs with
  | nil => exact Nat.le_refl _
  | cons x xs ih =>
    have hrest := ih fun y hy => h y (List.mem_cons_of_mem x hy)
    have h := h x List.mem_cons_self
    simp only [List.countP_cons]
    split <;> split <;> split <;> first | omega | grind

def rechecked (db : Database) (ids : List LinkId) : ℕ :=
  db.links.rows.countP fun l =>
    decide (l.id ∈ ids) && l.linkFound == some true && (l.status == .QUEUED || l.status == .CHECKING)

structure Plausible (db : Database) (ids : List LinkId) (counts : ProgressCounts) : Prop where
  errors_le : counts.errors ≤ counts.processed
  processed_le : counts.processed ≤ counts.total
  total_le : counts.found + counts.errors ≤ counts.total
  rechecked_le : counts.found + counts.errors ≤ counts.processed + rechecked db ids

theorem total_getProgressCounts : (getProgressCounts db ids).total = ids.length := by
  unfold getProgressCounts
  split
  · rename_i h
    exact h.symm
  · rfl

theorem plausible_counts (hdb : ∀ l ∈ db.links.rows, Sound l) :
    Plausible db ids (getProgressCounts db ids) := by
  unfold getProgressCounts
  split
  · exact ⟨Nat.le_refl _, Nat.zero_le _, Nat.zero_le _, Nat.zero_le _⟩
  · have hsnap := db.links.countP_mem_le ids
    refine ⟨Nat.le_add_left _ _, ?_, ?_, ?_⟩
    · refine le_trans (countP_add_le ?_ ?_ ?_) hsnap <;> grind
    · refine le_trans (countP_add_le ?_ ?_ ?_) hsnap
      · grind
      · grind
      · intro l hl hfound herr
        have := hdb l hl
        grind [Sound]
    · have hle : (progressCounts db (fun l => decide (l.id ∈ ids)) ids.length).found ≤
          db.links.rows.countP (fun l => decide (l.id ∈ ids) && l.status == .DONE) +
            rechecked db ids := by
        refine countP_le_add fun l hl hfound => ?_
        have := hdb l hl
        grind [Sound]
      have hproc : (progressCounts db (fun l => decide (l.id ∈ ids)) ids.length).processed =
        db.links.rows.countP (fun l => decide (l.id ∈ ids) && l.status == .DONE) +
          (progressCounts db (fun l => decide (l.id ∈ ids)) ids.length).errors := rfl
      omega

end Counts

section Events

variable {s₀ s s' : State} {as : List (Label newURL)} {l : Label newURL} {t : Turn}

def Counted (clock : Sheets.LocalClock) (owner : LinkId → LinkInput) (s₀ : State)
    (as : List (Label newURL)) (p : ProjectId) (counts : ProgressCounts) : Prop :=
  ∃ before i a s₁ h, before ++ [.work i a] <+: as ∧ exec (step clock owner) s₀ before = some s₁ ∧
    s₁.checks[i]? = some (.manual h) ∧ h.pc.counting ∧ h.job.projectId = p ∧
    counts = getProgressCounts s₁.world.db h.job.linkIds ∧
    Plausible s₁.world.db h.job.linkIds counts

def Told (clock : Sheets.LocalClock) (owner : LinkId → LinkInput) (s₀ : State)
    (as : List (Label newURL)) : ProgressEvent → Prop
  | .progress p counts => Counted clock owner s₀ as p counts
  | .done p total found errors =>
    ∃ processed, Counted clock owner s₀ as p ⟨total, processed, found, errors⟩
  | _ => True

def Tells (clock : Sheets.LocalClock) (owner : LinkId → LinkInput) (s₀ : State)
    (as : List (Label newURL)) (h : ManualCheck.Handle) : Prop :=
  match h.pc with
  | .publishProgress _ counts | .publishDone counts =>
    Counted clock owner s₀ as h.job.projectId { counts with total := h.job.linkIds.length }
  | _ => True

theorem told_publish {event : ProgressEvent} (hev : ∀ e ∈ w.published, Told clock owner s₀ as e)
    (h : Told clock owner s₀ as event) :
    ∀ e ∈ (w.publishNow t event).published, Told clock owner s₀ as e := by
  intro e he
  rcases mem_publishNow he with he | rfl
  · exact hev e he
  · exact h

theorem told_manual {h h' : ManualCheck.Handle} (hs : ManualCheck.Step w h t w' h')
    (hcount : h.pc.counting →
      Counted clock owner s₀ as h.job.projectId (getProgressCounts w.db h.job.linkIds))
    (htells : Tells clock owner s₀ as h) (hev : ∀ e ∈ w.published, Told clock owner s₀ as e) :
    Tells clock owner s₀ as h' ∧ ∀ e ∈ w'.published, Told clock owner s₀ as e := by
  unfold Tells at htells
  cases hs with
  | counted hpc | countedAll hpc =>
    have hcounted := hcount (by rw [hpc]; rfl)
    refine ⟨?_, hev⟩
    have htotal : (getProgressCounts w.db h.job.linkIds).total = h.job.linkIds.length :=
      total_getProgressCounts
    simpa only [ManualCheck.Handle.at_, Tells, ← htotal] using hcounted
  | toldProgress hpc =>
    rw [hpc] at htells
    exact ⟨trivial, told_publish hev htells⟩
  | toldDone hpc =>
    rw [hpc] at htells
    exact ⟨trivial, told_publish hev ⟨_, htells⟩⟩
  | toldLocked hpc | toldUnlocked hpc => exact ⟨trivial, told_publish hev trivial⟩
  | queued hpc | next hpc =>
    refine ⟨?_, hev⟩
    unfold ManualCheck.Handle.loop
    split <;> trivial
  | _ => exact ⟨trivial, hev⟩

theorem told_moves {id : LinkId} {pc pc' : SingleLink.Pc} (hm : Moves newURL w id t pc w' pc')
    (hev : ∀ e ∈ w.published, Told clock owner s₀ as e) :
    ∀ e ∈ w'.published, Told clock owner s₀ as e := by
  cases hm with
  | checking | published => exact told_publish hev trivial
  | _ => exact hev

theorem told_sheets {r r' : Sheets.Run} {t : Sheets.SheetsTurn}
    (hs : Sheets.Step newURL clock w r t w' r')
    (hev : ∀ e ∈ w.published, Told clock owner s₀ as e) :
    ∀ e ∈ w'.published, Told clock owner s₀ as e := by
  cases hs with
  | toldRunning hpc | toldProgress hpc | toldCompleted hpc | toldFailed hpc =>
    exact told_publish hev trivial
  | _ => exact hev

theorem Counted.append {p : ProjectId} {counts : ProgressCounts}
    (h : Counted clock owner s₀ as p counts) (l : Label newURL) :
    Counted clock owner s₀ (as ++ [l]) p counts := by
  obtain ⟨before, i, a, s₁, h, hpre, hrest⟩ := h
  exact ⟨before, i, a, s₁, h, hpre.trans (List.prefix_append ..), hrest⟩

theorem Told.append {e : ProgressEvent} (h : Told clock owner s₀ as e) (l : Label newURL) :
    Told clock owner s₀ (as ++ [l]) e := by
  cases e with
  | progress p counts => exact Counted.append h l
  | done p total found errors => exact h.imp fun _ h => h.append l
  | _ => trivial

theorem Tells.append {h : ManualCheck.Handle} (ht : Tells clock owner s₀ as h) (l : Label newURL) :
    Tells clock owner s₀ (as ++ [l]) h := by
  unfold Tells at ht ⊢
  split at ht
  · exact ht.append l
  · exact ht.append l
  · trivial

def Honest (clock : Sheets.LocalClock) (owner : LinkId → LinkInput) (s₀ : State)
    (as : List (Label newURL)) : Check → Prop
  | .manual h => Tells clock owner s₀ as h
  | .sheets _ => True

structure Tally (clock : Sheets.LocalClock) (owner : LinkId → LinkInput) (s₀ : State)
    (as : List (Label newURL)) (s : State) : Prop where
  sound : ∀ l ∈ s.world.db.links.rows, Sound l
  sane : AllSane s
  checks : ∀ c ∈ s.checks, Honest clock owner s₀ as c
  told : ∀ e ∈ s.world.published, Told clock owner s₀ as e

theorem Honest.append {c : Check} (h : Honest clock owner s₀ as c) (l : Label newURL) :
    Honest clock owner s₀ (as ++ [l]) c := by
  cases c with
  | manual h' => exact Tells.append h l
  | sheets c => trivial

theorem Honest.move {c c' : Check} {a : Act} (h : Honest clock owner s₀ as c)
    (hcount : ∀ h', c = .manual h' → h'.pc.counting →
      Counted clock owner s₀ as h'.job.projectId (getProgressCounts w.db h'.job.linkIds))
    (hev : ∀ e ∈ w.published, Told clock owner s₀ as e)
    (hs : Steps newURL clock w c a w' c') :
    Honest clock owner s₀ as c' ∧ ∀ e ∈ w'.published, Told clock owner s₀ as e := by
  cases hs with
  | manual hs => exact told_manual hs (hcount _ rfl) h hev
  | sheets hs => exact ⟨trivial, told_sheets hs hev⟩
  | manualChild hm | sheetsChild hm =>
    obtain ⟨_, _, -, -, hmoves, -⟩ := Batch.move_eq_some hm
    exact ⟨h, told_moves hmoves hev⟩
  | manualBeat hlock hw | sheetsBeat hlock hw => rcases hw with rfl | rfl <;> exact ⟨h, hev⟩
  | missing | found hfind => exact ⟨trivial, hev⟩

theorem Tally.append (h : Tally clock owner s₀ as s) (l : Label newURL) :
    Tally clock owner s₀ (as ++ [l]) s :=
  ⟨h.sound, h.sane, fun c hc => (h.checks c hc).append l, fun e he => (h.told e he).append l⟩

theorem Tally.start {locks : String → LockManager.Key} {time : ℤ}
    (hdb : ∀ l ∈ db.links.rows, Sound l) :
    Tally clock owner s₀ ([] : List (Label newURL)) (State.start db locks time) :=
  ⟨hdb, .start db locks time, fun _ hc => absurd hc List.not_mem_nil,
    fun _ he => absurd he List.not_mem_nil⟩

theorem Tally.counted (h : Tally clock owner s₀ as s) (hr : exec (step clock owner) s₀ as = some s)
    {i : ℕ} {h' : ManualCheck.Handle} (a : Act) (hget : s.checks[i]? = some (.manual h'))
    (hpc : h'.pc.counting) :
    Counted clock owner s₀ (as ++ [.work i a]) h'.job.projectId
      (getProgressCounts s.world.db h'.job.linkIds) :=
  ⟨as, i, a, s, h', List.prefix_refl _, hr, hget, hpc, rfl, rfl, plausible_counts h.sound⟩

theorem Tally.does {now : ℤ} (h : Tally clock owner s₀ as s)
    (hr : exec (step clock owner) s₀ as = some s) (hd : Does clock (s.at_ now) l s') :
    Tally clock owner s₀ (as ++ [l]) s' := by
  have hsane : AllSane (s.at_ now) := ⟨h.sane.checks, h.sane.singles⟩
  obtain ⟨hsane', hwritten⟩ := hsane.does hd
  have hsound := hwritten.sound h.sound
  have hlater := h.append l
  have joins {c : Check} (hc : Honest clock owner s₀ (as ++ [l]) c) :
      ∀ d ∈ s.checks ++ [c], Honest clock owner s₀ (as ++ [l]) d := by
    intro d hd
    rcases List.mem_append.mp hd with hd | hd
    · exact hlater.checks d hd
    · exact List.mem_singleton.mp hd ▸ hc
  cases hd with
  | asked | bulk hget hm | run hget hm | refused | scheduled | recheck hget hm | created hdb
  | deleted | tookSingle hjob => exact ⟨hsound, hsane', hlater.checks, hlater.told⟩
  | tookManual hq => exact ⟨hsound, hsane', joins trivial, hlater.told⟩
  | tookSheets hjob => exact ⟨hsound, hsane', joins trivial, hlater.told⟩
  | @worked i a c c' world hget hm =>
    obtain ⟨hhonest, htold⟩ := (hlater.checks _ (List.mem_of_getElem? hget)).move
      (w := (s.at_ now).world) (fun h' hc hpc => h.counted hr a (hc ▸ hget) hpc) hlater.told
      (steps_of_move hm)
    exact ⟨hsound, hsane', Pool.forall_set hlater.checks hhonest, htold⟩
  | checked hget hm =>
    obtain ⟨-, hmoves⟩ := SingleLink.move_eq_some hm
    exact ⟨hsound, hsane', hlater.checks, told_moves hmoves hlater.told⟩

theorem told_of_run {locks : String → LockManager.Key} {time : ℤ}
    (hdb : ∀ l ∈ db.links.rows, Sound l)
    (hr : exec (step clock owner) (State.start db locks time) as = some s) :
    ∀ e ∈ s.world.published, Told clock owner (State.start db locks time) as e := by
  have hist := exec_history
    (P := fun as s => exec (step clock owner) (State.start db locks time) as = some s ∧
      Tally clock owner (State.start db locks time) as s) ⟨rfl, .start hdb⟩ ?_ hr
  · exact hist.2.told
  · rintro as s l s' ⟨hr, h⟩ hs
    refine ⟨exec_concat.mpr ⟨s, hr, hs⟩, ?_⟩
    obtain ⟨-, hd, -⟩ := step_eq_some hs
    exact h.does hr hd

/-- Any requests, jobs and failures in any order: the numbers of a progress event are those that its
job has counted over its snapshot at one moment, the errors are among the processed links and these
among all, and found links and errors are at most all, and more than the processed ones only by links
that were in a check again. -/
theorem progress_numbers_sane {locks : String → LockManager.Key} {time : ℤ}
    (hdb : ∀ l ∈ db.links.rows, Sound l)
    (hr : exec (step clock owner) (State.start db locks time) as = some s) :
    (∀ p counts, .progress p counts ∈ s.world.published →
      ∃ before i a s₁ h, before ++ [.work i a] <+: as ∧
        exec (step clock owner) (State.start db locks time) before = some s₁ ∧
        s₁.checks[i]? = some (.manual h) ∧ h.pc.counting ∧ h.job.projectId = p ∧
        counts = getProgressCounts s₁.world.db h.job.linkIds ∧
        counts.total = h.job.linkIds.length ∧ counts.errors ≤ counts.processed ∧
        counts.processed ≤ counts.total ∧ counts.found + counts.errors ≤ counts.total ∧
        counts.found + counts.errors ≤ counts.processed + rechecked s₁.world.db h.job.linkIds) ∧
    ∀ p total found errors, .done p total found errors ∈ s.world.published →
      found + errors ≤ total := by
  have htold := told_of_run hdb hr
  refine ⟨fun p counts he => ?_, fun p total found errors he => ?_⟩
  · obtain ⟨before, i, a, s₁, h, hpre, hbefore, hget, hpc, hp, hcounts, hplausible⟩ := htold _ he
    have htotal := (congrArg ProgressCounts.total hcounts).trans total_getProgressCounts
    obtain ⟨herrors, hprocessed, hall, hrechecked⟩ := hplausible
    exact ⟨before, i, a, s₁, h, hpre, hbefore, hget, hpc, hp, hcounts, htotal, herrors, hprocessed,
      hall, hrechecked⟩
  · obtain ⟨processed, before, i, a, s₁, h, -, -, -, -, -, -, hplausible⟩ := htold _ he
    exact hplausible.total_le

def recountLabels : List (Label exampleURL) :=
  bothAsked ++ children 6 100002 foundRun ++ checks 2 100003 foundRun ++ works 3 100004

theorem progress_numbers_sane_sample :
    ∃ s, exec (step Sheets.exampleClock fun id => (exampleLink id).input)
        (State.start oneLink (fun _ => none) 0) recountLabels = some s ∧
      ∀ p total found errors, .done p total found errors ∈ s.world.published →
        found + errors ≤ total := by
  obtain ⟨s, hs, -⟩ := exists_of_any (P := fun _ => True)
    (s := exec (step Sheets.exampleClock fun id => (exampleLink id).input)
      (State.start oneLink (fun _ => none) 0) recountLabels) (by decide +kernel)
  refine ⟨s, hs, (progress_numbers_sane (fun l hl => ?_) hs).2⟩
  rw [List.mem_singleton.mp hl]
  nofun

/-- A link that is found, none processed: it is in the recheck when the bulk job counts. -/
theorem recheck_counted_as_found :
    ∃ s, exec (step Sheets.exampleClock fun id => (exampleLink id).input)
        (State.start oneLink (fun _ => none) 0) recountLabels = some s ∧
      (∀ l ∈ oneLink.links.rows, Sound l) ∧
      ∃ p counts, .progress p counts ∈ s.world.published ∧
        ¬ counts.found + counts.errors ≤ counts.processed := by
  obtain ⟨s, hs, hmem⟩ := exists_of_any
    (P := fun s => .progress "p" ⟨1, 0, 1, 0⟩ ∈ s.world.published)
    (s := exec (step Sheets.exampleClock fun id => (exampleLink id).input)
      (State.start oneLink (fun _ => none) 0) recountLabels) (by decide +kernel)
  refine ⟨s, hs, fun l hl => ?_, _, _, hmem, by decide⟩
  rw [List.mem_singleton.mp hl]
  nofun

end Events

end LinkBulker.Dispatch
