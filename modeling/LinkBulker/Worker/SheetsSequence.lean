import LinkBulker.Worker.LockExclusion

/-! The runs of the sheets tasks of one project: their bodies never overlap, and a run either comes
to its end, where it leaves its time at the task, or turns back at a lock that another one holds. -/

namespace LinkBulker.Sheets

open Foundations Db Shared LinkRepository SingleLink Worker

variable {newURL : UrlParser} {clock : LocalClock} {w w' : World} {r r' : Run} {t : SheetsTurn}

def Pc.recorded : Pc → Bool
  | .refind _ | .publishCompleted .. | .refindFailed _ | .publishFailed .. | .clearFlag | .release
  | .ended => true
  | _ => false

def Pc.records : Pc → Bool
  | .setCompleted _ | .setFailed _ => true
  | _ => false

def taskKey (task : SheetsTask) : SheetsTaskId × ProjectId := (task.id, task.projectId)

theorem taskKey_setSheetsTaskStatusData (status : SheetsTaskStatus) (lastRunStatus : Option String)
    (now : ℤ) (task : SheetsTask) :
    taskKey (setSheetsTaskStatusData status lastRunStatus now task) = taskKey task := by
  cases status <;> rfl

theorem setSheetsTaskStatus_eq_some {db db' : Database} {id : SheetsTaskId}
    {status : SheetsTaskStatus} {lastRunStatus : Option String} {now : ℤ}
    (h : setSheetsTaskStatus db id status lastRunStatus now = some db') :
    (∃ task, db.sheetsTasks.find? id = some task ∧ db'.sheetsTasks.find? id =
        some (setSheetsTaskStatusData status lastRunStatus now task)) ∧
      db'.sheetsTasks.rows.map taskKey = db.sheetsTasks.rows.map taskKey := by
  obtain ⟨sheetsTasks, hupdate, rfl⟩ := Option.map_eq_some_iff.mp h
  obtain ⟨⟨task, htask, hid⟩, rfl⟩ := Table.update_eq_some.mp hupdate
  have hfind : db.sheetsTasks.find? id = some task := Table.find?_eq_some.mpr ⟨htask, hid⟩
  refine ⟨⟨task, hfind, ?_⟩, ?_⟩
  · rw [Table.find?_updateWhere, hfind, Option.map_some]
  · exact Table.map_updateWhere _ _ _ (setSheetsTaskStatusData_id status lastRunStatus now)
      (taskKey_setSheetsTaskStatusData status lastRunStatus now)

theorem setSheetsTaskStatus_isSome {db : Database} {id : SheetsTaskId} {task : SheetsTask}
    (status : SheetsTaskStatus) (lastRunStatus : Option String) (now : ℤ)
    (h : db.sheetsTasks.find? id = some task) :
    ∃ db', setSheetsTaskStatus db id status lastRunStatus now = some db' := by
  refine Option.isSome_iff_exists.mp ?_
  rw [setSheetsTaskStatus, Option.isSome_map, Table.update, if_pos (by rw [h]; rfl)]
  rfl

theorem recorded_of_main (hm : r.main newURL clock w t = some (w', r'))
    (hserved : ∀ reason, r.pc = .setFailed reason → t.rejects = false) {task : SheetsTask}
    (htask : w.db.sheetsTasks.find? r.task.id = some task) (hrec : r'.pc.recorded)
    (hno : r.pc.recorded = false) :
    r.pc.records ∧
      ∃ task, w'.db.sheetsTasks.find? r.task.id = some task ∧ task.lastRunAt = some t.now := by
  have written {status : SheetsTaskStatus} {lastRunStatus : Option String} {db : Database}
      (hset : setSheetsTaskStatus w.db r.task.id status lastRunStatus t.now = some db)
      (hrun : ∀ task, (setSheetsTaskStatusData status lastRunStatus t.now task).lastRunAt =
        some t.now) :
      ∃ task, db.sheetsTasks.find? r.task.id = some task ∧ task.lastRunAt = some t.now := by
    obtain ⟨⟨task, -, hfind⟩, -⟩ := setSheetsTaskStatus_eq_some hset
    exact ⟨_, hfind, hrun task⟩
  cases main_eq_some hm with
  | completed hpc hset => exact ⟨by rw [hpc]; rfl, written hset fun _ => rfl⟩
  | failedSet hpc hset => exact ⟨by rw [hpc]; rfl, written hset fun _ => rfl⟩
  | failedUnset hpc =>
    rename_i reason
    obtain ⟨db, hset⟩ := setSheetsTaskStatus_isSome .FAILED (some reason) t.now htask
    simp only [Run.main, hpc, hserved reason hpc, hset, Bool.false_eq_true, if_false] at hm
    have hdb : db = w.db := congrArg World.db (Prod.mk.inj (Option.some.inj hm)).1
    exact ⟨by rw [hpc]; rfl, hdb ▸ written hset fun _ => rfl⟩
  | pairedAll hpc hlink | toldProgress hpc =>
    unfold Run.loop at hrec
    split at hrec <;> cases hrec
  | wroteData hpc =>
    dsimp only at hrec
    split at hrec <;> cases hrec
  | refound hpc | toldCompleted hpc | refoundFailed hpc | unfoundFailed hpc | toldFailed hpc
  | lowered hpc | lowerFailed hpc | released hpc | releaseFailed hpc =>
    rw [hpc] at hno
    cases hno
  | _ => cases hrec

theorem held_of_skip (hm : r.main newURL clock w t = some (w', r'))
    (hserved : r.pc = .acquire → t.rejects = false) (hskip : r'.pc = .skipped) :
    r.pc = .acquire ∧ ∃ token, (w.locks r.lockKey).read t.now = some token := by
  have hacquire : r.pc = .acquire := by
    cases main_eq_some hm with
    | skip hpc => exact hpc
    | pairedAll hpc hlink | toldProgress hpc =>
      unfold Run.loop at hskip
      split at hskip <;> cases hskip
    | wroteData hpc =>
      dsimp only at hskip
      split at hskip <;> cases hskip
    | _ => cases hskip
  refine ⟨hacquire, ?_⟩
  cases hread : (w.locks r.lockKey).read t.now with
  | some token => exact ⟨token, rfl⟩
  | none =>
    have hpos : 0 < PROJECT_LOCK_TTL_MS := by decide
    have hfree := @LockManager.acquire_of_free _ t.now ⟨t.token, PROJECT_LOCK_TTL_MS⟩ hpos hread
    simp only [Run.main, hacquire, hserved hacquire, hfree] at hm
    cases hm
    cases hskip

theorem Step.tasks (hs : Step newURL clock w r t w' r') :
    w'.db.sheetsTasks.rows.map taskKey = w.db.sheetsTasks.rows.map taskKey := by
  cases hs with
  | running hpc hset | completed hpc hset | failedSet hpc hset =>
    exact (setSheetsTaskStatus_eq_some hset).2
  | raised hpc hset | lowered hpc hset =>
    obtain ⟨-, rfl⟩ := updateProject_eq_some.mp hset
    rfl
  | replaced hpc hset =>
    unfold replaceSheetsLinks at hset
    dsimp only at hset
    split at hset
    · split at hset
      · obtain ⟨links, -, rfl⟩ := Option.map_eq_some_iff.mp hset
        rfl
      · cases hset
    · cases hset
      rfl
  | marked hpc hlink hvr hsave => rw [(saveResult_rows hsave).2.1]
  | toldRunning hpc | toldProgress hpc | toldCompleted hpc | toldFailed hpc => rw [publishNow_db]
  | _ => rfl

end LinkBulker.Sheets

namespace LinkBulker.ProjectLock

open Foundations Db Shared LinkRepository SingleLink Worker
open Crawler (exampleURL)
open Sheets (taskKey)

variable {newURL : UrlParser} {clock : Sheets.LocalClock} {w w' : World} {p : ProjectId}
  {s s' s₀ : Fleet} {a : ℕ × Act} {c c' : Check} {as : List (ℕ × Act)}

/-- The awaits of `run` whose failure it neither catches nor records: the read of the task, the two
of the lock, and the statement that records a failure. -/
def Check.unrecorded : Check → Bool
  | .sheets (.find _) => true
  | .sheets (.body r) =>
    match r.pc with
    | .acquire | .setFailed _ | .release => true
    | _ => false
  | _ => false

def Sound (s : Fleet) (a : ℕ × Act) : Prop :=
  ∀ c ∈ s.2[a.1]?, c.unrecorded → a.2.main → a.2.turn.rejects = false

instance (s : Fleet) (a : ℕ × Act) : Decidable (Sound s a) :=
  inferInstanceAs (Decidable (∀ c ∈ s.2[a.1]?, _ → _ → _))

def Recorded (newURL : UrlParser) (clock : Sheets.LocalClock) (s₀ : Fleet) (as : List (ℕ × Act))
    (i : ℕ) (sheetsTaskId : SheetsTaskId) : Prop :=
  ∃ before a s₁ s₂ r task, before ++ [(i, a)] <+: as ∧
    exec (step newURL clock) s₀ before = some s₁ ∧ step newURL clock s₁ (i, a) = some s₂ ∧
    s₁.2[i]? = some (.sheets (.body r)) ∧ r.task.id = sheetsTaskId ∧ r.pc.records ∧
    s₂.1.db.sheetsTasks.find? sheetsTaskId = some task ∧ task.lastRunAt = some a.turn.now

def FoundLocked (newURL : UrlParser) (clock : Sheets.LocalClock) (s₀ : Fleet)
    (as : List (ℕ × Act)) (i : ℕ) (p : ProjectId) : Prop :=
  ∃ before t s₁ r, before ++ [(i, .sheets (.main t))] <+: as ∧
    exec (step newURL clock) s₀ before = some s₁ ∧ s₁.2[i]? = some (.sheets (.body r)) ∧
    r.pc = .acquire ∧ ∃ other ∈ s₁.2, other.inside .sheets p

theorem Recorded.append {i : ℕ} {id : SheetsTaskId} (h : Recorded newURL clock s₀ as i id)
    (a : ℕ × Act) : Recorded newURL clock s₀ (as ++ [a]) i id := by
  obtain ⟨before, b, s₁, s₂, r, task, hpre, hrest⟩ := h
  exact ⟨before, b, s₁, s₂, r, task, hpre.trans (List.prefix_append ..), hrest⟩

theorem FoundLocked.append {i : ℕ} (h : FoundLocked newURL clock s₀ as i p) (a : ℕ × Act) :
    FoundLocked newURL clock s₀ (as ++ [a]) i p := by
  obtain ⟨before, t, s₁, r, hpre, hrest⟩ := h
  exact ⟨before, t, s₁, r, hpre.trans (List.prefix_append ..), hrest⟩

theorem manual_tasks {h h' : ManualCheck.Handle} {t : Turn} (hs : ManualCheck.Step w h t w' h') :
    w'.db.sheetsTasks = w.db.sheetsTasks := by
  cases hs with
  | raised hpc hset | lowered hpc hset =>
    obtain ⟨-, rfl⟩ := updateProject_eq_some.mp hset
    rfl
  | queued hpc =>
    dsimp only [markManyStatus]
    split <;> rfl
  | toldLocked hpc | toldProgress hpc | toldDone hpc | toldUnlocked hpc => rw [publishNow_db]
  | _ => rfl

theorem Check.tasks {a : Act} (hm : c.move newURL clock w a = some (w', c')) :
    w'.db.sheetsTasks.rows.map taskKey = w.db.sheetsTasks.rows.map taskKey := by
  have child {b b' : Batch} {k : ℕ} {t : Turn} (hmove : b.move newURL w k t = some (w', b')) :
      w'.db.sheetsTasks.rows.map taskKey = w.db.sheetsTasks.rows.map taskKey := by
    obtain ⟨d, d', -, -, hmoves, -⟩ := Batch.move_eq_some hmove
    rw [hmoves.frame.sheetsTasks]
  cases steps_of_move hm with
  | manual hs => rw [manual_tasks hs]
  | sheets hs => exact hs.tasks
  | manualChild hb | sheetsChild hb => exact child hb
  | manualBeat hlock hw | sheetsBeat hlock hw => rcases hw with rfl | rfl <;> rfl
  | missing | found hfind => rfl

inductive Tracked (newURL : UrlParser) (clock : Sheets.LocalClock) (s₀ : Fleet)
    (as : List (ℕ × Act)) (i : ℕ) (id : SheetsTaskId) (p : ProjectId) : Check → Prop
  | waits : Tracked newURL clock s₀ as i id p (.sheets (.find id))
  | runs {r : Sheets.Run} (hid : r.task.id = id) (hproject : r.task.projectId = p)
    (hskip : r.pc = .skipped → FoundLocked newURL clock s₀ as i p)
    (hrec : r.pc.recorded → Recorded newURL clock s₀ as i id) :
    Tracked newURL clock s₀ as i id p (.sheets (.body r))

theorem Tracked.append {i : ℕ} {id : SheetsTaskId} (h : Tracked newURL clock s₀ as i id p c)
    (a : ℕ × Act) : Tracked newURL clock s₀ (as ++ [a]) i id p c := by
  cases h with
  | waits => exact .waits
  | runs hid hproject hskip hrec =>
    exact .runs hid hproject (fun h => (hskip h).append a) fun h => (hrec h).append a

theorem Tracked.over {i : ℕ} {id : SheetsTaskId} (h : Tracked newURL clock s₀ as i id p c)
    (hover : c.over) : Recorded newURL clock s₀ as i id ∨ FoundLocked newURL clock s₀ as i p := by
  cases h with
  | waits => cases hover
  | runs hid hproject hskip hrec =>
    rename_i r
    have hover : r.pc = .ended ∨ r.pc = .skipped := by simpa [Check.over] using hover
    rcases hover with hpc | hpc
    · exact .inl (hrec (by rw [hpc]; rfl))
    · exact .inr (hskip hpc)

theorem find?_of_mem_keys {db : Database} {id : SheetsTaskId}
    (h : (id, p) ∈ db.sheetsTasks.rows.map taskKey) :
    ∃ task, db.sheetsTasks.find? id = some task ∧ task.projectId = p := by
  obtain ⟨task, htask, hkey⟩ := List.mem_map.mp h
  obtain ⟨rfl, rfl⟩ := Prod.mk.inj hkey
  exact ⟨task, Table.find?_eq_some.mpr ⟨htask, rfl⟩, rfl⟩

theorem clock_le_of_step (hs : step newURL clock s a = some s') : s.1.clock ≤ a.2.turn.now := by
  unfold step at hs
  split at hs
  · assumption
  · cases hs

theorem Tracked.find {i : ℕ} {id : SheetsTaskId} {b : Act}
    (hmem : (id, p) ∈ w.db.sheetsTasks.rows.map taskKey)
    (hserved : b.main → b.turn.rejects = false)
    (hm : (Check.sheets (.find id)).move newURL clock w b = some (w', c')) :
    Tracked newURL clock s₀ as i id p c' := by
  obtain ⟨task, hfind, hproject⟩ := find?_of_mem_keys hmem
  cases b with
  | manual b => cases hm
  | sheets b =>
    cases b with
    | main t =>
      have hno : t.rejects = false := hserved rfl
      simp only [Check.move, Sheets.Call.move, hno, findSheetsTaskById, hfind] at hm
      cases hm
      exact .runs (Table.find?_eq_some.mp hfind).2 hproject (fun h => by cases h)
        fun h => by cases h
    | child k t => cases hm
    | beat t => cases hm

theorem Tracked.step {i : ℕ} {id : SheetsTaskId} {b : Act}
    (h : Tracked newURL clock s₀ as i id p c) (hget : s.2[i]? = some c)
    (hg : Guarded .sheets p s.1 s.2) (hmem : (id, p) ∈ s.1.db.sheetsTasks.rows.map taskKey)
    (hsound : Sound s (i, b)) (hr : exec (ProjectLock.step newURL clock) s₀ as = some s)
    (hs : ProjectLock.step newURL clock s (i, b) = some s')
    (hm : c.move newURL clock { s.1 with clock := b.turn.now } b = some (s'.1, c')) :
    Tracked newURL clock s₀ (as ++ [(i, b)]) i id p c' := by
  have happend := h.append (i, b)
  cases h with
  | waits => exact .find (w := { s.1 with clock := b.turn.now }) hmem (hsound _ hget rfl) hm
  | runs hid hproject hskip hrec =>
    rename_i r
    cases b with
    | manual b => cases hm
    | sheets b =>
      simp only [Check.move, Sheets.Call.move, Option.map_eq_some_iff, Prod.exists,
        Prod.mk.injEq] at hm
      obtain ⟨w₁, c₁, ⟨w₂, r', hmove, rfl, rfl⟩, hw, rfl⟩ := hm
      cases b with
      | main t =>
        have htask := (Sheets.main_eq_some hmove).task
        refine .runs (htask ▸ hid) (htask ▸ hproject) (fun hpc => ?_) fun hpc => ?_
        · obtain ⟨hacquire, token, hread⟩ := Sheets.held_of_skip hmove
            (fun hpc => hsound _ hget (by simp [Check.unrecorded, hpc]) rfl) hpc
          obtain ⟨other, hother, v, hv, hholds, -⟩ :=
            hg t.now token (clock_le_of_step hs) (hproject ▸ hread)
          exact ⟨as, t, s, r, List.prefix_refl _, hr, hget, hacquire, other, hother,
            Check.inside_iff.mpr ⟨v, hv, hholds⟩⟩
        · by_cases hold : r.pc.recorded
          · exact (hrec hold).append _
          · obtain ⟨task, hfind, -⟩ := find?_of_mem_keys hmem
            obtain ⟨hrecords, task', hfind', hrun⟩ := Sheets.recorded_of_main hmove
              (fun reason hpc => hsound _ hget (by simp [Check.unrecorded, hpc]) rfl)
              (hid ▸ hfind) hpc (Bool.eq_false_iff.mpr hold)
            exact ⟨as, _, s, s', r, task', List.prefix_refl _, hr, hs, hget, hid, hrecords,
              hw ▸ hid ▸ hfind', hrun⟩
      | child k t =>
        obtain ⟨b, -, rfl⟩ := Sheets.child_eq_some hmove
        cases happend with
        | runs hid hproject hskip hrec => exact .runs hid hproject hskip hrec
      | beat t =>
        obtain ⟨lock, -, -, rfl, -⟩ := Sheets.beat_eq_some hmove
        exact happend

theorem unrecorded_of_lowered {v : View} (hv : v ∈ c.viewOf .sheets p) (hstage : v.stage = .lowered) :
    c.unrecorded := by
  obtain ⟨hview, hkind, -⟩ := mem_viewOf.mp hv
  cases c with
  | manual h =>
    obtain rfl := Option.some.inj hview
    cases hkind
  | sheets call =>
    cases call with
    | find id => rfl
    | missing => cases hview
    | body r =>
      obtain rfl := Option.some.inj hview
      have hstage : sheetsStage r.pc = .lowered := hstage
      cases hpc : r.pc with
      | release => simp [Check.unrecorded, hpc]
      | _ => rw [hpc] at hstage; cases hstage

theorem tracked_of_run {requests : List Request} {i : ℕ} {id : SheetsTaskId}
    (hfree : w.locks (REDIS_KEYS.projectSheetsLock p) = none)
    (hkey : (id, p) ∈ w.db.sheetsTasks.rows.map taskKey) (hreq : requests[i]? = some (.sheets id))
    (hr : exec (ProjectLock.step newURL clock) (w, requests.map Request.start) as = some s)
    (hsound : Meets (ProjectLock.step newURL clock) Sound (w, requests.map Request.start) as) :
    ∃ c, s.2[i]? = some c ∧ Tracked newURL clock (w, requests.map Request.start) as i id p c := by
  have hist := exec_history (P := fun as s =>
    exec (ProjectLock.step newURL clock) (w, requests.map Request.start) as = some s ∧
      (Meets (ProjectLock.step newURL clock) Sound (w, requests.map Request.start) as →
        Guarded .sheets p s.1 s.2 ∧ (id, p) ∈ s.1.db.sheetsTasks.rows.map taskKey ∧
          ∃ c, s.2[i]? = some c ∧
            Tracked newURL clock (w, requests.map Request.start) as i id p c)) ?_ ?_ hr
  · exact (hist.2 hsound).2.2
  · refine ⟨rfl, fun _ => ⟨.start hfree _, hkey, .sheets (.find id), ?_, .waits⟩⟩
    rw [List.getElem?_map, hreq]
    rfl
  · rintro as s a s' ⟨hr, hist⟩ hs
    refine ⟨exec_concat.mpr ⟨s, hr, hs⟩, fun hmeets => ?_⟩
    obtain ⟨hbefore, hlast⟩ := Meets.concat.mp hmeets
    obtain ⟨hg, hmem, d, hd, htracked⟩ := hist hbefore
    obtain ⟨c, c', hget, hmove, hset⟩ := step_eq_some hs
    refine ⟨?_, Check.tasks hmove ▸ hmem, ?_⟩
    · have hwait : Guarded .sheets p { s.1 with clock := a.2.turn.now } s.2 :=
        hg.mono (clock_le_of_step hs) rfl
      rw [hset]
      exact hwait.move hget rfl
        (fun v hv hstage => hlast s hr c hget (unrecorded_of_lowered hv hstage)) hmove
    · by_cases hi : a.1 = i
      · subst hi
        obtain rfl := Option.some.inj (hd.symm.trans hget)
        exact ⟨c', hset ▸ Pool.getElem?_set_self hget,
          htracked.step hget hg hmem (hlast s hr) hr hs hmove⟩
      · refine ⟨d, ?_, htracked.append a⟩
        rw [hset, List.getElem?_set_ne hi, hd]

/-- Sheets tasks of one project take turns: two bodies never overlap, and the run that was asked for
a task has left its time there when it is over, unless it came while another one held the lock. -/
theorem sheets_runs_take_turns {requests : List Request}
    (hfree : w.locks (REDIS_KEYS.projectSheetsLock p) = none)
    (hr : exec (ProjectLock.step newURL clock) (w, requests.map Request.start) as = some s)
    (hexpire : Meets (ProjectLock.step newURL clock) (Unexpired .sheets p)
      (w, requests.map Request.start) as)
    (hsound : Meets (ProjectLock.step newURL clock) Sound (w, requests.map Request.start) as) :
    (∀ before s₁, before <+: as →
      exec (ProjectLock.step newURL clock) (w, requests.map Request.start) before = some s₁ →
      s₁.2.countP (Check.inside .sheets p) ≤ 1) ∧
    ∀ (i : ℕ) id task c, requests[i]? = some (.sheets id) →
      w.db.sheetsTasks.find? id = some task → task.projectId = p → s.2[i]? = some c → c.over →
      Recorded newURL clock (w, requests.map Request.start) as i id ∨
        FoundLocked newURL clock (w, requests.map Request.start) as i p := by
  refine ⟨?_, fun i id task c hreq htask hproject hget hover => ?_⟩
  · rintro before s₁ ⟨after, rfl⟩ hbefore
    have halone := (exclusive_of_run (hexpire.of_append hbefore).1 hbefore).places.alone
    rw [List.count, List.countP_map] at halone
    simpa [Function.comp_def] using halone
  · have hkey : (id, p) ∈ w.db.sheetsTasks.rows.map taskKey := by
      obtain ⟨hmem, rfl⟩ := Table.find?_eq_some.mp htask
      exact List.mem_map.mpr ⟨task, hmem, by rw [taskKey, hproject]⟩
    obtain ⟨d, hd, htracked⟩ := tracked_of_run hfree hkey hreq hr hsound
    obtain rfl := Option.some.inj (hd.symm.trans hget)
    exact htracked.over hover

def exampleTasks : World where
  db := exampleDatabase .empty ⟨[Sheets.exampleTask, { Sheets.exampleTask with id := "t" }], by decide⟩

def sheetTurns (i n : ℕ) : List (ℕ × Act) :=
  List.replicate n (i, .sheets (.main { now := 5, token := "t", sheets := [⟨some 0, some "Sheet1"⟩] }))

/-- The second task's run comes while the first one has the lock: it is over, and its task has not
been run. -/
theorem second_run_skipped :
    ∃ s, exec (step exampleURL Sheets.exampleClock)
        (exampleTasks, [.sheets "s", .sheets "t"].map Request.start)
        (sheetTurns 0 2 ++ sheetTurns 1 2 ++ sheetTurns 0 15) = some s ∧
      Meets (step exampleURL Sheets.exampleClock) (Unexpired .sheets "p")
        (exampleTasks, [.sheets "s", .sheets "t"].map Request.start)
        (sheetTurns 0 2 ++ sheetTurns 1 2 ++ sheetTurns 0 15) ∧
      Meets (step exampleURL Sheets.exampleClock) Sound
        (exampleTasks, [.sheets "s", .sheets "t"].map Request.start)
        (sheetTurns 0 2 ++ sheetTurns 1 2 ++ sheetTurns 0 15) ∧
      s.2.all Check.over ∧
      s.1.db.sheetsTasks.rows.map (fun task => (task.id, task.lastRunAt)) =
        [("s", some 5), ("t", none)] := by
  obtain ⟨s, hs, hover, hrows⟩ := exists_of_any
    (P := fun s => s.2.all Check.over ∧
      s.1.db.sheetsTasks.rows.map (fun task => (task.id, task.lastRunAt)) =
        [("s", some 5), ("t", none)])
    (s := exec (step exampleURL Sheets.exampleClock)
      (exampleTasks, [.sheets "s", .sheets "t"].map Request.start)
      (sheetTurns 0 2 ++ sheetTurns 1 2 ++ sheetTurns 0 15)) (by decide +kernel)
  exact ⟨s, hs, by decide +kernel, by decide +kernel, hover, hrows⟩

theorem sheets_runs_take_turns_sample :
    ∃ s c, exec (step exampleURL Sheets.exampleClock)
        (exampleTasks, [.sheets "s", .sheets "t"].map Request.start)
        (sheetTurns 0 2 ++ sheetTurns 1 2) = some s ∧ s.2[1]? = some c ∧ c.over ∧
      (Recorded exampleURL Sheets.exampleClock
          (exampleTasks, [.sheets "s", .sheets "t"].map Request.start)
          (sheetTurns 0 2 ++ sheetTurns 1 2) 1 "t" ∨
        FoundLocked exampleURL Sheets.exampleClock
          (exampleTasks, [.sheets "s", .sheets "t"].map Request.start)
          (sheetTurns 0 2 ++ sheetTurns 1 2) 1 "p") := by
  obtain ⟨s, hs, c, hc, hover⟩ := exists_of_any
    (P := fun s => ∃ c ∈ s.2[1]?, c.over)
    (s := exec (step exampleURL Sheets.exampleClock)
      (exampleTasks, [.sheets "s", .sheets "t"].map Request.start)
      (sheetTurns 0 2 ++ sheetTurns 1 2)) (by decide +kernel)
  refine ⟨s, c, hs, hc, hover, ?_⟩
  exact (sheets_runs_take_turns (p := "p") (by rfl) hs (by decide +kernel) (by decide +kernel)).2
    1 "t" { Sheets.exampleTask with id := "t" } c rfl (by decide +kernel) rfl hc hover

end LinkBulker.ProjectLock
