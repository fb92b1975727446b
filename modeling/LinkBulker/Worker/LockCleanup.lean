import Mathlib.Data.Prod.Lex
import Mathlib.Order.WellFounded
import LinkBulker.Worker.ProjectLockLaws

/-! The cleanup of a call that got the lock of its project, whichever of its awaited calls reject,
and whatever the other workers and the API write meanwhile. -/

namespace LinkBulker.ProjectLock

open Foundations Db Shared LinkRepository SingleLink Worker

inductive Mark
  | acquired (lock : LockManager.Lock)
  | clearInterval
  | resetFlag (kind : Kind) (projectId : ProjectId)
  | release (lock : LockManager.Lock)
  deriving DecidableEq

def cleanup (kind : Kind) (projectId : ProjectId) (lock : LockManager.Lock) : List Mark :=
  [.acquired lock, .clearInterval, .resetFlag kind projectId, .release lock]

def Stage.passed : Stage → ℕ
  | .away => 0
  | .entered | .preparing | .awaiting _ | .between _ | .finishing | .closing => 1
  | .clearing => 2
  | .lowered => 3
  | .released => 4

/-- What the cleanup is about, in a call of either kind; `awaits` is the call of `finally` whose
answer the function waits for. -/
structure Guard where
  kind : Kind
  projectId : ProjectId
  lock : Option LockManager.Lock
  heartbeat : Bool
  passed : ℕ
  awaits : Option Mark

def manualGuard (h : ManualCheck.Handle) : Guard where
  kind := .manual
  projectId := h.job.projectId
  lock := h.lock
  heartbeat := h.heartbeat
  passed := (manualStage h.pc).passed
  awaits :=
    match h.pc with
    | .clearFlag => some (.resetFlag .manual h.job.projectId)
    | .release => h.lock.map .release
    | _ => none

def sheetsGuard (r : Sheets.Run) : Guard where
  kind := .sheets
  projectId := r.task.projectId
  lock := r.lock
  heartbeat := r.heartbeat
  passed := (sheetsStage r.pc).passed
  awaits :=
    match r.pc with
    | .clearFlag => some (.resetFlag .sheets r.task.projectId)
    | .release => r.lock.map .release
    | _ => none

def Check.guard : Check → Option Guard
  | .manual h => some (manualGuard h)
  | .sheets (.body r) => some (sheetsGuard r)
  | .sheets (.find _) | .sheets .missing => none

def Guard.marks (g g' : Guard) (main : Bool) : List Mark :=
  (if g.lock = none then g'.lock.toList.map .acquired else []) ++
  (if g.heartbeat ∧ g'.heartbeat = false then [.clearInterval] else []) ++
  if main then g.awaits.toList else []

def Check.marks (c : Check) (a : Act) (c' : Check) : List Mark :=
  match c.guard, c'.guard with
  | some g, some g' => g.marks g' a.main
  | _, _ => []

inductive Label
  | move (a : Act)
  | others (w : World)

def Label.step (newURL : UrlParser) (clock : Sheets.LocalClock) (s : World × Check) :
    Label → Option (World × Check)
  | .move a => s.2.move newURL clock s.1 a
  | .others w => some (w, s.2)

def Label.marks (s : World × Check) (l : Label) (s' : World × Check) : List Mark :=
  match l with
  | .move a => s.2.marks a s'.2
  | .others _ => []

def Act.Answered (turn : Sheets.SheetsTurn) : Act → Prop
  | .manual (.main t) | .manual (.child _ t) | .sheets (.child _ t) => t = turn.toTurn
  | .sheets (.main t) => t = turn
  | .manual (.beat _) | .sheets (.beat _) => False

def Advances (newURL : UrlParser) (clock : Sheets.LocalClock) (c' c : Check) : Prop :=
  ∃ w w' turn a, Act.Answered turn a ∧ c.move newURL clock w a = some (w', c')

section Cleanup

variable {newURL : UrlParser} {clock : Sheets.LocalClock} {main : Bool} {w w' : World}
  {g g' : Guard} {c c' : Check} {t : Turn}

inductive GuardStep (main : Bool) (g : Guard) : Guard → Prop
  | stays {g' : Guard} (hlock : g'.lock = g.lock) (hheartbeat : g'.heartbeat = g.heartbeat)
    (hpassed : g'.passed = g.passed) (hawaits : main → g.awaits = none) : GuardStep main g g'
  | acquires {g' : Guard} (lock : LockManager.Lock) (hlock : g'.lock = some lock)
    (hheartbeat : g'.heartbeat) (hold : g.passed = 0) (hpassed : g'.passed = 1)
    (hawaits : g.awaits = none) : GuardStep main g g'
  | closes {g' : Guard} (hlock : g'.lock = g.lock) (hheartbeat : g'.heartbeat = false)
    (hold : g.passed = 1) (hpassed : g'.passed = 2) (hawaits : g.awaits = none) :
    GuardStep main g g'
  | resets {g' : Guard} (hmain : main) (hlock : g'.lock = g.lock)
    (hheartbeat : g'.heartbeat = g.heartbeat) (hold : g.passed = 2) (hpassed : g'.passed = 3)
    (hawaits : g.awaits = some (.resetFlag g.kind g.projectId)) : GuardStep main g g'
  | releases {g' : Guard} (hmain : main) (hlock : g'.lock = g.lock)
    (hheartbeat : g'.heartbeat = g.heartbeat) (hold : g.passed = 3) (hpassed : g'.passed = 4)
    (hawaits : g.awaits = g.lock.map .release) : GuardStep main g g'

structure Guard.Kept (g : Guard) : Prop where
  lock : g.lock = none ↔ g.passed = 0
  heartbeat : g.heartbeat ↔ g.passed = 1

theorem Guard.Kept.fresh (hlock : g.lock = none) (hheartbeat : g.heartbeat = false)
    (hpassed : g.passed = 0) : g.Kept :=
  ⟨by simp [hlock, hpassed], by simp [hheartbeat, hpassed]⟩

theorem Guard.Kept.held (h : g.Kept) (hpassed : g.passed ≠ 0) : ∃ lock, g.lock = some lock :=
  Option.ne_none_iff_exists'.mp fun hfree => hpassed (h.lock.mp hfree)

theorem Guard.Kept.idle (h : g.Kept) (hpassed : g.passed ≠ 1) : g.heartbeat = false := by
  rw [Bool.eq_false_iff]
  exact fun hruns => hpassed (h.heartbeat.mp hruns)

def Guard.account (g : Guard) : List Mark :=
  g.lock.elim [] fun lock => (cleanup g.kind g.projectId lock).take g.passed

theorem GuardStep.account (hs : GuardStep main g g') (hkind : g'.kind = g.kind)
    (hproject : g'.projectId = g.projectId) (h : g.Kept) :
    g'.Kept ∧ g'.account = g.account ++ g.marks g' main := by
  cases hs with
  | stays hlock hheartbeat hpassed hawaits =>
    have hnone : (if main then g.awaits.toList else []) = [] := by
      split
      · rw [hawaits ‹_›]
        rfl
      · rfl
    refine ⟨⟨by rw [hlock, hpassed, h.lock], by rw [hheartbeat, hpassed, h.heartbeat]⟩, ?_⟩
    rw [Guard.marks, hnone, hheartbeat, Guard.account, Guard.account, hlock, hpassed, hkind,
      hproject]
    cases g.lock <;> simp
  | acquires lock hlock hheartbeat hold hpassed hawaits =>
    have hfree : g.lock = none := h.lock.mpr hold
    have hidle := h.idle (by rw [hold]; exact Nat.zero_ne_one)
    refine ⟨⟨by simp [hlock, hpassed], by simp [hheartbeat, hpassed]⟩, ?_⟩
    simp [Guard.marks, Guard.account, hfree, hlock, hidle, hawaits, hpassed, cleanup]
  | closes hlock hheartbeat hold hpassed hawaits =>
    obtain ⟨lock, hheld⟩ := h.held (by rw [hold]; exact Nat.one_ne_zero)
    have hruns : g.heartbeat := h.heartbeat.mpr hold
    refine ⟨⟨by simp [hlock, hheld, hpassed], by simp [hheartbeat, hpassed]⟩, ?_⟩
    simp [Guard.marks, Guard.account, hlock, hheld, hruns, hheartbeat, hold, hpassed, hawaits,
      cleanup, hkind, hproject]
  | resets hmain hlock hheartbeat hold hpassed hawaits
  | releases hmain hlock hheartbeat hold hpassed hawaits =>
    obtain ⟨lock, hheld⟩ := h.held (by rw [hold]; decide)
    have hidle := h.idle (by rw [hold]; decide)
    refine ⟨⟨by simp [hlock, hheld, hpassed], by simp [hheartbeat, hidle, hpassed]⟩, ?_⟩
    simp [Guard.marks, Guard.account, hlock, hheld, hidle, hold, hpassed, hawaits, hmain, cleanup,
      hkind, hproject]

section Manual

variable {h h' : ManualCheck.Handle}

theorem manual_awaits_none (hclear : h.pc ≠ .clearFlag) (hrelease : h.pc ≠ .release) :
    (manualGuard h).awaits = none := by
  unfold manualGuard
  split
  · contradiction
  · contradiction
  · rfl

theorem manual_guard_stays {pc : ManualCheck.Pc} (hpc : h.pc = pc)
    (hawaits : pc ≠ .clearFlag ∧ pc ≠ .release)
    (hpassed : (manualStage h'.pc).passed = (manualStage pc).passed) (hlock : h'.lock = h.lock)
    (hheartbeat : h'.heartbeat = h.heartbeat) :
    GuardStep true (manualGuard h) (manualGuard h') := by
  obtain ⟨hclear, hrelease⟩ := hawaits
  rw [← hpc] at hclear hrelease hpassed
  exact .stays hlock hheartbeat hpassed fun _ => manual_awaits_none hclear hrelease

theorem manual_guard_closes (hpassed : (manualStage h.pc).passed = 1) (threw : Bool) :
    GuardStep true (manualGuard h) (manualGuard (h.finally_ threw)) := by
  have hclear : h.pc ≠ .clearFlag := fun hpc => by rw [hpc] at hpassed; cases hpassed
  have hrelease : h.pc ≠ .release := fun hpc => by rw [hpc] at hpassed; cases hpassed
  exact .closes rfl rfl hpassed rfl (manual_awaits_none hclear hrelease)

theorem passed_of_manual_tries {pc : ManualCheck.Pc} (h : pc.tries) :
    (manualStage pc).passed = 1 := by
  cases pc <;> first | rfl | cases h

theorem manual_guardStep (hs : ManualCheck.Step w h t w' h') :
    GuardStep true (manualGuard h) (manualGuard h') := by
  cases hs with
  | skip hpc => exact manual_guard_stays hpc (by decide) rfl rfl rfl
  | locked hpc hacq =>
    exact .acquires _ rfl rfl (by rw [manualGuard, hpc]; rfl) rfl (by simp only [manualGuard, hpc])
  | throws hpc hr => exact manual_guard_closes (passed_of_manual_tries hpc) true
  | flagGone hpc hset => exact manual_guard_closes (by rw [hpc]; rfl) true
  | rejected hpc hall => exact manual_guard_closes (by rw [hpc]; rfl) true
  | toldDone hpc => exact manual_guard_closes (by rw [hpc]; rfl) false
  | queued hpc | next hpc =>
    unfold ManualCheck.Handle.loop
    split <;> exact manual_guard_stays hpc ⟨nofun, nofun⟩ rfl rfl rfl
  | raised hpc | toldLocked hpc | resolved hpc | counted hpc | toldProgress hpc | countedAll hpc
  | toldUnlocked hpc => exact manual_guard_stays hpc ⟨nofun, nofun⟩ rfl rfl rfl
  | lowered hpc | lowerFailed hpc =>
    exact .resets rfl rfl rfl (by rw [manualGuard, hpc]; rfl) rfl (by simp only [manualGuard, hpc])
  | released hpc | releaseFailed hpc =>
    exact .releases rfl rfl rfl (by rw [manualGuard, hpc]; rfl) rfl
      (by simp only [manualGuard, hpc])

end Manual

section Sheets

variable {r r' : Sheets.Run} {turn : Sheets.SheetsTurn}

theorem sheets_awaits_none (hclear : r.pc ≠ .clearFlag) (hrelease : r.pc ≠ .release) :
    (sheetsGuard r).awaits = none := by
  unfold sheetsGuard
  split
  · contradiction
  · contradiction
  · rfl

theorem sheets_guard_stays {pc : Sheets.Pc} (hpc : r.pc = pc)
    (hawaits : pc ≠ .clearFlag ∧ pc ≠ .release)
    (hpassed : (sheetsStage r'.pc).passed = (sheetsStage pc).passed) (hlock : r'.lock = r.lock)
    (hheartbeat : r'.heartbeat = r.heartbeat) :
    GuardStep true (sheetsGuard r) (sheetsGuard r') := by
  obtain ⟨hclear, hrelease⟩ := hawaits
  rw [← hpc] at hclear hrelease hpassed
  exact .stays hlock hheartbeat hpassed fun _ => sheets_awaits_none hclear hrelease

theorem passed_of_sheets_tries {pc : Sheets.Pc} (h : pc.tries) : (sheetsStage pc).passed = 1 := by
  cases pc <;> first | rfl | cases h

theorem sheets_guard_fails (hpassed : (sheetsStage r.pc).passed = 1) (reason : String) :
    GuardStep true (sheetsGuard r) (sheetsGuard (r.fail reason)) :=
  sheets_guard_stays rfl
    ⟨(fun hpc => by rw [hpc] at hpassed; cases hpassed),
      (fun hpc => by rw [hpc] at hpassed; cases hpassed)⟩ hpassed.symm rfl rfl

theorem sheets_guard_closes {pc : Sheets.Pc} (hpc : r.pc = pc)
    (hawaits : pc ≠ .clearFlag ∧ pc ≠ .release) (hpassed : (sheetsStage pc).passed = 1) :
    GuardStep true (sheetsGuard r) (sheetsGuard r.finally_) := by
  obtain ⟨hclear, hrelease⟩ := hawaits
  rw [← hpc] at hclear hrelease hpassed
  exact .closes rfl rfl hpassed rfl (sheets_awaits_none hclear hrelease)

theorem sheets_guardStep (hs : Sheets.Step newURL clock w r turn w' r') :
    GuardStep true (sheetsGuard r) (sheetsGuard r') := by
  cases hs with
  | skip hpc => exact sheets_guard_stays hpc ⟨nofun, nofun⟩ rfl rfl rfl
  | locked hpc hacq =>
    exact .acquires _ rfl rfl (by rw [sheetsGuard, hpc]; rfl) rfl (by simp only [sheetsGuard, hpc])
  | fails hpc reason => exact sheets_guard_fails (passed_of_sheets_tries hpc) reason
  | rejected hpc hall reason => exact sheets_guard_fails (by rw [hpc]; rfl) reason
  | pairedAll hpc | toldProgress hpc =>
    unfold Sheets.Run.loop
    split <;> exact sheets_guard_stays hpc ⟨nofun, nofun⟩ rfl rfl rfl
  | wroteData hpc =>
    refine sheets_guard_stays hpc ⟨nofun, nofun⟩ ?_ rfl rfl
    dsimp only
    split <;> rfl
  | toldCompleted hpc | toldFailed hpc | unfoundFailed hpc =>
    exact sheets_guard_closes hpc ⟨nofun, nofun⟩ rfl
  | running hpc | raised hpc | toldRunning hpc | titled hpc | read hpc | replaced hpc | fetched hpc
  | pairedValid hpc | pairedInvalid hpc | marked hpc | resolved hpc | counted hpc
  | nothing hpc | planned hpc | wroteHeader hpc | wroteWidths hpc | widthsFailed hpc
  | countedAll hpc | completed hpc | refound hpc | failedSet hpc | failedUnset hpc
  | refoundFailed hpc => exact sheets_guard_stays hpc ⟨nofun, nofun⟩ rfl rfl rfl
  | lowered hpc | lowerFailed hpc =>
    exact .resets rfl rfl rfl (by rw [sheetsGuard, hpc]; rfl) rfl (by simp only [sheetsGuard, hpc])
  | released hpc | releaseFailed hpc =>
    exact .releases rfl rfl rfl (by rw [sheetsGuard, hpc]; rfl) rfl
      (by simp only [sheetsGuard, hpc])

end Sheets

theorem guard_move {a : Act} (hm : c.move newURL clock w a = some (w', c')) :
    (c.guard = none ∧ ∀ g ∈ c'.guard, g.Kept ∧ g.lock = none) ∨
      ∃ g g', c.guard = some g ∧ c'.guard = some g' ∧ g'.kind = g.kind ∧
        g'.projectId = g.projectId ∧ GuardStep a.main g g' := by
  have idle {g : Guard} : GuardStep false g g := .stays rfl rfl rfl fun h => by cases h
  cases steps_of_move hm with
  | manual hs => exact .inr ⟨_, _, rfl, rfl, rfl, congrArg ManualCheckJobData.projectId hs.job,
    manual_guardStep hs⟩
  | manualChild hb => exact .inr ⟨_, _, rfl, rfl, rfl, rfl, idle⟩
  | manualBeat hlock hw => exact .inr ⟨_, _, rfl, rfl, rfl, rfl, idle⟩
  | missing => exact .inl ⟨rfl, nofun⟩
  | found hfind =>
    refine .inl ⟨rfl, fun g hg => ?_⟩
    obtain rfl := Option.some.inj hg
    exact ⟨.fresh rfl rfl rfl, rfl⟩
  | sheets hs => exact .inr ⟨_, _, rfl, rfl, rfl, congrArg SheetsTask.projectId hs.task,
    sheets_guardStep hs⟩
  | sheetsChild hb => exact .inr ⟨_, _, rfl, rfl, rfl, rfl, idle⟩
  | sheetsBeat hlock hw => exact .inr ⟨_, _, rfl, rfl, rfl, rfl, idle⟩

def Check.account (c : Check) : List Mark := c.guard.elim [] Guard.account

theorem Label.account {s s' : World × Check} {l : Label} (h : ∀ g ∈ s.2.guard, g.Kept)
    (hs : l.step newURL clock s = some s') :
    (∀ g ∈ s'.2.guard, g.Kept) ∧ s'.2.account = s.2.account ++ l.marks s s' := by
  cases l with
  | others w =>
    cases hs
    exact ⟨h, (List.append_nil _).symm⟩
  | move a =>
    rcases guard_move hs with ⟨hnone, hfresh⟩ | ⟨g, g', hg, hg', hkind, hproject, hstep⟩
    · refine ⟨fun g hg => (hfresh g hg).1, ?_⟩
      cases hguard : s'.2.guard with
      | none => simp [Check.account, Label.marks, Check.marks, hnone, hguard]
      | some g =>
        simp [Check.account, Label.marks, Check.marks, Guard.account, hnone, hguard,
          (hfresh g hguard).2]
    · obtain ⟨hkept, haccount⟩ := hstep.account hkind hproject (h g hg)
      refine ⟨fun u hu => ?_, ?_⟩
      · obtain rfl := Option.some.inj (hg'.symm.trans hu)
        exact hkept
      · simpa [Check.account, Label.marks, Check.marks, hg, hg'] using haccount

theorem manual_goes_on {h : ManualCheck.Handle} (hover : (Check.manual h).over = false)
    (hkept : (manualGuard h).Kept) (newURL : UrlParser) (t : Turn) :
    (∀ w, (h.main w t).isSome) ∨ ∃ k, ∀ w, (h.move newURL w (.child k t)).isSome := by
  cases hpc : h.pc with
  | awaitAll i =>
    cases hall : h.batch.all i with
    | none =>
      obtain ⟨k, hk⟩ := Batch.move_isSome_of_all hall newURL
      refine .inr ⟨k, fun w => ?_⟩
      simp only [ManualCheck.Handle.move, Option.isSome_map]
      exact hk w t
    | some ok =>
      refine .inl fun w => ?_
      simp only [ManualCheck.Handle.main, hpc, hall]
      cases ok <;> rfl
  | release =>
    obtain ⟨lock, hheld⟩ := hkept.held
      (show (manualStage h.pc).passed ≠ 0 by rw [hpc]; decide)
    refine .inl fun w => ?_
    have hlock : h.lock = some lock := hheld
    simp only [ManualCheck.Handle.main, hpc, hlock]
    split <;> rfl
  | ended | skipped => simp [Check.over, hpc] at hover
  | publishLocked | publishProgress i counts | publishDone final | publishUnlocked =>
    refine .inl fun w => ?_
    simp only [ManualCheck.Handle.main, hpc]
    rfl
  | markQueued | counts i | updateProgress i | finalCounts =>
    refine .inl fun w => ?_
    simp only [ManualCheck.Handle.main, hpc]
    split <;> rfl
  | acquire | setFlag | clearFlag =>
    refine .inl fun w => ?_
    simp only [ManualCheck.Handle.main, hpc]
    split
    · rfl
    · split <;> rfl

def Marking (r : Sheets.Run) : Prop :=
  ∀ i, r.pc.marking = some i → ∃ link vr, r.persistedLinks[i]? = some link ∧
    r.validRows[i]? = some vr

theorem sheets_goes_on {r : Sheets.Run} (hover : (Check.sheets (.body r)).over = false)
    (hkept : (sheetsGuard r).Kept) (hmarking : Marking r) (newURL : UrlParser)
    (clock : Sheets.LocalClock) (turn : Sheets.SheetsTurn) :
    (∀ w, (r.main newURL clock w turn).isSome) ∨
      ∃ k, ∀ w, (r.move newURL clock w (.child k turn.toTurn)).isSome := by
  cases hpc : r.pc with
  | awaitAll i =>
    cases hall : r.batch.all i with
    | none =>
      obtain ⟨k, hk⟩ := Batch.move_isSome_of_all hall newURL
      refine .inr ⟨k, fun w => ?_⟩
      simp only [Sheets.Run.move, Option.isSome_map]
      exact hk w turn.toTurn
    | some ok =>
      refine .inl fun w => ?_
      simp only [Sheets.Run.main, hpc, hall]
      cases ok <;> rfl
  | markInvalid i now =>
    obtain ⟨link, vr, hlink, hvr⟩ := hmarking i (by rw [hpc]; rfl)
    refine .inl fun w => ?_
    simp only [Sheets.Run.main, hpc, hlink, hvr]
    split
    · rfl
    · split <;> rfl
  | release =>
    obtain ⟨lock, hheld⟩ := hkept.held
      (show (sheetsStage r.pc).passed ≠ 0 by rw [hpc]; decide)
    refine .inl fun w => ?_
    have hlock : r.lock = some lock := hheld
    simp only [Sheets.Run.main, hpc, hlock]
    split <;> rfl
  | ended | skipped => simp [Check.over, hpc] at hover
  | publishRunning | pair i | publishProgress i counts | publishCompleted updated status
  | publishFailed updated reason =>
    refine .inl fun w => ?_
    simp only [Sheets.Run.main, hpc]
    rfl
  | readRows | fetchLinks | counts i | fetchFinal | writeData | writeHeader | setWidths
  | finalCounts | refind status =>
    refine .inl fun w => ?_
    simp only [Sheets.Run.main, hpc]
    split <;> rfl
  | acquire | setRunning | setFlag | resolveTitle | replaceLinks | setCompleted status
  | setFailed reason | refindFailed reason | clearFlag =>
    refine .inl fun w => ?_
    simp only [Sheets.Run.main, hpc]
    split
    · rfl
    · split <;> rfl

theorem marking_step {r r' : Sheets.Run} {turn : Sheets.SheetsTurn}
    (hs : Sheets.Step newURL clock w r turn w' r') : Marking r' := by
  intro i hpc'
  cases hs with
  | pairedInvalid hpc hlink hvr herr =>
    cases hpc'
    exact ⟨_, _, hlink, hvr⟩
  | pairedAll hpc | toldProgress hpc =>
    unfold Sheets.Run.loop at hpc'
    split at hpc' <;> cases hpc'
  | wroteData hpc =>
    dsimp only at hpc'
    split at hpc' <;> cases hpc'
  | _ => cases hpc'

structure Check.Sound (c : Check) : Prop where
  kept : ∀ g ∈ c.guard, g.Kept
  marking : ∀ r, c = .sheets (.body r) → Marking r

theorem Check.Sound.start (request : Request) : request.start.Sound := by
  cases request with
  | manual job =>
    refine ⟨fun g hg => ?_, fun r hr => by cases hr⟩
    cases hg
    exact .fresh rfl rfl rfl
  | sheets id => exact ⟨fun g hg => (by cases hg), fun r hr => by cases hr⟩

theorem Check.Sound.step {s s' : World × Check} {l : Label} (h : s.2.Sound)
    (hs : l.step newURL clock s = some s') : s'.2.Sound := by
  refine ⟨(Label.account h.kept hs).1, fun r' hr' => ?_⟩
  cases l with
  | others w =>
    cases hs
    exact h.marking r' hr'
  | move a =>
    obtain ⟨w, c⟩ := s
    obtain ⟨w', c'⟩ := s'
    dsimp only at hr'
    subst hr'
    cases steps_of_move hs with
    | found hfind => exact fun i hpc => by cases hpc
    | sheets hs => exact marking_step hs
    | sheetsChild hb => exact fun i hpc => h.marking _ rfl i hpc
    | sheetsBeat hlock hw => exact h.marking _ rfl

theorem Check.Sound.goes_on (h : c.Sound) (hover : c.over = false) (newURL : UrlParser)
    (clock : Sheets.LocalClock) (turn : Sheets.SheetsTurn) :
    ∃ a, Act.Answered turn a ∧ ∀ w, (c.move newURL clock w a).isSome := by
  cases c with
  | manual call =>
    rcases manual_goes_on hover (h.kept _ rfl) newURL turn.toTurn with hmain | ⟨k, hchild⟩
    · exact ⟨.manual (.main turn.toTurn), rfl, fun w => by
        rw [Check.move, Option.isSome_map]; exact hmain w⟩
    · exact ⟨.manual (.child k turn.toTurn), rfl, fun w => by
        rw [Check.move, Option.isSome_map]; exact hchild w⟩
  | sheets call =>
    cases call with
    | missing => cases hover
    | find id =>
      refine ⟨.sheets (.main turn), rfl, fun w => ?_⟩
      simp only [Check.move, Sheets.Call.move, Option.isSome_map]
      split
      · rfl
      · split <;> rfl
    | body r =>
      rcases sheets_goes_on hover (h.kept _ rfl) (h.marking r rfl) newURL clock turn with
        hmain | ⟨k, hchild⟩
      · exact ⟨.sheets (.main turn), rfl, fun w => by
          simp only [Check.move, Sheets.Call.move, Option.isSome_map]; exact hmain w⟩
      · exact ⟨.sheets (.child k turn.toTurn), rfl, fun w => by
          simp only [Check.move, Sheets.Call.move, Option.isSome_map]; exact hchild w⟩

def manualPhase : ManualCheck.Pc → ℕ
  | .acquire => 10
  | .setFlag => 9
  | .publishLocked => 8
  | .markQueued => 7
  | .awaitAll _ | .counts _ | .publishProgress .. | .updateProgress _ => 6
  | .finalCounts => 5
  | .publishDone _ => 4
  | .clearFlag => 3
  | .publishUnlocked => 2
  | .release => 1
  | .ended | .skipped => 0

def manualWithin (h : ManualCheck.Handle) : ℕ :=
  match h.pc with
  | .awaitAll i => 4 * (h.job.linkIds.length - i) + 3
  | .counts i => 4 * (h.job.linkIds.length - i) + 2
  | .publishProgress i _ => 4 * (h.job.linkIds.length - i) + 1
  | .updateProgress i => 4 * (h.job.linkIds.length - i)
  | _ => 0

def sheetsPhase : Sheets.Pc → ℕ
  | .acquire => 22
  | .setRunning => 21
  | .setFlag => 20
  | .publishRunning => 19
  | .resolveTitle => 18
  | .readRows => 17
  | .replaceLinks => 16
  | .fetchLinks => 15
  | .pair _ | .markInvalid .. => 14
  | .awaitAll _ | .counts _ | .publishProgress .. => 13
  | .fetchFinal => 12
  | .writeData => 11
  | .writeHeader => 10
  | .setWidths => 9
  | .finalCounts => 8
  | .setCompleted _ => 7
  | .refind _ => 6
  | .setFailed _ => 5
  | .refindFailed _ => 4
  | .publishCompleted .. | .publishFailed .. => 3
  | .clearFlag => 2
  | .release => 1
  | .ended | .skipped => 0

def sheetsWithin (r : Sheets.Run) : ℕ :=
  match r.pc with
  | .pair i => 2 * (r.persistedLinks.length - i)
  | .markInvalid i _ => 2 * (r.persistedLinks.length - i) - 1
  | .awaitAll i => 3 * (r.validProcessableLinks.length - i) + 2
  | .counts i => 3 * (r.validProcessableLinks.length - i) + 1
  | .publishProgress i _ => 3 * (r.validProcessableLinks.length - i)
  | _ => 0

def Check.potential : Check → ℕ ×ₗ ℕ ×ₗ ℕ
  | .manual h => toLex (manualPhase h.pc, toLex (manualWithin h, h.batch.left))
  | .sheets (.find _) => toLex (23, toLex (0, 0))
  | .sheets (.body r) => toLex (sheetsPhase r.pc, toLex (sheetsWithin r, r.batch.left))
  | .sheets .missing => toLex (0, toLex (0, 0))

theorem manual_leaves {h h' : ManualCheck.Handle} {pc : ManualCheck.Pc} (hpc : h.pc = pc)
    (hlt : manualPhase h'.pc < manualPhase pc) : manualPhase h'.pc < manualPhase h.pc ∨
      manualPhase h'.pc = manualPhase h.pc ∧ manualWithin h' < manualWithin h :=
  .inl (hpc ▸ hlt)

theorem manual_decreases {h h' : ManualCheck.Handle} (hs : ManualCheck.Step w h t w' h') :
    manualPhase h'.pc < manualPhase h.pc ∨
      manualPhase h'.pc = manualPhase h.pc ∧ manualWithin h' < manualWithin h := by
  cases hs with
  | throws hpc hr =>
    refine .inl (lt_of_lt_of_le (Nat.lt_succ_self 3) ?_)
    cases hpc' : h.pc <;> rw [hpc'] at hpc <;> first | exact Nat.le_of_ble_eq_true rfl | cases hpc
  | queued hpc =>
    unfold ManualCheck.Handle.loop
    split <;> exact manual_leaves hpc (Nat.le_of_ble_eq_true rfl)
  | next hpc =>
    unfold ManualCheck.Handle.loop
    split
    · refine .inr ⟨by rw [hpc]; rfl, ?_⟩
      simp only [manualWithin, hpc, ManualCheck.INTERNAL_CONCURRENCY] at *
      omega
    · exact manual_leaves hpc (Nat.le_of_ble_eq_true rfl)
  | resolved hpc | counted hpc | toldProgress hpc =>
    refine .inr ⟨by rw [hpc]; rfl, ?_⟩
    simp only [manualWithin, hpc, ManualCheck.Handle.at_]
    omega
  | skip hpc | locked hpc | flagGone hpc | raised hpc | toldLocked hpc | rejected hpc
  | countedAll hpc | toldDone hpc | lowered hpc | lowerFailed hpc | toldUnlocked hpc
  | released hpc | releaseFailed hpc => exact manual_leaves hpc (Nat.le_of_ble_eq_true rfl)

theorem sheets_leaves {r r' : Sheets.Run} {pc : Sheets.Pc} (hpc : r.pc = pc)
    (hlt : sheetsPhase r'.pc < sheetsPhase pc) : sheetsPhase r'.pc < sheetsPhase r.pc ∨
      sheetsPhase r'.pc = sheetsPhase r.pc ∧ sheetsWithin r' < sheetsWithin r :=
  .inl (hpc ▸ hlt)

theorem sheets_decreases {r r' : Sheets.Run} {turn : Sheets.SheetsTurn}
    (hs : Sheets.Step newURL clock w r turn w' r') :
    sheetsPhase r'.pc < sheetsPhase r.pc ∨
      sheetsPhase r'.pc = sheetsPhase r.pc ∧ sheetsWithin r' < sheetsWithin r := by
  cases hs with
  | fails hpc reason =>
    refine .inl (lt_of_lt_of_le (Nat.lt_succ_self 5) ?_)
    cases hpc' : r.pc <;> rw [hpc'] at hpc <;> first | exact Nat.le_of_ble_eq_true rfl | cases hpc
  | pairedAll hpc =>
    unfold Sheets.Run.loop
    split <;> exact sheets_leaves hpc (Nat.le_of_ble_eq_true rfl)
  | pairedValid hpc hlink | pairedInvalid hpc hlink | marked hpc hlink =>
    have hi := (List.getElem?_eq_some_iff.mp hlink).1
    refine .inr ⟨by rw [hpc]; rfl, ?_⟩
    simp only [sheetsWithin, hpc]
    omega
  | toldProgress hpc =>
    unfold Sheets.Run.loop
    split
    · refine .inr ⟨by rw [hpc]; rfl, ?_⟩
      simp only [sheetsWithin, hpc, Sheets.INTERNAL_CONCURRENCY] at *
      omega
    · exact sheets_leaves hpc (Nat.le_of_ble_eq_true rfl)
  | resolved hpc | counted hpc =>
    refine .inr ⟨by rw [hpc]; rfl, ?_⟩
    simp only [sheetsWithin, hpc, Sheets.Run.at_]
    omega
  | wroteData hpc =>
    refine sheets_leaves hpc ?_
    dsimp only
    split <;> exact Nat.le_of_ble_eq_true rfl
  | skip hpc | locked hpc | running hpc | raised hpc | toldRunning hpc | titled hpc | read hpc
  | replaced hpc | fetched hpc | rejected hpc | nothing hpc | planned hpc | wroteHeader hpc
  | wroteWidths hpc | widthsFailed hpc | countedAll hpc | completed hpc | refound hpc
  | toldCompleted hpc | failedSet hpc | failedUnset hpc | refoundFailed hpc | unfoundFailed hpc
  | toldFailed hpc | lowered hpc | lowerFailed hpc | released hpc | releaseFailed hpc =>
    exact sheets_leaves hpc (Nat.le_of_ble_eq_true rfl)

theorem toLex_lt_of {a a' b b' n n' : ℕ} (h : a < a' ∨ a = a' ∧ b < b') :
    (toLex (a, toLex (b, n)) : ℕ ×ₗ ℕ ×ₗ ℕ) < toLex (a', toLex (b', n')) := by
  rcases h with h | ⟨rfl, h⟩
  · exact Prod.Lex.toLex_lt_toLex.mpr (.inl h)
  · exact Prod.Lex.toLex_lt_toLex.mpr (.inr ⟨rfl, Prod.Lex.toLex_lt_toLex.mpr (.inl h)⟩)

theorem toLex_lt_of_left {a b n n' : ℕ} (h : n < n') :
    (toLex (a, toLex (b, n)) : ℕ ×ₗ ℕ ×ₗ ℕ) < toLex (a, toLex (b, n')) :=
  Prod.Lex.toLex_lt_toLex.mpr (.inr ⟨rfl, Prod.Lex.toLex_lt_toLex.mpr (.inr ⟨rfl, h⟩)⟩)

theorem Advances.decreases (h : Advances newURL clock c' c) : c'.potential < c.potential := by
  obtain ⟨w, w', turn, a, hanswered, hm⟩ := h
  cases steps_of_move hm with
  | manual hs => exact toLex_lt_of (manual_decreases hs)
  | manualChild hb => exact toLex_lt_of_left (Batch.left_lt_of_move hb)
  | manualBeat hlock hw => exact hanswered.elim
  | missing => exact toLex_lt_of (.inl (Nat.succ_pos _))
  | found hfind => exact toLex_lt_of (.inl (Nat.lt_succ_self _))
  | sheets hs => exact toLex_lt_of (sheets_decreases hs)
  | sheetsChild hb => exact toLex_lt_of_left (Batch.left_lt_of_move hb)
  | sheetsBeat hlock hw => exact hanswered.elim

/-- A call cannot go on for ever, whatever happens around it. -/
theorem advances_wellFounded (newURL : UrlParser) (clock : Sheets.LocalClock) :
    WellFounded (Advances newURL clock) :=
  (InvImage.wf Check.potential wellFounded_lt).mono fun _ _ h => h.decreases

end Cleanup

end LinkBulker.ProjectLock
