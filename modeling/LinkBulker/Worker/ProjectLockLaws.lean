import LinkBulker.Worker.ManualCheckLaws
import LinkBulker.Worker.ProjectLock
import LinkBulker.Worker.SheetsTaskLaws

namespace LinkBulker.ProjectLock

open Foundations Db Shared LinkRepository SingleLink Worker

variable {newURL : UrlParser} {clock : Sheets.LocalClock} {main : Bool} {w w' : World}
  {v v' : View} {t : Turn}

structure Still (w w' : World) : Prop where
  projects : w'.db.projects = w.db.projects
  locks : w'.locks = w.locks
  clock : w'.clock = w.clock

theorem Still.refl (w : World) : Still w w := ⟨rfl, rfl, rfl⟩

theorem Still.publishNow (event : ProgressEvent) : Still w (w.publishNow t event) :=
  ⟨by rw [publishNow_db], publishNow_locks event, publishNow_clock event⟩

theorem Still.withDb {db : Database} (h : db.projects = w.db.projects) : Still w { w with db } :=
  ⟨h, rfl, rfl⟩

def Stage.closes : Stage → Bool
  | .entered | .preparing | .between _ | .finishing | .closing => true
  | _ => false

inductive Walk (newURL : UrlParser) (main : Bool) (w : World) (v : View) (t : Turn) :
    World → View → Prop
  | skips (hstage : v.stage = .away) : Walk newURL main w v t w v
  | locks {ttl : ℤ} {lock : LockManager.Lock} {key : LockManager.Key} (hstage : v.stage = .away)
    (hacq : LockManager.acquire (w.locks v.lockKey) t.now ⟨t.token, ttl⟩ = (some lock, key)) :
    Walk newURL main w v t
      { w with locks := Function.update w.locks v.lockKey key, issued := t.token :: w.issued }
      { v with stage := .entered, lock := some lock }
  | stays {w' : World} {v' : View} (hstage : v.stage ≠ .away ∧ v.stage ≠ .clearing)
    (hw : Still w w') (hv : v' = v) : Walk newURL main w v t w' v'
  | raises {db : Database} (hstage : v.stage = .entered)
    (hset : v.kind.setFlag w.db v.projectId true = some db) :
    Walk newURL main w v t { w with db } { v with stage := .preparing }
  | closes {w' : World} (stage : Stage) (hfrom : v.stage.closes)
    (hto : stage = .closing ∨ stage = .clearing) (hw : Still w w') :
    Walk newURL main w v t w' { v with stage }
  | rejects {i : ℕ} (stage : Stage) (hstage : v.stage = .awaiting i)
    (hto : stage = .closing ∨ stage = .clearing) (hall : v.batch.all i = some false) :
    Walk newURL main w v t w { v with stage }
  | enters {w' : World} (b : Batch) (hstage : v.stage = .preparing)
    (hb : b.calls = v.batch.calls ∨ b.calls = []) (hw : Still w w') :
    Walk newURL main w v t w'
      { v with stage := .awaiting 0, batch := b.start v.kind.concurrency 0 }
  | resolves {i : ℕ} (hstage : v.stage = .awaiting i) (hall : v.batch.all i = some true) :
    Walk newURL main w v t w { v with stage := .between i }
  | nexts {w' : World} {i : ℕ} (hstage : v.stage = .between i) (hw : Still w w') :
    Walk newURL main w v t w' { v with
      stage := .awaiting (i + v.kind.concurrency)
      batch := v.batch.start v.kind.concurrency (i + v.kind.concurrency) }
  | leaves {w' : World} (b : Batch) (hstage : v.stage = .preparing ∨ ∃ i, v.stage = .between i)
    (hb : b.calls = v.batch.calls ∨ b.calls = []) (hw : Still w w') :
    Walk newURL main w v t w' { v with stage := .finishing, batch := b }
  | lowers {db : Database} (hmain : main) (hstage : v.stage = .clearing)
    (hset : v.kind.setFlag w.db v.projectId false = some db) :
    Walk newURL main w v t { w with db } { v with stage := .lowered }
  | lowerFails (hmain : main) (hstage : v.stage = .clearing)
    (hset : t.rejects ∨ v.kind.setFlag w.db v.projectId false = none) :
    Walk newURL main w v t w { v with stage := .lowered }
  | frees {key : LockManager.Key} (hstage : v.stage = .lowered) :
    Walk newURL main w v t { w with locks := Function.update w.locks v.lockKey key }
      { v with stage := .released }
  | freeFails (hstage : v.stage = .lowered) : Walk newURL main w v t w { v with stage := .released }
  | checks {w' : World} {k : ℕ} {b : Batch} (hmain : main = false)
    (hmove : v.batch.move newURL w k t = some (w', b)) :
    Walk newURL main w v t w' { v with batch := b }
  | beats {w' : World} {lock : LockManager.Lock} (hmain : main = false) (hlock : v.lock = some lock)
    (hw : w' = w ∨ w' = { w with
      locks := Function.update w.locks v.lockKey (lock.heartbeat (w.locks v.lockKey) t.now).2 }) :
    Walk newURL main w v t w' v

section Manual

variable {h h' : ManualCheck.Handle}

theorem manualView_at {pc : ManualCheck.Pc} (hpc : manualStage pc = manualStage h.pc) :
    manualView (h.at_ pc) = manualView h := by
  simp only [manualView, ManualCheck.Handle.at_, hpc]

theorem manual_stays {pc pc' : ManualCheck.Pc} (hpc : h.pc = pc)
    (hbody : manualStage pc ≠ .away ∧ manualStage pc ≠ .clearing)
    (hsame : manualStage pc' = manualStage pc) (hw : Still w w') :
    Walk newURL main w (manualView h) t w' (manualView (h.at_ pc')) :=
  .stays (by rwa [manualView, hpc]) hw (manualView_at (hpc ▸ hsame))

theorem manualStage_of_tries {pc : ManualCheck.Pc} (h : pc.tries) : (manualStage pc).closes := by
  cases pc <;> first | rfl | cases h

theorem manual_step (hs : ManualCheck.Step w h t w' h') :
    Walk newURL true w (manualView h) t w' (manualView h') := by
  cases hs with
  | skip hpc =>
    rw [manualView_at (by rw [hpc]; rfl)]
    exact .skips (congrArg manualStage hpc)
  | locked hpc hacq => exact .locks (congrArg manualStage hpc) hacq
  | throws hpc hr => exact .closes _ (manualStage_of_tries hpc) (.inr rfl) (.refl w)
  | flagGone hpc hset =>
    exact .closes _ (by rw [manualView, hpc]; rfl) (.inr rfl) (.refl w)
  | raised hpc hset => exact .raises (congrArg manualStage hpc) hset
  | toldLocked hpc => exact manual_stays hpc ⟨nofun, nofun⟩ rfl (.publishNow _)
  | queued hpc =>
    have hstill : Still w { w with db := markManyStatus w.db h.job.linkIds .QUEUED } :=
      .withDb markManyStatus_projects
    unfold ManualCheck.Handle.loop
    split
    · exact .enters h.batch (congrArg manualStage hpc) (.inl rfl) hstill
    · exact .leaves h.batch (.inl (congrArg manualStage hpc)) (.inl rfl) hstill
  | rejected hpc hall => exact .rejects _ (congrArg manualStage hpc) (.inr rfl) hall
  | resolved hpc hall => exact .resolves (congrArg manualStage hpc) hall
  | counted hpc => exact manual_stays hpc ⟨nofun, nofun⟩ rfl (.refl w)
  | toldProgress hpc => exact manual_stays hpc ⟨nofun, nofun⟩ rfl (.publishNow _)
  | next hpc =>
    unfold ManualCheck.Handle.loop
    split
    · exact .nexts (congrArg manualStage hpc) (.refl w)
    · exact .leaves h.batch (.inr ⟨_, congrArg manualStage hpc⟩) (.inl rfl) (.refl w)
  | countedAll hpc => exact manual_stays hpc ⟨nofun, nofun⟩ rfl (.refl w)
  | toldDone hpc =>
    exact .closes _ (by rw [manualView, hpc]; rfl) (.inr rfl) (.publishNow _)
  | lowered hpc hset => exact .lowers rfl (congrArg manualStage hpc) hset
  | lowerFailed hpc hset => exact .lowerFails rfl (congrArg manualStage hpc) hset
  | toldUnlocked hpc => exact manual_stays hpc ⟨nofun, nofun⟩ rfl (.publishNow _)
  | released hpc hlock => exact .frees (congrArg manualStage hpc)
  | releaseFailed hpc hr => exact .freeFails (congrArg manualStage hpc)

end Manual

section Sheets

variable {r r' : Sheets.Run} {turn : Sheets.SheetsTurn}

theorem sheets_stays {pc : Sheets.Pc} (hpc : r.pc = pc)
    (hbody : sheetsStage pc ≠ .away ∧ sheetsStage pc ≠ .clearing)
    (hsame : sheetsStage r'.pc = sheetsStage pc) (htask : r'.task = r.task)
    (hlock : r'.lock = r.lock) (hbatch : r'.batch = r.batch) (hw : Still w w') :
    Walk newURL main w (sheetsView r) t w' (sheetsView r') :=
  .stays (by rwa [sheetsView, hpc]) hw
    (by simp only [sheetsView, hpc, hsame, htask, hlock, hbatch])

theorem sheetsStage_of_tries {pc : Sheets.Pc} (h : pc.tries) : (sheetsStage pc).closes := by
  cases pc <;> first | rfl | cases h

theorem sheets_step (hs : Sheets.Step newURL clock w r turn w' r') :
    Walk newURL true w (sheetsView r) turn.toTurn w' (sheetsView r') := by
  cases hs with
  | skip hpc =>
    have hv : sheetsView (r.at_ .skipped) = sheetsView r := by
      simp only [sheetsView, Sheets.Run.at_, hpc, sheetsStage]
    rw [hv]
    exact .skips (congrArg sheetsStage hpc)
  | locked hpc hacq => exact .locks (congrArg sheetsStage hpc) hacq
  | fails hpc reason => exact .closes _ (sheetsStage_of_tries hpc) (.inl rfl) (.refl w)
  | running hpc hset =>
    exact sheets_stays hpc ⟨nofun, nofun⟩ rfl rfl rfl rfl (.withDb (setSheetsTaskStatus_frame hset).2)
  | raised hpc hset => exact .raises (congrArg sheetsStage hpc) hset
  | toldRunning hpc => exact sheets_stays hpc ⟨nofun, nofun⟩ rfl rfl rfl rfl (.publishNow _)
  | titled hpc => exact sheets_stays hpc ⟨nofun, nofun⟩ rfl rfl rfl rfl (.refl w)
  | read hpc => exact sheets_stays hpc ⟨nofun, nofun⟩ rfl rfl rfl rfl (.refl w)
  | replaced hpc hset =>
    exact sheets_stays hpc ⟨nofun, nofun⟩ rfl rfl rfl rfl (.withDb (replaceSheetsLinks_projects hset))
  | fetched hpc => exact sheets_stays hpc ⟨nofun, nofun⟩ rfl rfl rfl rfl (.refl w)
  | pairedAll hpc hlink =>
    unfold Sheets.Run.loop
    split
    · exact .enters _ (congrArg sheetsStage hpc) (.inr rfl) (.refl w)
    · exact .leaves _ (.inl (congrArg sheetsStage hpc)) (.inr rfl) (.refl w)
  | pairedValid hpc hlink hvr hok => exact sheets_stays hpc ⟨nofun, nofun⟩ rfl rfl rfl rfl (.refl w)
  | pairedInvalid hpc hlink hvr herr => exact sheets_stays hpc ⟨nofun, nofun⟩ rfl rfl rfl rfl (.refl w)
  | marked hpc hlink hvr hsave =>
    exact sheets_stays hpc ⟨nofun, nofun⟩ rfl rfl rfl rfl (.withDb (saveResult_rows hsave).1)
  | rejected hpc hall reason => exact .rejects _ (congrArg sheetsStage hpc) (.inl rfl) hall
  | resolved hpc hall => exact .resolves (congrArg sheetsStage hpc) hall
  | counted hpc => exact sheets_stays hpc ⟨nofun, nofun⟩ rfl rfl rfl rfl (.refl w)
  | toldProgress hpc =>
    unfold Sheets.Run.loop
    split
    · exact .nexts (congrArg sheetsStage hpc) (.publishNow _)
    · exact .leaves r.batch (.inr ⟨_, congrArg sheetsStage hpc⟩) (.inl rfl) (.publishNow _)
  | nothing hpc hnone => exact sheets_stays hpc ⟨nofun, nofun⟩ rfl rfl rfl rfl (.refl w)
  | planned hpc hmin hmax hcol => exact sheets_stays hpc ⟨nofun, nofun⟩ rfl rfl rfl rfl (.refl w)
  | wroteData hpc =>
    refine sheets_stays hpc ⟨nofun, nofun⟩ ?_ rfl rfl rfl (.refl w)
    dsimp only
    split <;> rfl
  | wroteHeader hpc => exact sheets_stays hpc ⟨nofun, nofun⟩ rfl rfl rfl rfl (.refl w)
  | wroteWidths hpc => exact sheets_stays hpc ⟨nofun, nofun⟩ rfl rfl rfl rfl (.refl w)
  | widthsFailed hpc => exact sheets_stays hpc ⟨nofun, nofun⟩ rfl rfl rfl rfl (.refl w)
  | countedAll hpc => exact sheets_stays hpc ⟨nofun, nofun⟩ rfl rfl rfl rfl (.refl w)
  | completed hpc hset =>
    exact sheets_stays hpc ⟨nofun, nofun⟩ rfl rfl rfl rfl (.withDb (setSheetsTaskStatus_frame hset).2)
  | refound hpc => exact sheets_stays hpc ⟨nofun, nofun⟩ rfl rfl rfl rfl (.refl w)
  | toldCompleted hpc =>
    exact .closes _ (by rw [sheetsView, hpc]; rfl) (.inr rfl) (.publishNow _)
  | failedSet hpc hset =>
    exact sheets_stays hpc ⟨nofun, nofun⟩ rfl rfl rfl rfl (.withDb (setSheetsTaskStatus_frame hset).2)
  | failedUnset hpc => exact sheets_stays hpc ⟨nofun, nofun⟩ rfl rfl rfl rfl (.refl w)
  | refoundFailed hpc => exact sheets_stays hpc ⟨nofun, nofun⟩ rfl rfl rfl rfl (.refl w)
  | unfoundFailed hpc => exact .closes _ (by rw [sheetsView, hpc]; rfl) (.inr rfl) (.refl w)
  | toldFailed hpc =>
    exact .closes _ (by rw [sheetsView, hpc]; rfl) (.inr rfl) (.publishNow _)
  | lowered hpc hset => exact .lowers rfl (congrArg sheetsStage hpc) hset
  | lowerFailed hpc hset => exact .lowerFails rfl (congrArg sheetsStage hpc) hset
  | released hpc hlock => exact .frees (congrArg sheetsStage hpc)
  | releaseFailed hpc hr => exact .freeFails (congrArg sheetsStage hpc)

end Sheets

inductive Steps (newURL : UrlParser) (clock : Sheets.LocalClock) (w : World) :
    Check → Act → World → Check → Prop
  | manual {w' : World} {h h' : ManualCheck.Handle} {t : Turn} (hs : ManualCheck.Step w h t w' h') :
    Steps newURL clock w (.manual h) (.manual (.main t)) w' (.manual h')
  | manualChild {w' : World} {h : ManualCheck.Handle} {b : Batch} {k : ℕ} {t : Turn}
    (hm : h.batch.move newURL w k t = some (w', b)) :
    Steps newURL clock w (.manual h) (.manual (.child k t)) w' (.manual { h with batch := b })
  | manualBeat {w' : World} {h : ManualCheck.Handle} {t : Turn} {lock : LockManager.Lock}
    (hlock : h.lock = some lock) (hw : w' = w ∨ w' = { w with
      locks := Function.update w.locks h.lockKey (lock.heartbeat (w.locks h.lockKey) t.now).2 }) :
    Steps newURL clock w (.manual h) (.manual (.beat t)) w' (.manual h)
  | missing {id : SheetsTaskId} {t : Sheets.SheetsTurn} :
    Steps newURL clock w (.sheets (.find id)) (.sheets (.main t)) w (.sheets .missing)
  | found {id : SheetsTaskId} {t : Sheets.SheetsTurn} {task : SheetsTask}
    (hfind : findSheetsTaskById w.db id = some task) :
    Steps newURL clock w (.sheets (.find id)) (.sheets (.main t)) w (.sheets (.body { task }))
  | sheets {w' : World} {r r' : Sheets.Run} {t : Sheets.SheetsTurn}
    (hs : Sheets.Step newURL clock w r t w' r') :
    Steps newURL clock w (.sheets (.body r)) (.sheets (.main t)) w' (.sheets (.body r'))
  | sheetsChild {w' : World} {r : Sheets.Run} {b : Batch} {k : ℕ} {t : Turn}
    (hm : r.batch.move newURL w k t = some (w', b)) :
    Steps newURL clock w (.sheets (.body r)) (.sheets (.child k t)) w'
      (.sheets (.body { r with batch := b }))
  | sheetsBeat {w' : World} {r : Sheets.Run} {t : Turn} {lock : LockManager.Lock}
    (hlock : r.lock = some lock) (hw : w' = w ∨ w' = { w with
      locks := Function.update w.locks r.lockKey (lock.heartbeat (w.locks r.lockKey) t.now).2 }) :
    Steps newURL clock w (.sheets (.body r)) (.sheets (.beat t)) w' (.sheets (.body r))

theorem steps_of_move {c c' : Check} {a : Act} (hm : c.move newURL clock w a = some (w', c')) :
    Steps newURL clock w c a w' c' := by
  unfold Check.move at hm
  split at hm
  · rename_i h a
    simp only [Option.map_eq_some_iff, Prod.exists, Prod.mk.injEq] at hm
    obtain ⟨w₁, h', hmove, rfl, rfl⟩ := hm
    cases a with
    | main t => exact .manual (ManualCheck.main_eq_some hmove)
    | child k t =>
      obtain ⟨b, hb, rfl⟩ := ManualCheck.child_eq_some hmove
      exact .manualChild hb
    | beat t =>
      obtain ⟨lock, -, hlock, rfl, hw⟩ := ManualCheck.beat_eq_some hmove
      exact .manualBeat hlock hw
  · rename_i a
    simp only [Option.map_eq_some_iff, Prod.exists, Prod.mk.injEq] at hm
    obtain ⟨w₁, c', hmove, rfl, rfl⟩ := hm
    rcases Sheets.call_eq_some hmove with ⟨id, t, rfl, rfl, rfl, rfl | ⟨task, hfind, rfl⟩⟩ |
      ⟨r, r', rfl, hrun, rfl⟩
    · exact .missing
    · exact .found hfind
    · cases a with
      | main t => exact .sheets (Sheets.main_eq_some hrun)
      | child k t =>
        obtain ⟨b, hb, rfl⟩ := Sheets.child_eq_some hrun
        exact .sheetsChild hb
      | beat t =>
        obtain ⟨lock, -, hlock, rfl, hw⟩ := Sheets.beat_eq_some hrun
        exact .sheetsBeat hlock hw
  · cases hm

def View.fresh (kind : Kind) (projectId : ProjectId) (ids : List LinkId) : View :=
  ⟨kind, projectId, .away, none, ⟨ids, []⟩⟩

theorem move_eq_some {c c' : Check} {a : Act} (hm : c.move newURL clock w a = some (w', c')) :
    (c.view = none ∧ w' = w ∧ ∀ v ∈ c'.view, ∃ p, v = .fresh .sheets p []) ∨
      ∃ v v', c.view = some v ∧ c'.view = some v' ∧ Walk newURL a.main w v a.turn w' v' := by
  cases steps_of_move hm with
  | manual hs => exact .inr ⟨_, _, rfl, rfl, manual_step hs⟩
  | manualChild hb => exact .inr ⟨_, _, rfl, rfl, .checks rfl hb⟩
  | manualBeat hlock hw => exact .inr ⟨_, _, rfl, rfl, .beats rfl hlock hw⟩
  | missing => exact .inl ⟨rfl, rfl, nofun⟩
  | found hfind => exact .inl ⟨rfl, rfl, fun v hv => ⟨_, (Option.some.inj hv).symm⟩⟩
  | sheets hs => exact .inr ⟨_, _, rfl, rfl, sheets_step hs⟩
  | sheetsChild hb => exact .inr ⟨_, _, rfl, rfl, .checks rfl hb⟩
  | sheetsBeat hlock hw => exact .inr ⟨_, _, rfl, rfl, .beats rfl hlock hw⟩

end LinkBulker.ProjectLock
