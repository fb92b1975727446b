import LinkBulker.Backend.Steps

/-! Every request is answered: it has so many awaits to come, and at none of them it can be stuck. -/

namespace LinkBulker.BulkQueue

open SingleLink

variable {w : World} {queue queue' : List Queued} {r r' : Request} {now : ℤ}

def Pc.rank : Pc → ℕ
  | .assertProject => 4
  | .isLocked => 3
  | .findMany => 2
  | .add _ => 1
  | .over _ => 0

theorem rank_move (hm : r.move w queue now = some (queue', r')) : r'.pc.rank < r.pc.rank := by
  cases hpc : r.pc with
  | assertProject | isLocked | findMany =>
    simp only [Request.move, hpc] at hm
    split at hm <;> cases hm <;> simp [Request.at_, Pc.rank]
  | add linkIds =>
    simp only [Request.move, hpc] at hm
    cases hm
    simp [Request.at_, Pc.rank]
  | _ => simp [Request.move, hpc] at hm

theorem move_eq_none : r.move w queue now = none ↔ r.pc.rank = 0 := by
  cases hpc : r.pc with
  | assertProject | isLocked | findMany =>
    simp only [Request.move, hpc, Pc.rank]
    split <;> simp
  | _ => simp [Request.move, hpc, Pc.rank]

end LinkBulker.BulkQueue

namespace LinkBulker.RecheckOne

variable {s s' : Server} {r r' : Request} {t : Turn}

def Pc.rank : Pc → ℕ
  | .findUnique => 7
  | .isLocked _ => 6
  | .readCutoff _ => 5
  | .readValue .. => 4
  | .updateMany .. => 3
  | .findFresh => 2
  | .readElapsed _ => 1
  | .add _ => 1
  | .over _ => 0

theorem rank_move (hm : r.move s t = some (s', r')) : r'.pc.rank < r.pc.rank := by
  cases hpc : r.pc with
  | findUnique =>
    simp only [Request.move, hpc] at hm
    split at hm
    · cases hm
      simp [Pc.rank]
    · split at hm
      · cases hm
        simp [Pc.rank]
      · cases hm
        dsimp only
        split <;> simp [Pc.rank]
  | isLocked job | readCutoff job | readValue job cutoff | updateMany job cutoff value
  | readElapsed lastCooldownAt =>
    simp only [Request.move, hpc] at hm
    split at hm <;> cases hm <;> simp [Pc.rank]
  | findFresh | add job =>
    simp only [Request.move, hpc] at hm
    cases hm
    simp [Pc.rank]
  | _ => simp [Request.move, hpc] at hm

theorem move_eq_none (hnow : s.clock ≤ t.now) : r.move s t = none ↔ r.pc.rank = 0 := by
  cases hpc : r.pc with
  | findUnique =>
    simp only [Request.move, hpc, Pc.rank]
    split
    · simp
    · split <;> simp
  | isLocked job | updateMany job cutoff value =>
    simp only [Request.move, hpc, Pc.rank]
    split <;> simp
  | readCutoff job | readValue job cutoff | readElapsed lastCooldownAt =>
    simp [Request.move, hpc, Pc.rank, hnow]
  | _ => simp [Request.move, hpc, Pc.rank]

end LinkBulker.RecheckOne

namespace LinkBulker.Dispatch

open Shared SingleLink

namespace RunNow

variable {w : World} {queue queue' : List SheetsTaskRunJobData} {r r' : Request} {now : ℤ}

def Pc.rank : Pc → ℕ
  | .findOwnedTask => 3
  | .isLocked _ => 2
  | .add => 1
  | .over _ => 0

theorem rank_move (hm : r.move w queue now = some (queue', r')) : r'.pc.rank < r.pc.rank := by
  cases hpc : r.pc with
  | findOwnedTask | isLocked task =>
    simp only [Request.move, hpc] at hm
    split at hm <;> cases hm <;> simp [Request.at_, Pc.rank]
  | add =>
    simp only [Request.move, hpc] at hm
    cases hm
    simp [Request.at_, Pc.rank]
  | _ => simp [Request.move, hpc] at hm

theorem move_eq_none : r.move w queue now = none ↔ r.pc.rank = 0 := by
  cases hpc : r.pc with
  | findOwnedTask | isLocked task =>
    simp only [Request.move, hpc, Pc.rank]
    split <;> simp
  | _ => simp [Request.move, hpc, Pc.rank]

end RunNow

def Request.rank : Request → ℕ
  | .startManualCheck r => r.pc.rank
  | .recheckOne r => r.pc.rank
  | .runNow r => r.pc.rank

def Request.answered : Request → Bool
  | .startManualCheck ⟨_, _, .over _⟩ | .recheckOne ⟨_, _, .over _⟩ | .runNow ⟨_, _, .over _⟩ => true
  | _ => false

theorem Request.rank_eq_zero {r : Request} : r.rank = 0 ↔ r.answered := by
  rcases r with ⟨userId, projectId, pc⟩ | ⟨userId, linkId, pc⟩ | ⟨userId, taskId, pc⟩ <;>
    cases pc <;>
    simp [Request.rank, Request.answered, BulkQueue.Pc.rank, RecheckOne.Pc.rank, RunNow.Pc.rank]

theorem Request.move_eq_none {s : State} {r : Request} {now : ℤ} (hnow : s.world.clock ≤ now) :
    r.move s now = none ↔ r.answered := by
  rw [← Request.rank_eq_zero]
  cases r with
  | startManualCheck r => exact Option.map_eq_none_iff.trans BulkQueue.move_eq_none
  | recheckOne r => exact Option.map_eq_none_iff.trans (RecheckOne.move_eq_none hnow)
  | runNow r => exact Option.map_eq_none_iff.trans RunNow.move_eq_none

end LinkBulker.Dispatch

namespace LinkBulker.RowRequests

open Db Shared

variable {newURL : UrlParser} {db db' : Database} {r r' : Request newURL} {cuid : ℕ → String}

def Pc.rank : Pc newURL → ℕ
  | .getById .. | .assertCreate .. | .findUnique _ | .assertManual _ => 2
  | .createProject _ | .updateProject .. | .createMany .. | .deleteLink _ | .deleteMany _ => 1
  | .answered _ => 0

def Request.answered (r : Request newURL) : Bool :=
  match r.pc with
  | .answered _ => true
  | _ => false

theorem rank_eq_zero : r.pc.rank = 0 ↔ r.answered := by
  unfold Request.answered
  cases r.pc <;> simp [Pc.rank]

theorem rank_validated (projectId : ProjectId) (dto : LinksService.CreateManualLinksInput newURL) :
    (validated projectId dto).rank ≤ 1 := by
  unfold validated
  split
  · exact Nat.zero_le 1
  · split <;> simp [Pc.rank]

theorem rank_move (hm : r.move db cuid = some (db', r')) : r'.pc.rank < r.pc.rank := by
  cases hpc : r.pc with
  | createProject dto | getById id dto | updateProject id dto | deleteLink linkId
  | assertManual projectId =>
    simp only [Request.move, hpc] at hm
    split at hm <;> cases hm <;> simp [Request.at_, Request.fail, Pc.rank]
  | assertCreate projectId dto =>
    have hvalidated := rank_validated projectId dto
    simp only [Request.move, hpc] at hm
    split at hm
    · cases hm
      simp [Request.at_, Pc.rank]
    · cases hm
      exact Nat.lt_succ_of_le hvalidated
  | createMany projectId records | findUnique linkId =>
    simp only [Request.move, hpc] at hm
    split at hm
    · cases hm
      simp [Request.at_, Request.fail, Pc.rank]
    · split at hm <;> cases hm <;> simp [Request.at_, Request.fail, Pc.rank]
  | deleteMany projectId =>
    simp only [Request.move, hpc] at hm
    cases hm
    simp [Request.at_, Pc.rank]
  | answered answer => simp [Request.move, hpc] at hm

theorem move_eq_none : r.move db cuid = none ↔ r.answered := by
  rw [← rank_eq_zero]
  cases hpc : r.pc with
  | createProject dto | getById id dto | updateProject id dto | deleteLink linkId
  | assertManual projectId | assertCreate projectId dto =>
    simp only [Request.move, hpc, Pc.rank]
    split <;> simp
  | createMany projectId records | findUnique linkId =>
    simp only [Request.move, hpc, Pc.rank]
    split
    · simp
    · split <;> simp
  | deleteMany projectId | answered answer => simp [Request.move, hpc, Pc.rank]

end LinkBulker.RowRequests

namespace LinkBulker.SheetsSchedules

open Db Shared SheetsTasksService

variable {s s' : Store} {r r' : Request} {t : Turn}

def Request.rank : Request → ℕ
  | .assertProject .. | .findOwnedTask .. | .findRemoved .. => 3
  | .createRow .. | .updateRow .. | .removeSchedule _ | .getById .. => 2
  | .schedule .. | .deleteRow _ | .deleteProject _ => 1
  | .answered _ => 0

def Request.isAnswered : Request → Bool
  | .answered _ => true
  | _ => false

theorem rank_eq_zero : r.rank = 0 ↔ r.isAnswered := by
  cases r <;> simp [Request.rank, Request.isAnswered]

theorem rank_after (task : SheetsTask) (call : Option SchedulerCall) :
    (Request.after task call).rank ≤ 1 := by
  cases call with
  | none => exact Nat.zero_le 1
  | some call => exact le_rfl

theorem rank_move (hm : r.move s t = some (s', r')) : r'.rank < r.rank := by
  cases r with
  | assertProject userId projectId dto | findOwnedTask userId taskId dto | findRemoved userId taskId
  | deleteRow taskId | getById userId projectId | deleteProject projectId =>
    simp only [Request.move] at hm
    split at hm <;> cases hm <;> simp [Request.rank]
  | createRow projectId dto =>
    simp only [Request.move] at hm
    split at hm
    · cases hm
      simp [Request.rank]
    · split at hm
      · cases hm
        simp [Request.rank]
      · cases hm
        exact Nat.lt_succ_of_le (rank_after _ _)
  | updateRow taskId dto =>
    simp only [Request.move] at hm
    split at hm
    · cases hm
      simp [Request.rank]
    · cases hm
      exact Nat.lt_succ_of_le (rank_after _ _)
  | schedule call answer | removeSchedule taskId =>
    cases hm
    simp [Request.rank]
  | answered answer => cases hm

theorem move_eq_none : r.move s t = none ↔ r.isAnswered := by
  rw [← rank_eq_zero]
  cases r with
  | assertProject userId projectId dto | findOwnedTask userId taskId dto | findRemoved userId taskId
  | deleteRow taskId | getById userId projectId | deleteProject projectId | updateRow taskId dto =>
    simp only [Request.move, Request.rank]
    split <;> simp
  | createRow projectId dto =>
    simp only [Request.move, Request.rank]
    split
    · simp
    · split <;> simp
  | schedule call answer | removeSchedule taskId | answered answer =>
    simp [Request.move, Request.rank]

end LinkBulker.SheetsSchedules
