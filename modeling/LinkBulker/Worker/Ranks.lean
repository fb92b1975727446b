import LinkBulker.Foundations.Rest
import LinkBulker.Worker.Sweeps

/-! How many steps a bulk job has left at most, whatever the environment answers. -/

namespace LinkBulker.SingleLink

open Db Shared

variable {newURL : UrlParser} {w w' : World} {id : LinkId} {t : Turn} {pc pc' : Pc}

def Pc.rank : Pc → ℕ
  | .findById => 6
  | .markStatus _ => 5
  | .publishChecking _ => 4
  | .crawl _ => 3
  | .saveResult .. => 2
  | .publishSaved .. => 1
  | .resolved | .rejected => 0

theorem rank_moves (hm : Moves newURL w id t pc w' pc') : pc'.rank < pc.rank := by
  cases hm with
  | fails ha hr =>
    cases pc with
    | findById | markStatus link | saveResult link result now => simp [Pc.rank]
    | _ => cases ha
  | _ => simp [Pc.rank]

end LinkBulker.SingleLink

namespace LinkBulker.Worker

open Foundations Db Shared LinkRepository SingleLink
open ProjectLock (Act Check Steps)

variable {newURL : UrlParser} {clock : Sheets.LocalClock} {w w' : World} {b b' : Batch}

namespace Batch

def rank (b : Batch) : ℕ := (b.calls.map fun c => c.pc.rank).sum

theorem rank_move {k : ℕ} {t : Turn} (hm : b.move newURL w k t = some (w', b')) :
    b'.rank < b.rank := by
  obtain ⟨c, c', hget, -, hmove, rfl⟩ := move_eq_some hm
  have hless := rank_moves hmove
  have hsum := Pool.sum_map_set (fun c : ProcessOne => c.pc.rank) hget c'
  simp only [rank]
  omega

theorem rank_start (n i : ℕ) :
    (b.start n i).rank = b.rank + 6 * min n (b.ids.length - i) := by
  have hsix : (fun c : ProcessOne => c.pc.rank) ∘ (fun id => ⟨id, .findById⟩ : LinkId → ProcessOne) =
      fun _ => 6 := rfl
  simp only [rank, start, List.map_append, List.map_map, List.sum_append, hsix, List.map_const',
    List.sum_replicate_nat, List.length_take, List.length_drop]
  omega

end Batch

section Manual

variable {h h' : ManualCheck.Handle} {t : Turn}

def Manual.ahead (h : ManualCheck.Handle) : ℕ :=
  let n := h.job.linkIds.length
  match h.pc with
  | .acquire => 10 + 10 * n
  | .setFlag => 9 + 10 * n
  | .publishLocked => 8 + 10 * n
  | .markQueued => 7 + 10 * n
  | .awaitAll i => 9 + 10 * (n - (i + 15))
  | .counts i => 8 + 10 * (n - (i + 15))
  | .publishProgress i _ => 7 + 10 * (n - (i + 15))
  | .updateProgress i => 6 + 10 * (n - (i + 15))
  | .finalCounts => 5
  | .publishDone _ => 4
  | .clearFlag => 3
  | .publishUnlocked => 2
  | .release => 1
  | .ended | .skipped => 0

def Manual.rank (h : ManualCheck.Handle) : ℕ := Manual.ahead h + h.batch.rank

theorem Manual.rank_loop (hids : h.batch.ids = h.job.linkIds) (i : ℕ) :
    Manual.rank (h.loop i) < 6 + 10 * (h.job.linkIds.length - i) + h.batch.rank := by
  unfold ManualCheck.Handle.loop
  split
  · simp only [rank, ahead, Batch.rank_start, hids, ManualCheck.INTERNAL_CONCURRENCY]
    omega
  · simp only [rank, ahead]
    omega

theorem Manual.rank_step (hids : h.batch.ids = h.job.linkIds) (hs : ManualCheck.Step w h t w' h') :
    Manual.rank h' < Manual.rank h := by
  cases hs with
  | queued hpc =>
    have hloop := Manual.rank_loop hids 0
    simp only [rank, ahead, hpc] at hloop ⊢
    omega
  | next hpc =>
    have hloop := Manual.rank_loop hids
    simp only [rank, ahead, hpc] at hloop ⊢
    exact hloop _
  | throws hpc hr =>
    have hmore : 3 < ahead h := by
      cases hat : h.pc with
      | setFlag | markQueued | counts i | updateProgress i | finalCounts =>
        simp only [ahead, hat]
        omega
      | _ =>
        rw [hat] at hpc
        cases hpc
    exact Nat.add_lt_add_right hmore _
  | flagGone hpc | rejected hpc =>
    simp only [rank, ahead, hpc, ManualCheck.Handle.finally_]
    omega
  | _ hpc =>
    simp only [rank, ahead, hpc, ManualCheck.Handle.at_, ManualCheck.Handle.finally_]
    omega

end Manual

section Sheets

variable {r r' : Sheets.Run} {t : Sheets.SheetsTurn}

def early : Sheets.Pc → Bool
  | .acquire | .setRunning | .setFlag | .publishRunning | .resolveTitle | .readRows | .replaceLinks
  | .fetchLinks => true
  | _ => false

def Sheets.ahead (r : Sheets.Run) : ℕ :=
  let unpaired i := r.persistedLinks.length - i
  let valid := r.validProcessableLinks.length
  match r.pc with
  | .acquire => 22
  | .setRunning => 21
  | .setFlag => 20
  | .publishRunning => 19
  | .resolveTitle => 18
  | .readRows => 17
  | .replaceLinks => 16
  | .fetchLinks => 15
  | .pair i => 14 + 12 * unpaired i + 10 * valid
  | .markInvalid i _ => 13 + 12 * unpaired i + 10 * valid
  | .awaitAll i => 15 + 10 * (valid - (i + 15))
  | .counts i => 14 + 10 * (valid - (i + 15))
  | .publishProgress i _ => 13 + 10 * (valid - (i + 15))
  | .fetchFinal => 12
  | .writeData => 11
  | .writeHeader => 10
  | .setWidths => 9
  | .finalCounts => 8
  | .setCompleted _ => 7
  | .refind _ => 6
  | .setFailed _ => 5
  | .refindFailed _ => 4
  | .publishCompleted .. | .publishFailed .. => 3
  | .clearFlag => 2
  | .release => 1
  | .ended | .skipped => 0

def Sheets.rank (r : Sheets.Run) : ℕ := Sheets.ahead r + r.batch.rank

def Sheets.budget (r : Sheets.Run) : ℕ := 23 + 12 * r.persistedLinks.length

theorem Sheets.rank_loop (hids : r.batch.ids = r.validProcessableLinks.map Link.id) (i : ℕ) :
    Sheets.rank (r.loop i) < 13 + 10 * (r.validProcessableLinks.length - i) + r.batch.rank := by
  unfold Sheets.Run.loop
  split
  · simp only [rank, ahead, Batch.rank_start, hids, Sheets.INTERNAL_CONCURRENCY, List.length_map]
    omega
  · simp only [rank, ahead, Sheets.Run.at_]
    omega

theorem Sheets.budget_loop (i : ℕ) : Sheets.budget (r.loop i) = Sheets.budget r := by
  unfold Sheets.Run.loop
  split <;> rfl

theorem Sheets.rank_fail (h : r.pc.tries) (reason : String) :
    Sheets.rank (r.fail reason) < Sheets.rank r := by
  have hmore : 5 < ahead r := by
    cases hat : r.pc with
    | setRunning | setFlag | resolveTitle | readRows | replaceLinks | fetchLinks | pair i
    | markInvalid i now | counts i | fetchFinal | writeData | writeHeader | finalCounts
    | setCompleted status | refind status =>
      simp only [ahead, hat]
      omega
    | _ =>
      rw [hat] at h
      cases h
  exact Nat.add_lt_add_right hmore _

theorem Sheets.rank_step
    (hearly : early r.pc → r.persistedLinks = [] ∧ r.validProcessableLinks = [])
    (hids : inLoop (ProjectLock.sheetsStage r.pc) →
      r.batch.ids = r.validProcessableLinks.map Link.id)
    (hs : Sheets.Step newURL clock w r t w' r') :
    Sheets.rank r' + Sheets.budget r < Sheets.rank r + Sheets.budget r' := by
  cases hs with
  | fails hpc reason => exact Nat.add_lt_add_right (Sheets.rank_fail hpc reason) _
  | rejected hpc hall reason =>
    refine Nat.add_lt_add_right (Nat.add_lt_add_right ?_ _) _
    simp only [ahead, hpc, Sheets.Run.fail]
    omega
  | fetched hpc =>
    obtain ⟨hlinks, hvalid⟩ := hearly (by rw [hpc]; rfl)
    simp only [rank, budget, ahead, hpc, hlinks, hvalid, List.length_nil]
    omega
  | pairedAll hpc hlink =>
    have hloop := Sheets.rank_loop
      (r := { r with batch := ⟨r.validProcessableLinks.map Link.id, []⟩ }) rfl 0
    have hnone : Batch.rank ⟨r.validProcessableLinks.map Link.id, []⟩ = 0 := rfl
    rw [Sheets.budget_loop]
    simp only [rank, budget, ahead, hpc, hnone] at hloop ⊢
    omega
  | pairedValid hpc hlink | marked hpc hlink =>
    have hlt := (List.getElem?_eq_some_iff.mp hlink).1
    simp only [rank, budget, ahead, hpc, List.length_append, List.length_singleton]
    omega
  | pairedInvalid hpc hlink =>
    simp only [rank, budget, ahead, hpc]
    omega
  | toldProgress hpc =>
    have hloop := Sheets.rank_loop (hids (by rw [hpc]; rfl))
    rw [Sheets.budget_loop]
    simp only [rank, ahead, hpc] at hloop ⊢
    exact Nat.add_lt_add_right (hloop _) _
  | wroteData hpc =>
    by_cases hheader : 0 < r.task.headerRow
    · simp only [rank, budget, ahead, hpc, if_pos hheader]
      omega
    · simp only [rank, budget, ahead, hpc, if_neg hheader]
      omega
  | _ hpc =>
    simp only [rank, budget, ahead, hpc, Sheets.Run.at_, Sheets.Run.finally_]
    omega

end Sheets

end LinkBulker.Worker
