import LinkBulker.Worker.LockExclusion

/-! The `lastCheckedAt` of a check is read off the clock before the statement that stores it is sent.
These are the ones that wait in between. -/

namespace LinkBulker.Worker

open Foundations Db Shared SingleLink
open ProjectLock (Act Check Steps)

variable {newURL : UrlParser} {clock : Sheets.LocalClock} {w w' : World} {b b' : Batch} {n i k : ℕ}
  {t : Turn}

def callStamps (c : ProcessOne) : List (LinkId × ℤ) :=
  match c.pc with
  | .saveResult _ _ now => [(c.linkId, now)]
  | _ => []

def batchStamps (b : Batch) : List (LinkId × ℤ) := b.calls.flatMap callStamps

def markStamps (r : Sheets.Run) : List (LinkId × ℤ) :=
  match r.pc with
  | .markInvalid i now => r.persistedLinks[i]?.toList.map fun l => (l.id, now)
  | _ => []

def checkStamps : Check → List (LinkId × ℤ)
  | .manual h => batchStamps h.batch
  | .sheets (.body r) => markStamps r ++ batchStamps r.batch
  | .sheets (.find _) | .sheets .missing => []

theorem callStamps_moves {id : LinkId} {pc : SingleLink.Pc} {c : ProcessOne}
    (hm : Moves newURL w id t pc w' c.pc) : ∀ p ∈ callStamps c, p.2 = t.now := by
  obtain ⟨linkId, pc'⟩ := c
  intro p hp
  cases hm with
  | crawled =>
    rw [List.mem_singleton.mp hp]
  | _ => exact absurd hp List.not_mem_nil

theorem mem_batchStamps_of_mem {c : ProcessOne} (hc : c ∈ b.calls) :
    callStamps c ⊆ batchStamps b :=
  fun _ hp => List.mem_flatMap.mpr ⟨c, hc, hp⟩

theorem batchStamps_start (b : Batch) (n i : ℕ) : batchStamps (b.start n i) ⊆ batchStamps b := by
  intro p hp
  obtain ⟨c, hc, hp⟩ := List.mem_flatMap.mp hp
  obtain hc | ⟨hpc, -⟩ := Batch.mem_calls_start hc
  · exact mem_batchStamps_of_mem hc hp
  · rw [callStamps, hpc] at hp
    exact absurd hp List.not_mem_nil

theorem batchStamps_move (hm : b.move newURL w k t = some (w', b')) :
    ∀ p ∈ batchStamps b', p ∈ batchStamps b ∨ p.2 = t.now := by
  obtain ⟨c, c', hget, -, hmoves, rfl⟩ := Batch.move_eq_some hm
  intro p hp
  obtain ⟨d, hd, hstamp⟩ := List.mem_flatMap.mp hp
  obtain hd | rfl := List.mem_or_eq_of_mem_set hd
  · exact .inl (mem_batchStamps_of_mem hd hstamp)
  · exact .inr (callStamps_moves hmoves p hstamp)

section Steps

variable {c c' : Check} {a : Act}

theorem manualStamps_step {h h' : ManualCheck.Handle} (hs : ManualCheck.Step w h t w' h') :
    batchStamps h'.batch ⊆ batchStamps h.batch := by
  have hloop (i : ℕ) : batchStamps (h.loop i).batch ⊆ batchStamps h.batch := by
    unfold ManualCheck.Handle.loop
    split
    · exact batchStamps_start _ _ _
    · exact List.Subset.refl _
  cases hs with
  | queued hpc | next hpc => exact hloop _
  | _ => exact List.Subset.refl _

theorem sheetsStamps_loop (r : Sheets.Run) (i : ℕ) :
    markStamps (r.loop i) = [] ∧ batchStamps (r.loop i).batch ⊆ batchStamps r.batch := by
  unfold Sheets.Run.loop
  split
  · exact ⟨rfl, batchStamps_start _ _ _⟩
  · exact ⟨rfl, List.Subset.refl _⟩

theorem sheetsStamps_step {r r' : Sheets.Run} {t : Sheets.SheetsTurn}
    (hs : Sheets.Step newURL clock w r t w' r') :
    (∀ p ∈ markStamps r', p.2 = t.now) ∧ batchStamps r'.batch ⊆ batchStamps r.batch := by
  have hnone {r' : Sheets.Run} (hmark : markStamps r' = []) : ∀ p ∈ markStamps r', p.2 = t.now := by
    intro p hp
    rw [hmark] at hp
    exact absurd hp List.not_mem_nil
  cases hs with
  | @pairedInvalid i link vr hpc hlink =>
    refine ⟨fun p hp => ?_, List.Subset.refl _⟩
    obtain ⟨l, -, rfl⟩ := List.mem_map.mp hp
    rfl
  | pairedAll hpc =>
    obtain ⟨hmark, hbatch⟩ := sheetsStamps_loop
      { r with batch := ⟨r.validProcessableLinks.map Link.id, []⟩ } 0
    exact ⟨hnone hmark, fun p hp => absurd (hbatch hp) List.not_mem_nil⟩
  | toldProgress hpc =>
    obtain ⟨hmark, hbatch⟩ := sheetsStamps_loop r _
    exact ⟨hnone hmark, hbatch⟩
  | wroteData hpc =>
    refine ⟨hnone ?_, List.Subset.refl _⟩
    dsimp only [markStamps]
    split
    · rename_i heq
      split at heq <;> cases heq
    · rfl
  | _ => exact ⟨hnone rfl, List.Subset.refl _⟩

theorem checkStamps_step (hs : Steps newURL clock w c a w' c') :
    ∀ p ∈ checkStamps c', p ∈ checkStamps c ∨ p.2 = a.turn.now := by
  cases hs with
  | manual hs => exact fun p hp => .inl (manualStamps_step hs hp)
  | manualChild hm => exact batchStamps_move hm
  | manualBeat hlock hw | sheetsBeat hlock hw | missing => exact fun p hp => .inl hp
  | found hfind => exact fun p hp => absurd hp List.not_mem_nil
  | sheets hs =>
    obtain ⟨hmark, hbatch⟩ := sheetsStamps_step hs
    intro p hp
    obtain hp | hp := List.mem_append.mp hp
    · exact .inr (hmark p hp)
    · exact .inl (List.mem_append_right _ (hbatch hp))
  | sheetsChild hm =>
    intro p hp
    obtain hp | hp := List.mem_append.mp hp
    · exact .inl (List.mem_append_left _ hp)
    · exact (batchStamps_move hm p hp).imp_left (List.mem_append_right _)

end Steps

end LinkBulker.Worker
