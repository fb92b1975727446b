import LinkBulker.Worker.Ranks

/-! A bulk job is never stuck and has so many steps to take: until it is over, the job itself or one
of its `processOne` calls can go on, whatever it is answered. -/

namespace LinkBulker.Worker

open Foundations Db Shared LinkRepository SingleLink
open ProjectLock (Act Check Steps)

variable {newURL : UrlParser} {clock : Sheets.LocalClock} {w w' : World} {b b' : Batch} {k : ℕ}

theorem processOne_ready {p : ProcessOne} (h : p.settled = false) (w : World) (t : Turn) :
    (p.move newURL w t).isSome := by
  obtain ⟨id, pc⟩ := p
  cases pc with
  | resolved | rejected => cases h
  | findById =>
    simp only [ProcessOne.move]
    split
    · rfl
    · split <;> rfl
  | markStatus link =>
    simp only [ProcessOne.move]
    split
    · rfl
    · split <;> rfl
  | saveResult link result now =>
    simp only [ProcessOne.move]
    split
    · rfl
    · split <;> rfl
  | publishChecking link | crawl link | publishSaved link saved => rfl

theorem Batch.ready_of_mem (newURL : UrlParser) {p : ProcessOne} (hp : p ∈ b.calls)
    (hopen : p.settled = false) : ∃ k, ∀ w t, (b.move newURL w k t).isSome := by
  obtain ⟨k, hk⟩ := List.mem_iff_getElem?.mp hp
  refine ⟨k, fun w t => ?_⟩
  rw [Batch.move, Option.isSome_map]
  exact Pool.isSome_step hk (processOne_ready hopen w t)

theorem Batch.exists_ready {i : ℕ} (h : b.all i = none) :
    ∃ k, ∀ w t, (b.move newURL w k t).isSome := by
  unfold Batch.all at h
  split at h
  · cases h
  · rename_i hrejected
    split at h
    · cases h
    · rename_i hresolved
      obtain ⟨c, hc, hpending⟩ : ∃ c ∈ b.calls.drop i, c.pc ≠ .resolved := by
        by_contra hnone
        push Not at hnone
        exact hresolved (by simpa using hnone)
      have hopen : c.pc ≠ .rejected := fun hpc =>
        hrejected (List.any_eq_true.mpr ⟨c, hc, decide_eq_true hpc⟩)
      have hsettled : c.settled = false := by
        unfold ProcessOne.settled
        split
        · rename_i hpc
          exact absurd hpc hpending
        · rename_i hpc
          exact absurd hpc hopen
        · rfl
      exact Batch.ready_of_mem newURL (List.mem_of_mem_drop hc) hsettled

section Manual

variable {h h' : ManualCheck.Handle} {t : Turn}

def Manual.Able (h : ManualCheck.Handle) : Prop :=
  h.pc = .acquire ∨ h.pc = .skipped ∨ h.lock.isSome

theorem Manual.Able.step (h₀ : Manual.Able h) (hs : ManualCheck.Step w h t w' h') :
    Manual.Able h' := by
  have hlock (hpc : h.pc ≠ .acquire) (hpc' : h.pc ≠ .skipped) : h.lock.isSome :=
    (h₀.resolve_left hpc).resolve_left hpc'
  cases hs with
  | skip hpc => exact .inr (.inl rfl)
  | locked hpc => exact .inr (.inr rfl)
  | queued hpc | next hpc =>
    refine .inr (.inr ?_)
    unfold ManualCheck.Handle.loop
    split <;> exact hlock (by simp [hpc]) (by simp [hpc])
  | throws hpc =>
    refine .inr (.inr (hlock ?_ ?_)) <;> intro hat <;> rw [hat] at hpc <;> cases hpc
  | _ hpc => exact .inr (.inr (hlock (by simp [hpc]) (by simp [hpc])))

theorem Manual.Able.ready (newURL : UrlParser) (h₀ : Manual.Able h) (hended : h.pc ≠ .ended)
    (hskipped : h.pc ≠ .skipped) :
    (∀ w t, (h.main w t).isSome) ∨ ∃ k, ∀ w t, (h.batch.move newURL w k t).isSome := by
  cases hpc : h.pc with
  | ended => exact absurd hpc hended
  | skipped => exact absurd hpc hskipped
  | awaitAll i =>
    cases hall : h.batch.all i with
    | none => exact .inr (Batch.exists_ready hall)
    | some resolved =>
      refine .inl fun w t => ?_
      simp only [ManualCheck.Handle.main, hpc, hall]
      cases resolved <;> rfl
  | release =>
    obtain ⟨lock, hlock⟩ := Option.isSome_iff_exists.mp
      ((h₀.resolve_left (by simp [hpc])).resolve_left hskipped)
    refine .inl fun w t => ?_
    simp only [ManualCheck.Handle.main, hpc, hlock]
    split <;> rfl
  | acquire | setFlag | clearFlag =>
    refine .inl fun w t => ?_
    simp only [ManualCheck.Handle.main, hpc]
    split
    · rfl
    · split <;> rfl
  | markQueued | counts i | updateProgress i | finalCounts =>
    refine .inl fun w t => ?_
    simp only [ManualCheck.Handle.main, hpc]
    split <;> rfl
  | publishLocked | publishProgress i counts | publishDone final | publishUnlocked =>
    refine .inl fun w t => ?_
    simp only [ManualCheck.Handle.main, hpc]
    rfl

end Manual

section Sheets

variable {r r' : Sheets.Run} {t : Sheets.SheetsTurn}

structure Sheets.Able (r : Sheets.Run) : Prop where
  lock : r.pc = .acquire ∨ r.pc = .skipped ∨ r.lock.isSome
  unread : early r.pc → r.persistedLinks = [] ∧ r.validProcessableLinks = []
  paired : ∀ i, r.pc.marking = some i → i < r.persistedLinks.length ∧ i < r.validRows.length

theorem Sheets.Able.start (task : SheetsTask) : Sheets.Able { task } :=
  ⟨.inl rfl, fun _ => ⟨rfl, rfl⟩, nofun⟩

theorem Sheets.Able.late (hlock : r.lock.isSome) (hlate : early r.pc = false)
    (hpaired : r.pc.marking = none) : Sheets.Able r :=
  ⟨.inr (.inr hlock), fun hat => absurd hat (by rw [hlate]; nofun),
    fun i hpc => absurd hpc (by rw [hpaired]; nofun)⟩

theorem Sheets.Able.loop (hlock : r.lock.isSome) (i : ℕ) : Sheets.Able (r.loop i) := by
  unfold Sheets.Run.loop
  split
  · exact .late hlock rfl rfl
  · exact .late hlock rfl rfl

theorem Sheets.Able.step (h : Sheets.Able r) (hs : Sheets.Step newURL clock w r t w' r') :
    Sheets.Able r' := by
  have hlock (hpc : r.pc ≠ .acquire) (hpc' : r.pc ≠ .skipped) : r.lock.isSome :=
    (h.lock.resolve_left hpc).resolve_left hpc'
  have hearly := h.unread
  cases hs with
  | skip hpc => exact ⟨.inr (.inl rfl), nofun, nofun⟩
  | locked hpc =>
    rw [hpc] at hearly
    exact ⟨.inr (.inr rfl), fun _ => hearly rfl, nofun⟩
  | running hpc | raised hpc | toldRunning hpc | titled hpc | read hpc | replaced hpc =>
    have hheld := hlock (by simp [hpc]) (by simp [hpc])
    rw [hpc] at hearly
    exact ⟨.inr (.inr hheld), fun _ => hearly rfl, nofun⟩
  | fails hpc reason =>
    refine .late (hlock ?_ ?_) rfl rfl <;> intro hat <;> rw [hat] at hpc <;> cases hpc
  | pairedAll hpc =>
    have hheld := hlock (by simp [hpc]) (by simp [hpc])
    exact Sheets.Able.loop
      (r := { r with batch := ⟨r.validProcessableLinks.map Link.id, []⟩ }) hheld 0
  | toldProgress hpc =>
    exact .loop (hlock (by simp [hpc]) (by simp [hpc])) _
  | pairedInvalid hpc hlink hvr =>
    refine ⟨.inr (.inr (hlock (by simp [hpc]) (by simp [hpc]))), nofun, fun i hat => ?_⟩
    cases hat
    exact ⟨(List.getElem?_eq_some_iff.mp hlink).1, (List.getElem?_eq_some_iff.mp hvr).1⟩
  | wroteData hpc =>
    refine .late (hlock (by simp [hpc]) (by simp [hpc])) ?_ ?_ <;> dsimp only <;> split
    · rfl
    · rfl
    · rfl
    · rfl
  | _ hpc => exact .late (hlock (by simp [hpc]) (by simp [hpc])) rfl rfl

theorem Sheets.Able.ready (newURL : UrlParser) (clock : Sheets.LocalClock) (h : Sheets.Able r)
    (hended : r.pc ≠ .ended) (hskipped : r.pc ≠ .skipped) :
    (∀ w t, (r.main newURL clock w t).isSome) ∨ ∃ k, ∀ w t, (r.batch.move newURL w k t).isSome := by
  cases hpc : r.pc with
  | ended => exact absurd hpc hended
  | skipped => exact absurd hpc hskipped
  | awaitAll i =>
    cases hall : r.batch.all i with
    | none => exact .inr (Batch.exists_ready hall)
    | some resolved =>
      refine .inl fun w t => ?_
      simp only [Sheets.Run.main, hpc, hall]
      cases resolved <;> rfl
  | release =>
    obtain ⟨lock, hlock⟩ := Option.isSome_iff_exists.mp
      ((h.lock.resolve_left (by simp [hpc])).resolve_left hskipped)
    refine .inl fun w t => ?_
    simp only [Sheets.Run.main, hpc, hlock]
    split <;> rfl
  | markInvalid i now =>
    obtain ⟨hlink, hrow⟩ := h.paired i (by rw [hpc]; rfl)
    refine .inl fun w t => ?_
    simp only [Sheets.Run.main, hpc, List.getElem?_eq_getElem hlink, List.getElem?_eq_getElem hrow]
    split
    · rfl
    · split <;> rfl
  | acquire | setRunning | setFlag | resolveTitle | replaceLinks | setCompleted status
  | setFailed reason | refindFailed reason | clearFlag =>
    refine .inl fun w t => ?_
    simp only [Sheets.Run.main, hpc]
    split
    · rfl
    · split <;> rfl
  | readRows | fetchLinks | counts i | fetchFinal | writeData | writeHeader | setWidths | finalCounts
  | refind status =>
    refine .inl fun w t => ?_
    simp only [Sheets.Run.main, hpc]
    split <;> rfl
  | publishRunning | publishProgress i counts | publishCompleted updated status
  | publishFailed updated reason | pair i =>
    refine .inl fun w t => ?_
    simp only [Sheets.Run.main, hpc]
    rfl

end Sheets

section Checks

variable {c c' : Check} {a : Act} {t : Turn}

def mainAct (c : Check) (t : Sheets.SheetsTurn) : Act :=
  match c with
  | .manual _ => .manual (.main t.toTurn)
  | .sheets _ => .sheets (.main t)

def childAct (c : Check) (k : ℕ) (t : Turn) : Act :=
  match c with
  | .manual _ => .manual (.child k t)
  | .sheets _ => .sheets (.child k t)

def Able : Check → Prop
  | .manual h => Manual.Able h
  | .sheets (.body r) => Sheets.Able r
  | .sheets (.find _) | .sheets .missing => True

theorem Able.step (h : Able c) (hs : Steps newURL clock w c a w' c') : Able c' := by
  cases hs with
  | manual hs => exact Manual.Able.step h hs
  | manualChild hm => exact h
  | manualBeat hlock hw => exact h
  | missing => trivial
  | found hfind => exact Sheets.Able.start _
  | sheets hs => exact Sheets.Able.step h hs
  | sheetsChild hm => exact ⟨h.lock, h.unread, h.paired⟩
  | sheetsBeat hlock hw => exact h

theorem Able.ready (newURL : UrlParser) (clock : Sheets.LocalClock) (h : Able c)
    (hopen : c.over = false) :
    (∀ w t, (c.move newURL clock w (mainAct c t)).isSome) ∨
      ∃ k, ∀ w t, (c.move newURL clock w (childAct c k t)).isSome := by
  cases c with
  | manual h' =>
    simp only [Check.over, Bool.or_eq_false_iff, decide_eq_false_iff_not] at hopen
    obtain hmain | ⟨k, hk⟩ := Manual.Able.ready newURL h hopen.1 hopen.2
    · refine .inl fun w t => ?_
      simp only [mainAct, Check.move, ManualCheck.Handle.move, Option.isSome_map]
      exact hmain w t.toTurn
    · refine .inr ⟨k, fun w t => ?_⟩
      simp only [childAct, Check.move, ManualCheck.Handle.move, Option.isSome_map]
      exact hk w t
  | sheets call =>
    cases call with
    | find sheetsTaskId =>
      refine .inl fun w t => ?_
      simp only [mainAct, Check.move, Sheets.Call.move, Option.isSome_map]
      split
      · rfl
      · split <;> rfl
    | missing => cases hopen
    | body r =>
      simp only [Check.over, Bool.or_eq_false_iff, decide_eq_false_iff_not] at hopen
      obtain hmain | ⟨k, hk⟩ := Sheets.Able.ready newURL clock h hopen.1 hopen.2
      · refine .inl fun w t => ?_
        simp only [mainAct, Check.move, Sheets.Call.move, Sheets.Run.move, Option.isSome_map]
        exact hmain w t
      · refine .inr ⟨k, fun w t => ?_⟩
        simp only [childAct, Check.move, Sheets.Call.move, Sheets.Run.move, Option.isSome_map]
        exact hk w t

def advances : Act → Bool
  | .manual (.beat _) | .sheets (.beat _) => false
  | _ => true

def checkRank : Check → ℕ
  | .manual h => Manual.rank h
  | .sheets (.body r) => Sheets.rank r
  | .sheets (.find _) => 23
  | .sheets .missing => 0

def checkBudget : Check → ℕ
  | .manual h => 10 + 10 * h.job.linkIds.length
  | .sheets (.body r) => Sheets.budget r
  | .sheets (.find _) | .sheets .missing => 23

theorem checkRank_step (h : Able c) (hsweeps : CheckSweeps c) (hs : Steps newURL clock w c a w' c') :
    checkRank c' + checkBudget c + (advances a).toNat ≤ checkRank c + checkBudget c' := by
  cases hs with
  | manual hs =>
    have hless := Manual.rank_step (ManualSweeps.ids hsweeps) hs
    simp only [checkRank, checkBudget, hs.job, advances, Bool.toNat_true]
    omega
  | manualChild hm =>
    have hless := Batch.rank_move hm
    simp only [checkRank, checkBudget, Manual.rank, Manual.ahead, advances, Bool.toNat_true]
    omega
  | manualBeat hlock hw | sheetsBeat hlock hw => exact le_refl _
  | missing =>
    simp only [checkRank, checkBudget, advances, Bool.toNat_true]
    omega
  | found hfind => exact le_refl _
  | sheets hs =>
    have hless := Sheets.rank_step h.unread (SheetsSweeps.ids hsweeps) hs
    simp only [checkRank, checkBudget, advances, Bool.toNat_true]
    omega
  | sheetsChild hm =>
    have hless := Batch.rank_move hm
    simp only [checkRank, checkBudget, Sheets.rank, Sheets.ahead, Sheets.budget, advances,
      Bool.toNat_true]
    omega

def unread : Check → Bool
  | .sheets (.find _) => true
  | .sheets (.body r) => early r.pc
  | .manual _ | .sheets .missing => false

theorem Sheets.late_loop (r : Sheets.Run) (i : ℕ) :
    early (r.loop i).pc = false ∧ (r.loop i).persistedLinks = r.persistedLinks := by
  unfold Sheets.Run.loop
  split <;> exact ⟨rfl, rfl⟩

theorem Sheets.late_step {r r' : Sheets.Run} {t : Sheets.SheetsTurn} (hlate : early r.pc = false)
    (hs : Sheets.Step newURL clock w r t w' r') :
    early r'.pc = false ∧ r'.persistedLinks = r.persistedLinks := by
  cases hs with
  | skip hpc | fails hpc reason | rejected hpc hall reason => exact ⟨rfl, rfl⟩
  | locked hpc | running hpc | raised hpc | toldRunning hpc | titled hpc | read hpc | replaced hpc
  | fetched hpc =>
    rw [hpc] at hlate
    cases hlate
  | pairedAll hpc hlink => exact Sheets.late_loop { r with batch := ⟨_, []⟩ } 0
  | toldProgress hpc => exact Sheets.late_loop r _
  | wroteData hpc =>
    refine ⟨?_, rfl⟩
    dsimp only
    split <;> rfl
  | _ hpc => exact ⟨rfl, rfl⟩

theorem unread_step (h : Able c) (hs : Steps newURL clock w c a w' c') :
    (unread c' = unread c ∧ checkBudget c' = checkBudget c) ∨
      (unread c = true ∧ unread c' = false) := by
  cases hs with
  | manual hs => exact .inl ⟨rfl, by rw [checkBudget, checkBudget, hs.job]⟩
  | manualChild hm | manualBeat hlock hw | sheetsChild hm | sheetsBeat hlock hw =>
    exact .inl ⟨rfl, rfl⟩
  | missing => exact .inr ⟨rfl, rfl⟩
  | found hfind => exact .inl ⟨rfl, rfl⟩
  | @sheets _ r r' t hs =>
    cases hearly : early r.pc with
    | false =>
      obtain ⟨hlate, hlinks⟩ := Sheets.late_step hearly hs
      refine .inl ⟨hlate.trans hearly.symm, ?_⟩
      rw [checkBudget, checkBudget, Sheets.budget, Sheets.budget, hlinks]
    | true =>
      cases hearly' : early r'.pc with
      | false => exact .inr ⟨hearly, hearly'⟩
      | true =>
        have hnone := (h.unread hearly).1
        have hnone' := (Sheets.Able.step h hs).unread hearly'
        refine .inl ⟨hearly'.trans hearly.symm, ?_⟩
        rw [checkBudget, checkBudget, Sheets.budget, Sheets.budget, hnone, hnone'.1]

/-- A job that reads its links may rank higher then, but it does so only once. -/
theorem unread_or_checkRank (h : Able c) (hsweeps : CheckSweeps c)
    (hs : Steps newURL clock w c a w' c') :
    (unread c' = unread c ∧ checkRank c' + (advances a).toNat ≤ checkRank c) ∨
      (unread c = true ∧ unread c' = false) := by
  have hrank := checkRank_step h hsweeps hs
  refine (unread_step h hs).imp_left fun ⟨hunread, hbudget⟩ => ⟨hunread, ?_⟩
  omega

theorem Batch.rank_eq_zero : b.rank = 0 ↔ ∀ p ∈ b.calls, p.settled := by
  rw [Batch.rank, List.sum_eq_zero_iff_forall_eq_nat]
  simp only [List.mem_map, forall_exists_index, and_imp, forall_apply_eq_imp_iff₂]
  refine forall₂_congr fun p _ => ?_
  unfold ProcessOne.settled
  cases p.pc <;> simp [Pc.rank]

def Check.settled (c : Check) : Prop := ∀ v ∈ c.view, ∀ p ∈ v.batch.calls, p.settled

theorem exists_child_ready (newURL : UrlParser) (clock : Sheets.LocalClock)
    (h : ¬ Check.settled c) : ∃ k, ∀ w t, (c.move newURL clock w (childAct c k t)).isSome := by
  simp only [Check.settled, not_forall, Bool.not_eq_true] at h
  obtain ⟨v, hview, p, hp, hopen⟩ := h
  cases c with
  | manual h =>
    cases hview
    obtain ⟨k, hk⟩ := Batch.ready_of_mem newURL (show p ∈ h.batch.calls from hp) hopen
    refine ⟨k, fun w t => ?_⟩
    simp only [childAct, Check.move, ManualCheck.Handle.move, Option.isSome_map]
    exact hk w t
  | sheets call =>
    cases call with
    | find _ | missing => cases hview
    | body r =>
      cases hview
      obtain ⟨k, hk⟩ := Batch.ready_of_mem newURL (show p ∈ r.batch.calls from hp) hopen
      refine ⟨k, fun w t => ?_⟩
      simp only [childAct, Check.move, Sheets.Call.move, Sheets.Run.move, Option.isSome_map]
      exact hk w t

theorem checkRank_eq_zero : checkRank c = 0 ↔ c.over ∧ Check.settled c := by
  cases c with
  | manual h =>
    have hover : Manual.ahead h = 0 ↔ (Check.manual h).over := by
      unfold Manual.ahead Check.over
      cases hpc : h.pc <;> simp [hpc]
    have hsettled : Check.settled (.manual h) ↔ h.batch.rank = 0 := by
      simp [Check.settled, Check.view, Batch.rank_eq_zero, ProjectLock.manualView]
    rw [hsettled, ← hover, checkRank, Manual.rank, Nat.add_eq_zero_iff]
  | sheets call =>
    cases call with
    | find _ => simp [checkRank, Check.over]
    | missing => simp [checkRank, Check.over, Check.settled, Check.view]
    | body r =>
      have hover : Sheets.ahead r = 0 ↔ (Check.sheets (.body r)).over := by
        unfold Sheets.ahead Check.over
        cases hpc : r.pc <;> simp [hpc]
      have hsettled : Check.settled (.sheets (.body r)) ↔ r.batch.rank = 0 := by
        simp [Check.settled, Check.view, Batch.rank_eq_zero, ProjectLock.sheetsView]
      rw [hsettled, ← hover, checkRank, Sheets.rank, Nat.add_eq_zero_iff]

theorem unread_of_over (h : c.over) : unread c = false := by
  cases c with
  | manual h => rfl
  | sheets call =>
    cases call with
    | find _ => cases h
    | missing => rfl
    | body r =>
      unfold Check.over at h
      unfold unread
      cases hpc : r.pc <;> simp_all [early]

end Checks

end LinkBulker.Worker
