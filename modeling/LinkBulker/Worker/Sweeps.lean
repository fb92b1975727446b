import LinkBulker.Worker.LinkOwners

/-! How a bulk job goes through its links: from the front, `INTERNAL_CONCURRENCY` of them at a time
and each of them once. -/

namespace LinkBulker.Worker

open Foundations Db Shared LinkRepository SingleLink
open ProjectLock (Stage View Act Check Steps manualStage sheetsStage manualView sheetsView)

variable {newURL : UrlParser} {clock : Sheets.LocalClock} {w w' : World} {b b' : Batch} {n i : ℕ}

namespace Batch

def unsettled (b : Batch) : ℕ := b.calls.countP fun c => !c.settled

structure Front (n : ℕ) (b : Batch) : Prop where
  called : b.calls.map ProcessOne.linkId <+: b.ids
  few : b.unsettled ≤ n

structure Complete (b : Batch) : Prop where
  called : b.calls.map ProcessOne.linkId = b.ids
  resolved : ∀ c ∈ b.calls, c.pc = .resolved

theorem unsettled_of_settled (h : b.settled) : b.unsettled = 0 := by
  rw [unsettled, List.countP_eq_zero]
  intro c hc
  simp [settled_iff.mp h c hc]

theorem settled_of_resolved (h : ∀ c ∈ b.calls, c.pc = .resolved) : b.settled :=
  settled_iff.mpr fun c hc => settled_of_pc (.inl (h c hc))

theorem Chunk.few (h : Chunk n b i) : b.unsettled ≤ n := by
  have hzero : (b.calls.take i).countP (fun c => !c.settled) = 0 := by
    rw [List.countP_eq_zero]
    intro c hc
    simp [h.before c hc]
  have hrest : (b.calls.drop i).countP (fun c => !c.settled) ≤ n := by
    refine List.countP_le_length.trans ?_
    rw [List.length_drop, h.length]
    omega
  rw [unsettled, ← List.take_append_drop i b.calls, List.countP_append, hzero, Nat.zero_add]
  exact hrest

theorem unsettled_move {k : ℕ} {t : Turn} (hm : b.move newURL w k t = some (w', b')) :
    b'.unsettled ≤ b.unsettled := by
  obtain ⟨d, hd, hunsettled⟩ := unsettled_of_move hm
  obtain ⟨c, c', hget, -, -, rfl⟩ := move_eq_some hm
  obtain rfl := Option.some.inj (hget.symm.trans hd)
  obtain ⟨rest, hcs, hset⟩ := Pool.exists_rest hget
  rw [unsettled, unsettled, hcs.countP_eq, (hset c').countP_eq]
  simp only [List.countP_cons, hunsettled]
  split <;> simp

theorem called_start (hcalled : b.calls.map ProcessOne.linkId <+: b.ids)
    (hlen : b.calls.length = min i b.ids.length) :
    (b.start n i).calls.map ProcessOne.linkId = b.ids.take (i + n) := by
  have hfirst : b.calls.map ProcessOne.linkId = b.ids.take i := by
    have htake := List.prefix_iff_eq_take.mp hcalled
    rwa [List.length_map, hlen, ← List.take_eq_take_min] at htake
  rw [start, List.map_append, hfirst, List.map_map]
  rw [show ProcessOne.linkId ∘ (fun id => ⟨id, .findById⟩ : LinkId → ProcessOne) = id from rfl,
    List.map_id, ← List.take_add]

end Batch

open Batch

def Sweeps (n : ℕ) (b : Batch) : Stage → Prop
  | .away | .entered | .preparing => b.calls = []
  | .awaiting i => b.Chunk n i ∧ b.calls.map ProcessOne.linkId <+: b.ids ∧
    ∀ c ∈ b.calls.take i, c.pc = .resolved
  | .between i => b.Chunk n i ∧ b.calls.map ProcessOne.linkId <+: b.ids ∧
    ∀ c ∈ b.calls, c.pc = .resolved
  | .finishing => b.Complete
  | .closing | .clearing | .lowered | .released => b.Front n

theorem Front.of_nil (h : b.calls = []) : Front n b where
  called := by rw [h]; exact List.nil_prefix
  few := by rw [unsettled_of_settled (settled_of_nil h)]; exact Nat.zero_le n

theorem Sweeps.front {stage : Stage} (h : Sweeps n b stage) : Front n b := by
  cases stage with
  | away | entered | preparing => exact Front.of_nil h
  | awaiting i => exact ⟨h.2.1, h.1.few⟩
  | between i => exact ⟨h.2.1, h.1.few⟩
  | finishing =>
    refine ⟨h.called ▸ List.prefix_refl _, ?_⟩
    rw [unsettled_of_settled (settled_of_resolved h.resolved)]
    exact Nat.zero_le n
  | closing | clearing | lowered | released => exact h

theorem Sweeps.first (h : b.calls = []) : Sweeps n (b.start n 0) (.awaiting 0) := by
  refine ⟨.first h, ?_, ?_⟩
  · rw [called_start (by rw [h]; exact List.nil_prefix) (by rw [h, Nat.zero_min]; rfl)]
    exact List.take_prefix _ _
  · rw [List.take_zero]
    exact fun _ hc => absurd hc List.not_mem_nil

theorem Sweeps.next (h : Sweeps n b (.between i)) :
    Sweeps n (b.start n (i + n)) (.awaiting (i + n)) := by
  obtain ⟨hchunk, hcalled, hresolved⟩ := h
  refine ⟨hchunk.next (settled_of_resolved hresolved), ?_, fun c hc => ?_⟩
  · rw [called_start hcalled hchunk.length]
    exact List.take_prefix _ _
  · have hlen := hchunk.length
    rw [start, List.take_append, List.mem_append] at hc
    obtain hc | hc := hc
    · exact hresolved c (List.mem_of_mem_take hc)
    · -- either the chunk begins where the calls end, or there is nothing left for it
      by_cases hle : i + n ≤ b.ids.length
      · rw [show i + n - b.calls.length = 0 by omega, List.take_zero] at hc
        cases hc
      · rw [List.drop_of_length_le (by omega), List.take_nil, List.map_nil, List.take_nil] at hc
        cases hc

theorem Sweeps.complete (h : Sweeps n b (.between i)) (hlen : b.ids.length ≤ i + n) :
    b.Complete := by
  obtain ⟨hchunk, hcalled, hresolved⟩ := h
  refine ⟨hcalled.eq_of_length ?_, hresolved⟩
  rw [List.length_map, hchunk.length]
  omega

theorem Sweeps.returned (h : Sweeps n b (.awaiting i)) (hall : b.all i = some true) :
    Sweeps n b (.between i) := by
  obtain ⟨hchunk, hcalled, hbefore⟩ := h
  refine ⟨hchunk, hcalled, fun c hc => ?_⟩
  rw [← List.take_append_drop i b.calls, List.mem_append] at hc
  exact hc.elim (hbefore c) (resolved_of_all hall c)

theorem Batch.Complete.of_nil (hcalls : b.calls = []) (hids : b.ids = []) : b.Complete := by
  refine ⟨by rw [hcalls, hids]; rfl, ?_⟩
  rw [hcalls]
  exact fun _ hc => absurd hc List.not_mem_nil

theorem Sweeps.move {stage : Stage} {k : ℕ} {t : Turn} (h : Sweeps n b stage)
    (hm : b.move newURL w k t = some (w', b')) : Sweeps n b' stage ∧ b'.ids = b.ids ∧ ¬ b.Complete := by
  have hidle : ¬ b.settled := by simp [not_settled_of_move hm]
  have hfew := unsettled_move hm
  obtain ⟨c, c', hget, hlink, -, rfl⟩ := move_eq_some hm
  refine ⟨?_, rfl, fun hcomplete => hidle (settled_of_resolved hcomplete.resolved)⟩
  have hcalled (hcalled : b.calls.map ProcessOne.linkId <+: b.ids) :
      (b.calls.set k c').map ProcessOne.linkId <+: b.ids := by
    rwa [map_linkId_set hget hlink]
  cases stage with
  | away | entered | preparing => exact absurd (settled_of_nil h) hidle
  | awaiting i =>
    have hik := le_of_move h.1.before hm
    refine ⟨h.1.move hm, hcalled h.2.1, ?_⟩
    dsimp only
    rw [List.take_set_of_le hik]
    exact h.2.2
  | between i => exact absurd (settled_of_resolved h.2.2) hidle
  | finishing => exact absurd (settled_of_resolved h.resolved) hidle
  | closing | clearing | lowered | released => exact ⟨hcalled h.called, hfew.trans h.few⟩

def leftBody : Stage → Bool
  | .clearing | .lowered | .released => true
  | _ => false

structure ManualSweeps (h : ManualCheck.Handle) : Prop where
  ids : h.batch.ids = h.job.linkIds
  sweeps : Sweeps ManualCheck.INTERNAL_CONCURRENCY h.batch (manualStage h.pc)
  done : leftBody (manualStage h.pc) → h.threw = false → h.batch.Complete

theorem ManualSweeps.start (job : ManualCheckJobData) : ManualSweeps { job } :=
  ⟨rfl, rfl, nofun⟩

section Manual

variable {h h' : ManualCheck.Handle} {t : Turn}

theorem ManualSweeps.loop (hids : h.batch.ids = h.job.linkIds)
    (hgo : i < h.job.linkIds.length →
      Sweeps ManualCheck.INTERNAL_CONCURRENCY (h.batch.start ManualCheck.INTERNAL_CONCURRENCY i)
        (.awaiting i))
    (hend : h.job.linkIds.length ≤ i → h.batch.Complete) : ManualSweeps (h.loop i) := by
  unfold ManualCheck.Handle.loop
  split
  · exact ⟨hids, hgo ‹_›, nofun⟩
  · exact ⟨hids, hend (not_lt.mp ‹_›), nofun⟩

theorem ManualSweeps.step (h₀ : ManualSweeps h) (hs : ManualCheck.Step w h t w' h') :
    ManualSweeps h' := by
  have hids := h₀.ids
  have hsweeps := h₀.sweeps
  have hthrows : ManualSweeps (h.finally_ true) := ⟨hids, hsweeps.front, nofun⟩
  cases hs with
  | throws hpc hr => exact hthrows
  | flagGone hpc hset => exact hthrows
  | rejected hpc hall => exact hthrows
  | skip hpc | locked hpc hacq | raised hpc hset | toldLocked hpc | countedAll hpc =>
    rw [hpc] at hsweeps
    exact ⟨hids, hsweeps, nofun⟩
  | counted hpc | toldProgress hpc =>
    rw [hpc] at hsweeps
    exact ⟨hids, hsweeps, nofun⟩
  | queued hpc =>
    rw [hpc] at hsweeps
    refine .loop hids (fun _ => .first hsweeps) fun hlen => .of_nil hsweeps ?_
    rw [hids]
    exact List.eq_nil_of_length_eq_zero (Nat.le_zero.mp hlen)
  | resolved hpc hall =>
    rw [hpc] at hsweeps
    exact ⟨hids, hsweeps.returned hall, nofun⟩
  | next hpc =>
    rw [hpc] at hsweeps
    exact .loop hids (fun _ => hsweeps.next) fun hlen => hsweeps.complete (hids ▸ hlen)
  | toldDone hpc =>
    rw [hpc] at hsweeps
    exact ⟨hids, hsweeps.front, fun _ _ => hsweeps⟩
  | lowered hpc | lowerFailed hpc | toldUnlocked hpc | released hpc | releaseFailed hpc =>
    have hdone := h₀.done
    rw [hpc] at hsweeps hdone
    exact ⟨hids, hsweeps, fun _ => hdone rfl⟩

theorem ManualSweeps.child {k : ℕ} (h₀ : ManualSweeps h)
    (hm : h.batch.move newURL w k t = some (w', b)) : ManualSweeps { h with batch := b } := by
  obtain ⟨hsweeps, hids, hopen⟩ := h₀.sweeps.move hm
  exact ⟨hids.trans h₀.ids, hsweeps, fun hleft hthrew => absurd (h₀.done hleft hthrew) hopen⟩

end Manual

def inLoop : Stage → Bool
  | .awaiting _ | .between _ | .finishing => true
  | _ => false

structure SheetsSweeps (r : Sheets.Run) : Prop where
  sweeps : Sweeps Sheets.INTERNAL_CONCURRENCY r.batch (sheetsStage r.pc)
  ids : inLoop (sheetsStage r.pc) → r.batch.ids = r.validProcessableLinks.map Link.id
  threw : sheetsStage r.pc = .closing → r.threw ≠ none
  done : leftBody (sheetsStage r.pc) → r.threw = none →
    r.batch.Complete ∧ r.batch.ids = r.validProcessableLinks.map Link.id

theorem SheetsSweeps.start (task : SheetsTask) : SheetsSweeps { task } :=
  ⟨rfl, nofun, nofun, nofun⟩

section Sheets

variable {r r' : Sheets.Run} {t : Sheets.SheetsTurn}

theorem SheetsSweeps.loop (hids : r.batch.ids = r.validProcessableLinks.map Link.id)
    (hgo : i < r.validProcessableLinks.length →
      Sweeps Sheets.INTERNAL_CONCURRENCY (r.batch.start Sheets.INTERNAL_CONCURRENCY i) (.awaiting i))
    (hend : r.validProcessableLinks.length ≤ i → r.batch.Complete) : SheetsSweeps (r.loop i) := by
  unfold Sheets.Run.loop
  split
  · exact ⟨hgo ‹_›, fun _ => hids, nofun, nofun⟩
  · exact ⟨hend (not_lt.mp ‹_›), fun _ => hids, nofun, nofun⟩

theorem SheetsSweeps.step (h₀ : SheetsSweeps r) (hs : Sheets.Step newURL clock w r t w' r') :
    SheetsSweeps r' := by
  have hsweeps := h₀.sweeps
  have hids := h₀.ids
  have hthrew := h₀.threw
  have hdone := h₀.done
  have hfail (reason : String) : SheetsSweeps (r.fail reason) :=
    ⟨hsweeps.front, nofun, fun _ => nofun, nofun⟩
  cases hs with
  | fails hpc reason => exact hfail reason
  | rejected hpc hall reason => exact hfail reason
  | skip hpc | locked hpc | running hpc | raised hpc | toldRunning hpc | titled hpc | read hpc
  | replaced hpc | fetched hpc | pairedValid hpc | pairedInvalid hpc | marked hpc =>
    rw [hpc] at hsweeps
    exact ⟨hsweeps, nofun, nofun, nofun⟩
  | failedSet hpc | failedUnset hpc | refoundFailed hpc =>
    rw [hpc] at hsweeps hthrew
    exact ⟨hsweeps, nofun, fun _ => hthrew rfl, nofun⟩
  | pairedAll hpc hlink =>
    refine .loop rfl (fun _ => .first rfl) fun hlen => .of_nil rfl ?_
    exact List.map_eq_nil_iff.mpr (List.eq_nil_of_length_eq_zero (Nat.le_zero.mp hlen))
  | resolved hpc hall =>
    rw [hpc] at hsweeps hids
    exact ⟨hsweeps.returned hall, fun _ => hids rfl, nofun, nofun⟩
  | counted hpc =>
    rw [hpc] at hsweeps hids
    exact ⟨hsweeps, fun _ => hids rfl, nofun, nofun⟩
  | toldProgress hpc =>
    rw [hpc] at hsweeps hids
    refine .loop (hids rfl) (fun _ => hsweeps.next) fun hlen => hsweeps.complete ?_
    rw [hids rfl, List.length_map]
    exact hlen
  | nothing hpc | planned hpc | wroteHeader hpc | wroteWidths hpc | widthsFailed hpc | countedAll hpc
  | completed hpc | refound hpc =>
    rw [hpc] at hsweeps hids
    exact ⟨hsweeps, fun _ => hids rfl, nofun, nofun⟩
  | wroteData hpc =>
    rw [hpc] at hsweeps hids
    have hstage : sheetsStage (if 0 < r.task.headerRow then .writeHeader else .setWidths) =
        .finishing := by split <;> rfl
    refine ⟨?_, fun _ => hids rfl, ?_, ?_⟩ <;> dsimp only <;> rw [hstage]
    · exact hsweeps
    · nofun
    · nofun
  | toldCompleted hpc =>
    rw [hpc] at hsweeps hids
    exact ⟨hsweeps.front, nofun, nofun, fun _ _ => ⟨hsweeps, hids rfl⟩⟩
  | unfoundFailed hpc | toldFailed hpc =>
    rw [hpc] at hsweeps hthrew
    exact ⟨hsweeps, nofun, nofun, fun _ hnone => absurd hnone (hthrew rfl)⟩
  | lowered hpc | lowerFailed hpc | released hpc | releaseFailed hpc =>
    rw [hpc] at hsweeps hdone
    exact ⟨hsweeps, nofun, nofun, fun _ => hdone rfl⟩

theorem SheetsSweeps.child {k : ℕ} {t : Turn} (h₀ : SheetsSweeps r)
    (hm : r.batch.move newURL w k t = some (w', b)) : SheetsSweeps { r with batch := b } := by
  obtain ⟨hsweeps, hids, hopen⟩ := h₀.sweeps.move hm
  exact ⟨hsweeps, fun hloop => hids.trans (h₀.ids hloop), h₀.threw,
    fun hleft hthrew => absurd (h₀.done hleft hthrew).1 hopen⟩

end Sheets

def CheckSweeps : Check → Prop
  | .manual h => ManualSweeps h
  | .sheets (.body r) => SheetsSweeps r
  | .sheets (.find _) | .sheets .missing => True

theorem CheckSweeps.step {c c' : Check} {a : Act} (h : CheckSweeps c)
    (hs : Steps newURL clock w c a w' c') : CheckSweeps c' := by
  cases hs with
  | manual hs => exact ManualSweeps.step h hs
  | manualChild hm => exact ManualSweeps.child h hm
  | manualBeat hlock hw => exact h
  | missing => trivial
  | found hfind => exact .start _
  | sheets hs => exact SheetsSweeps.step h hs
  | sheetsChild hm => exact SheetsSweeps.child h hm
  | sheetsBeat hlock hw => exact h

end LinkBulker.Worker
