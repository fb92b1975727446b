import LinkBulker.Worker.Stamps
import LinkBulker.Worker.Sweeps

/-! What the calls of a job have seen to so far: links whose result is stored, or that are gone.
`good` is what can be said of such a link. -/

namespace LinkBulker.Worker

open Foundations Db Shared LinkRepository SingleLink
open ProjectLock (Act Check Steps sheetsStage)

variable {newURL : UrlParser} {clock : Sheets.LocalClock} {w w' : World} {b b' : Batch} {n i k : ℕ}
  {ps : List (LinkId × ℤ)} {good good' : LinkId → Prop}

structure Settles (w w' : World) (ps : List (LinkId × ℤ)) (called : List LinkId)
    (good good' : LinkId → Prop) : Prop where
  mono : ∀ id, good id → good' id
  missing : ∀ id ∈ called, (∀ l ∈ w.db.links.rows, l.id ≠ id) → good' id
  saved : ∀ id result now row, (id, now) ∈ ps →
    saveResult w.db id result now = some (row, w'.db) → good' id

section Calls

variable {c : ProcessOne} {t : Turn}

def Seen (good : LinkId → Prop) (c : ProcessOne) : Prop :=
  c.pc = .resolved ∨ (∃ link saved, c.pc = .publishSaved link saved) → good c.linkId

theorem Seen.mono (h : Seen good c) (hmono : ∀ id, good id → good' id) : Seen good' c :=
  fun hpc => hmono _ (h hpc)

theorem Seen.findById (id : LinkId) : Seen good ⟨id, .findById⟩ := by
  intro hpc
  cases hpc with
  | inl h => cases h
  | inr h =>
    obtain ⟨_, _, h⟩ := h
    cases h

theorem Seen.moves {id : LinkId} {pc pc' : SingleLink.Pc} (h : Seen good ⟨id, pc⟩)
    (hsettles : Settles w w' (callStamps ⟨id, pc⟩) [id] good good')
    (hm : Moves newURL w id t pc w' pc') : Seen good' ⟨id, pc'⟩ := by
  intro hpc
  cases hm with
  | missing hr hnone => exact hsettles.missing id (List.mem_singleton.mpr rfl) hnone
  | saved hr hsave => exact hsettles.saved _ _ _ _ (List.mem_singleton.mpr rfl) hsave
  | published => exact hsettles.mono _ (h (.inr ⟨_, _, rfl⟩))
  | fails ha hr | found hr hl hid | markGone hr hnone | marked hr hset | checking | crawled
  | saveGone hr hnone =>
    cases hpc with
    | inl hpc => cases hpc
    | inr hpc =>
      obtain ⟨_, _, hpc⟩ := hpc
      cases hpc

def BatchSeen (good : LinkId → Prop) (b : Batch) : Prop := ∀ c ∈ b.calls, Seen good c

theorem BatchSeen.nil (ids : List LinkId) : BatchSeen good ⟨ids, []⟩ :=
  fun _ hc => absurd hc List.not_mem_nil

theorem BatchSeen.mono (h : BatchSeen good b) (hmono : ∀ id, good id → good' id) :
    BatchSeen good' b :=
  fun c hc => (h c hc).mono hmono

theorem BatchSeen.start (h : BatchSeen good b) (n i : ℕ) : BatchSeen good (b.start n i) := by
  intro c hc
  obtain hc | ⟨hpc, -⟩ := Batch.mem_calls_start hc
  · exact h c hc
  · obtain ⟨id, pc⟩ := c
    dsimp only at hpc
    rw [hpc]
    exact .findById id

theorem BatchSeen.move (h : BatchSeen good b)
    (hsettles : Settles w w' (batchStamps b) (b.calls.map ProcessOne.linkId) good good')
    (hm : b.move newURL w k t = some (w', b')) : BatchSeen good' b' := by
  obtain ⟨c, ⟨id, pc'⟩, hget, rfl, hmoves, rfl⟩ := Batch.move_eq_some hm
  have hc := List.mem_of_getElem? hget
  have hmine : Settles w w' (callStamps c) [c.linkId] good good' := by
    refine ⟨hsettles.mono, fun id hid => hsettles.missing id ?_, fun id result now row hp =>
      hsettles.saved id result now row (mem_batchStamps_of_mem hc hp)⟩
    rw [List.mem_singleton.mp hid]
    exact List.mem_map_of_mem hc
  exact Pool.forall_set (h.mono hsettles.mono) ((h c hc).moves hmine hmoves)

theorem BatchSeen.complete (h : BatchSeen good b) (hcomplete : b.Complete) :
    ∀ id ∈ b.ids, good id := by
  intro id hid
  rw [← hcomplete.called] at hid
  obtain ⟨c, hc, rfl⟩ := List.mem_map.mp hid
  exact h c hc (.inl (hcomplete.resolved c hc))

end Calls

section Manual

variable {h h' : ManualCheck.Handle} {t : Turn}

theorem BatchSeen.manualLoop (hseen : BatchSeen good h.batch) (i : ℕ) :
    BatchSeen good (h.loop i).batch := by
  unfold ManualCheck.Handle.loop
  split
  · exact hseen.start _ _
  · exact hseen

theorem BatchSeen.manual (hseen : BatchSeen good h.batch) (hs : ManualCheck.Step w h t w' h') :
    BatchSeen good h'.batch := by
  cases hs with
  | queued hpc | next hpc => exact hseen.manualLoop _
  | _ => exact hseen

end Manual

section Sheets

variable {r r' : Sheets.Run} {t : Sheets.SheetsTurn}

def Handled (good : LinkId → Prop) (r : Sheets.Run) (l : Link) : Prop :=
  l ∈ r.validProcessableLinks ∨ good l.id

structure RunSeen (good : LinkId → Prop) (r : Sheets.Run) : Prop where
  batch : BatchSeen good r.batch
  pairing : ∀ i, r.pc = .pair i ∨ r.pc.marking = some i →
    ∀ l ∈ r.persistedLinks.take i, Handled good r l
  looping : inLoop (sheetsStage r.pc) → ∀ l ∈ r.persistedLinks, Handled good r l
  done : leftBody (sheetsStage r.pc) → r.threw = none → ∀ l ∈ r.persistedLinks, Handled good r l

theorem RunSeen.start (task : SheetsTask) : RunSeen good { task } :=
  ⟨.nil [], fun _ hpc => (by cases hpc <;> contradiction), nofun, nofun⟩

theorem RunSeen.mono (h : RunSeen good r) (hmono : ∀ id, good id → good' id) : RunSeen good' r where
  batch := h.batch.mono hmono
  pairing i hpc l hl := (h.pairing i hpc l hl).imp_right (hmono _)
  looping hloop l hl := (h.looping hloop l hl).imp_right (hmono _)
  done hleft hthrew l hl := (h.done hleft hthrew l hl).imp_right (hmono _)

theorem RunSeen.loop (hbatch : BatchSeen good r.batch)
    (hall : ∀ l ∈ r.persistedLinks, Handled good r l) (i : ℕ) : RunSeen good (r.loop i) := by
  unfold Sheets.Run.loop
  split
  · exact ⟨hbatch.start _ _, fun _ hpc => (by cases hpc <;> contradiction), fun _ => hall, nofun⟩
  · exact ⟨hbatch, fun _ hpc => (by cases hpc <;> contradiction), fun _ => hall, nofun⟩

theorem RunSeen.step (h : RunSeen good r) (hthrew : sheetsStage r.pc = .closing → r.threw ≠ none)
    (hsaved : ∀ id result now row, (id, now) ∈ markStamps r →
      saveResult w.db id result now = some (row, w'.db) → good id)
    (hs : Sheets.Step newURL clock w r t w' r') : RunSeen good r' := by
  have hbatch := h.batch
  have hpairing := h.pairing
  have hlooping := h.looping
  have hdone := h.done
  have hfail (reason : String) : RunSeen good (r.fail reason) :=
    ⟨hbatch, fun _ hpc => (by cases hpc <;> contradiction), nofun, nofun⟩
  cases hs with
  | fails hpc reason => exact hfail reason
  | rejected hpc hall reason => exact hfail reason
  | skip hpc | locked hpc | running hpc | raised hpc | toldRunning hpc | titled hpc | read hpc
  | replaced hpc | failedSet hpc | failedUnset hpc | refoundFailed hpc =>
    exact ⟨hbatch, fun _ hpc => (by cases hpc <;> contradiction), nofun, nofun⟩
  | fetched hpc =>
    refine ⟨hbatch, fun i hat l hl => ?_, nofun, nofun⟩
    cases hat with
    | inl hat =>
      cases hat
      exact absurd hl List.not_mem_nil
    | inr hat => cases hat
  | @pairedAll i hpc hlink =>
    refine RunSeen.loop (r := { r with batch := ⟨r.validProcessableLinks.map Link.id, []⟩ })
      (.nil _) (fun l hl => hpairing i (.inl hpc) l ?_) 0
    rwa [List.take_of_length_le (List.getElem?_eq_none_iff.mp hlink)]
  | @pairedValid i link vr hpc hlink =>
    refine ⟨hbatch, fun j hat l hl => ?_, nofun, nofun⟩
    cases hat with
    | inl hat =>
      cases hat
      rw [List.take_add_one, hlink] at hl
      obtain hl | hl := List.mem_append.mp hl
      · exact (hpairing i (.inl hpc) l hl).imp_left (List.mem_append_left _)
      · exact .inl (List.mem_append_right _ hl)
    | inr hat => cases hat
  | @pairedInvalid i link vr hpc =>
    refine ⟨hbatch, fun j hat l hl => ?_, nofun, nofun⟩
    cases hat with
    | inl hat => cases hat
    | inr hat =>
      cases hat
      exact hpairing i (.inl hpc) l hl
  | @marked i now link row vr db hpc hlink hvr hsave =>
    have hstamp : (link.id, now) ∈ markStamps r := by
      simp only [markStamps, hpc, hlink]
      exact List.mem_singleton.mpr rfl
    refine ⟨hbatch, fun j hat l hl => ?_, nofun, nofun⟩
    cases hat with
    | inl hat =>
      cases hat
      rw [List.take_add_one, hlink] at hl
      obtain hl | hl := List.mem_append.mp hl
      · exact hpairing i (.inr (by rw [hpc]; rfl)) l hl
      · rw [List.mem_singleton.mp hl]
        exact .inr (hsaved _ _ _ _ hstamp hsave)
    | inr hat => cases hat
  | toldProgress hpc =>
    rw [hpc] at hlooping
    exact .loop hbatch (hlooping rfl) _
  | resolved hpc hall | counted hpc | nothing hpc | planned hpc | wroteHeader hpc | wroteWidths hpc
  | widthsFailed hpc | countedAll hpc | completed hpc | refound hpc =>
    rw [hpc] at hlooping
    exact ⟨hbatch, fun _ hpc => (by cases hpc <;> contradiction), fun _ => hlooping rfl, nofun⟩
  | wroteData hpc =>
    rw [hpc] at hlooping
    split
    · exact ⟨hbatch, fun _ hpc => (by cases hpc <;> contradiction), fun _ => hlooping rfl, nofun⟩
    · exact ⟨hbatch, fun _ hpc => (by cases hpc <;> contradiction), fun _ => hlooping rfl, nofun⟩
  | toldCompleted hpc =>
    rw [hpc] at hlooping
    exact ⟨hbatch, fun _ hpc => (by cases hpc <;> contradiction), nofun, fun _ _ => hlooping rfl⟩
  | unfoundFailed hpc | toldFailed hpc =>
    rw [hpc] at hthrew
    exact ⟨hbatch, fun _ hpc => (by cases hpc <;> contradiction), nofun,
      fun _ hnone => absurd hnone (hthrew rfl)⟩
  | lowered hpc | lowerFailed hpc | released hpc | releaseFailed hpc =>
    rw [hpc] at hdone
    exact ⟨hbatch, fun _ hpc => (by cases hpc <;> contradiction), nofun, fun _ => hdone rfl⟩

end Sheets

section Checks

variable {c c' : Check} {a : Act}

def called : Check → List LinkId
  | .manual h => h.batch.calls.map ProcessOne.linkId
  | .sheets (.body r) => r.batch.calls.map ProcessOne.linkId
  | .sheets (.find _) | .sheets .missing => []

def CheckSeen (good : LinkId → Prop) : Check → Prop
  | .manual h => BatchSeen good h.batch
  | .sheets (.body r) => RunSeen good r
  | .sheets (.find _) | .sheets .missing => True

theorem CheckSeen.mono (h : CheckSeen good c) (hmono : ∀ id, good id → good' id) :
    CheckSeen good' c := by
  cases c with
  | manual h' => exact BatchSeen.mono h hmono
  | sheets call =>
    cases call with
    | find sheetsTaskId | missing => trivial
    | body r => exact RunSeen.mono h hmono

theorem CheckSeen.step (h : CheckSeen good c) (hsweeps : CheckSweeps c)
    (hsettles : Settles w w' (checkStamps c) (called c) good good')
    (hs : Steps newURL clock w c a w' c') : CheckSeen good' c' := by
  cases hs with
  | manual hs => exact BatchSeen.manual (BatchSeen.mono h hsettles.mono) hs
  | manualChild hm => exact BatchSeen.move h hsettles hm
  | manualBeat hlock hw | sheetsBeat hlock hw => exact h.mono hsettles.mono
  | missing => trivial
  | found hfind => exact .start _
  | sheets hs =>
    refine RunSeen.step (RunSeen.mono h hsettles.mono) (SheetsSweeps.threw hsweeps)
      (fun id result now row hp => ?_) hs
    exact hsettles.saved id result now row (List.mem_append_left _ hp)
  | @sheetsChild _ r _ _ _ hm =>
    have hrun := RunSeen.mono h hsettles.mono
    have hmine : Settles w w' (batchStamps r.batch) (called (.sheets (.body r))) good good' :=
      ⟨hsettles.mono, hsettles.missing, fun id result now row hp =>
        hsettles.saved id result now row (List.mem_append_right _ hp)⟩
    exact ⟨(RunSeen.batch h).move hmine hm, hrun.pairing, hrun.looping, hrun.done⟩

theorem RunSeen.ended {r : Sheets.Run} (h : RunSeen good r) (hsweeps : SheetsSweeps r)
    (hpc : r.pc = .ended) (hthrew : r.threw = none) : ∀ l ∈ r.persistedLinks, good l.id := by
  have hleft : leftBody (sheetsStage r.pc) := by
    rw [hpc]
    rfl
  obtain ⟨hcomplete, hids⟩ := hsweeps.done hleft hthrew
  intro l hl
  cases h.done hleft hthrew l hl with
  | inl hvalid =>
    refine h.batch.complete hcomplete _ ?_
    rw [hids]
    exact List.mem_map_of_mem hvalid
  | inr hgood => exact hgood

end Checks

end LinkBulker.Worker
