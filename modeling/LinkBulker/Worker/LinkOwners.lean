import LinkBulker.Worker.SheetsSequence

/-! Which links a bulk job calls `processOne` for: each of its own ones once, and a link is one of
the manual links of a project or of the links of a sheets task. -/

namespace LinkBulker.Worker

open Foundations Db Shared LinkRepository SingleLink
open ProjectLock (Kind View Act Check Steps manualView sheetsView)
open Sheets (taskKey)

variable {newURL : UrlParser} {clock : Sheets.LocalClock} {w w' : World} {P : LinkId → Prop}
  {owner : LinkId → LinkInput} {keys : List (SheetsTaskId × ProjectId)}

structure Batch.Fits (P : LinkId → Prop) (b : Batch) : Prop where
  nodup : b.ids.Nodup
  own : ∀ id ∈ b.ids, P id
  called : b.calls.map ProcessOne.linkId <+: b.ids

namespace Batch

variable {b b' : Batch} {n i : ℕ}

theorem Fits.fresh {ids : List LinkId} (hnodup : ids.Nodup) (hown : ∀ id ∈ ids, P id) :
    Fits P ⟨ids, []⟩ :=
  ⟨hnodup, hown, List.nil_prefix⟩

theorem Fits.move {k : ℕ} {t : Turn} (h : b.Fits P) (hm : b.move newURL w k t = some (w', b')) :
    b'.Fits P := by
  obtain ⟨c, c', hget, hlink, -, rfl⟩ := move_eq_some hm
  refine ⟨h.nodup, h.own, ?_⟩
  rw [map_linkId_set hget hlink]
  exact h.called

theorem Fits.start (h : b.Fits P) (hlen : b.calls.length = min i b.ids.length) :
    (b.start n i).Fits P := by
  refine ⟨h.nodup, h.own, ?_⟩
  have hcalled : b.calls.map ProcessOne.linkId = b.ids.take i := by
    have htake := List.prefix_iff_eq_take.mp h.called
    rwa [List.length_map, hlen, ← List.take_eq_take_min] at htake
  have hcalls : (b.start n i).calls.map ProcessOne.linkId = b.ids.take (i + n) := by
    rw [Batch.start, List.map_append, hcalled, List.map_map]
    rw [show ProcessOne.linkId ∘ (fun id => ⟨id, .findById⟩ : LinkId → ProcessOne) = id from rfl,
      List.map_id, ← List.take_add]
  rw [hcalls]
  exact List.take_prefix _ _

theorem Fits.first (h : b.Fits P) (hcalls : b.calls = []) : (b.start n 0).Fits P :=
  h.start (by rw [hcalls, Nat.zero_min]; rfl)

theorem Fits.next (h : b.Fits P) (hchunk : b.Chunk n i) : (b.start n (i + n)).Fits P :=
  h.start hchunk.length

theorem Fits.countP_le (h : b.Fits P) (id : LinkId) :
    (b.calls.countP fun c => c.linkId = id) ≤ 1 := by
  have hnodup : (b.calls.map ProcessOne.linkId).Nodup := h.nodup.sublist h.called.sublist
  have hcount := List.nodup_iff_count_le_one.mp hnodup id
  rw [List.count, List.countP_map] at hcount
  simpa [Function.comp_def, beq_eq_decide] using hcount

theorem Fits.own_of_mem (h : b.Fits P) {c : ProcessOne} (hc : c ∈ b.calls) : P c.linkId :=
  h.own _ (h.called.subset (List.mem_map_of_mem hc))

end Batch

theorem fits_manual {h h' : ManualCheck.Handle} {t : Turn} (hs : ManualCheck.Step w h t w' h')
    (hp : (manualView h).Paced) (hf : h.batch.Fits P) : h'.batch.Fits P := by
  have hstands := hp.stands
  cases hs with
  | queued hpc =>
    have hcalls : h.batch.calls = [] := by
      rw [manualView, hpc] at hstands
      exact hstands
    unfold ManualCheck.Handle.loop
    split
    · exact hf.first hcalls
    · exact hf
  | next hpc =>
    have hchunk := by
      rw [manualView, hpc] at hstands
      exact hstands.1
    unfold ManualCheck.Handle.loop
    split
    · exact hf.next hchunk
    · exact hf
  | _ => exact hf

def Kept (r : Sheets.Run) : Sheets.Pc → Prop
  | .acquire | .setRunning | .setFlag | .publishRunning | .resolveTitle | .readRows | .replaceLinks
  | .fetchLinks => r.validProcessableLinks = []
  | .pair i | .markInvalid i _ => r.validProcessableLinks.Sublist (r.persistedLinks.take i)
  | _ => r.validProcessableLinks.Sublist r.persistedLinks

theorem Kept.sublist {r : Sheets.Run} {pc : Sheets.Pc} (h : Kept r pc) :
    r.validProcessableLinks.Sublist r.persistedLinks := by
  unfold Kept at h
  split at h
  case h_9 | h_10 => exact h.trans (List.take_sublist _ _)
  case h_11 => exact h
  all_goals
    rw [h]
    exact List.nil_sublist _

structure RunFits (owner : LinkId → LinkInput) (r : Sheets.Run) : Prop where
  nodup : (r.persistedLinks.map Link.id).Nodup
  own : ∀ l ∈ r.persistedLinks, (owner l.id).sheetsTaskId = some r.task.id
  kept : Kept r r.pc
  batch : r.batch.Fits fun id => (owner id).sheetsTaskId = some r.task.id

theorem RunFits.start (task : SheetsTask) : RunFits owner { task } :=
  ⟨List.nodup_nil, fun _ hl => absurd hl List.not_mem_nil, rfl,
    .fresh List.nodup_nil fun _ hid => absurd hid List.not_mem_nil⟩

theorem RunFits.pairedAll {r : Sheets.Run} (h : RunFits owner r) :
    RunFits owner (Sheets.Run.loop { r with batch := ⟨r.validProcessableLinks.map Link.id, []⟩ } 0) := by
  have hsub := h.kept.sublist
  have hfresh : Batch.Fits (fun id => (owner id).sheetsTaskId = some r.task.id)
      ⟨r.validProcessableLinks.map Link.id, []⟩ := by
    refine .fresh (h.nodup.sublist (hsub.map Link.id)) fun id hid => ?_
    obtain ⟨l, hl, rfl⟩ := List.mem_map.mp hid
    exact h.own l (hsub.subset hl)
  unfold Sheets.Run.loop
  split
  · exact ⟨h.nodup, h.own, hsub, hfresh.first rfl⟩
  · exact ⟨h.nodup, h.own, hsub, hfresh⟩

theorem RunFits.next {r : Sheets.Run} {i : ℕ} {counts : ProgressCounts} (h : RunFits owner r)
    (hpc : r.pc = .publishProgress i counts) (hp : (sheetsView r).Paced) :
    RunFits owner (r.loop (i + Sheets.INTERNAL_CONCURRENCY)) := by
  have hchunk := by
    have hstands := hp.stands
    rw [sheetsView, hpc] at hstands
    exact hstands.1
  have hsub := h.kept.sublist
  unfold Sheets.Run.loop
  split
  · exact ⟨h.nodup, h.own, hsub, h.batch.next hchunk⟩
  · exact ⟨h.nodup, h.own, hsub, h.batch⟩

theorem RunFits.fetched {r : Sheets.Run} (h : RunFits owner r) (hpc : r.pc = .fetchLinks)
    (hnamed : ∀ l ∈ w.db.links.rows, l.input = owner l.id) :
    RunFits owner { r with
      persistedLinks := findLinksBySheetsTaskOrdered w.db r.task.id, pc := .pair 0 } := by
  have hkept : r.validProcessableLinks = [] := by
    have hkept := h.kept
    rwa [hpc] at hkept
  refine ⟨findLinks_nodup r.task.id, fun l hl => ?_, ?_, h.batch⟩
  · obtain ⟨hmem, htask⟩ := mem_findLinks.mp hl
    rw [← hnamed l hmem]
    exact htask
  · simp only [Kept, hkept]
    exact List.nil_sublist _

theorem RunFits.step {r r' : Sheets.Run} {t : Sheets.SheetsTurn}
    (hs : Sheets.Step newURL clock w r t w' r') (hp : (sheetsView r).Paced)
    (hnamed : ∀ l ∈ w.db.links.rows, l.input = owner l.id) (h : RunFits owner r) :
    RunFits owner r' := by
  have hsub := h.kept.sublist
  have hkept := h.kept
  cases hs with
  | fetched hpc => exact h.fetched hpc hnamed
  | pairedAll hpc hlink => exact h.pairedAll
  | toldProgress hpc => exact h.next hpc hp
  | pairedValid hpc hlink hvr hok =>
    refine ⟨h.nodup, h.own, ?_, h.batch⟩
    rw [hpc] at hkept
    simp only [Kept, List.take_add_one, hlink, Option.toList_some]
    exact hkept.append (List.Sublist.refl _)
  | pairedInvalid hpc hlink hvr herr =>
    rw [hpc] at hkept
    exact ⟨h.nodup, h.own, hkept, h.batch⟩
  | marked hpc hlink hvr hsave =>
    refine ⟨h.nodup, h.own, ?_, h.batch⟩
    rw [hpc] at hkept
    simp only [Kept, List.take_add_one, hlink, Option.toList_some]
    exact hkept.trans (List.sublist_append_left _ _)
  | locked hpc | running hpc | raised hpc | toldRunning hpc | titled hpc | read hpc
  | replaced hpc =>
    rw [hpc] at hkept
    exact ⟨h.nodup, h.own, hkept, h.batch⟩
  | wroteData hpc =>
    refine ⟨h.nodup, h.own, ?_, h.batch⟩
    dsimp only
    split <;> exact hsub
  | _ => exact ⟨h.nodup, h.own, hsub, h.batch⟩

def Owns (owner : LinkId → LinkInput) (keys : List (SheetsTaskId × ProjectId)) (kind : Kind)
    (p : ProjectId) (id : LinkId) : Prop :=
  match kind with
  | .manual => (owner id).sheetsTaskId = none ∧ (owner id).projectId = p
  | .sheets => ∃ task, (owner id).sheetsTaskId = some task ∧ (task, p) ∈ keys

theorem Owns.unique {kind kind' : Kind} {p p' : ProjectId} {id : LinkId}
    (hkeys : (keys.map Prod.fst).Nodup) (h : Owns owner keys kind p id)
    (h' : Owns owner keys kind' p' id) : kind = kind' ∧ p = p' := by
  cases kind with
  | manual =>
    cases kind' with
    | manual => exact ⟨rfl, h.2.symm.trans h'.2⟩
    | sheets =>
      obtain ⟨task, htask, -⟩ := h'
      cases h.1.symm.trans htask
  | sheets =>
    obtain ⟨task, htask, hmem⟩ := h
    cases kind' with
    | manual => cases h'.1.symm.trans htask
    | sheets =>
      obtain ⟨task', htask', hmem'⟩ := h'
      obtain rfl := Option.some.inj (htask.symm.trans htask')
      exact ⟨rfl, congrArg Prod.snd (List.inj_on_of_nodup_map hkeys hmem hmem' rfl)⟩

def CheckFits (owner : LinkId → LinkInput) (keys : List (SheetsTaskId × ProjectId)) : Check → Prop
  | .manual h => h.batch.Fits fun id => Owns owner keys .manual h.job.projectId id
  | .sheets (.body r) => taskKey r.task ∈ keys ∧ RunFits owner r
  | .sheets (.find _) | .sheets .missing => True

theorem CheckFits.view {c : Check} (h : CheckFits owner keys c) {v : View} (hv : v ∈ c.view) :
    v.batch.Fits fun id => Owns owner keys v.kind v.projectId id := by
  cases c with
  | manual h' =>
    obtain rfl := Option.some.inj hv
    exact h
  | sheets c =>
    cases c with
    | find id => cases hv
    | missing => cases hv
    | body r =>
      obtain rfl := Option.some.inj hv
      obtain ⟨hkey, hfits⟩ := h
      exact ⟨hfits.batch.nodup, fun id hid => ⟨r.task.id, hfits.batch.own id hid, hkey⟩,
        hfits.batch.called⟩

theorem CheckFits.step {c c' : Check} {a : Act} (h : CheckFits owner keys c)
    (hs : Steps newURL clock w c a w' c') (hp : ∀ v ∈ c.view, v.Paced)
    (hnamed : ∀ l ∈ w.db.links.rows, l.input = owner l.id)
    (hkeys : w.db.sheetsTasks.rows.map taskKey = keys) : CheckFits owner keys c' := by
  cases hs with
  | manual hs =>
    have hjob := hs.job
    simp only [CheckFits, hjob]
    exact fits_manual hs (hp _ rfl) h
  | manualChild hm => exact Batch.Fits.move h hm
  | manualBeat hlock hw => exact h
  | missing => trivial
  | found hfind =>
    obtain ⟨hmem, -⟩ := Table.find?_eq_some.mp hfind
    exact ⟨hkeys ▸ List.mem_map_of_mem hmem, .start _⟩
  | sheets hs => exact ⟨hs.task.symm ▸ h.1, h.2.step hs (hp _ rfl) hnamed⟩
  | sheetsChild hm => exact ⟨h.1, h.2.nodup, h.2.own, h.2.kept, h.2.batch.move hm⟩
  | sheetsBeat hlock hw => exact h

end LinkBulker.Worker
