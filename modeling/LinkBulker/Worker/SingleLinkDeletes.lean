import LinkBulker.Api.LinksList
import LinkBulker.Api.ProjectsService
import LinkBulker.Api.SheetsTasksService
import LinkBulker.Worker.SingleLinkLaws

/-! `processOne` while the API deletes links, projects and sheets tasks. -/

namespace LinkBulker.SingleLink

open Foundations Db Shared Crawler LinkRepository

/-- The statement with which a request of the API deletes: `deleteOne`, `deleteAllManual`, and
`remove` of a sheets task or of a project with all that cascades. -/
inductive Deletion
  | link (id : LinkId)
  | manualLinks (projectId : ProjectId)
  | sheetsTask (id : SheetsTaskId)
  | project (id : ProjectId)

def Deletion.apply (db : Database) : Deletion → Database
  | .link id => { db with links := db.links.delete id }
  | .manualLinks projectId =>
    { db with links := db.links.deleteWhere fun l => l.projectId == projectId && l.source == .MANUAL }
  | .sheetsTask id => db.deleteSheetsTask id
  | .project id => db.deleteProject id

inductive Label
  | move (t : Turn)
  | delete (d : Deletion)

def step (newURL : UrlParser) (s : World × ProcessOne) : Label → Option (World × ProcessOne)
  | .move t => s.2.move newURL s.1 { t with rejects := false }
  | .delete d => some ({ s.1 with db := d.apply s.1.db }, s.2)

def Present (s : World × ProcessOne) : Prop := ∃ l ∈ s.1.db.links.rows, l.id = s.2.linkId

/-- No request deletes the row between the call's read of it and its last update. -/
def Spares (s : World × ProcessOne) : Label → Prop
  | .move _ => True
  | .delete d => s.2.inFlight → Present s → Present ({ s.1 with db := d.apply s.1.db }, s.2)

instance (s : World × ProcessOne) : Decidable (Present s) :=
  inferInstanceAs (Decidable (∃ l ∈ s.1.db.links.rows, l.id = s.2.linkId))

instance (s : World × ProcessOne) : (l : Label) → Decidable (Spares s l)
  | .move _ => .isTrue trivial
  | .delete d => inferInstanceAs (Decidable (s.2.inFlight → Present s →
      Present ({ s.1 with db := d.apply s.1.db }, s.2)))

section Laws

variable {newURL : UrlParser} {s s' : World × ProcessOne} {l : Label}

theorem Deletion.sublist (d : Deletion) (db : Database) :
    (d.apply db).links.rows.Sublist db.links.rows := by
  cases d <;> exact List.filter_sublist

theorem present_move {p' : ProcessOne} {w' : World} {t : Turn}
    (h : s.2.move newURL s.1 t = some (w', p')) : Present (w', p') ↔ Present s := by
  obtain ⟨hid, hmoves⟩ := move_eq_some h
  have hinputs := congrArg (List.map LinkInput.id) hmoves.inputs
  rw [List.map_map, List.map_map] at hinputs
  have hmem : s.2.linkId ∈ w'.db.links.rows.map Link.id ↔
      s.2.linkId ∈ s.1.db.links.rows.map Link.id := by
    rw [← show w'.db.links.rows.map Link.id = s.1.db.links.rows.map Link.id from hinputs]
  simpa only [Present, hid, List.mem_map] using hmem

theorem deletion_of_request {db db' : Database} {userId : UserId} {id : String} :
    (LinksService.deleteOne db userId id = .ok db' → db' = (Deletion.link id).apply db) ∧
      (LinksService.deleteAllManual db userId id = .ok db' →
        db' = (Deletion.manualLinks id).apply db) ∧
      (∀ calls, SheetsTasksService.remove db userId id = .ok (db', calls) →
        db' = (Deletion.sheetsTask id).apply db) ∧
      (ProjectsService.remove db userId id = .ok db' → db' = (Deletion.project id).apply db) :=
  ⟨LinksService.deleteOne_eq_ok, LinksService.deleteAllManual_eq_ok,
    fun _ h => (SheetsTasksService.remove_eq_ok h).1, ProjectsService.remove_eq_ok⟩

def Checked (s : World × ProcessOne) : Prop :=
  ∀ l ∈ s.1.db.links.rows, l.id = s.2.linkId → l.status = .DONE ∨ l.status = .ERROR

structure Sound (s : World × ProcessOne) : Prop where
  present : s.2.inFlight → Present s
  pc : s.2.pc ≠ .rejected
  checked : s.2.unsaved = false → Checked s

def Doomed (s : World × ProcessOne) : Prop :=
  (s.2.inFlight ∨ s.2.pc = .rejected) ∧ ¬ Present s

theorem checked_of_saveResult {w : World} {id : LinkId} {row : Link} {db : Database}
    {result : CrawlAndAnalyzeResult} {now : ℤ}
    (h : saveResult w.db id result now = some (row, db)) :
    ∀ l ∈ db.links.rows, l.id = id → l.status = .DONE ∨ l.status = .ERROR := by
  intro l hl hid
  rw [(saveResult_rows h).2.2] at hl
  obtain ⟨l₀, -, rfl⟩ := List.mem_map.mp hl
  split at hid
  · rename_i hid₀
    rw [if_pos hid₀, saveResultData]
    cases result.ok with
    | true => exact .inl rfl
    | false => exact .inr rfl
  · contradiction

theorem Sound.delete (h : Sound s) (d : Deletion) (hspares : Spares s (.delete d)) :
    Sound ({ s.1 with db := d.apply s.1.db }, s.2) where
  present hflight := hspares hflight (h.present hflight)
  pc := h.pc
  checked hsaved l hl := h.checked hsaved l ((d.sublist s.1.db).subset hl)

theorem Sound.move (h : Sound s) {t : Turn} {w' : World} {p' : ProcessOne}
    (hm : s.2.move newURL s.1 { t with rejects := false } = some (w', p')) : Sound (w', p') := by
  obtain ⟨w, p⟩ := s
  obtain ⟨id, pc⟩ := p
  obtain ⟨id', pc'⟩ := p'
  have hpresent := present_move hm
  obtain ⟨rfl, hmoves⟩ := move_eq_some hm
  simp only at hmoves
  cases hmoves with
  | fails ha hr => cases hr
  | missing hr hno =>
    refine ⟨(fun hflight => by cases hflight), (fun hpc => by cases hpc), fun _ l hl hid => ?_⟩
    exact absurd hid (hno l hl)
  | found hr hl hid =>
    exact ⟨fun _ => ⟨_, hl, hid⟩, (fun hpc => by cases hpc), (fun hsaved => by cases hsaved)⟩
  | markGone hr hno | saveGone hr hno =>
    obtain ⟨l, hl, hid⟩ := h.present rfl
    exact absurd hid (hno l hl)
  | marked hr hset | checking | crawled =>
    exact ⟨fun _ => hpresent.mpr (h.present rfl), (fun hpc => by cases hpc),
      (fun hsaved => by cases hsaved)⟩
  | saved hr hset =>
    exact ⟨(fun hflight => by cases hflight), (fun hpc => by cases hpc),
      fun _ => checked_of_saveResult hset⟩
  | published =>
    refine ⟨(fun hflight => by cases hflight), (fun hpc => by cases hpc), fun _ l hl hid => ?_⟩
    rw [publishNow_db] at hl
    exact h.checked rfl l hl hid

theorem Sound.step (h : Sound s) (hspares : Spares s l)
    (hs : SingleLink.step newURL s l = some s') : Sound s' := by
  cases l with
  | move t => exact h.move hs
  | delete d =>
    cases hs
    exact h.delete d hspares

theorem Doomed.move (h : Doomed s) {t : Turn} {w' : World} {p' : ProcessOne}
    (hm : s.2.move newURL s.1 t = some (w', p')) : Doomed (w', p') := by
  obtain ⟨w, p⟩ := s
  obtain ⟨id, pc⟩ := p
  obtain ⟨id', pc'⟩ := p'
  have hpresent := present_move hm
  obtain ⟨rfl, hmoves⟩ := move_eq_some hm
  obtain ⟨hgoing, hgone⟩ := h
  refine ⟨?_, fun h => hgone (hpresent.mp h)⟩
  simp only at hmoves
  cases hmoves with
  | fails ha hr | markGone hr hno | saveGone hr hno => exact .inr rfl
  | missing hr hno | found hr hl hid | published =>
    rcases hgoing with hgoing | hgoing <;> cases hgoing
  | marked hr hset | checking | crawled => exact .inl rfl
  | saved hr hset =>
    obtain ⟨l, hl, hid, -⟩ := saveResult_eq_some.mp hset
    exact absurd ⟨l, hl, hid⟩ hgone

theorem Doomed.step (h : Doomed s) (hs : SingleLink.step newURL s l = some s') : Doomed s' := by
  cases l with
  | move t => exact h.move hs
  | delete d =>
    cases hs
    exact ⟨h.1, fun ⟨row, hrow, hid⟩ => h.2 ⟨row, (d.sublist s.1.db).subset hrow, hid⟩⟩

theorem meets_of_resolved {labels : List Label} (h : Sound s)
    (hr : exec (SingleLink.step newURL) s labels = some s') (hpc : s'.2.pc = .resolved) :
    Meets (SingleLink.step newURL) Spares s labels := by
  induction labels generalizing s with
  | nil => trivial
  | cons l labels ih =>
    obtain ⟨t, hs, hr⟩ := exec_cons.mp hr
    have hspares : Spares s l := by
      cases l with
      | move t => trivial
      | delete d =>
        intro hin hpresent
        by_contra hgone
        cases hs
        have hdoomed : Doomed ({ s.1 with db := d.apply s.1.db }, s.2) := ⟨.inl hin, hgone⟩
        have hend : Doomed s' := exec_invariant (fun _ _ _ h hs => h.step hs) hdoomed hr
        rcases hend.1 with hend | hend
        · rw [ProcessOne.inFlight, hpc] at hend
          cases hend
        · cases hpc.symm.trans hend
    refine ⟨hspares, fun t' ht' => ?_⟩
    obtain rfl := Option.some.inj (hs.symm.trans ht')
    exact ih (h.step hspares hs) hr

theorem Sound.start (w : World) (linkId : LinkId) :
    Sound (w, { linkId }) :=
  ⟨(fun hflight => by cases hflight), (fun hpc => by cases hpc), fun hsaved => by cases hsaved⟩

def Label.isMove : Label → Bool
  | .move _ => true
  | .delete _ => false

theorem countP_isMove_le {labels : List Label}
    (hr : exec (SingleLink.step newURL) s labels = some s') :
    labels.countP Label.isMove + s'.2.pc.left ≤ s.2.pc.left := by
  induction labels generalizing s with
  | nil =>
    cases hr
    simp
  | cons l labels ih =>
    obtain ⟨t, hs, hr⟩ := exec_cons.mp hr
    have hrest := ih hr
    cases l with
    | move turn =>
      have hlt : t.2.pc.left < s.2.pc.left := (move_eq_some hs).2.left_lt
      rw [List.countP_cons_of_pos rfl]
      omega
    | delete d =>
      cases hs
      rw [List.countP_cons_of_neg Bool.false_ne_true]
      exact hrest

/-- In any interleaving with deletes.  A call that has not ended has a next step, and takes six at
most; and one that has ended has resolved, with its link checked where it still exists, exactly when
no request deleted the row between the call's read of it and its last update. -/
theorem processOne_resolves_iff (newURL : UrlParser) (w : World) (linkId : LinkId)
    {labels : List Label} (hr : exec (SingleLink.step newURL) (w, { linkId }) labels = some s) :
    labels.countP Label.isMove ≤ 6 ∧
      (s.2.settled = false → ∀ t, (SingleLink.step newURL s (.move t)).isSome) ∧
      (s.2.settled → (s.2.pc = .resolved ∧
          (∀ l ∈ s.1.db.links.rows, l.id = linkId → l.status = .DONE ∨ l.status = .ERROR) ↔
        Meets (SingleLink.step newURL) Spares (w, { linkId }) labels)) := by
  have hstart : Sound (w, { linkId }) := Sound.start w linkId
  have hcount : labels.countP Label.isMove + s.2.pc.left ≤ 6 := countP_isMove_le hr
  have hid : s.2.linkId = linkId := by
    refine exec_invariant (I := fun s => s.2.linkId = linkId) (fun s l s' h hs => ?_) rfl hr
    cases l with
    | move t => exact (move_eq_some hs).1.trans h
    | delete d =>
      cases hs
      exact h
  refine ⟨by omega, fun h t => move_isSome h s.1 _, fun hsettled => ⟨fun h => ?_, fun hspared => ?_⟩⟩
  · exact meets_of_resolved hstart hr h.1
  · have hsound : Sound s :=
      exec_invariant_of_meets (fun _ _ _ h hl hs => h.step hl hs) hstart hspared hr
    have hpc : s.2.pc = .resolved := by
      unfold ProcessOne.settled at hsettled
      split at hsettled
      · assumption
      · exact absurd ‹_› hsound.pc
      · cases hsettled
    refine ⟨hpc, fun l hl hl' => hsound.checked ?_ l hl (hl'.trans hid.symm)⟩
    rw [ProcessOne.unsaved, hpc]

def sparedLabels : List Label :=
  [.move {}, .move {}, .delete (.link "b"), .move {}, .move { run := foundRun },
    .move { now := 1000 }, .move {}]

theorem processOne_resolves_sample :
    ∃ s, exec (SingleLink.step exampleURL) ({ db := LinksService.bulkDatabase }, { linkId := "a" })
        sparedLabels = some s ∧
      s.2.pc = .resolved ∧
        ∀ l ∈ s.1.db.links.rows, l.id = "a" → l.status = .DONE ∨ l.status = .ERROR := by
  obtain ⟨s, hs, hsettled⟩ : ∃ s, exec (SingleLink.step exampleURL)
      ({ db := LinksService.bulkDatabase }, { linkId := "a" }) sparedLabels = some s ∧
        s.2.settled := exists_of_any (by decide +kernel)
  exact ⟨s, hs, ((processOne_resolves_iff exampleURL { db := LinksService.bulkDatabase } "a" hs).2.2
    hsettled).mpr (by decide +kernel)⟩

/-- The link is deleted while it is crawled, and the update that stores the result rejects. -/
theorem deleted_while_crawled :
    ∃ s, exec (SingleLink.step exampleURL) ({ db := LinksService.bulkDatabase }, { linkId := "a" })
        [.move {}, .move {}, .move {}, .delete (.link "a"), .move { run := foundRun }, .move {}] =
          some s ∧ s.2.pc = .rejected :=
  exists_of_any (by decide +kernel)

end Laws

end LinkBulker.SingleLink
