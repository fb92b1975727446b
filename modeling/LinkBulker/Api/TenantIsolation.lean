import LinkBulker.Api.Confinement
import LinkBulker.Worker.Crawler

/-! Tenant isolation of the REST services: two runs of the same operations of a user, over two states
that are the same to that user. -/

namespace LinkBulker.Services

open Foundations Db Shared LinksService SheetsTasksService

variable {newURL : UrlParser} {db : Database} {u : UserId}

structure Agree (u : UserId) (s t : Store) : Prop where
  rows : own u s.db = own u t.db
  manualLock : ∀ projectId, s.db.owns u projectId →
    s.locks (REDIS_KEYS.projectManualLock projectId) =
      t.locks (REDIS_KEYS.projectManualLock projectId)
  sheetsLock : ∀ projectId, s.db.owns u projectId →
    s.locks (REDIS_KEYS.projectSheetsLock projectId) =
      t.locks (REDIS_KEYS.projectSheetsLock projectId)

structure Ready (ops : List (Op newURL)) (s : Store) : Prop where
  consistent : s.db.Consistent
  nodup : (ops.flatMap Op.drawn).Nodup
  unused : ∀ id ∈ ops.flatMap Op.drawn, s.db.Unused id
  unlocked : ∀ id ∈ ops.flatMap Op.drawn, s.locks (REDIS_KEYS.projectManualLock id) = none ∧
    s.locks (REDIS_KEYS.projectSheetsLock id) = none

theorem respond_locks {locks locks' : String → LockManager.Key} (email : Option String)
    (hmanual : ∀ projectId, db.owns u projectId →
      locks (REDIS_KEYS.projectManualLock projectId) = locks' (REDIS_KEYS.projectManualLock projectId))
    (hsheets : ∀ projectId, db.owns u projectId →
      locks (REDIS_KEYS.projectSheetsLock projectId) = locks' (REDIS_KEYS.projectSheetsLock projectId))
    (op : Op newURL) : respond locks email u db op = respond locks' email u db op := by
  cases op with
  | startManualCheck projectId now jobId =>
    have hstart : LinksService.startManualCheck db (manualLocked locks now projectId) u projectId =
        LinksService.startManualCheck db (manualLocked locks' now projectId) u projectId := by
      rw [LinksService.startManualCheck, LinksService.startManualCheck, assertProject_eq]
      cases hown : db.owns u projectId with
      | false => rfl
      | true => rw [manualLocked, manualLocked, hmanual projectId hown]
    simp only [respond, hstart]
  | recheckOne linkId lockRead now jobId =>
    have hrecheck : RecheckOne.recheckOne db (manualLocked locks lockRead) now u linkId =
        RecheckOne.recheckOne db (manualLocked locks' lockRead) now u linkId := by
      rw [recheckOne_eq, recheckOne_eq]
      cases hfound : (db.links.find? linkId).filter fun l => db.owns u l.projectId with
      | none => rfl
      | some link =>
        have hown := (Option.filter_eq_some_iff.mp hfound).2
        simp only [manualLocked, hmanual link.projectId hown]
    simp only [respond, hrecheck]
  | runNow taskId now jobId =>
    have hrun : SheetsTasksService.runNow db (sheetsLocked locks now) u taskId =
        SheetsTasksService.runNow db (sheetsLocked locks' now) u taskId := by
      rw [SheetsTasksService.runNow, SheetsTasksService.runNow]
      cases hfound : findOwnedTask db u taskId with
      | error message => rfl
      | ok task =>
        dsimp only
        rw [sheetsLocked, sheetsLocked, hsheets task.projectId (find?_of_findOwnedTask hfound).2]
    simp only [respond, hrun]
  | _ => rfl

section Steps

variable {s t : Store} {op : Op newURL} {ops : List (Op newURL)} {email : Option String}

theorem Ready.confined (h : Ready (op :: ops) s) (u : UserId) (locks : String → LockManager.Key)
    (email : Option String) :
    Confined u op.drawn s.db fun d => respond locks email u d op := by
  have hnodup := h.nodup
  rw [List.flatMap_cons, List.nodup_append] at hnodup
  exact respond_confined locks email h.consistent op hnodup.1 fun id hid =>
    h.unused id (List.mem_append_left _ hid)

theorem Ready.step (h : Ready (op :: ops) s) (email : Option String) (u : UserId) :
    Ready ops (serve email u s op).1 := by
  obtain ⟨w, reply, hw, hserve, -⟩ := h.confined u s.locks email
  have hdb : (serve email u s op).1.db = w s.db := congrArg Prod.fst hserve
  have hnodup := h.nodup
  rw [List.flatMap_cons, List.nodup_append] at hnodup
  obtain ⟨-, hrest, hdisjoint⟩ := hnodup
  refine ⟨hdb ▸ hw.consistent h.consistent, hrest, fun id hid => ?_, fun id hid =>
    h.unlocked id (List.mem_append_right _ hid)⟩
  rw [hdb]
  exact hw.unused (fun hdrawn => hdisjoint id hdrawn id hid rfl)
    (h.unused id (List.mem_append_right _ hid))

theorem Agree.step (h : Agree u s t) (hs : Ready (op :: ops) s) (ht : Ready (op :: ops) t)
    (email : Option String) : (serve email u s op).2 = (serve email u t op).2 ∧
      Agree u (serve email u s op).1 (serve email u t op).1 := by
  obtain ⟨w, reply, hw, hserve, hown⟩ := hs.confined u s.locks email
  obtain ⟨w', reply', hw', hserve', hown'⟩ := ht.confined u t.locks email
  have hlocks : respond s.locks email u (own u s.db) op = respond t.locks email u (own u s.db) op :=
    respond_locks email (fun p hp => h.manualLock p (owns_own s.db u p ▸ hp))
      (fun p hp => h.sheetsLock p (owns_own s.db u p ▸ hp)) op
  rw [← h.rows] at hown'
  have hsame : (w (own u s.db), reply) = (w' (own u s.db), reply') :=
    hown.symm.trans (hlocks.trans hown')
  obtain ⟨hwrite, hreply⟩ := Prod.mk.inj hsame
  have hdb : (serve email u s op).1.db = w s.db := congrArg Prod.fst hserve
  have hdb' : (serve email u t op).1.db = w' t.db := congrArg Prod.fst hserve'
  have hout : (serve email u s op).2 = reply := congrArg Prod.snd hserve
  have hout' : (serve email u t op).2 = reply' := congrArg Prod.snd hserve'
  have hfresh {projectId : ProjectId} (hp : (serve email u s op).1.db.owns u projectId) :
      s.db.owns u projectId ∨ projectId ∈ (op :: ops).flatMap Op.drawn :=
    (hw.owns (hdb ▸ hp)).imp_right (List.mem_append_left _)
  refine ⟨hout.trans (hreply.trans hout'.symm), ?_, fun projectId hp => ?_, fun projectId hp => ?_⟩
  · have hpart : own u (w s.db) = w (own u s.db) :=
      hw.part_self hs.consistent (beq_self_eq_true u)
    have hpart' : own u (w' t.db) = w' (own u t.db) :=
      hw'.part_self ht.consistent (beq_self_eq_true u)
    rw [hdb, hdb', hpart, hpart', ← h.rows, hwrite]
  · obtain hold | hnew := hfresh hp
    · exact h.manualLock projectId hold
    · exact (hs.unlocked projectId hnew).1.trans (ht.unlocked projectId hnew).1.symm
  · obtain hold | hnew := hfresh hp
    · exact h.sheetsLock projectId hold
    · exact (hs.unlocked projectId hnew).2.trans (ht.unlocked projectId hnew).2.symm

theorem foreign_serve (h : Ready (op :: ops) s) (email : Option String) (u : UserId) :
    foreign u (serve email u s op).1.db = foreign u s.db := by
  obtain ⟨w, reply, hw, hserve, -⟩ := h.confined u s.locks email
  have hdb : (serve email u s op).1.db = w s.db := congrArg Prod.fst hserve
  rw [hdb]
  exact hw.part_other h.consistent (bne_self_eq_false u)

end Steps

/-- Whatever the user asks for, the replies tell nothing of the rows and locks of others, the user's
part ends the same, and the rows of others stay as they are. -/
theorem tenant_isolation {s t : Store} {ops : List (Op newURL)} (u : UserId) (email : Option String)
    (hs : Ready ops s) (ht : Ready ops t) (h : Agree u s t) :
    (answers (serve email u) s ops).2 = (answers (serve email u) t ops).2 ∧
      Agree u (answers (serve email u) s ops).1 (answers (serve email u) t ops).1 ∧
      foreign u (answers (serve email u) s ops).1.db = foreign u s.db := by
  have hboth : (answers (serve email u) s ops).2 = (answers (serve email u) t ops).2 ∧
      Ready ([] : List (Op newURL)) (answers (serve email u) s ops).1 ∧
      Ready ([] : List (Op newURL)) (answers (serve email u) t ops).1 ∧
      Agree u (answers (serve email u) s ops).1 (answers (serve email u) t ops).1 :=
    answers_agree (R := fun ops s t => Ready ops s ∧ Ready ops t ∧ Agree u s t)
      (fun op ops s t ⟨hs, ht, hagree⟩ =>
        have hstep := hagree.step hs ht email
        ⟨hstep.1, hs.step email u, ht.step email u, hstep.2⟩) ⟨hs, ht, h⟩
  refine ⟨hboth.1, hboth.2.2.2, ?_⟩
  exact answers_keep (I := Ready) (f := fun s => foreign u s.db)
    (fun op ops s hready => ⟨foreign_serve hready email u, hready.step email u⟩) hs

section Examples

def alone : Store where
  db := exampleDatabase ⟨[manualRow "p" (fun _ => "a") ⟨"https://d", "x", "x"⟩ 0], by decide⟩ .empty
  locks _ := none

def shared : Store where
  db := {
    projects := ⟨[exampleProject, { id := "q", userId := "v", name := "Other" }], by decide⟩
    links := ⟨[manualRow "q" (fun _ => "b") ⟨"https://e", "y", "y"⟩ 0,
      manualRow "p" (fun _ => "a") ⟨"https://d", "x", "x"⟩ 0], by decide⟩
    sheetsTasks := .empty }
  locks key := if key = REDIS_KEYS.projectManualLock "q" then some ⟨"token", 100⟩ else none

def mixed : List (Op Crawler.exampleURL) :=
  [.getProject "q", .deleteOne "b", .startManualCheck "q" 0 "1", .startManualCheck "p" 0 "1",
    .createProject ⟨⟨"New", by decide⟩, none⟩ "c", .listProjects]

theorem ready_alone : Ready mixed alone where
  consistent := ⟨by decide, by decide, by decide⟩
  nodup := by decide
  unused id hid := by
    rw [show mixed.flatMap Op.drawn = ["c"] from rfl, List.mem_singleton] at hid
    subst hid
    exact ⟨by decide, by decide, by decide⟩
  unlocked _ _ := ⟨rfl, rfl⟩

theorem ready_shared : Ready mixed shared where
  consistent := ⟨by decide, by decide, by decide⟩
  nodup := by decide
  unused id hid := by
    rw [show mixed.flatMap Op.drawn = ["c"] from rfl, List.mem_singleton] at hid
    subst hid
    exact ⟨by decide, by decide, by decide⟩
  unlocked id hid := by
    rw [show mixed.flatMap Op.drawn = ["c"] from rfl, List.mem_singleton] at hid
    subst hid
    exact ⟨by decide, by decide⟩

theorem agree_shared : Agree "u" shared alone := by
  have hown (projectId : ProjectId) (h : shared.db.owns "u" projectId) : projectId = "p" := by
    obtain ⟨p, hp, rfl, hu⟩ := belongs_iff.mp h
    have hrows : p ∈ [exampleProject, { id := "q", userId := "v", name := "Other" }] := hp
    simp only [List.mem_cons, List.not_mem_nil, or_false] at hrows
    obtain rfl | rfl := hrows
    · rfl
    · cases hu
  refine ⟨Database.ext (Table.ext (by decide)) (Table.ext (by decide)) (Table.ext (by decide)),
    fun projectId h => ?_, fun projectId h => ?_⟩
  · rw [hown projectId h]
    decide
  · rw [hown projectId h]
    decide

theorem tenant_isolation_sample :
    (answers (serve none "u") shared mixed).2 = (answers (serve none "u") alone mixed).2 ∧
      foreign "u" (answers (serve none "u") shared mixed).1.db = foreign "u" shared.db :=
  have h := tenant_isolation "u" none ready_shared ready_alone agree_shared
  ⟨h.1, h.2.2⟩

end Examples

end LinkBulker.Services
