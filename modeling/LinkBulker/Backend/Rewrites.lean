import LinkBulker.Backend.Tenants
import LinkBulker.Worker.CheckHistory
import LinkBulker.Worker.Stamps

/-! What a step of the backend does to the rows of the links: each row is as it was, or rewritten by
one statement, or new. -/

namespace LinkBulker.Backend

open Foundations Db Shared Crawler LinkRepository SingleLink Worker
open ProjectLock (Act Check Steps)
open RecheckOne (cooldownMs setCooldown)
open SheetsSchedules (Store)

variable {newURL : UrlParser} {clock : Sheets.LocalClock} {db db' : Database} {w w' : World}
  {s s' : State newURL} {now : ℤ} {ps ps' : List (LinkId × ℤ)} {drawn : List String}

structure Created (l : Link) : Prop where
  status : l.status = .PENDING
  linkFound : l.linkFound = none
  occurrences : l.occurrences = none
  occurrencesCount : l.occurrencesCount = 0
  error : l.error = none
  lastCheckedAt : l.lastCheckedAt = none
  lastCooldownAt : l.lastCooldownAt = none

inductive Rewrite (ps : List (LinkId × ℤ)) (l : Link) : Link → Prop
  | kept : Rewrite ps l l
  | marked {status : LinkStatus} (hstatus : status = .QUEUED ∨ status = .CHECKING) :
    Rewrite ps l (statusData status l)
  | saved {result : CrawlAndAnalyzeResult} {now : ℤ} (hwf : result.WellFormed)
    (hstamp : (l.id, now) ∈ ps) : Rewrite ps l (saveResultData result now l)
  | cooled {value : ℤ} (hvalue : ∀ t ∈ l.lastCooldownAt, t + cooldownMs < value) :
    Rewrite ps l (setCooldown value l)

theorem Rewrite.id {l l' : Link} (h : Rewrite ps l l') : l'.id = l.id := by
  cases h <;> rfl

theorem Rewrite.mono {l l' : Link} (h : Rewrite ps l l') (hsub : ps ⊆ ps') :
    Rewrite ps' l l' := by
  cases h with
  | kept => exact .kept
  | marked hstatus => exact .marked hstatus
  | saved hwf hstamp => exact .saved hwf (hsub hstamp)
  | cooled hvalue => exact .cooled hvalue

def Rewritten (ps : List (LinkId × ℤ)) (drawn : List String) (db db' : Database) : Prop :=
  ∀ l' ∈ db'.links.rows, (∃ l ∈ db.links.rows, Rewrite ps l l') ∨ Created l' ∧ l'.id ∈ drawn

theorem Rewritten.mono (h : Rewritten ps drawn db db') (hsub : ps ⊆ ps') :
    Rewritten ps' drawn db db' := by
  intro l' hl'
  obtain ⟨l, hl, hr⟩ | hnew := h l' hl'
  · exact .inl ⟨l, hl, hr.mono hsub⟩
  · exact .inr hnew

section Statements

theorem Rewritten.of_subset (hsub : db'.links.rows ⊆ db.links.rows) : Rewritten ps drawn db db' :=
  fun l hl => .inl ⟨l, hsub hl, .kept⟩

theorem Rewritten.of_eq (hlinks : db'.links = db.links) : Rewritten ps drawn db db' :=
  .of_subset (by rw [hlinks]; exact List.Subset.refl _)

theorem Rewritten.refl : Rewritten ps drawn db db := .of_eq rfl

theorem Rewritten.updateWhere {q : Link → Bool} {f : Link → Link} (hf : ∀ l, (f l).id = l.id)
    (h : ∀ l, q l → Rewrite ps l (f l)) :
    Rewritten ps drawn db { db with links := db.links.updateWhere q f hf } := by
  intro l' hl'
  have hmem : l' ∈ (db.links.updateWhere q f hf).rows := hl'
  obtain ⟨l, hl, rfl⟩ := Table.mem_updateWhere.mp hmem
  refine .inl ⟨l, hl, ?_⟩
  split
  · exact h l ‹_›
  · exact .kept

theorem Rewritten.saveResult {id : LinkId} {result : CrawlAndAnalyzeResult} {row : Link}
    (hwf : result.WellFormed) (hstamp : (id, now) ∈ ps)
    (hsave : saveResult db id result now = some (row, db')) : Rewritten ps drawn db db' := by
  obtain ⟨-, -, -, -, rfl⟩ := saveResult_eq_some.mp hsave
  exact .updateWhere _ fun l hl => .saved hwf (of_decide_eq_true hl ▸ hstamp)

theorem invalidResult_wellFormed (errors : List String) :
    (Sheets.invalidResult errors).WellFormed := by
  constructor <;> simp [Sheets.invalidResult, baseResult]

end Statements

section Calls

def Ready (c : ProcessOne) : Prop :=
  ∀ link result now, c.pc = .saveResult link result now → result.WellFormed

def BatchReady (b : Batch) : Prop := ∀ c ∈ b.calls, Ready c

def CheckReady (c : Check) : Prop := ∀ v ∈ c.view, BatchReady v.batch

theorem Ready.moves {id : LinkId} {t : Turn} {pc : SingleLink.Pc} {c : ProcessOne}
    (hm : Moves newURL w id t pc w' c.pc) : Ready c := by
  intro link result now hpc
  rw [hpc] at hm
  exact hm.wellFormed

theorem rewritten_moves {id : LinkId} {t : Turn} {pc pc' : SingleLink.Pc} (hready : Ready ⟨id, pc⟩)
    (hm : Moves newURL w id t pc w' pc') :
    Rewritten (callStamps ⟨id, pc⟩) drawn w.db w'.db := by
  cases hm with
  | marked hr hset =>
    obtain ⟨-, rfl⟩ := updateLink_eq_some.mp hset
    exact .updateWhere _ fun l _ => .marked (.inr rfl)
  | saved hr hset => exact .saveResult (hready _ _ _ rfl) (List.mem_singleton.mpr rfl) hset
  | checking | published =>
    rw [publishNow_db]
    exact .refl
  | _ => exact .refl

theorem rewritten_call {c c' : ProcessOne} {t : Turn} (hready : Ready c)
    (hm : c.move newURL w t = some (w', c')) :
    Rewritten (callStamps c) drawn w.db w'.db ∧ Ready c' := by
  obtain ⟨-, hmoves⟩ := SingleLink.move_eq_some hm
  exact ⟨rewritten_moves hready hmoves, Ready.moves hmoves⟩

theorem BatchReady.nil (ids : List LinkId) : BatchReady ⟨ids, []⟩ :=
  fun _ hc => absurd hc List.not_mem_nil

theorem BatchReady.start {b : Batch} (h : BatchReady b) (n i : ℕ) : BatchReady (b.start n i) := by
  intro c hc link result now hpc
  obtain hc | ⟨hfind, -⟩ := Batch.mem_calls_start hc
  · exact h c hc link result now hpc
  · rw [hfind] at hpc
    cases hpc

theorem rewritten_batch {b b' : Batch} {k : ℕ} {t : Turn} (hready : BatchReady b)
    (hm : b.move newURL w k t = some (w', b')) :
    Rewritten (batchStamps b) drawn w.db w'.db ∧ BatchReady b' := by
  obtain ⟨c, c', hget, -, hmoves, rfl⟩ := Batch.move_eq_some hm
  have hc := List.mem_of_getElem? hget
  exact ⟨(rewritten_moves (hready c hc) hmoves).mono (mem_batchStamps_of_mem hc),
    Pool.forall_set hready (Ready.moves hmoves)⟩

theorem BatchReady.manualLoop {h : ManualCheck.Handle} (hready : BatchReady h.batch) (i : ℕ) :
    BatchReady (h.loop i).batch := by
  unfold ManualCheck.Handle.loop
  split
  · exact hready.start _ _
  · exact hready

theorem rewritten_manual {h h' : ManualCheck.Handle} {t : Turn} (hready : BatchReady h.batch)
    (hs : ManualCheck.Step w h t w' h') :
    Rewritten (batchStamps h.batch) drawn w.db w'.db ∧ BatchReady h'.batch := by
  cases hs with
  | raised hpc hset | lowered hpc hset => exact ⟨.of_eq (updateProject_keys hset).1, hready⟩
  | queued hpc =>
    refine ⟨?_, hready.manualLoop 0⟩
    dsimp only [markManyStatus]
    split
    · exact .refl
    · exact .updateWhere _ fun l _ => .marked (.inl rfl)
  | next hpc => exact ⟨.refl, hready.manualLoop _⟩
  | toldLocked hpc | toldProgress hpc | toldDone hpc | toldUnlocked hpc =>
    rw [publishNow_db]
    exact ⟨.refl, hready⟩
  | _ => exact ⟨.refl, hready⟩

theorem BatchReady.sheetsLoop {r : Sheets.Run} (hready : BatchReady r.batch) (i : ℕ) :
    BatchReady (r.loop i).batch := by
  unfold Sheets.Run.loop
  split
  · exact hready.start _ _
  · exact hready

theorem created_sheetsLink {sheetsTaskId : SheetsTaskId} {projectId : ProjectId} {id : LinkId}
    {r : SheetsLinkData} : Created (sheetsLink sheetsTaskId projectId id r) :=
  ⟨rfl, rfl, rfl, rfl, rfl, rfl, rfl⟩

theorem rewritten_sheets {r r' : Sheets.Run} {t : Sheets.SheetsTurn} (hready : BatchReady r.batch)
    (hs : Sheets.Step newURL clock w r t w' r') :
    Rewritten (checkStamps (.sheets (.body r))) (checkDraws (.sheets (.body r)) (.sheets (.main t)))
      w.db w'.db ∧ BatchReady r'.batch := by
  cases hs with
  | running hpc hset | completed hpc hset | failedSet hpc hset =>
    exact ⟨.of_eq (setSheetsTaskStatus_frame hset).1, hready⟩
  | raised hpc hset | lowered hpc hset => exact ⟨.of_eq (updateProject_keys hset).1, hready⟩
  | replaced hpc hset =>
    refine ⟨fun l hl => ?_, hready⟩
    rw [replaceSheetsLinks_rows hset] at hl
    obtain hl | hl := List.mem_append.mp hl
    · exact .inl ⟨l, (Table.mem_deleteWhere.mp hl).1, .kept⟩
    · obtain ⟨i, hi, rfl⟩ := List.mem_mapIdx.mp hl
      rw [List.length_map] at hi
      rw [checkDraws, if_pos hpc]
      exact .inr ⟨created_sheetsLink, List.mem_map_of_mem (List.mem_range.mpr hi)⟩
  | pairedAll hpc hlink => exact ⟨.refl, BatchReady.sheetsLoop (.nil _) 0⟩
  | @marked i now link row vr db hpc hget hvr hsave =>
    have hstamp : (link.id, now) ∈ markStamps r := by
      simp only [markStamps, hpc, hget]
      exact List.mem_singleton.mpr rfl
    exact ⟨.saveResult (invalidResult_wellFormed _) (List.mem_append_left _ hstamp) hsave, hready⟩
  | toldProgress hpc =>
    rw [publishNow_db]
    exact ⟨.refl, hready.sheetsLoop _⟩
  | toldRunning hpc | toldCompleted hpc | toldFailed hpc =>
    rw [publishNow_db]
    exact ⟨.refl, hready⟩
  | _ => exact ⟨.refl, hready⟩

theorem rewritten_check {c c' : Check} {a : Act} (hready : CheckReady c)
    (hs : Steps newURL clock w c a w' c') :
    Rewritten (checkStamps c) (checkDraws c a) w.db w'.db ∧ CheckReady c' := by
  have handle {h' : ManualCheck.Handle} (hb : BatchReady h'.batch) : CheckReady (.manual h') :=
    fun v hv => Option.some.inj hv ▸ hb
  have body {r : Sheets.Run} (hb : BatchReady r.batch) : CheckReady (.sheets (.body r)) :=
    fun v hv => Option.some.inj hv ▸ hb
  cases hs with
  | manual hs =>
    obtain ⟨hrewritten, hb⟩ := rewritten_manual (hready _ rfl) hs
    exact ⟨hrewritten, handle hb⟩
  | manualChild hm =>
    obtain ⟨hrewritten, hb⟩ := rewritten_batch (hready _ rfl) hm
    exact ⟨hrewritten, handle hb⟩
  | missing => exact ⟨.refl, hready⟩
  | found hfind => exact ⟨.refl, body (.nil _)⟩
  | sheets hs =>
    obtain ⟨hrewritten, hb⟩ := rewritten_sheets (hready _ rfl) hs
    exact ⟨hrewritten, body hb⟩
  | sheetsChild hm =>
    obtain ⟨hrewritten, hb⟩ := rewritten_batch (hready _ rfl) hm
    exact ⟨hrewritten.mono (List.subset_append_right _ _), body hb⟩
  | manualBeat hlock hw | sheetsBeat hlock hw => obtain rfl | rfl := hw <;> exact ⟨.refl, hready⟩

end Calls

section Requests

theorem rewritten_row {r r' : RowRequests.Request newURL} {cuid : ℕ → String}
    (hm : r.move db cuid = some (db', r')) : Rewritten ps (r.draws cuid) db db' := by
  obtain ⟨u, pc⟩ := r
  cases pc with
  | createMany projectId records =>
    simp only [RowRequests.Request.move] at hm
    split at hm
    · cases hm
      exact .refl
    · split at hm <;> cases hm
      · exact .refl
      · rename_i links hinsert
        intro l hl
        have hmem : l ∈ links.rows := hl
        rw [Table.insertMany_eq_some.mp hinsert] at hmem
        obtain hold | hnew := List.mem_append.mp hmem
        · exact .inl ⟨l, hold, .kept⟩
        · have hid := (mem_manualRows hnew).1
          obtain ⟨p, -, rfl⟩ := List.mem_map.mp hnew
          exact .inr ⟨⟨rfl, rfl, rfl, rfl, rfl, rfl, rfl⟩, hid⟩
  | deleteLink linkId =>
    simp only [RowRequests.Request.move] at hm
    split at hm <;> cases hm
    · exact .refl
    · exact .of_subset List.filter_sublist.subset
  | deleteMany projectId =>
    cases hm
    exact .of_subset List.filter_sublist.subset
  | findUnique linkId =>
    simp only [RowRequests.Request.move] at hm
    split at hm
    · cases hm
      exact .refl
    · split at hm <;> cases hm <;> exact .refl
  | answered answer => cases hm
  | _ =>
    simp only [RowRequests.Request.move] at hm
    split at hm <;> cases hm <;> exact .of_eq rfl

theorem rewritten_task {s s' : Store} {r r' : SheetsSchedules.Request}
    {t : SheetsSchedules.Turn} (hm : r.move s t = some (s', r')) : Rewritten ps drawn s.db s'.db := by
  cases r with
  | createRow projectId dto =>
    simp only [SheetsSchedules.Request.move] at hm
    split at hm
    · cases hm
      exact .refl
    · split at hm <;> cases hm <;> exact .of_eq rfl
  | deleteRow taskId =>
    simp only [SheetsSchedules.Request.move] at hm
    split at hm <;> cases hm
    · exact .refl
    · exact .of_subset List.filter_sublist.subset
  | deleteProject projectId =>
    simp only [SheetsSchedules.Request.move, ProjectsService.deleteRow] at hm
    split at hm
    · cases hm
      exact .refl
    · rename_i hdelete
      split at hdelete <;> cases hdelete
      cases hm
      exact .of_subset List.filter_sublist.subset
  | schedule call answer | removeSchedule taskId =>
    cases hm
    exact .refl
  | answered answer => cases hm
  | _ =>
    simp only [SheetsSchedules.Request.move] at hm
    split at hm <;> cases hm <;> exact .of_eq rfl

theorem rewritten_recheck {s s' : RecheckOne.Server} {r r' : RecheckOne.Request}
    {t : RecheckOne.Turn} (htimed : r.Timed s.clock) (hm : r.move s t = some (s', r')) :
    Rewritten ps drawn s.db s'.db := by
  cases RecheckOne.move_eq_some htimed hm with
  | quiet hclock hadds hadds' htimed' => exact .refl
  | added hpc => exact .refl
  | accepted hpc hmatch =>
    rw [RecheckOne.Request.Timed, hpc] at htimed
    refine .updateWhere _ fun l hl => .cooled fun t ht => ?_
    obtain ⟨-, hall⟩ := Bool.and_eq_true_iff.mp hl
    rw [Option.mem_def.mp ht, Option.all_some, decide_eq_true_eq] at hall
    exact lt_of_lt_of_le (add_lt_add_left hall cooldownMs) htimed.2

theorem clock_recheck {s s' : RecheckOne.Server} {r r' : RecheckOne.Request} {t : RecheckOne.Turn}
    (hclock : t.now = s.clock) (hm : r.move s t = some (s', r')) : s'.clock = s.clock := by
  obtain ⟨u, linkId, pc⟩ := r
  cases pc with
  | findUnique =>
    simp only [RecheckOne.Request.move] at hm
    split at hm
    · cases hm
      rfl
    · split at hm <;> cases hm <;> rfl
  | isLocked job | updateMany job cutoff value =>
    simp only [RecheckOne.Request.move] at hm
    split at hm <;> cases hm <;> rfl
  | readCutoff job | readValue job cutoff | readElapsed lastCooldownAt =>
    simp only [RecheckOne.Request.move] at hm
    split at hm <;> cases hm
    exact hclock
  | findFresh | add job =>
    cases hm
    rfl
  | _ => cases hm

theorem timed_recheck {s s' : RecheckOne.Server} {r r' : RecheckOne.Request} {t : RecheckOne.Turn}
    (htimed : r.Timed s.clock) (hclock : t.now = s.clock) (hm : r.move s t = some (s', r')) :
    r'.Timed s.clock := by
  rw [← clock_recheck hclock hm]
  cases RecheckOne.move_eq_some htimed hm with
  | quiet hclock hadds hadds' htimed' => exact htimed'
  | added hpc => trivial
  | accepted hpc hmatch =>
    rw [RecheckOne.Request.Timed, hpc] at htimed
    exact htimed.1

end Requests

section Stamps

def State.stamps (s : State newURL) : List (LinkId × ℤ) :=
  s.checks.flatMap checkStamps ++ s.singles.flatMap callStamps

theorem State.stamps_of_check {c : Check} (hc : c ∈ s.checks) : checkStamps c ⊆ s.stamps :=
  fun _ hp => List.mem_append_left _ (List.mem_flatMap.mpr ⟨c, hc, hp⟩)

theorem State.stamps_of_single {c : ProcessOne} (hc : c ∈ s.singles) : callStamps c ⊆ s.stamps :=
  fun _ hp => List.mem_append_right _ (List.mem_flatMap.mpr ⟨c, hc, hp⟩)

theorem State.mem_stamps {p : LinkId × ℤ} :
    p ∈ s.stamps ↔ (∃ c ∈ s.checks, p ∈ checkStamps c) ∨ ∃ c ∈ s.singles, p ∈ callStamps c := by
  simp only [State.stamps, List.mem_append, List.mem_flatMap]

end Stamps

section Steps

theorem clock_check {c c' : Check} {a : Act} (hm : c.move newURL clock w a = some (w', c')) :
    w'.clock = w.clock := by
  obtain ⟨-, rfl, -⟩ | ⟨v, v', -, -, hs⟩ := ProjectLock.move_eq_some hm
  · rfl
  · exact hs.clock_eq

def RequestTimed (now : ℤ) : Dispatch.Request → Prop
  | .recheckOne r => r.Timed now
  | .startManualCheck _ | .runNow _ => True

theorem RequestTimed.mono {r : Dispatch.Request} {now' : ℤ} (h : RequestTimed now r)
    (hle : now ≤ now') : RequestTimed now' r := by
  cases r with
  | recheckOne r => exact RecheckOne.Request.Timed.mono h hle
  | _ => trivial

structure Filed (s : State newURL) : Prop where
  requests : ∀ r ∈ s.requests, RequestTimed s.world.clock r
  checks : ∀ c ∈ s.checks, CheckReady c
  singles : ∀ c ∈ s.singles, Ready c

theorem Filed.start {time : ℤ} {locks : String → LockManager.Key} :
    Filed (State.start db locks time : State newURL) :=
  ⟨fun _ hr => absurd hr List.not_mem_nil, fun _ hc => absurd hc List.not_mem_nil,
    fun _ hc => absurd hc List.not_mem_nil⟩

theorem Filed.dispatch {l : Dispatch.Label newURL} {d : Dispatch.State} (h : Filed s)
    (hclock : s.world.clock ≤ l.now s.world.clock) (hallows : s.allows l)
    (hd : Dispatch.Does clock (s.toState.at_ (l.now s.world.clock)) l d) :
    Rewritten s.stamps (s.draws (.dispatch l)) s.world.db d.world.db ∧
      d.world.clock = l.now s.world.clock ∧ Filed { s with toState := d } := by
  have later : ∀ r ∈ s.requests, RequestTimed (l.now s.world.clock) r :=
    fun r hr => (h.requests r hr).mono hclock
  cases hd with
  | created | refused | deleted => cases hallows
  | @asked a =>
    refine ⟨.refl, rfl, ⟨fun r hr => ?_, h.checks, h.singles⟩⟩
    obtain hr | hr := List.mem_append.mp hr
    · exact later r hr
    · rw [List.mem_singleton.mp hr]
      cases a <;> trivial
  | scheduled => exact ⟨.refl, rfl, ⟨later, h.checks, h.singles⟩⟩
  | bulk hget hm | run hget hm =>
    exact ⟨.refl, rfl, ⟨Pool.forall_set later trivial, h.checks, h.singles⟩⟩
  | @recheck i now r r' server hget hm =>
    have htimed : r.Timed now := later _ (List.mem_of_getElem? hget)
    exact ⟨rewritten_recheck (s := ⟨s.world.db, now, s.singleLinkQueue, []⟩) htimed hm, rfl,
      ⟨Pool.forall_set later (timed_recheck htimed rfl hm), h.checks, h.singles⟩⟩
  | tookManual hq =>
    refine ⟨.refl, rfl, ⟨later, fun c hc => ?_, h.singles⟩⟩
    obtain hc | hc := List.mem_append.mp hc
    · exact h.checks c hc
    · rw [List.mem_singleton.mp hc]
      intro v hv
      cases hv
      exact .nil _
  | tookSheets hjob =>
    refine ⟨.refl, rfl, ⟨later, fun c hc => ?_, h.singles⟩⟩
    obtain hc | hc := List.mem_append.mp hc
    · exact h.checks c hc
    · rw [List.mem_singleton.mp hc]
      intro v hv
      cases hv
  | tookSingle hjob =>
    refine ⟨.refl, rfl, ⟨later, h.checks, fun c hc => ?_⟩⟩
    obtain hc | hc := List.mem_append.mp hc
    · exact h.singles c hc
    · rw [List.mem_singleton.mp hc]
      intro link result now hpc
      cases hpc
  | @worked i a c c' world hget hm =>
    have hdraws : s.draws (.dispatch (.work i a)) = checkDraws c a := by
      have hget' : s.checks[i]? = some c := hget
      rw [State.draws, hget', Option.map_some, Option.getD_some]
    have hclock' : world.clock = a.turn.now := clock_check hm
    have hc := List.mem_of_getElem? hget
    obtain ⟨hrewritten, hready⟩ := rewritten_check (h.checks c hc) (ProjectLock.steps_of_move hm)
    rw [hdraws]
    refine ⟨hrewritten.mono (State.stamps_of_check hc), hclock', ?_,
      Pool.forall_set h.checks hready, h.singles⟩
    dsimp only
    rw [hclock']
    exact later
  | @checked j t c c' world hget hm =>
    obtain ⟨-, hmoves⟩ := SingleLink.move_eq_some hm
    have hclock' : world.clock = t.now := hmoves.frame.clock
    have hc := List.mem_of_getElem? hget
    obtain ⟨hrewritten, hready⟩ := rewritten_call (h.singles c hc) hm
    refine ⟨hrewritten.mono (State.stamps_of_single hc), hclock', ?_, h.checks,
      Pool.forall_set h.singles hready⟩
    dsimp only
    rw [hclock']
    exact later

/-- One step rewrites the rows with what the checks have waiting, and the clock does not go back. -/
theorem Filed.step {l : Label newURL} (h : Filed s) (hs : step clock s l = some s') :
    s.world.clock ≤ s'.world.clock ∧
      Rewritten s.stamps (s.draws l) s.world.db s'.world.db ∧ Filed s' := by
  obtain ⟨hclock, -, hdoes⟩ := step_eq_some hs
  cases hdoes with
  | dispatch hallows hd =>
    obtain ⟨hrewritten, hnow, hnext⟩ := h.dispatch hclock hallows hd
    dsimp only
    rw [hnow]
    exact ⟨hclock, hrewritten, ⟨hnext.requests, hnext.checks, hnext.singles⟩⟩
  | row | task => exact ⟨le_rfl, .refl, ⟨h.requests, h.checks, h.singles⟩⟩
  | serveRow hget hm =>
    rw [State.draws, hget, Option.map_some, Option.getD_some]
    exact ⟨le_rfl, rewritten_row hm, ⟨h.requests, h.checks, h.singles⟩⟩
  | serveTask hget hm =>
    exact ⟨hclock, rewritten_task (s := ⟨s.world.db, s.schedulers⟩) hm,
      ⟨fun r hr => (h.requests r hr).mono hclock, h.checks, h.singles⟩⟩

theorem stamps_step {l : Label newURL} (hs : step clock s l = some s') :
    ∀ p ∈ s'.stamps, p ∈ s.stamps ∨ p.2 = s'.world.clock := by
  obtain ⟨-, -, hdoes⟩ := step_eq_some hs
  intro p hp
  obtain ⟨c, hc, hstamp⟩ | ⟨c, hc, hstamp⟩ := State.mem_stamps.mp hp
  · have hold (hmem : c ∈ s.checks) : p ∈ s.stamps := State.stamps_of_check hmem hstamp
    cases hdoes with
    | row | task | serveRow hget hm | serveTask hget hm => exact .inl (hold hc)
    | dispatch hallows hd =>
      cases hd with
      | tookManual hq | tookSheets hjob =>
        obtain hc | hc := List.mem_append.mp hc
        · exact .inl (hold hc)
        · rw [List.mem_singleton.mp hc] at hstamp
          exact absurd hstamp List.not_mem_nil
      | worked hget hm =>
        obtain hc | rfl := List.mem_or_eq_of_mem_set hc
        · exact .inl (hold hc)
        · refine (checkStamps_step (ProjectLock.steps_of_move hm) p hstamp).imp ?_ fun hnow => ?_
          · exact fun hold => State.stamps_of_check (List.mem_of_getElem? hget) hold
          · exact hnow.trans (clock_check hm).symm
      | _ => exact .inl (hold hc)
  · have hold (hmem : c ∈ s.singles) : p ∈ s.stamps := State.stamps_of_single hmem hstamp
    cases hdoes with
    | row | task | serveRow hget hm | serveTask hget hm => exact .inl (hold hc)
    | dispatch hallows hd =>
      cases hd with
      | tookSingle hjob =>
        obtain hc | hc := List.mem_append.mp hc
        · exact .inl (hold hc)
        · rw [List.mem_singleton.mp hc] at hstamp
          exact absurd hstamp List.not_mem_nil
      | checked hget hm =>
        obtain hc | rfl := List.mem_or_eq_of_mem_set hc
        · exact .inl (hold hc)
        · obtain ⟨-, hmoves⟩ := SingleLink.move_eq_some hm
          exact .inr ((callStamps_moves hmoves p hstamp).trans hmoves.frame.clock.symm)
      | _ => exact .inl (hold hc)

structure ReadSince (s s' : State newURL) : Prop where
  clock : s.world.clock ≤ s'.world.clock
  stamps : ∀ p ∈ s'.stamps, p ∈ s.stamps ∨ s.world.clock ≤ p.2

theorem ReadSince.refl (s : State newURL) : ReadSince s s := ⟨le_rfl, fun _ hp => .inl hp⟩

theorem ReadSince.step {s₀ : State newURL} {l : Label newURL} (h : ReadSince s₀ s) (hfiled : Filed s)
    (hs : step clock s l = some s') : ReadSince s₀ s' := by
  have hclock := h.clock.trans (hfiled.step hs).1
  refine ⟨hclock, fun p hp => ?_⟩
  obtain hold | hnow := stamps_step hs p hp
  · exact h.stamps p hold
  · exact .inr (hnow ▸ hclock)

end Steps

end LinkBulker.Backend
