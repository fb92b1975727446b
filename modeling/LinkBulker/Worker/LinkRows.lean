import LinkBulker.Api.ManualLinks
import LinkBulker.Worker.DispatchLaws

/-! What the statements of the API and the workers can do to the rows of the links. -/

namespace LinkBulker.Worker

open Foundations Db Shared Crawler LinkRepository SingleLink

variable {newURL : UrlParser} {clock : Sheets.LocalClock} {w w' : World} {db db' : Database}

inductive Touch : Link → Link → Prop
  | same {l : Link} : Touch l l
  | queued {l : Link} : Touch l (statusData .QUEUED l)
  | checking {l : Link} : Touch l (statusData .CHECKING l)
  | saved {l : Link} {result : CrawlAndAnalyzeResult} {now : ℤ}
    (hfound : result.linkFound = some true → result.ok) : Touch l (saveResultData result now l)
  | cooled {l : Link} {value : ℤ} : Touch l (RecheckOne.setCooldown value l)

structure Inserted (l : Link) : Prop where
  status : l.status = .PENDING
  linkFound : l.linkFound = none
  source : l.source = .MANUAL → l.sheetsTaskId = none

def Written (db db' : Database) : Prop :=
  ∀ l' ∈ db'.links.rows, (∃ l ∈ db.links.rows, Touch l l') ∨ Inserted l'

theorem Touch.input {l l' : Link} (h : Touch l l') : l'.input = l.input := by
  cases h <;> rfl

theorem Written.of_subset (h : db'.links.rows ⊆ db.links.rows) : Written db db' :=
  fun l hl => .inl ⟨l, h hl, .same⟩

theorem Written.of_eq (h : db'.links = db.links) : Written db db' :=
  .of_subset (by rw [h]; exact List.Subset.refl _)

theorem Written.of_map {f : Link → Link} (hf : ∀ l, Touch l (f l))
    (hrows : db'.links.rows = db.links.rows.map f) : Written db db' := by
  intro l' hl'
  rw [hrows] at hl'
  obtain ⟨l, hl, rfl⟩ := List.mem_map.mp hl'
  exact .inl ⟨l, hl, hf l⟩

theorem Written.updateWhere {p : Link → Bool} {f : Link → Link} {hf : ∀ l, (f l).id = l.id}
    (htouch : ∀ l, Touch l (f l)) :
    Written db { db with links := db.links.updateWhere p f hf } := by
  refine .of_map (f := fun l => if p l then f l else l) (fun l => ?_) rfl
  split
  · exact htouch l
  · exact .same

def Sound (l : Link) : Prop :=
  l.linkFound = some true → l.status = .QUEUED ∨ l.status = .CHECKING ∨ l.status = .DONE

theorem Touch.sound {l l' : Link} (h : Touch l l') (hl : Sound l) : Sound l' := by
  cases h with
  | same => exact hl
  | queued => exact fun _ => .inl rfl
  | checking => exact fun _ => .inr (.inl rfl)
  | saved hfound => exact fun h => .inr (.inr (if_pos (hfound h)))
  | cooled => exact hl

theorem Written.sound (h : Written db db') (hdb : ∀ l ∈ db.links.rows, Sound l) :
    ∀ l ∈ db'.links.rows, Sound l := by
  intro l hl
  rcases h l hl with ⟨l₀, hl₀, ht⟩ | hnew
  · exact ht.sound (hdb l₀ hl₀)
  · intro hfound
    rw [hnew.linkFound] at hfound
    cases hfound

theorem Written.sourced (h : Written db db')
    (hdb : ∀ l ∈ db.links.rows, l.source = .MANUAL → l.sheetsTaskId = none) :
    ∀ l ∈ db'.links.rows, l.source = .MANUAL → l.sheetsTaskId = none := by
  intro l hl
  rcases h l hl with ⟨l₀, hl₀, ht⟩ | hnew
  · have hinput := ht.input
    simp only [Link.input, LinkInput.mk.injEq] at hinput
    obtain ⟨-, -, htask, hsource, -⟩ := hinput
    rw [htask, hsource]
    exact hdb l₀ hl₀
  · exact hnew.source

theorem written_saveResult {id : LinkId} {result : CrawlAndAnalyzeResult} {now : ℤ} {row : Link}
    (hfound : result.linkFound = some true → result.ok)
    (h : saveResult db id result now = some (row, db')) : Written db db' := by
  obtain ⟨-, -, -, -, rfl⟩ := saveResult_eq_some.mp h
  exact .updateWhere fun l => .saved hfound

theorem ok_of_linkFound {result : CrawlAndAnalyzeResult} (h : result.WellFormed)
    (hfound : result.linkFound = some true) : result.ok := by
  rw [h.found, Option.map_eq_some_iff] at hfound
  obtain ⟨os, hos, -⟩ := hfound
  rw [← h.occurrences, hos, Option.isSome_some]

def Sane (c : ProcessOne) : Prop :=
  match c.pc with
  | .saveResult _ result _ => result.linkFound = some true → result.ok
  | _ => True

theorem sane_moves {id : LinkId} {pc : SingleLink.Pc} {c : ProcessOne} {t : Turn}
    (h : Moves newURL w id t pc w' c.pc) : Sane c := by
  unfold Sane
  generalize c.pc = pc' at h
  cases h with
  | crawled => exact ok_of_linkFound (crawlAndAnalyze_wellFormed ..)
  | _ => trivial

theorem written_moves {id : LinkId} {pc pc' : SingleLink.Pc} {t : Turn}
    (h : Moves newURL w id t pc w' pc') (hsane : Sane ⟨id, pc⟩) : Written w.db w'.db := by
  cases h with
  | marked hr h =>
    obtain ⟨-, rfl⟩ := updateLink_eq_some.mp h
    exact .updateWhere fun l => .checking
  | saved hr h => exact written_saveResult hsane h
  | checking => exact .of_eq (by rw [publishNow_db])
  | published => exact .of_eq (by rw [publishNow_db])
  | _ => exact .of_eq rfl

theorem Sane.move {c c' : ProcessOne} {t : Turn} (h : Sane c)
    (hm : c.move newURL w t = some (w', c')) : Sane c' ∧ Written w.db w'.db := by
  obtain ⟨hid, hmoves⟩ := SingleLink.move_eq_some hm
  exact ⟨sane_moves hmoves, written_moves hmoves h⟩

namespace Batch

variable {b b' : Batch} {n : ℕ}

def Sane (b : Batch) : Prop := ∀ c ∈ b.calls, Worker.Sane c

theorem Sane.of_nil (h : b.calls = []) : b.Sane := by
  intro c hc
  rw [h] at hc
  cases hc

theorem Sane.start (h : b.Sane) (i : ℕ) : (b.start n i).Sane := by
  intro c hc
  rcases mem_calls_start hc with hc | ⟨hpc, -⟩
  · exact h c hc
  · rw [Worker.Sane, hpc]
    trivial

theorem Sane.move {k : ℕ} {t : Turn} (h : b.Sane) (hm : b.move newURL w k t = some (w', b')) :
    b'.Sane ∧ Written w.db w'.db := by
  obtain ⟨c, c', hget, -, hmoves, rfl⟩ := move_eq_some hm
  exact ⟨Pool.forall_set h (sane_moves hmoves), written_moves hmoves (h c (List.mem_of_getElem? hget))⟩

end Batch

theorem written_manual {h h' : ManualCheck.Handle} {t : Turn} (hs : ManualCheck.Step w h t w' h') :
    Written w.db w'.db := by
  cases hs with
  | raised hpc hset | lowered hpc hset => exact .of_eq (updateProject_keys hset).1
  | queued hpc =>
    dsimp only [markManyStatus]
    split
    · exact .of_eq rfl
    · exact .updateWhere fun l => .queued
  | toldLocked hpc | toldProgress hpc | toldDone hpc | toldUnlocked hpc =>
    exact .of_eq (by rw [publishNow_db])
  | _ => exact .of_eq rfl

theorem sane_manual {h h' : ManualCheck.Handle} {t : Turn} (hs : ManualCheck.Step w h t w' h')
    (hsane : h.batch.Sane) : h'.batch.Sane := by
  cases hs with
  | queued hpc | next hpc =>
    unfold ManualCheck.Handle.loop
    split
    · exact hsane.start _
    · exact hsane
  | _ => exact hsane

theorem sane_sheets {r r' : Sheets.Run} {t : Sheets.SheetsTurn}
    (hs : Sheets.Step newURL clock w r t w' r') (hsane : r.batch.Sane) : r'.batch.Sane := by
  cases hs with
  | pairedAll hpc hlink =>
    have hnil : Batch.Sane ⟨r.validProcessableLinks.map Link.id, []⟩ := .of_nil rfl
    unfold Sheets.Run.loop
    split
    · exact hnil.start 0
    · exact hnil
  | toldProgress hpc =>
    unfold Sheets.Run.loop
    split
    · exact hsane.start _
    · exact hsane
  | _ => exact hsane

theorem inserted_sheetsLink {sheetsTaskId : SheetsTaskId} {projectId : ProjectId} {id : LinkId}
    {r : SheetsLinkData} : Inserted (sheetsLink sheetsTaskId projectId id r) :=
  ⟨rfl, rfl, nofun⟩

theorem written_sheets {r r' : Sheets.Run} {t : Sheets.SheetsTurn}
    (hs : Sheets.Step newURL clock w r t w' r') : Written w.db w'.db := by
  cases hs with
  | running hpc hset | completed hpc hset | failedSet hpc hset =>
    exact .of_eq (setSheetsTaskStatus_frame hset).1
  | raised hpc hset | lowered hpc hset => exact .of_eq (updateProject_keys hset).1
  | replaced hpc hset =>
    intro l hl
    rw [replaceSheetsLinks_rows hset] at hl
    obtain hl | hl := List.mem_append.mp hl
    · exact .inl ⟨l, (Table.mem_deleteWhere.mp hl).1, .same⟩
    · obtain ⟨i, hi, rfl⟩ := List.mem_mapIdx.mp hl
      exact .inr inserted_sheetsLink
  | marked hpc hlink hvr hsave => exact written_saveResult (fun hfound => by cases hfound) hsave
  | toldRunning hpc | toldProgress hpc | toldCompleted hpc | toldFailed hpc =>
    exact .of_eq (by rw [publishNow_db])
  | _ => exact .of_eq rfl

theorem written_createManualLinks {cuid : ℕ → LinkId} {userId : UserId} {projectId : ProjectId}
    {dto : LinksService.CreateManualLinksInput newURL}
    (h : LinksService.createManualLinks newURL cuid db userId projectId dto = .ok db') :
    Written db db' := by
  obtain ⟨links, rfl, records, -, hrows⟩ := LinksService.createManualLinks_eq_ok h
  intro l hl
  rw [hrows] at hl
  obtain hl | hl := List.mem_append.mp hl
  · exact .inl ⟨l, hl, .same⟩
  · obtain ⟨r, -, rfl⟩ := List.mem_map.mp hl
    exact .inr ⟨rfl, rfl, fun _ => rfl⟩

theorem written_delete (r : LinksService.Request) : Written db (r.apply db) := by
  obtain ⟨p, h⟩ := r.apply_eq db
  rw [h]
  exact .of_subset fun l hl => (Table.mem_deleteWhere.mp hl).1

theorem written_recheckOne {s s' : RecheckOne.Server} {r r' : RecheckOne.Request}
    {t : RecheckOne.Turn} (h : r.move s t = some (s', r')) :
    s'.db.sheetsTasks = s.db.sheetsTasks ∧ Written s.db s'.db := by
  unfold RecheckOne.Request.move at h
  split at h
  case h_5 job cutoff value hpc =>
    split at h <;> cases h
    · exact ⟨rfl, .of_eq rfl⟩
    · exact ⟨rfl, .updateWhere fun l => .cooled⟩
  all_goals
    (repeat' split at h) <;> cases h
    all_goals exact ⟨rfl, .of_eq rfl⟩

def CheckSane (c : ProjectLock.Check) : Prop := ∀ v ∈ c.view, v.batch.Sane

theorem written_steps {c c' : ProjectLock.Check} {a : ProjectLock.Act} (h : CheckSane c)
    (hs : ProjectLock.Steps newURL clock w c a w' c') : CheckSane c' ∧ Written w.db w'.db := by
  have body {r : Sheets.Run} (hsane : r.batch.Sane) : CheckSane (.sheets (.body r)) := by
    intro v hv
    obtain rfl := Option.some.inj hv
    exact hsane
  have handle {h' : ManualCheck.Handle} (hsane : h'.batch.Sane) : CheckSane (.manual h') := by
    intro v hv
    obtain rfl := Option.some.inj hv
    exact hsane
  cases hs with
  | manual hs => exact ⟨handle (sane_manual hs (h _ rfl)), written_manual hs⟩
  | manualChild hm =>
    obtain ⟨hsane, hwritten⟩ := Batch.Sane.move (h _ rfl) hm
    exact ⟨handle hsane, hwritten⟩
  | sheets hs => exact ⟨body (sane_sheets hs (h _ rfl)), written_sheets hs⟩
  | sheetsChild hm =>
    obtain ⟨hsane, hwritten⟩ := Batch.Sane.move (h _ rfl) hm
    exact ⟨body hsane, hwritten⟩
  | manualBeat hlock hw | sheetsBeat hlock hw => rcases hw with rfl | rfl <;> exact ⟨h, .of_eq rfl⟩
  | missing => exact ⟨h, .of_eq rfl⟩
  | found hfind => exact ⟨body (.of_nil rfl), .of_eq rfl⟩

structure AllSane (s : Dispatch.State) : Prop where
  checks : ∀ c ∈ s.checks, CheckSane c
  singles : ∀ c ∈ s.singles, Sane c

theorem AllSane.start (db : Database) (locks : String → LockManager.Key) (time : ℤ) :
    AllSane (.start db locks time) :=
  ⟨fun _ hc => absurd hc List.not_mem_nil, fun _ hc => absurd hc List.not_mem_nil⟩

theorem AllSane.does {s s' : Dispatch.State} {l : Dispatch.Label newURL} (h : AllSane s)
    (hd : Dispatch.Does clock s l s') : AllSane s' ∧ Written s.world.db s'.world.db := by
  have joins {c : ProjectLock.Check} (hc : ∀ v ∈ c.view, v.batch.calls = []) :
      ∀ d ∈ s.checks ++ [c], CheckSane d := by
    intro d hd
    rcases List.mem_append.mp hd with hd | hd
    · exact h.checks d hd
    · intro v hv
      exact .of_nil (hc v (List.mem_singleton.mp hd ▸ hv))
  cases hd with
  | asked | bulk hget hm | run hget hm | refused | scheduled => exact ⟨⟨h.checks, h.singles⟩, .of_eq rfl⟩
  | recheck hget hm => exact ⟨⟨h.checks, h.singles⟩, (written_recheckOne hm).2⟩
  | created hdb => exact ⟨⟨h.checks, h.singles⟩, written_createManualLinks hdb⟩
  | deleted => exact ⟨⟨h.checks, h.singles⟩, written_delete _⟩
  | tookManual hq =>
    exact ⟨⟨joins fun v hv => Option.some.inj hv ▸ rfl, h.singles⟩, .of_eq rfl⟩
  | tookSheets hjob => exact ⟨⟨joins nofun, h.singles⟩, .of_eq rfl⟩
  | tookSingle hjob =>
    refine ⟨⟨h.checks, fun c hc => ?_⟩, .of_eq rfl⟩
    rcases List.mem_append.mp hc with hc | hc
    · exact h.singles c hc
    · exact List.mem_singleton.mp hc ▸ trivial
  | worked hget hm =>
    obtain ⟨hsane, hwritten⟩ :=
      written_steps (h.checks _ (List.mem_of_getElem? hget)) (ProjectLock.steps_of_move hm)
    exact ⟨⟨Pool.forall_set h.checks hsane, h.singles⟩, hwritten⟩
  | checked hget hm =>
    obtain ⟨hsane, hwritten⟩ := (h.singles _ (List.mem_of_getElem? hget)).move hm
    exact ⟨⟨h.checks, Pool.forall_set h.singles hsane⟩, hwritten⟩

end LinkBulker.Worker
