import LinkBulker.Api.LinksService
import LinkBulker.Foundations.Run
import LinkBulker.Worker.SheetsTaskLaws

/-! One run of a sheets task while the users of the project delete links: whose result is written
beside which row. -/

namespace LinkBulker.Sheets

open Foundations Db Shared Crawler LinkRepository SingleLink Worker

variable {newURL : UrlParser} {clock : LocalClock} {w w' w₀ : World} {r r' : Run}

inductive Label
  | act (a : Act)
  | request (q : LinksService.Request)

def step (newURL : UrlParser) (clock : LocalClock) (s : World × Call) :
    Label → Option (World × Call)
  | .act a => s.2.move newURL clock s.1 a
  | .request q => some ({ s.1 with db := q.apply s.1.db }, s.2)

/-- When the links are fetched, those left of the ones the run has inserted have, one by one, the
cells of the first filled rows. -/
def Aligned (s : World × Call) : Label → Prop
  | .act (.main t) => ∀ r ∈ s.2.run, r.pc = .fetchLinks → t.rejects = false →
    (findLinksBySheetsTaskOrdered s.1.db r.task.id).map linkKey <+: r.validRows.map rowKey
  | _ => True

instance (s : World × Call) : (l : Label) → Decidable (Aligned s l)
  | .act (.main t) => inferInstanceAs (Decidable (∀ r ∈ s.2.run, r.pc = .fetchLinks →
    t.rejects = false →
    (findLinksBySheetsTaskOrdered s.1.db r.task.id).map linkKey <+: r.validRows.map rowKey))
  | .act (.child ..) | .act (.beat _) | .request _ => .isTrue trivial

def Own (link : Link) (row : SheetRow) : Prop :=
  link.donorUrl = trim row.donorUrl ∧ link.acceptorRaw = trim row.acceptor

def Pc.unfetched : Pc → Bool
  | .acquire | .setRunning | .setFlag | .publishRunning | .resolveTitle | .readRows | .replaceLinks
  | .fetchLinks | .skipped => true
  | _ => false

def Pc.unwritten : Pc → Bool
  | .pair _ | .markInvalid .. | .awaitAll _ | .counts _ | .publishProgress .. | .fetchFinal
  | .writeData => true
  | pc => pc.unfetched

structure Paired (newURL : UrlParser) (clock : LocalClock) (w : World) (r : Run) : Prop where
  rows : r.rows = readDonorRows r.task.dataStartRow r.response
  valid : r.validRows = filledRows newURL r.rows
  unfetched : r.pc.unfetched → r.persistedLinks = [] ∧ r.lines = [] ∧ r.invalid = []
  unwritten : r.pc.unwritten → r.calls = []
  aligned : r.persistedLinks.map linkKey <+: r.validRows.map rowKey
  same : ∀ l ∈ w.db.links.rows, ∀ p ∈ r.persistedLinks, p.id = l.id → l.input = p.input
  mapped : ∀ id, ∀ row ∈ r.sheetRowByLinkId id,
    ∃ p ∈ r.persistedLinks, p.id = id ∧ row ∈ r.rows ∧ Own p row
  marking : ∀ i, r.pc.marking = some i → ∀ vr ∈ r.validRows[i]?, vr.1.errors ≠ []
  invalid : ∀ link ∈ r.invalid, ∃ row ∈ r.rows, Own link row ∧ (normalizeRow newURL row).errors ≠ []
  lines : ∀ k link, r.lines[k]? = some (some link) →
    ∃ row ∈ r.rows, row.rowNumber = r.minRow + k ∧ Own link row
  min_pos : r.lines = [] ∨ 0 < r.minRow
  calls : ∀ b, .writeFormattedBlock b ∈ r.calls →
    b = r.headerBlock ∨ b = r.dataBlock clock ∧ r.lines ≠ []

theorem Paired.start (task : SheetsTask) : Paired newURL clock w { task } where
  rows := rfl
  valid := rfl
  unfetched _ := ⟨rfl, rfl, rfl⟩
  unwritten _ := rfl
  aligned := List.nil_prefix
  same _ _ _ hp := by cases hp
  mapped _ _ hrow := by cases hrow
  marking _ hpc := by cases hpc
  invalid _ hlink := by cases hlink
  lines _ _ hline := by cases hline
  min_pos := .inl rfl
  calls _ hb := by cases hb

theorem Paired.keep (h : Paired newURL clock w r)
    (hlinks : ∀ l' ∈ w'.db.links.rows, ∃ l ∈ w.db.links.rows, l'.input = l.input)
    {pc : Pc} {lock : Option LockManager.Lock} {heartbeat : Bool} {links : List Link}
    {batch : Batch} {threw : Option String} (hun : pc.unfetched → r.pc.unfetched)
    (hunw : pc.unwritten → r.pc.unwritten)
    (hmark : ∀ i, pc.marking = some i → r.pc.marking = some i) :
    Paired newURL clock w'
      { r with pc, lock, heartbeat, validProcessableLinks := links, batch, threw } where
  rows := h.rows
  valid := h.valid
  unfetched hpc := h.unfetched (hun hpc)
  unwritten hpc := h.unwritten (hunw hpc)
  aligned := h.aligned
  same l' hl' p hp hid := by
    obtain ⟨l, hl, he⟩ := hlinks l' hl'
    have hid' : l'.id = l.id := congrArg LinkInput.id he
    exact he.trans (h.same l hl p hp (hid.trans hid'))
  mapped := h.mapped
  marking i hpc := h.marking i (hmark i hpc)
  invalid := h.invalid
  lines := h.lines
  min_pos := h.min_pos
  calls := h.calls

theorem exists_input_self {links : Table Link.id} :
    ∀ l' ∈ links.rows, ∃ l ∈ links.rows, l'.input = l.input := fun l hl => ⟨l, hl, rfl⟩

theorem exists_input_of_eq {links links' : Table Link.id} (h : links' = links) :
    ∀ l' ∈ links'.rows, ∃ l ∈ links.rows, l'.input = l.input := h ▸ exists_input_self

theorem mem_filledRows {rows : List SheetRow} {v : NormalizedRow × SheetRow}
    (h : v ∈ filledRows newURL rows) : v.2 ∈ rows ∧ v.1 = normalizeRow newURL v.2 := by
  obtain ⟨row, hrow, hv⟩ := List.mem_filterMap.mp h
  dsimp only at hv
  split at hv
  · cases hv
  · rw [← Option.some.inj hv]
    refine ⟨hrow, ?_⟩
    dsimp only

theorem Paired.own (h : Paired newURL clock w r) {i : ℕ} {link : Link}
    {vr : NormalizedRow × SheetRow} (hlink : r.persistedLinks[i]? = some link)
    (hvr : r.validRows[i]? = some vr) :
    vr.2 ∈ r.rows ∧ vr.1 = normalizeRow newURL vr.2 ∧ Own link vr.2 := by
  obtain ⟨hrow, hnorm⟩ := mem_filledRows (h.valid ▸ List.mem_of_getElem? hvr)
  have hkey : linkKey link = rowKey vr := by
    obtain ⟨rest, hrest⟩ := h.aligned
    have hget : (r.persistedLinks.map linkKey ++ rest)[i]? = some (linkKey link) := by
      rw [List.getElem?_append_left, List.getElem?_map, hlink, Option.map_some]
      rw [List.length_map]
      exact (List.getElem?_eq_some_iff.mp hlink).1
    rw [hrest, List.getElem?_map, hvr, Option.map_some] at hget
    exact (Option.some.inj hget).symm
  refine ⟨hrow, hnorm, ?_, ?_⟩
  · rw [show link.donorUrl = vr.1.donorUrl from congrArg Prod.fst hkey, hnorm, normalizeRow_donorUrl]
  · rw [show link.acceptorRaw = vr.1.acceptor from congrArg Prod.snd hkey, hnorm,
      normalizeRow_acceptor]

theorem Paired.pair (h : Paired newURL clock w r) {i : ℕ} {link : Link}
    {vr : NormalizedRow × SheetRow} (hpc : r.pc = .pair i)
    (hlink : r.persistedLinks[i]? = some link) (hvr : r.validRows[i]? = some vr) {pc : Pc}
    {links : List Link} (hun : pc.unfetched = false)
    (hmark : ∀ j, pc.marking = some j → j = i ∧ vr.1.errors ≠ []) :
    Paired newURL clock w { r with
      sheetRowByLinkId := Function.update r.sheetRowByLinkId link.id vr.2
      validProcessableLinks := links, pc } where
  rows := h.rows
  valid := h.valid
  unfetched hpc := by rw [hun] at hpc; cases hpc
  unwritten _ := h.unwritten (by rw [hpc]; rfl)
  aligned := h.aligned
  same := h.same
  mapped id row hrow := by
    by_cases hid : id = link.id
    · subst hid
      simp only [Function.update_self, Option.mem_some_iff] at hrow
      subst hrow
      obtain ⟨hmem, -, hown⟩ := h.own hlink hvr
      exact ⟨link, List.mem_of_getElem? hlink, rfl, hmem, hown⟩
    · simp only [Function.update_of_ne hid] at hrow
      exact h.mapped id row hrow
  marking j hj vr' hvr' := by
    obtain ⟨rfl, herr⟩ := hmark j hj
    rw [show r.validRows[j]? = some vr from hvr, Option.mem_some_iff] at hvr'
    exact hvr' ▸ herr
  invalid := h.invalid
  lines := h.lines
  min_pos := h.min_pos
  calls := h.calls

theorem Paired.read (h : Paired newURL clock w r) (hpc : r.pc = .readRows)
    (response : BatchGetResponse) :
    Paired newURL clock w { r with
      response
      rows := readDonorRows r.task.dataStartRow response
      validRows := filledRows newURL (readDonorRows r.task.dataStartRow response)
      pc := .replaceLinks } := by
  obtain ⟨hlinks, hlines, hinvalid⟩ := h.unfetched (by rw [hpc]; rfl)
  refine ⟨rfl, rfl, fun _ => ⟨hlinks, hlines, hinvalid⟩, fun _ => h.unwritten (by rw [hpc]; rfl),
    ?_, h.same, ?_, nofun, ?_, ?_, h.min_pos, h.calls⟩
  · rw [hlinks]
    exact List.nil_prefix
  · intro id row hrow
    obtain ⟨p, hp, -⟩ := h.mapped id row hrow
    rw [hlinks] at hp
    cases hp
  · rw [hinvalid]
    exact fun _ hlink => by cases hlink
  · rw [hlines]
    exact fun _ _ hline => by cases hline

theorem Paired.fetch (h : Paired newURL clock w r) (hpc : r.pc = .fetchLinks)
    (haligned : (findLinksBySheetsTaskOrdered w.db r.task.id).map linkKey <+:
      r.validRows.map rowKey) :
    Paired newURL clock w { r with
      persistedLinks := findLinksBySheetsTaskOrdered w.db r.task.id, pc := .pair 0 } := by
  obtain ⟨hlinks, -, -⟩ := h.unfetched (by rw [hpc]; rfl)
  refine ⟨h.rows, h.valid, nofun, fun _ => h.unwritten (by rw [hpc]; rfl), haligned, ?_, ?_,
    nofun, h.invalid, h.lines, h.min_pos, h.calls⟩
  · intro l hl p hp hid
    rw [w.db.links.eq_of_key_eq hl (List.mem_of_mem_filter hp) hid.symm]
  · intro id row hrow
    obtain ⟨p, hp, -⟩ := h.mapped id row hrow
    rw [hlinks] at hp
    cases hp

theorem Paired.plan (h : Paired newURL clock w r) (hpc : r.pc = .fetchFinal) {minRow col n : ℕ}
    (hmin : 0 < minRow) :
    Paired newURL clock w { r with
      minRow
      startColumnIndex := col
      lines := (List.range n).map fun k =>
        (findLinksBySheetsTaskOrdered w.db r.task.id).find? fun l =>
          r.rowNumber l = some (minRow + k)
      pc := .writeData } := by
  have hcalls : r.calls = [] := h.unwritten (by rw [hpc]; rfl)
  refine ⟨h.rows, h.valid, nofun, fun _ => hcalls, h.aligned, h.same, h.mapped, nofun, h.invalid,
    ?_, .inr hmin, ?_⟩
  · intro k link hline
    obtain ⟨hk, hfind⟩ := List.getElem?_eq_some_iff.mp hline
    rw [List.getElem_map, List.getElem_range] at hfind
    have hmem := List.mem_of_mem_filter (List.mem_of_find?_eq_some hfind)
    have hnumber := List.find?_some hfind
    rw [decide_eq_true_eq, Run.rowNumber, Option.map_eq_some_iff] at hnumber
    obtain ⟨row, hrow, hn⟩ := hnumber
    obtain ⟨p, hp, hid, hrows, hown⟩ := h.mapped link.id row hrow
    have hinput := h.same link hmem p hp hid
    refine ⟨row, hrows, hn, ?_, ?_⟩
    · rw [show link.donorUrl = p.donorUrl from congrArg LinkInput.donorUrl hinput]
      exact hown.1
    · rw [show link.acceptorRaw = p.acceptorRaw from congrArg LinkInput.acceptorRaw hinput]
      exact hown.2
  · rw [hcalls]
    exact fun _ hb => by cases hb

theorem Paired.mark (h : Paired newURL clock w r) {i : ℕ} {link row : Link}
    {vr : NormalizedRow × SheetRow} {db : Database} {now : ℤ} (hpc : r.pc = .markInvalid i now)
    (hlink : r.persistedLinks[i]? = some link) (hvr : r.validRows[i]? = some vr)
    (hsave : saveResult w.db link.id (invalidResult vr.1.errors) now = some (row, db)) :
    Paired newURL clock { w with db }
      { r with invalid := r.invalid ++ [link], pc := .pair (i + 1) } := by
  obtain ⟨-, -, hrows⟩ := saveResult_rows hsave
  obtain ⟨hmem, hnorm, hown⟩ := h.own hlink hvr
  have hkept : Paired newURL clock { w with db } { r with pc := .pair (i + 1) } := by
    refine h.keep ?_ nofun (fun _ => by rw [hpc]; rfl) nofun
    intro l' hl'
    simp only [hrows, List.mem_map] at hl'
    obtain ⟨l, hl, rfl⟩ := hl'
    refine ⟨l, hl, ?_⟩
    split <;> rfl
  refine ⟨hkept.rows, hkept.valid, nofun, hkept.unwritten, hkept.aligned, hkept.same,
    hkept.mapped, nofun, ?_, hkept.lines, hkept.min_pos, hkept.calls⟩
  intro l hl
  rcases List.mem_append.mp hl with hl | hl
  · exact h.invalid l hl
  · rw [List.mem_singleton.mp hl]
    refine ⟨vr.2, hmem, hown, ?_⟩
    rw [← hnorm]
    exact h.marking i (by rw [hpc]; rfl) vr hvr

theorem Paired.write (h : Paired newURL clock w r) {pc : Pc}
    {calls : List SheetsCall} (hun : pc.unwritten = false)
    (hcalls : ∀ b, .writeFormattedBlock b ∈ calls →
      b = r.headerBlock ∨ b = r.dataBlock clock ∧ r.lines ≠ []) :
    Paired newURL clock w { r with calls := r.calls ++ calls, pc } := by
  have hun' : pc.unfetched = false := by
    cases hf : pc.unfetched with
    | false => rfl
    | true => cases pc <;> simp_all [Pc.unwritten, Pc.unfetched]
  refine ⟨h.rows, h.valid, fun hpc => ?_, fun hpc => ?_, h.aligned, h.same, h.mapped, ?_,
    h.invalid, h.lines, h.min_pos, ?_⟩
  · rw [hun'] at hpc
    cases hpc
  · rw [hun] at hpc
    cases hpc
  · intro i hmark
    cases pc <;> cases hmark
    cases hun
  · intro b hb
    rcases List.mem_append.mp hb with hb | hb
    · exact h.calls b hb
    · exact hcalls b hb

theorem Paired.loop (h : Paired newURL clock w r)
    (hlinks : ∀ l' ∈ w'.db.links.rows, ∃ l ∈ w.db.links.rows, l'.input = l.input)
    (hpc : r.pc.unwritten) (batch : Batch) (i : ℕ) :
    Paired newURL clock w' (Run.loop { r with batch } i) := by
  unfold Run.loop
  split
  · exact h.keep hlinks nofun (fun _ => hpc) nofun
  · exact h.keep hlinks nofun (fun _ => hpc) nofun

theorem Paired.main {t : SheetsTurn} (h : Paired newURL clock w r)
    (haligned : r.pc = .fetchLinks →
      (findLinksBySheetsTaskOrdered w.db r.task.id).map linkKey <+: r.validRows.map rowKey)
    (hs : Step newURL clock w r t w' r') : Paired newURL clock w' r' := by
  cases hs with
  | skip hpc => exact h.keep exists_input_self (by rw [hpc]; exact id) (by rw [hpc]; exact id) nofun
  | locked hpc hacq =>
    refine h.keep ?_ (by rw [hpc]; exact id) (by rw [hpc]; exact id) nofun
    exact exists_input_self
  | fails hpc reason => exact h.keep exists_input_self nofun nofun nofun
  | running hpc hset =>
    exact h.keep (exists_input_of_eq (setSheetsTaskStatus_frame hset).1) (by rw [hpc]; exact id)
      (by rw [hpc]; exact id) nofun
  | raised hpc hset =>
    exact h.keep (exists_input_of_eq (updateProject_keys hset).1) (by rw [hpc]; exact id)
      (by rw [hpc]; exact id) nofun
  | toldRunning hpc =>
    exact h.keep (exists_input_of_eq (by rw [publishNow_db])) (by rw [hpc]; exact id)
      (by rw [hpc]; exact id) nofun
  | titled hpc =>
    exact h.keep exists_input_self (by rw [hpc]; exact id) (by rw [hpc]; exact id) nofun
  | read hpc => exact h.read hpc t.response
  | replaced hpc hset =>
    obtain ⟨hlinks, hlines, hinvalid⟩ := h.unfetched (by rw [hpc]; rfl)
    refine ⟨h.rows, h.valid, fun _ => ⟨hlinks, hlines, hinvalid⟩,
      fun _ => h.unwritten (by rw [hpc]; rfl), h.aligned, fun l _ p hp => ?_, h.mapped, nofun,
      h.invalid, h.lines, h.min_pos, h.calls⟩
    rw [show (r.at_ .fetchLinks).persistedLinks = [] from hlinks] at hp
    cases hp
  | fetched hpc => exact h.fetch hpc (haligned hpc)
  | pairedAll hpc hlink => exact h.loop exists_input_self (by rw [hpc]; rfl) _ 0
  | pairedValid hpc hlink hvr hok => exact h.pair hpc hlink hvr rfl nofun
  | pairedInvalid hpc hlink hvr herr =>
    exact h.pair hpc hlink hvr rfl fun j hj => ⟨by cases hj; rfl, herr⟩
  | marked hpc hlink hvr hsave => exact h.mark hpc hlink hvr hsave
  | rejected hpc hall reason => exact h.keep exists_input_self nofun nofun nofun
  | resolved hpc hall => exact h.keep exists_input_self nofun (fun _ => by rw [hpc]; rfl) nofun
  | counted hpc => exact h.keep exists_input_self nofun (fun _ => by rw [hpc]; rfl) nofun
  | toldProgress hpc =>
    exact h.loop (exists_input_of_eq (by rw [publishNow_db])) (by rw [hpc]; rfl) r.batch _
  | nothing hpc hnone => exact h.keep exists_input_self nofun nofun nofun
  | planned hpc hmin hmax hcol =>
    refine h.plan hpc ?_
    simpa using (List.mem_filter.mp (List.min?_mem hmin)).2
  | wroteData hpc =>
    refine h.write (by split <;> rfl) fun b hb => ?_
    obtain ⟨rfl, hne⟩ := FormattedBlock.mem_sent hb
    refine .inr ⟨rfl, fun hnil => hne ?_⟩
    rw [Run.dataBlock, hnil]
    rfl
  | wroteHeader hpc =>
    refine h.write rfl fun b hb => ?_
    exact .inl (FormattedBlock.mem_sent hb).1
  | wroteWidths hpc =>
    refine h.write rfl fun b hb => ?_
    cases List.mem_singleton.mp hb
  | widthsFailed hpc => exact h.keep exists_input_self nofun nofun nofun
  | countedAll hpc => exact h.keep exists_input_self nofun nofun nofun
  | completed hpc hset =>
    exact h.keep (exists_input_of_eq (setSheetsTaskStatus_frame hset).1) nofun nofun nofun
  | refound hpc => exact h.keep exists_input_self nofun nofun nofun
  | toldCompleted hpc =>
    exact h.keep (exists_input_of_eq (by rw [publishNow_db])) nofun nofun nofun
  | failedSet hpc hset =>
    exact h.keep (exists_input_of_eq (setSheetsTaskStatus_frame hset).1) nofun nofun nofun
  | failedUnset hpc => exact h.keep exists_input_self nofun nofun nofun
  | refoundFailed hpc => exact h.keep exists_input_self nofun nofun nofun
  | unfoundFailed hpc => exact h.keep exists_input_self nofun nofun nofun
  | toldFailed hpc =>
    exact h.keep (exists_input_of_eq (by rw [publishNow_db])) nofun nofun nofun
  | lowered hpc hset =>
    exact h.keep (exists_input_of_eq (updateProject_keys hset).1) nofun nofun nofun
  | lowerFailed hpc hset => exact h.keep exists_input_self nofun nofun nofun
  | released hpc hlock =>
    refine h.keep ?_ nofun nofun nofun
    exact exists_input_self
  | releaseFailed hpc hr => exact h.keep exists_input_self nofun nofun nofun

theorem Paired.move {a : Act} (h : Paired newURL clock w r)
    (haligned : ∀ t, a = .main t → r.pc = .fetchLinks → t.rejects = false →
      (findLinksBySheetsTaskOrdered w.db r.task.id).map linkKey <+: r.validRows.map rowKey)
    (hm : r.move newURL clock w a = some (w', r')) : Paired newURL clock w' r' := by
  cases a with
  | main t =>
    have hs := main_eq_some hm
    cases hr : t.rejects with
    | false => exact h.main (fun hpc => haligned t rfl hpc hr) hs
    | true =>
      by_cases hpc : r.pc = .fetchLinks
      · -- a fetch that rejects fetches nothing
        simp only [Run.move, Run.main, hpc, hr, if_true, Option.some.injEq, Prod.mk.injEq] at hm
        obtain ⟨rfl, rfl⟩ := hm
        exact h.keep exists_input_self (fun hun => by cases hun) (fun hun => by cases hun)
          fun i hi => by cases hi
      · exact h.main (fun hpc' => absurd hpc' hpc) hs
  | child k t =>
    obtain ⟨b, hmove, rfl⟩ := child_eq_some hm
    obtain ⟨c, c', -, -, hmoves, -⟩ := Batch.move_eq_some hmove
    refine h.keep (fun l' hl' => ?_) id id fun _ => id
    have hmem : l'.input ∈ w.db.links.rows.map Link.input :=
      hmoves.inputs ▸ List.mem_map_of_mem hl'
    obtain ⟨l, hl, he⟩ := List.mem_map.mp hmem
    exact ⟨l, hl, he.symm⟩
  | beat t =>
    obtain ⟨lock, -, -, rfl, rfl | rfl⟩ := beat_eq_some hm
    · exact h
    · refine h.keep ?_ id id fun _ => id
      exact exists_input_self

def Run.cells (r : Run) (i : ℕ) : String × String :=
  ((r.response.column 0).text i, (r.response.column 1).text i)

theorem Paired.cells (h : Paired newURL clock w r) {link : Link} {row : SheetRow}
    (hrow : row ∈ r.rows) (hown : Own link row) :
    ∃ i, row = ⟨r.task.dataStartRow + i, (r.cells i).1, (r.cells i).2⟩ ∧
      linkKey link = r.cells i := by
  rw [h.rows] at hrow
  obtain ⟨i, -, -, rfl⟩ := mem_readDonorRows.mp hrow
  refine ⟨i, rfl, Prod.ext ?_ ?_⟩
  · exact hown.1.trans (Column.trim_text _ i)
  · exact hown.2.trans (Column.trim_text _ i)

theorem Paired.label {l : Label} {c c' : Call} (h : ∀ r, c = .body r → Paired newURL clock w r)
    (haligned : Aligned (w, c) l) (hs : step newURL clock (w, c) l = some (w', c')) :
    ∀ r, c' = .body r → Paired newURL clock w' r := by
  rintro r' rfl
  cases l with
  | act a =>
    obtain ⟨_, t, rfl, rfl, rfl, hc⟩ | ⟨r, r'', rfl, hm, hc⟩ := call_eq_some hs
    · obtain hc | ⟨task, -, hc⟩ := hc
      · cases hc
      · obtain ⟨⟩ := Call.body.inj hc
        exact .start task
    · obtain rfl := Call.body.inj hc
      refine (h r rfl).move ?_ hm
      rintro t rfl hpc hr
      exact haligned r rfl hpc hr
  | request q =>
    obtain ⟨rfl, rfl⟩ := Prod.mk.inj (Option.some.inj hs)
    refine (h r' rfl).keep (fun l' hl' => ?_) id id fun _ => id
    obtain ⟨p, hp⟩ := q.apply_eq w.db
    rw [show (q.apply w.db).links = w.db.links.deleteWhere p by rw [hp]] at hl'
    exact ⟨l', (Table.mem_deleteWhere.mp hl').1, rfl⟩

/-- In every run of a task among requests that delete links, as long as the links that are left
when they are fetched are, in order, those of the first filled rows: a line of the data block is
formatted from a link with the cells of the row it lies beside, and a link that is marked as
malformed comes from a malformed row. -/
theorem results_beside_own_rows {sheetsTaskId : SheetsTaskId} {labels : List Label}
    (haligned : Meets (step newURL clock) Aligned (w₀, .find sheetsTaskId) labels)
    (hr : exec (step newURL clock) (w₀, .find sheetsTaskId) labels = some (w, .body r)) :
    (∀ b, .writeFormattedBlock b ∈ r.calls → b = r.headerBlock ∨ b = r.dataBlock clock ∧
      ∀ k link, r.lines[k]? = some (some link) →
        ∃ i, r.task.dataStartRow + i = b.startRowIndex + 1 + k ∧ linkKey link = r.cells i) ∧
    ∀ link ∈ r.invalid, ∃ i, linkKey link = r.cells i ∧
      (normalizeRow newURL ⟨r.task.dataStartRow + i, (r.cells i).1, (r.cells i).2⟩).errors ≠ [] := by
  have hinv := exec_invariant_of_meets (I := fun s => ∀ r, s.2 = .body r → Paired newURL clock s.1 r)
    (fun _ _ _ h hc hs => Paired.label h hc hs) (fun _ he => by cases he) haligned hr
  have h := hinv r rfl
  constructor
  · intro b hb
    refine (h.calls b hb).imp_right fun ⟨hblock, hne⟩ => ⟨hblock, fun k link hline => ?_⟩
    obtain ⟨row, hrow, hn, hown⟩ := h.lines k link hline
    obtain ⟨i, rfl, hkey⟩ := h.cells hrow hown
    have hpos : 0 < r.minRow := h.min_pos.resolve_left hne
    refine ⟨i, ?_, hkey⟩
    rw [hblock]
    simp only [Run.dataBlock]
    simp only at hn
    omega
  · intro link hlink
    obtain ⟨row, hrow, hown, herr⟩ := h.invalid link hlink
    obtain ⟨i, rfl, hkey⟩ := h.cells hrow hown
    exact ⟨i, hkey, herr⟩

def mainLabels (n : ℕ) : List Label := List.replicate n (.act (.main exampleTurn))

/-- The link of the first row is deleted before the links are fetched.  The link of the second row
is marked for the first one's fault and written beside it. -/
theorem deleted_link_shifts_rows :
    ∃ w r,
      exec (step exampleURL exampleClock) (exampleWorld, .find "s")
        (mainLabels 8 ++ [.request (.deleteOne "u" "a")] ++ mainLabels 6) = some (w, .body r) ∧
      .writeFormattedBlock (r.dataBlock exampleClock) ∈ r.calls ∧
      r.minRow = 2 ∧ r.lines.map (Option.map linkKey) = [some (r.cells 1)] ∧
      r.cells 0 ≠ r.cells 1 ∧ r.invalid.map linkKey = [r.cells 1] ∧
      (normalizeRow exampleURL ⟨3, (r.cells 1).1, (r.cells 1).2⟩).errors = [] :=
  exists_of_any (by decide +kernel)

def checkLabels : List Label :=
  List.replicate 6 (.act (.child 0 { now := 1000, run := foundRun }))

def deletedLabels : List Label :=
  mainLabels 13 ++ checkLabels ++ [.request (.deleteOne "u" "b")] ++ mainLabels 5

theorem results_beside_own_rows_sample :
    ∃ w r,
      exec (step exampleURL exampleClock) (exampleWorld, .find "s") deletedLabels =
          some (w, .body r) ∧
      .writeFormattedBlock (r.dataBlock exampleClock) ∈ r.calls ∧
      r.lines.map (Option.map Link.id) = [some "a"] ∧
      (∀ b, .writeFormattedBlock b ∈ r.calls → b = r.headerBlock ∨ b = r.dataBlock exampleClock ∧
        ∀ k link, r.lines[k]? = some (some link) →
          ∃ i, r.task.dataStartRow + i = b.startRowIndex + 1 + k ∧ linkKey link = r.cells i) ∧
      ∀ link ∈ r.invalid, ∃ i, linkKey link = r.cells i ∧
        (normalizeRow exampleURL
          ⟨r.task.dataStartRow + i, (r.cells i).1, (r.cells i).2⟩).errors ≠ [] := by
  obtain ⟨w, r, hr, hcall, hlines⟩ := exists_of_any
    (P := fun _ r => .writeFormattedBlock (r.dataBlock exampleClock) ∈ r.calls ∧
      r.lines.map (Option.map Link.id) = [some "a"])
    (s := exec (step exampleURL exampleClock) (exampleWorld, .find "s") deletedLabels)
    (by decide +kernel)
  exact ⟨w, r, hr, hcall, hlines, results_beside_own_rows (by decide +kernel) hr⟩

end LinkBulker.Sheets
