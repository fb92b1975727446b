import LinkBulker.Foundations.Run
import LinkBulker.Worker.SheetsTaskLaws

/-! One run of a sheets task whose links nobody else writes: what it leaves in the database and on
the sheet. -/

namespace LinkBulker.Sheets

open Foundations Db Shared Crawler LinkRepository SingleLink Worker

variable {newURL : UrlParser} {clock : LocalClock} {w w' w₀ : World} {r r' : Run}
  {before crawls crawls' : List LinkId} {links links' : List Link} {n : ℕ}

section Spec

def filledCells (dataStartRow : ℕ) (donor acceptor : Column) : List SheetRow :=
  ((List.range (max donor.length acceptor.length)).filter fun i =>
    donor.text i ≠ "" ∧ acceptor.text i ≠ "").map fun i =>
      ⟨dataStartRow + i, donor.text i, acceptor.text i⟩

/-- The block written beside the rows: one line for each row from the first filled one to the last,
with the result of its link where the row is filled. -/
def resultBlock (clock : LocalClock) (task : SheetsTask) (startColumnIndex : ℕ)
    (rows : List SheetRow) (links : List Link) (minRow maxRow : ℕ) : FormattedBlock where
  spreadsheetId := task.spreadsheetId
  sheetId := task.sheetGid
  startRowIndex := minRow - 1
  startColumnIndex := startColumnIndex
  cells := (List.range (maxRow + 1 - minRow)).map fun k =>
    dataLine clock (((links.zip rows).find? fun e => e.2.rowNumber = minRow + k).map Prod.fst)

theorem length_of_mem_resultBlock {task : SheetsTask} {col minRow maxRow : ℕ}
    {rows : List SheetRow} :
    ∀ line ∈ (resultBlock clock task col rows links minRow maxRow).cells, line.length = 6 := by
  intro line hline
  obtain ⟨k, -, rfl⟩ := List.mem_map.mp hline
  exact length_dataLine clock _

theorem filledRows_eq (start : ℕ) (response : BatchGetResponse) :
    filledRows newURL (readDonorRows start response) =
      (filledCells start (response.column 0) (response.column 1)).map fun row =>
        (normalizeRow newURL row, row) := by
  rw [filledRows, readDonorRows, List.filterMap_filterMap, filledCells, List.map_map,
    ← List.filterMap_eq_map, List.filterMap_filter]
  refine List.filterMap_congr fun i _ => ?_
  by_cases hd : (response.column 0).text i = "" <;> by_cases ha : (response.column 1).text i = ""
  all_goals simp [hd, ha, Column.trim_text, trim_empty]

theorem find?_of_map_eq {α β γ : Type} {f : α → γ} {g : β → γ} (p : γ → Bool) :
    ∀ {as : List α} {bs : List β}, as.map f = bs.map g →
      (as.find? fun a => p (f a)) = ((as.zip bs).find? fun e => p (g e.2)).map Prod.fst
  | [], _, _ => rfl
  | a :: as, [], h => by cases h
  | a :: as, b :: bs, h => by
    obtain ⟨hab, h⟩ := List.cons.inj h
    rw [List.find?_cons, List.zip_cons_cons, List.find?_cons, hab, find?_of_map_eq p h]
    cases p (g b) <;> simp

end Spec

def Marked (errors : List String) (l : Link) : Prop :=
  l.status = .ERROR ∧ l.error = (invalidResult errors).error

structure Pairing (links : List Link) (r : Run) (n : ℕ) : Prop where
  keys : links.map linkKey = r.validRows.map rowKey
  inputs : r.persistedLinks.map Link.input = links.map Link.input
  ids : (links.map Link.id).Nodup
  mapped : ∀ j < n, ∀ l ∈ links[j]?, ∀ vr ∈ r.validRows[j]?, r.sheetRowByLinkId l.id = some vr.2
  kept : r.validProcessableLinks.Sublist (r.persistedLinks.take n)
  valid : ∀ j < n, ∀ l ∈ links[j]?, ∀ vr ∈ r.validRows[j]?,
    vr.1.errors = [] ↔ l.id ∈ r.validProcessableLinks.map Link.id
  marked : ∀ j < n, ∀ l ∈ links[j]?, ∀ vr ∈ r.validRows[j]?, vr.1.errors ≠ [] →
    Marked vr.1.errors l

structure Checking (before crawls : List LinkId) (links : List Link) (r : Run) : Prop
    extends Pairing links r r.persistedLinks.length where
  batch : r.batch.ids = r.validProcessableLinks.map Link.id
  called : r.batch.calls.map ProcessOne.linkId <+: r.batch.ids
  crawled : ∀ c ∈ r.batch.calls, c.pc ≠ .rejected →
    crawls.count c.linkId = before.count c.linkId + if c.uncrawled then 0 else 1
  uncalled : ∀ id, id ∉ r.batch.calls.map ProcessOne.linkId → crawls.count id = before.count id

structure Checked (before crawls : List LinkId) (links : List Link) (r : Run) : Prop
    extends Checking before crawls links r where
  all : r.batch.calls.length = r.batch.ids.length
  resolved : ∀ c ∈ r.batch.calls, c.pc = .resolved

structure Planned (links : List Link) (r : Run) (maxRow : ℕ) : Prop where
  min : (r.validRows.map fun v => v.2.rowNumber).min? = some r.minRow
  max : (r.validRows.map fun v => v.2.rowNumber).max? = some maxRow
  lines : r.lines = (List.range (maxRow + 1 - r.minRow)).map fun k =>
    links.find? fun l => r.rowNumber l = some (r.minRow + k)

def Wrote (clock : LocalClock) (links : List Link) (r : Run) : Prop :=
  ∃ maxRow, Planned links r maxRow ∧ ∃ tail,
    r.calls = .writeFormattedBlock (r.dataBlock clock) :: tail ∧
      ∀ b, .writeFormattedBlock b ∈ tail → b = r.headerBlock

structure Quiet (before crawls : List LinkId) (r : Run) : Prop where
  crawls : crawls = before
  links : r.validProcessableLinks = []
  started : r.batch.calls = []
  written : r.calls = []

def Stage (clock : LocalClock) (before crawls : List LinkId) (links : List Link) (r : Run) :
    Pc → Prop
  | .acquire | .setRunning | .setFlag | .publishRunning | .resolveTitle | .readRows | .replaceLinks
  | .skipped => Quiet before crawls r
  | .fetchLinks =>
    Quiet before crawls r ∧ links.map linkKey = r.validRows.map rowKey
  | .pair i => crawls = before ∧ r.batch.calls = [] ∧ r.calls = [] ∧ Pairing links r i
  | .markInvalid i _ => crawls = before ∧ r.batch.calls = [] ∧ r.calls = [] ∧ Pairing links r i ∧
    (∀ l ∈ links[i]?, ∀ vr ∈ r.validRows[i]?,
      vr.1.errors ≠ [] ∧ r.sheetRowByLinkId l.id = some vr.2)
  | .awaitAll i => Checking before crawls links r ∧ r.calls = [] ∧ i < r.batch.ids.length ∧
    r.batch.calls.length = min (i + INTERNAL_CONCURRENCY) r.batch.ids.length ∧
    ∀ c ∈ r.batch.calls.take i, c.pc = .resolved
  | .counts i | .publishProgress i _ => Checking before crawls links r ∧ r.calls = [] ∧
    r.batch.calls.length = min (i + INTERNAL_CONCURRENCY) r.batch.ids.length ∧
    ∀ c ∈ r.batch.calls, c.pc = .resolved
  | .fetchFinal => Checked before crawls links r ∧ r.calls = []
  | .writeData => Checked before crawls links r ∧ r.calls = [] ∧ ∃ maxRow, Planned links r maxRow
  | .writeHeader | .setWidths => Checked before crawls links r ∧ Wrote clock links r
  | .finalCounts | .setCompleted _ | .refind _ | .publishCompleted .. | .clearFlag | .release
  | .ended => Checked before crawls links r ∧
    (r.validRows = [] ∧ r.calls = [] ∨ Wrote clock links r)
  | .setFailed _ | .refindFailed _ | .publishFailed .. => False

section Control

variable {pc pc' : Pc} {lock : Option LockManager.Lock} {heartbeat : Bool} {threw : Option String}

theorem Pairing.control (h : Pairing links r n) {minRow startColumnIndex : ℕ}
    {lines : List (Option Link)} {calls : List SheetsCall} :
    Pairing links
      { r with pc, lock, heartbeat, threw, minRow, startColumnIndex, lines, calls } n :=
  ⟨h.keys, h.inputs, h.ids, h.mapped, h.kept, h.valid, h.marked⟩

theorem Checking.control (h : Checking before crawls links r) {minRow startColumnIndex : ℕ}
    {lines : List (Option Link)} {calls : List SheetsCall} :
    Checking before crawls links
      { r with pc, lock, heartbeat, threw, minRow, startColumnIndex, lines, calls } :=
  ⟨h.toPairing.control, h.batch, h.called, h.crawled, h.uncalled⟩

theorem Checked.control (h : Checked before crawls links r) {minRow startColumnIndex : ℕ}
    {lines : List (Option Link)} {calls : List SheetsCall} :
    Checked before crawls links
      { r with pc, lock, heartbeat, threw, minRow, startColumnIndex, lines, calls } :=
  ⟨h.toChecking.control, h.all, h.resolved⟩

theorem Planned.control {maxRow : ℕ} (h : Planned links r maxRow) :
    Planned links { r with pc, lock, heartbeat, threw } maxRow :=
  ⟨h.min, h.max, h.lines⟩

theorem Wrote.control (h : Wrote clock links r) :
    Wrote clock links { r with pc, lock, heartbeat, threw } := by
  obtain ⟨maxRow, hplan, tail, hcalls, htail⟩ := h
  exact ⟨maxRow, hplan.control, tail, hcalls, htail⟩

theorem Quiet.control (h : Quiet before crawls r) :
    Quiet before crawls { r with pc, lock, heartbeat, threw } :=
  ⟨h.crawls, h.links, h.started, h.written⟩

theorem Stage.control (h : Stage clock before crawls links r pc') :
    Stage clock before crawls links { r with pc, lock, heartbeat, threw } pc' := by
  cases pc' with
  | acquire | setRunning | setFlag | publishRunning | resolveTitle | readRows | replaceLinks
  | skipped => exact Quiet.control h
  | fetchLinks => exact ⟨h.1.control, h.2⟩
  | pair i =>
    obtain ⟨hcrawls, hbatch, hcalls, hpair⟩ := h
    exact ⟨hcrawls, hbatch, hcalls, hpair.control⟩
  | markInvalid i now =>
    obtain ⟨hcrawls, hbatch, hcalls, hpair, hi⟩ := h
    exact ⟨hcrawls, hbatch, hcalls, hpair.control, hi⟩
  | awaitAll i =>
    obtain ⟨hcheck, hrest⟩ := h
    exact ⟨hcheck.control, hrest⟩
  | counts i | publishProgress i counts =>
    obtain ⟨hcheck, hrest⟩ := h
    exact ⟨hcheck.control, hrest⟩
  | fetchFinal =>
    obtain ⟨hcheck, hrest⟩ := h
    exact ⟨hcheck.control, hrest⟩
  | writeData =>
    obtain ⟨hcheck, hcalls, maxRow, hplan⟩ := h
    exact ⟨hcheck.control, hcalls, maxRow, hplan.control⟩
  | writeHeader | setWidths =>
    obtain ⟨hcheck, hwrote⟩ := h
    exact ⟨hcheck.control, hwrote.control⟩
  | finalCounts | setCompleted status | refind status | publishCompleted updated status
  | clearFlag | release | ended =>
    obtain ⟨hcheck, hwrote⟩ := h
    exact ⟨hcheck.control, hwrote.imp_right Wrote.control⟩
  | setFailed reason | refindFailed reason | publishFailed updated reason => exact h.elim

end Control

section Pairing

theorem linkKey_eq {l l' : Link} (h : l.input = l'.input) : linkKey l = linkKey l' :=
  congrArg (fun i : LinkInput => (i.donorUrl, i.acceptorRaw)) h

theorem id_eq {l l' : Link} (h : l.input = l'.input) : l.id = l'.id := congrArg LinkInput.id h

theorem Pairing.place (h : Pairing links r n) {i j : ℕ} {l l' : Link} (hi : links[i]? = some l)
    (hj : links[j]? = some l') (hid : l.id = l'.id) : i = j := by
  have hlt : i < (links.map Link.id).length := by
    rw [List.length_map]
    exact (List.getElem?_eq_some_iff.mp hi).1
  refine (List.getElem?_inj hlt h.ids).mp ?_
  rw [List.getElem?_map, List.getElem?_map, hi, hj, Option.map_some, Option.map_some, hid]

theorem Pairing.persisted (h : Pairing links r n) {i : ℕ} {link : Link}
    (hlink : r.persistedLinks[i]? = some link) :
    ∃ l, links[i]? = some l ∧ l.id = link.id := by
  have hget : (r.persistedLinks.map Link.input)[i]? = (links.map Link.input)[i]? := by rw [h.inputs]
  rw [List.getElem?_map, List.getElem?_map, hlink, Option.map_some, eq_comm,
    Option.map_eq_some_iff] at hget
  obtain ⟨l, hl, he⟩ := hget
  exact ⟨l, hl, id_eq he⟩

theorem Pairing.rewrite (h : Pairing links r n) {f : Link → Link}
    (hf : ∀ l, (f l).input = l.input)
    (hfix : ∀ j < n, ∀ l ∈ links[j]?, ∀ vr ∈ r.validRows[j]?, vr.1.errors ≠ [] → f l = l) :
    Pairing (links.map f) r n := by
  have hid : ∀ l, (f l).id = l.id := fun l => id_eq (hf l)
  refine ⟨?_, ?_, ?_, ?_, h.kept, ?_, ?_⟩
  · rw [List.map_map, ← h.keys]
    exact List.map_congr_left fun l _ => linkKey_eq (hf l)
  · rw [List.map_map, h.inputs]
    exact List.map_congr_left fun l _ => (hf l).symm
  · rw [List.map_map, show Link.id ∘ f = Link.id from funext hid]
    exact h.ids
  · intro j hj l hl
    rw [List.getElem?_map, Option.mem_def, Option.map_eq_some_iff] at hl
    obtain ⟨l, hl, rfl⟩ := hl
    rw [hid]
    exact h.mapped j hj l hl
  · intro j hj l hl
    rw [List.getElem?_map, Option.mem_def, Option.map_eq_some_iff] at hl
    obtain ⟨l, hl, rfl⟩ := hl
    rw [hid]
    exact h.valid j hj l hl
  · intro j hj l hl vr hvr herr
    rw [List.getElem?_map, Option.mem_def, Option.map_eq_some_iff] at hl
    obtain ⟨l, hl, rfl⟩ := hl
    rw [hfix j hj l hl vr hvr herr]
    exact h.marked j hj l hl vr hvr herr

theorem Pairing.update (h : Pairing links r n) {link l : Link} {vr : NormalizedRow × SheetRow}
    (hl : links[n]? = some l) (hid : l.id = link.id) {pc : Pc} :
    Pairing links { r with
      sheetRowByLinkId := Function.update r.sheetRowByLinkId link.id vr.2, pc } n := by
  refine ⟨h.keys, h.inputs, h.ids, ?_, h.kept, h.valid, h.marked⟩
  intro j hj l' hl' vr' hvr'
  have hne : l'.id ≠ link.id := fun he => hj.ne (h.place hl' hl (he.trans hid.symm))
  simp only [Function.update_of_ne hne]
  exact h.mapped j hj l' hl' vr' hvr'

theorem Pairing.take_ids (h : Pairing links r n) (m : ℕ) :
    (r.persistedLinks.take m).map Link.id = (links.take m).map Link.id := by
  have hmap : (r.persistedLinks.map Link.input).map LinkInput.id =
      (links.map Link.input).map LinkInput.id := by rw [h.inputs]
  rw [List.map_map, List.map_map] at hmap
  rw [List.map_take, List.map_take]
  exact congrArg (List.take m) hmap

theorem Pairing.not_kept (h : Pairing links r n) {l : Link} (hl : links[n]? = some l) :
    l.id ∉ r.validProcessableLinks.map Link.id := by
  intro hmem
  have hmem := (h.kept.map Link.id).subset hmem
  rw [h.take_ids] at hmem
  obtain ⟨l', hl', hid⟩ := List.mem_map.mp hmem
  obtain ⟨j, hj⟩ := List.mem_iff_getElem?.mp hl'
  rw [List.getElem?_take] at hj
  split at hj
  · rename_i hlt
    exact hlt.ne (h.place hj hl hid)
  · cases hj

theorem take_concat {α : Type} {as : List α} {a : α} (h : as[n]? = some a) :
    as.take (n + 1) = as.take n ++ [a] := by
  rw [List.take_add_one, h, Option.toList_some]

theorem Pairing.pairValid (h : Pairing links r n) {link : Link} {vr : NormalizedRow × SheetRow}
    (hlink : r.persistedLinks[n]? = some link) (hvr : r.validRows[n]? = some vr)
    (hok : vr.1.errors = []) :
    Pairing links { r with
      sheetRowByLinkId := Function.update r.sheetRowByLinkId link.id vr.2
      validProcessableLinks := r.validProcessableLinks ++ [link], pc := .pair (n + 1) } (n + 1) := by
  obtain ⟨l, hl, hid⟩ := h.persisted hlink
  have hupd : Pairing links { r with
      sheetRowByLinkId := Function.update r.sheetRowByLinkId link.id vr.2, pc := .pair (n + 1) } n :=
    h.update hl hid
  have hlast : ∀ {l'}, links[n]? = some l' → l' = l := fun hl' => Option.some.inj (hl'.symm.trans hl)
  refine ⟨h.keys, h.inputs, h.ids, ?_, ?_, ?_, ?_⟩
  · intro j hj l' hl' vr' hvr'
    rcases Nat.lt_succ_iff_lt_or_eq.mp hj with hj | rfl
    · exact hupd.mapped j hj l' hl' vr' hvr'
    · obtain rfl := hlast hl'
      obtain rfl : vr = vr' := Option.some.inj (hvr.symm.trans hvr')
      simp only [hid, Function.update_self]
  · simp only [take_concat hlink]
    exact h.kept.append (List.Sublist.refl _)
  · intro j hj l' hl' vr' hvr'
    simp only [List.map_append, List.map_cons, List.map_nil, List.mem_append, List.mem_singleton]
    rcases Nat.lt_succ_iff_lt_or_eq.mp hj with hj | rfl
    · have hne : l'.id ≠ link.id := fun he => hj.ne (h.place hl' hl (he.trans hid.symm))
      rw [h.valid j hj l' hl' vr' hvr', or_iff_left hne]
    · obtain rfl := hlast hl'
      obtain rfl : vr = vr' := Option.some.inj (hvr.symm.trans hvr')
      exact iff_of_true hok (.inr hid)
  · intro j hj l' hl' vr' hvr' herr
    rcases Nat.lt_succ_iff_lt_or_eq.mp hj with hj | rfl
    · exact h.marked j hj l' hl' vr' hvr' herr
    · obtain rfl : vr = vr' := Option.some.inj (hvr.symm.trans hvr')
      exact absurd hok herr

theorem Pairing.mark (h : Pairing links r n) {link : Link} {vr : NormalizedRow × SheetRow}
    {now : ℤ} {f : Link → Link} (hlink : r.persistedLinks[n]? = some link)
    (hvr : r.validRows[n]? = some vr)
    (hnew : ∀ l ∈ links[n]?, ∀ vr ∈ r.validRows[n]?,
      vr.1.errors ≠ [] ∧ r.sheetRowByLinkId l.id = some vr.2)
    (hf : f = fun l => if l.id = link.id then saveResultData (invalidResult vr.1.errors) now l else l) :
    Pairing (links.map f) { r with invalid := r.invalid ++ [link], pc := .pair (n + 1) } (n + 1) := by
  obtain ⟨l, hl, hid⟩ := h.persisted hlink
  obtain ⟨herr, hrow⟩ := hnew l hl vr hvr
  have hinput : ∀ l, (f l).input = l.input := by
    intro l
    rw [hf]
    dsimp only
    split <;> rfl
  have hother : ∀ j < n, ∀ l' ∈ links[j]?, f l' = l' := by
    intro j hj l' hl'
    rw [hf]
    exact if_neg fun he => hj.ne (h.place hl' hl (he.trans hid.symm))
  have hold := h.rewrite hinput fun j hj l' hl' _ _ _ => hother j hj l' hl'
  have hlast : (links.map f)[n]? = some (f l) := by rw [List.getElem?_map, hl, Option.map_some]
  have hlid : (f l).id = l.id := id_eq (hinput l)
  refine ⟨hold.keys, hold.inputs, hold.ids, ?_, ?_, ?_, ?_⟩
  · intro j hj l' hl' vr' hvr'
    rcases Nat.lt_succ_iff_lt_or_eq.mp hj with hj | rfl
    · exact hold.mapped j hj l' hl' vr' hvr'
    · obtain rfl : f l = l' := Option.some.inj (hlast.symm.trans hl')
      obtain rfl : vr = vr' := Option.some.inj (hvr.symm.trans hvr')
      rw [hlid]
      exact hrow
  · rw [take_concat hlink]
    exact h.kept.trans (List.sublist_append_left _ _)
  · intro j hj l' hl' vr' hvr'
    rcases Nat.lt_succ_iff_lt_or_eq.mp hj with hj | rfl
    · exact hold.valid j hj l' hl' vr' hvr'
    · obtain rfl : f l = l' := Option.some.inj (hlast.symm.trans hl')
      obtain rfl : vr = vr' := Option.some.inj (hvr.symm.trans hvr')
      rw [hlid]
      exact iff_of_false herr (h.not_kept hl)
  · intro j hj l' hl' vr' hvr' herr'
    rcases Nat.lt_succ_iff_lt_or_eq.mp hj with hj | rfl
    · exact hold.marked j hj l' hl' vr' hvr' herr'
    · obtain rfl : f l = l' := Option.some.inj (hlast.symm.trans hl')
      obtain rfl : vr = vr' := Option.some.inj (hvr.symm.trans hvr')
      simp only [hf, if_pos hid]
      exact ⟨rfl, rfl⟩

theorem Pairing.done (h : Pairing links r n) (hn : r.persistedLinks[n]? = none) {batch : Batch} :
    Pairing links { r with batch } r.persistedLinks.length := by
  have hle : r.persistedLinks.length ≤ n := List.getElem?_eq_none_iff.mp hn
  refine ⟨h.keys, h.inputs, h.ids, fun j hj => h.mapped j (by omega), ?_,
    fun j hj => h.valid j (by omega), fun j hj => h.marked j (by omega)⟩
  have hkept := h.kept
  rwa [List.take_of_length_le hle, ← List.take_length (l := r.persistedLinks)] at hkept

end Pairing

section Checking

theorem Checking.nodup (h : Checking before crawls links r) : r.batch.ids.Nodup := by
  rw [h.batch]
  have hsub := h.kept.map Link.id
  rw [h.take_ids] at hsub
  exact h.ids.sublist (hsub.trans ((List.take_sublist _ _).map _))

theorem Checking.present (h : Checking before crawls links r) {id : LinkId}
    (hid : id ∈ r.batch.ids) : ∃ l ∈ links, l.id = id := by
  rw [h.batch] at hid
  have hmem := (h.kept.map Link.id).subset hid
  rw [h.take_ids] at hmem
  obtain ⟨l, hl, hlid⟩ := List.mem_map.mp hmem
  exact ⟨l, List.mem_of_mem_take hl, hlid⟩

theorem Checking.child (h : Checking before w.crawls (findLinksBySheetsTaskOrdered w.db r.task.id) r)
    {k : ℕ} {c c' : ProcessOne} {t : Turn} (hget : r.batch.calls[k]? = some c)
    (hlink : c'.linkId = c.linkId) (hm : Moves newURL w c.linkId t c.pc w' c'.pc) :
    Checking before w'.crawls (findLinksBySheetsTaskOrdered w'.db r.task.id)
      { r with batch := { r.batch with calls := r.batch.calls.set k c' } } := by
  obtain ⟨f, hf, hfix, hrows⟩ := hm.links
  have hids := Batch.map_linkId_set hget hlink
  have hcalled : c.linkId ∈ r.batch.calls.map ProcessOne.linkId :=
    List.mem_map_of_mem (List.mem_of_getElem? hget)
  have hmem : c.linkId ∈ r.batch.ids := h.called.subset hcalled
  rw [findLinks_map hf hrows]
  have hpair := h.toPairing.rewrite hf fun j hj l hl vr hvr herr => hfix l fun he => by
    refine herr ((h.valid j hj l hl vr hvr).mpr ?_)
    rw [he, ← h.batch]
    exact hmem
  refine ⟨⟨hpair.keys, hpair.inputs, hpair.ids, hpair.mapped, hpair.kept, hpair.valid,
    hpair.marked⟩, h.batch, ?_, ?_, ?_⟩
  · rw [hids]
    exact h.called
  · intro d hd hpc
    obtain ⟨j, hj⟩ := List.mem_iff_getElem?.mp hd
    by_cases hjk : j = k
    · obtain rfl : c' = d := by
        subst hjk
        rw [List.getElem?_set_self (List.getElem?_eq_some_iff.mp hget).1] at hj
        exact Option.some.inj hj
      rw [hlink]
      obtain ⟨l, hl, hlid⟩ := h.present hmem
      have hcount := hm.count ⟨l, (mem_findLinks.mp hl).1, hlid⟩ hpc
        (h.crawled c (List.mem_of_getElem? hget) hm.unsettled.2)
      exact hcount
    · rw [List.getElem?_set_ne (Ne.symm hjk)] at hj
      have hne : d.linkId ≠ c.linkId := by
        intro he
        refine hjk ?_
        have hnodup : (r.batch.calls.map ProcessOne.linkId).Nodup := h.nodup.sublist h.called.sublist
        have hlt : j < (r.batch.calls.map ProcessOne.linkId).length := by
          rw [List.length_map]
          exact (List.getElem?_eq_some_iff.mp hj).1
        refine (List.getElem?_inj hlt hnodup).mp ?_
        rw [List.getElem?_map, List.getElem?_map, hj, hget, Option.map_some, Option.map_some, he]
      rw [hm.count_other hne]
      exact h.crawled d (List.mem_of_getElem? hj) hpc
  · rw [hids]
    intro id hid
    rw [hm.count_other fun he : id = c.linkId => hid (he ▸ hcalled)]
    exact h.uncalled id hid

theorem Checking.called_take (h : Checking before crawls links r) :
    r.batch.calls.map ProcessOne.linkId = r.batch.ids.take r.batch.calls.length := by
  have hcalled := List.prefix_iff_eq_take.mp h.called
  rwa [List.length_map] at hcalled

theorem Checking.start (h : Checking before crawls links r) {i : ℕ}
    (hlen : r.batch.calls.length = i) :
    Checking before crawls links { r with batch := r.batch.start INTERNAL_CONCURRENCY i } := by
  have hids : (r.batch.start INTERNAL_CONCURRENCY i).calls.map ProcessOne.linkId =
      r.batch.ids.take (i + INTERNAL_CONCURRENCY) := by
    rw [Batch.start, List.map_append, List.map_map, h.called_take, hlen]
    rw [show ProcessOne.linkId ∘ (fun id => ⟨id, .findById⟩ : LinkId → ProcessOne) = id from rfl,
      List.map_id, ← List.take_add]
  have hnodup := h.nodup
  refine ⟨⟨h.keys, h.inputs, h.ids, h.mapped, h.kept, h.valid, h.marked⟩, h.batch, ?_, ?_, ?_⟩
  · rw [hids]
    exact List.take_prefix _ _
  · intro c hc hpc
    rcases List.mem_append.mp hc with hc | hc
    · exact h.crawled c hc hpc
    · obtain ⟨id, hid, rfl⟩ := List.mem_map.mp hc
      refine h.uncalled id fun hmem => ?_
      rw [h.called_take, hlen] at hmem
      rw [← List.take_append_drop i r.batch.ids, List.nodup_append] at hnodup
      exact hnodup.2.2 id hmem id (List.mem_of_mem_take hid) rfl
  · intro id hid
    refine h.uncalled id fun hmem => hid ?_
    rw [Batch.start, List.map_append]
    exact List.mem_append_left _ hmem

theorem Checking.loop (h : Checking before crawls links r) (hcalls : r.calls = []) {i : ℕ}
    (hlen : r.batch.calls.length = min i r.batch.ids.length)
    (hres : ∀ c ∈ r.batch.calls, c.pc = .resolved) :
    Stage clock before crawls links (r.loop i) (r.loop i).pc := by
  have hids : r.batch.ids.length = r.validProcessableLinks.length := by
    rw [h.batch, List.length_map]
  unfold Run.loop
  split
  · rename_i hlt
    have hlen' : r.batch.calls.length = i := by omega
    refine ⟨(h.start hlen').control, hcalls, ?_, ?_, ?_⟩
    · exact hids ▸ hlt
    · have hstart := Batch.length_start (n := INTERNAL_CONCURRENCY) hlen'
      rwa [Nat.max_eq_right (by omega)] at hstart
    · intro c hc
      refine hres c ?_
      rw [Batch.start, List.take_append_of_le_length hlen'.ge, List.take_of_length_le hlen'.le] at hc
      exact hc
  · rename_i hge
    exact ⟨⟨h.control, by simp only [Run.at_]; omega, hres⟩, hcalls⟩

end Checking

section Writeback

def Ground (newURL : UrlParser) (r : Run) : Prop :=
  r.validRows = filledRows newURL (readDonorRows r.task.dataStartRow r.response)

theorem Ground.pos (h : Ground newURL r) : ∀ v ∈ r.validRows, 0 < v.2.rowNumber := by
  intro v hv
  rw [h, filledRows_eq, filledCells, List.map_map, List.mem_map] at hv
  obtain ⟨i, -, rfl⟩ := hv
  exact Nat.add_pos_left r.task.dataStartRow_pos i

theorem Checking.rowNumber (h : Checking before crawls links r) :
    links.map r.rowNumber = r.validRows.map fun v => some v.2.rowNumber := by
  have hlen : links.length = r.validRows.length := by
    simpa using congrArg List.length h.keys
  have hplen : r.persistedLinks.length = links.length := by
    simpa using congrArg List.length h.inputs
  refine List.ext_getElem (by simpa using hlen) fun j hj hj' => ?_
  rw [List.length_map] at hj hj'
  rw [List.getElem_map, List.getElem_map, Run.rowNumber,
    h.mapped j (hplen ▸ hj) _ (List.getElem?_eq_getElem hj) _ (List.getElem?_eq_getElem hj')]
  rfl

theorem Checking.rowNumbers (h : Checking before crawls links r) (hground : Ground newURL r) :
    (links.filterMap r.rowNumber).filter (fun n => 0 < n) =
      r.validRows.map fun v => v.2.rowNumber := by
  have hfilterMap : links.filterMap r.rowNumber = (links.map r.rowNumber).filterMap id := by
    rw [List.filterMap_map]
    rfl
  rw [hfilterMap, h.rowNumber, List.filterMap_map,
    show id ∘ (fun v : NormalizedRow × SheetRow => some v.2.rowNumber) =
      fun v => some v.2.rowNumber from rfl, List.filterMap_eq_map', List.filter_eq_self]
  intro n hn
  obtain ⟨v, hv, rfl⟩ := List.mem_map.mp hn
  exact decide_eq_true (hground.pos v hv)

theorem Planned.sent {maxRow : ℕ} (h : Planned links r maxRow) :
    (r.dataBlock clock).sent = [.writeFormattedBlock (r.dataBlock clock)] := by
  have hle : r.minRow ≤ maxRow :=
    (List.min?_eq_some_iff.mp h.min).2 maxRow (List.max?_mem h.max)
  refine if_neg ?_
  rw [Run.dataBlock, List.length_map, h.lines, List.length_map, List.length_range]
  omega

end Writeback

section Steps

theorem findLinks_congr {db db' : Database} (h : db'.links = db.links) (id : SheetsTaskId) :
    findLinksBySheetsTaskOrdered db' id = findLinksBySheetsTaskOrdered db id := by
  rw [findLinksBySheetsTaskOrdered, findLinksBySheetsTaskOrdered, h]

theorem Stage.elsewhere {db : Database} {id : SheetsTaskId} {pc : Pc} (hlinks : db.links = w.db.links)
    (h : Stage clock before crawls (findLinksBySheetsTaskOrdered w.db id) r pc) :
    Stage clock before crawls (findLinksBySheetsTaskOrdered db id) r pc := by
  rwa [findLinks_congr hlinks]

theorem Stage.publish {event : ProgressEvent} {id : SheetsTaskId} {pc : Pc} {t : Turn}
    (h : Stage clock before w.crawls (findLinksBySheetsTaskOrdered w.db id) r pc) :
    Stage clock before (w.publishNow t event).crawls
      (findLinksBySheetsTaskOrdered (w.publishNow t event).db id) r pc := by
  rwa [publishNow_crawls, publishNow_db]

theorem Stage.fetch (h : Stage clock before crawls links r .fetchLinks)
    (hids : (links.map Link.id).Nodup) :
    Stage clock before crawls links { r with persistedLinks := links, pc := .pair 0 } (.pair 0) := by
  obtain ⟨hquiet, hkeys⟩ := h
  refine ⟨hquiet.crawls, hquiet.started, hquiet.written, hkeys, rfl, hids, ?_, ?_, ?_, ?_⟩
  · exact fun j hj => absurd hj (Nat.not_lt_zero j)
  · simp only [hquiet.links]
    exact List.nil_sublist _
  · exact fun j hj => absurd hj (Nat.not_lt_zero j)
  · exact fun j hj => absurd hj (Nat.not_lt_zero j)

theorem Stage.pairAll {i : ℕ} (h : Stage clock before crawls links r (.pair i))
    (hlink : r.persistedLinks[i]? = none) :
    Stage clock before crawls links
      (Run.loop { r with batch := ⟨r.validProcessableLinks.map Link.id, []⟩ } 0)
      (Run.loop { r with batch := ⟨r.validProcessableLinks.map Link.id, []⟩ } 0).pc := by
  obtain ⟨hcrawls, -, hcalls, hpair⟩ := h
  have hcheck : Checking before crawls links
      { r with batch := ⟨r.validProcessableLinks.map Link.id, []⟩ } := by
    refine ⟨hpair.done hlink, rfl, List.nil_prefix, fun c hc => ?_, fun id _ => ?_⟩
    · cases hc
    rw [hcrawls]
  exact hcheck.loop hcalls (Nat.zero_min _).symm fun c hc => by cases hc

theorem Stage.pairInvalid {i : ℕ} {now : ℤ} (h : Stage clock before crawls links r (.pair i)) {link : Link}
    {vr : NormalizedRow × SheetRow} (hlink : r.persistedLinks[i]? = some link)
    (hvr : r.validRows[i]? = some vr) (herr : vr.1.errors ≠ []) :
    Stage clock before crawls links { r with
      sheetRowByLinkId := Function.update r.sheetRowByLinkId link.id vr.2, pc := .markInvalid i now }
      (.markInvalid i now) := by
  obtain ⟨hcrawls, hbatch, hcalls, hpair⟩ := h
  obtain ⟨l, hl, hid⟩ := hpair.persisted hlink
  refine ⟨hcrawls, hbatch, hcalls, hpair.update hl hid, fun l' hl' vr' hvr' => ?_⟩
  obtain rfl : l = l' := Option.some.inj (hl.symm.trans hl')
  obtain rfl : vr = vr' := Option.some.inj (hvr.symm.trans hvr')
  refine ⟨herr, ?_⟩
  simp only [hid, Function.update_self]

theorem Stage.resolve {i : ℕ} (h : Stage clock before crawls links r (.awaitAll i))
    (hall : r.batch.all i = some true) :
    Stage clock before crawls links (r.at_ (.counts i)) (.counts i) := by
  obtain ⟨hcheck, hcalls, -, hlen, hres⟩ := h
  refine ⟨hcheck.control, hcalls, hlen, fun c hc => ?_⟩
  rw [← List.take_append_drop i (r.at_ (.counts i)).batch.calls, List.mem_append] at hc
  rcases hc with hc | hc
  · exact hres c hc
  · exact Batch.resolved_of_all hall c hc

theorem Stage.plan (hground : Ground newURL r)
    (h : Stage clock before crawls links r .fetchFinal) {minRow maxRow col : ℕ}
    (hmin : ((links.filterMap r.rowNumber).filter (fun n => 0 < n)).min? = some minRow)
    (hmax : ((links.filterMap r.rowNumber).filter (fun n => 0 < n)).max? = some maxRow) :
    Stage clock before crawls links { r with
      minRow
      startColumnIndex := col
      lines := (List.range (maxRow + 1 - minRow)).map fun k =>
        links.find? fun l => r.rowNumber l = some (minRow + k)
      pc := .writeData } .writeData := by
  obtain ⟨hcheck, hcalls⟩ := h
  rw [hcheck.rowNumbers hground] at hmin hmax
  exact ⟨hcheck.control, hcalls, maxRow, hmin, hmax, rfl⟩

theorem Wrote.snoc (h : Wrote clock links r) {pc : Pc} {calls : List SheetsCall}
    (hcalls : ∀ b, .writeFormattedBlock b ∈ calls → b = r.headerBlock) :
    Wrote clock links { r with calls := r.calls ++ calls, pc } := by
  obtain ⟨maxRow, hplan, tail, hr, htail⟩ := h
  refine ⟨maxRow, ⟨hplan.min, hplan.max, hplan.lines⟩, tail ++ calls, ?_, fun b hb => ?_⟩
  · simp only [hr, List.cons_append]
    rfl
  · rcases List.mem_append.mp hb with hb | hb
    · exact htail b hb
    · exact hcalls b hb

theorem Stage.main {t : SheetsTurn} (hground : Ground newURL r)
    (h : Stage clock before w.crawls (findLinksBySheetsTaskOrdered w.db r.task.id) r r.pc)
    (hs : Step newURL clock w r t w' r') (hok : r'.threw = none) :
    Stage clock before w'.crawls (findLinksBySheetsTaskOrdered w'.db r.task.id) r' r'.pc := by
  cases hs with
  | skip hpc => rw [hpc] at h; exact h.control
  | locked hpc hacq => rw [hpc] at h; exact h.control
  | fails hpc reason => cases hok
  | running hpc hset =>
    rw [hpc] at h
    exact (h.elsewhere (setSheetsTaskStatus_frame hset).1).control
  | raised hpc hset =>
    rw [hpc] at h
    exact (h.elsewhere (updateProject_keys hset).1).control
  | toldRunning hpc => rw [hpc] at h; exact h.publish.control
  | titled hpc => rw [hpc] at h; exact h.control
  | read hpc => rw [hpc] at h; exact ⟨h.crawls, h.links, h.started, h.written⟩
  | replaced hpc hset =>
    rw [hpc] at h
    refine ⟨Quiet.control h, ?_⟩
    rw [replaceSheetsLinks_ordered hset]
    refine List.ext_getElem (by simp [Run.at_]) fun j hj hj' => ?_
    simp [linkKey, rowKey, sheetsLink, NormalizedRow.data, Run.at_]
  | fetched hpc => rw [hpc] at h; exact h.fetch (findLinks_nodup _)
  | pairedAll hpc hlink => rw [hpc] at h; exact h.pairAll hlink
  | pairedValid hpc hlink hvr hvalid =>
    rw [hpc] at h
    obtain ⟨hcrawls, hbatch, hcalls, hpair⟩ := h
    exact ⟨hcrawls, hbatch, hcalls, hpair.pairValid hlink hvr hvalid⟩
  | pairedInvalid hpc hlink hvr herr => rw [hpc] at h; exact h.pairInvalid hlink hvr herr
  | marked hpc hlink hvr hsave =>
    rw [hpc] at h
    obtain ⟨hcrawls, hbatch, hcalls, hpair, hnew⟩ := h
    obtain ⟨-, -, hrows⟩ := saveResult_rows hsave
    refine ⟨hcrawls, hbatch, hcalls, ?_⟩
    rw [findLinks_map (fun l => by split <;> rfl) hrows]
    exact hpair.mark hlink hvr hnew rfl
  | rejected hpc hall reason => cases hok
  | resolved hpc hall => rw [hpc] at h; exact h.resolve hall
  | counted hpc => rw [hpc] at h; exact h.control
  | toldProgress hpc =>
    rw [hpc] at h
    obtain ⟨hcheck, hcalls, hlen, hres⟩ := h
    exact (hcheck.loop hcalls hlen hres).publish
  | nothing hpc hnone =>
    rw [hpc] at h
    obtain ⟨hcheck, hcalls⟩ := h
    rw [hcheck.rowNumbers hground, List.map_eq_nil_iff] at hnone
    exact ⟨hcheck.control, .inl ⟨hnone, hcalls⟩⟩
  | planned hpc hmin hmax hcol => rw [hpc] at h; exact h.plan hground hmin hmax
  | wroteData hpc =>
    rw [hpc] at h
    obtain ⟨hcheck, hcalls, maxRow, hplan⟩ := h
    have hwrote : Wrote clock (findLinksBySheetsTaskOrdered w.db r.task.id) { r with
        calls := r.calls ++ (r.dataBlock clock).sent
        pc := if 0 < r.task.headerRow then .writeHeader else .setWidths } := by
      refine ⟨maxRow, ⟨hplan.min, hplan.max, hplan.lines⟩, [], ?_, fun b hb => by cases hb⟩
      simp only [hcalls, hplan.sent, List.nil_append]
      rfl
    dsimp only
    split
    · rename_i hheader
      rw [if_pos hheader] at hwrote
      exact ⟨hcheck.control, hwrote⟩
    · rename_i hheader
      rw [if_neg hheader] at hwrote
      exact ⟨hcheck.control, hwrote⟩
  | wroteHeader hpc =>
    rw [hpc] at h
    obtain ⟨hcheck, hwrote⟩ := h
    exact ⟨hcheck.control, hwrote.snoc fun b hb => (FormattedBlock.mem_sent hb).1⟩
  | wroteWidths hpc =>
    rw [hpc] at h
    obtain ⟨hcheck, hwrote⟩ := h
    refine ⟨hcheck.control, .inr (hwrote.snoc fun b hb => ?_)⟩
    cases List.mem_singleton.mp hb
  | widthsFailed hpc =>
    rw [hpc] at h
    obtain ⟨hcheck, hwrote⟩ := h
    exact ⟨hcheck.control, .inr hwrote.control⟩
  | countedAll hpc => rw [hpc] at h; exact h.control
  | completed hpc hset =>
    rw [hpc] at h
    exact (h.elsewhere (setSheetsTaskStatus_frame hset).1).control
  | refound hpc => rw [hpc] at h; exact h.control
  | toldCompleted hpc => rw [hpc] at h; exact h.publish.control
  | failedSet hpc hset => rw [hpc] at h; exact h.elim
  | failedUnset hpc => rw [hpc] at h; exact h.elim
  | refoundFailed hpc => rw [hpc] at h; exact h.elim
  | unfoundFailed hpc => rw [hpc] at h; exact h.elim
  | toldFailed hpc => rw [hpc] at h; exact h.elim
  | lowered hpc hset =>
    rw [hpc] at h
    exact (h.elsewhere (updateProject_keys hset).1).control
  | lowerFailed hpc hset => rw [hpc] at h; exact h.control
  | released hpc hlock => rw [hpc] at h; exact h.control
  | releaseFailed hpc hr => rw [hpc] at h; exact h.control

theorem Stage.idle {pc : Pc} (h : Stage clock before crawls links r pc) :
    (∃ i, pc = .awaitAll i) ∨ ∀ c ∈ r.batch.calls, c.pc = .resolved := by
  have hnil (hcalls : r.batch.calls = []) : ∀ c ∈ r.batch.calls, c.pc = .resolved := by
    rw [hcalls]
    exact fun c hc => by cases hc
  cases pc with
  | acquire | setRunning | setFlag | publishRunning | resolveTitle | readRows | replaceLinks
  | skipped => exact .inr (hnil (Quiet.started h))
  | fetchLinks => exact .inr (hnil h.1.started)
  | pair i | markInvalid i now => exact .inr (hnil h.2.1)
  | awaitAll i => exact .inl ⟨i, rfl⟩
  | counts i | publishProgress i counts => exact .inr h.2.2.2
  | fetchFinal | writeData | writeHeader | setWidths | finalCounts | setCompleted status
  | refind status | publishCompleted updated status | clearFlag | release | ended =>
    exact .inr h.1.resolved
  | setFailed reason | refindFailed reason | publishFailed updated reason => exact h.elim

theorem Stage.child {k : ℕ} {t : Turn} {b : Batch}
    (h : Stage clock before w.crawls (findLinksBySheetsTaskOrdered w.db r.task.id) r r.pc)
    (hmove : r.batch.move newURL w k t = some (w', b)) :
    Stage clock before w'.crawls (findLinksBySheetsTaskOrdered w'.db r.task.id)
      { r with batch := b } r.pc := by
  obtain ⟨c, c', hget, hlink, hm, rfl⟩ := Batch.move_eq_some hmove
  have hmem : c ∈ r.batch.calls := List.mem_of_getElem? hget
  rcases h.idle with ⟨i, hpc⟩ | hidle
  · rw [hpc] at h ⊢
    obtain ⟨hcheck, hcalls, hlt, hlen, hres⟩ := h
    refine ⟨(hcheck.child hget hlink hm).control, hcalls, hlt, (List.length_set ..).trans hlen, ?_⟩
    have hik : i ≤ k :=
      Batch.le_of_move (fun c hc => Batch.settled_of_pc (.inl (hres c hc))) hmove
    simp only [List.take_set_of_le hik]
    exact hres
  · exact absurd (hidle c hmem) hm.unsettled.1

end Steps

section Solo

inductive SoloLabel
  | act (a : Act)
  | elsewhere (db : Database)

def soloStep (newURL : UrlParser) (clock : LocalClock) (sheetsTaskId : SheetsTaskId)
    (s : World × Call) : SoloLabel → Option (World × Call)
  | .act a => s.2.move newURL clock s.1 a
  | .elsewhere db =>
    if findLinksBySheetsTaskOrdered db sheetsTaskId =
        findLinksBySheetsTaskOrdered s.1.db sheetsTaskId then some ({ s.1 with db }, s.2)
    else none

structure Solo (newURL : UrlParser) (clock : LocalClock) (before : List LinkId)
    (sheetsTaskId : SheetsTaskId) (w : World) (r : Run) : Prop where
  task : r.task.id = sheetsTaskId
  ground : Ground newURL r
  stage : r.threw = none →
    Stage clock before w.crawls (findLinksBySheetsTaskOrdered w.db sheetsTaskId) r r.pc

theorem Step.ground {t : SheetsTurn} (h : Ground newURL r) (hs : Step newURL clock w r t w' r') :
    Ground newURL r' := by
  cases hs with
  | read hpc => exact rfl
  | pairedAll hpc hlink => unfold Run.loop; split <;> exact h
  | toldProgress hpc => unfold Run.loop; split <;> exact h
  | _ => exact h

theorem Step.threw {t : SheetsTurn} (hs : Step newURL clock w r t w' r') (hok : r'.threw = none) :
    r.threw = none := by
  cases hs with
  | fails hpc reason => cases hok
  | rejected hpc hall reason => cases hok
  | pairedAll hpc hlink => unfold Run.loop at hok; split at hok <;> exact hok
  | toldProgress hpc => unfold Run.loop at hok; split at hok <;> exact hok
  | _ => exact hok

theorem Solo.move {before : List LinkId} {sheetsTaskId : SheetsTaskId} {a : Act}
    (h : Solo newURL clock before sheetsTaskId w r)
    (hm : r.move newURL clock w a = some (w', r')) :
    Solo newURL clock before sheetsTaskId w' r' := by
  obtain ⟨rfl, hground, hstage⟩ := h
  cases a with
  | main t =>
    have hs := main_eq_some hm
    refine ⟨by rw [hs.task], hs.ground hground, fun hok => ?_⟩
    exact (hstage (hs.threw hok)).main hground hs hok
  | child k t =>
    obtain ⟨b, hmove, rfl⟩ := child_eq_some hm
    exact ⟨rfl, hground, fun hok => (hstage hok).child hmove⟩
  | beat t =>
    obtain ⟨lock, -, -, rfl, rfl | rfl⟩ := beat_eq_some hm
    · exact ⟨rfl, hground, hstage⟩
    · exact ⟨rfl, hground, hstage⟩

theorem Solo.start {before : List LinkId} (task : SheetsTask) (hcrawls : w.crawls = before) :
    Solo newURL clock before task.id w { task } :=
  ⟨rfl, rfl, fun _ => ⟨hcrawls, rfl, rfl, rfl⟩⟩

def SoloCall (newURL : UrlParser) (clock : LocalClock) (before : List LinkId)
    (sheetsTaskId : SheetsTaskId) (s : World × Call) : Prop :=
  match s.2 with
  | .find id => id = sheetsTaskId ∧ s.1.crawls = before
  | .body r => Solo newURL clock before sheetsTaskId s.1 r
  | .missing => True

theorem SoloCall.label {before : List LinkId} {sheetsTaskId : SheetsTaskId} {l : SoloLabel}
    {c c' : Call} (h : SoloCall newURL clock before sheetsTaskId (w, c))
    (hs : soloStep newURL clock sheetsTaskId (w, c) l = some (w', c')) :
    SoloCall newURL clock before sheetsTaskId (w', c') := by
  cases l with
  | act a =>
    obtain ⟨id, t, rfl, rfl, rfl, hc⟩ | ⟨r, r', rfl, hm, rfl⟩ := call_eq_some hs
    · obtain ⟨rfl, hcrawls⟩ := h
      obtain rfl | ⟨task, hfind, rfl⟩ := hc
      · trivial
      · obtain ⟨-, rfl⟩ := Table.find?_eq_some.mp hfind
        exact Solo.start task hcrawls
    · exact Solo.move h hm
  | elsewhere db =>
    simp only [soloStep] at hs
    split at hs
    · rename_i hlinks
      obtain ⟨rfl, rfl⟩ := Prod.mk.inj (Option.some.inj hs)
      cases c with
      | find id => exact h
      | body r => exact ⟨h.task, h.ground, fun hok => hlinks ▸ h.stage hok⟩
      | missing => trivial
    · cases hs

def Run.filledCells (r : Run) : List SheetRow :=
  Sheets.filledCells r.task.dataStartRow (r.response.column 0) (r.response.column 1)

theorem Ground.validRows (h : Ground newURL r) :
    r.validRows = r.filledCells.map fun row => (normalizeRow newURL row, row) :=
  h.trans (filledRows_eq _ _)

theorem trim_filledCells {row : SheetRow} (h : row ∈ r.filledCells) :
    (trim row.donorUrl, trim row.acceptor) = (row.donorUrl, row.acceptor) := by
  obtain ⟨i, -, rfl⟩ := List.mem_map.mp h
  exact Prod.ext (Column.trim_text _ i) (Column.trim_text _ i)

theorem Checked.outcome (h : Checked before crawls links r) (hground : Ground newURL r) :
    ∀ e ∈ links.zip r.filledCells,
      if (normalizeRow newURL e.2).errors = [] then crawls.count e.1.id = before.count e.1.id + 1
      else crawls.count e.1.id = before.count e.1.id ∧ Marked (normalizeRow newURL e.2).errors e.1 := by
  rintro ⟨l, row⟩ he
  obtain ⟨j, hj⟩ := List.mem_iff_getElem?.mp he
  obtain ⟨hl, hrow⟩ := List.getElem?_zip_eq_some.mp hj
  have hvr : r.validRows[j]? = some (normalizeRow newURL row, row) := by
    rw [hground.validRows, List.getElem?_map, hrow, Option.map_some]
  have hjlt : j < r.persistedLinks.length := by
    have hlen : r.persistedLinks.length = links.length := by
      simpa using congrArg List.length h.inputs
    exact hlen ▸ (List.getElem?_eq_some_iff.mp hl).1
  have hvalid := h.valid j hjlt l hl _ hvr
  have hmarked := h.marked j hjlt l hl _ hvr
  have hcalled : r.batch.calls.map ProcessOne.linkId =
      r.validProcessableLinks.map Link.id := by
    rw [h.called_take, h.all, List.take_length, h.batch]
  rw [← hcalled] at hvalid
  dsimp only at hvalid hmarked ⊢
  split
  · rename_i hok
    obtain ⟨c, hc, hid⟩ := List.mem_map.mp (hvalid.mp hok)
    have hres := h.resolved c hc
    have hcount := h.crawled c hc (by rw [hres]; nofun)
    rw [hid, ProcessOne.uncrawled, hres] at hcount
    exact hcount
  · rename_i herr
    exact ⟨h.uncalled l.id fun hmem => herr (hvalid.mpr hmem), hmarked herr⟩

theorem Planned.dataBlock {maxRow : ℕ} (h : Planned links r maxRow)
    (hcheck : Checking before crawls links r) (hground : Ground newURL r) :
    r.dataBlock clock =
      resultBlock clock r.task r.startColumnIndex r.filledCells links r.minRow maxRow := by
  have hnumber : links.map r.rowNumber = r.filledCells.map fun row => some row.rowNumber := by
    rw [hcheck.rowNumber, hground.validRows, List.map_map]
    rfl
  rw [Run.dataBlock, resultBlock, h.lines, List.map_map]
  congr 1
  refine List.map_congr_left fun k _ => ?_
  rw [Function.comp_apply,
    find?_of_map_eq (fun n => decide (n = some (r.minRow + k))) hnumber]
  simp only [Option.some.injEq]

theorem checked_of_run {sheetsTaskId : SheetsTaskId} {labels : List SoloLabel}
    (hr : exec (soloStep newURL clock sheetsTaskId) (w₀, .find sheetsTaskId) labels =
      some (w, .body r)) (hended : r.pc = .ended) (hok : r.threw = none) :
    Ground newURL r ∧
      Checked w₀.crawls w.crawls (findLinksBySheetsTaskOrdered w.db sheetsTaskId) r ∧
      (r.validRows = [] ∧ r.calls = [] ∨
        Wrote clock (findLinksBySheetsTaskOrdered w.db sheetsTaskId) r) := by
  have hinv := exec_invariant (I := SoloCall newURL clock w₀.crawls sheetsTaskId)
    (fun _ _ _ h hs => h.label hs) (show SoloCall _ _ _ _ (w₀, .find sheetsTaskId) from ⟨rfl, rfl⟩) hr
  obtain ⟨-, hground, hstage⟩ := hinv
  have hstage := hstage hok
  rw [hended] at hstage
  exact ⟨hground, hstage⟩

/-- A run that has come to its end without throwing, while nobody else has written the links of its
task, whatever the columns were: the task has one link per filled row, in the order of the rows;
those in order were crawled once, the others are marked and were not; and the sheet got one block,
with the result of each link beside its row, or nothing when no row is filled. -/
theorem run_writes_results {sheetsTaskId : SheetsTaskId} {labels : List SoloLabel}
    (hr : exec (soloStep newURL clock sheetsTaskId) (w₀, .find sheetsTaskId) labels =
      some (w, .body r)) (hended : r.pc = .ended) (hok : r.threw = none) :
    (findLinksBySheetsTaskOrdered w.db sheetsTaskId).map linkKey =
      r.filledCells.map (fun row => (row.donorUrl, row.acceptor)) ∧
    (∀ e ∈ (findLinksBySheetsTaskOrdered w.db sheetsTaskId).zip r.filledCells,
      if (normalizeRow newURL e.2).errors = [] then
        w.crawls.count e.1.id = w₀.crawls.count e.1.id + 1
      else w.crawls.count e.1.id = w₀.crawls.count e.1.id ∧
        Marked (normalizeRow newURL e.2).errors e.1) ∧
    (r.filledCells = [] → r.calls = []) ∧
    (r.filledCells ≠ [] → ∃ minRow maxRow startColumnIndex block tail,
      (r.filledCells.map SheetRow.rowNumber).min? = some minRow ∧
      (r.filledCells.map SheetRow.rowNumber).max? = some maxRow ∧
      block = resultBlock clock r.task startColumnIndex r.filledCells
        (findLinksBySheetsTaskOrdered w.db sheetsTaskId) minRow maxRow ∧
      (∀ line ∈ block.cells, line.length = 6) ∧
      r.calls = .writeFormattedBlock block :: tail ∧
      ∀ b, .writeFormattedBlock b ∈ tail → b = r.headerBlock) := by
  obtain ⟨hground, hcheck, hwrote⟩ := checked_of_run hr hended hok
  have hnumbers : r.validRows.map (fun v => v.2.rowNumber) =
      r.filledCells.map SheetRow.rowNumber := by
    rw [hground.validRows, List.map_map]
    rfl
  refine ⟨?_, hcheck.outcome hground, fun hnil => ?_, fun hne => ?_⟩
  · rw [hcheck.keys, hground.validRows, List.map_map]
    refine List.map_congr_left fun row hrow => ?_
    rw [← trim_filledCells hrow]
    simp [rowKey]
  · rcases hwrote with ⟨-, hcalls⟩ | ⟨maxRow, hplan, -⟩
    · exact hcalls
    · have hmin := hplan.min
      rw [hnumbers, hnil] at hmin
      cases hmin
  · rcases hwrote with ⟨hnil, -⟩ | ⟨maxRow, hplan, tail, hcalls, htail⟩
    · rw [hground.validRows, List.map_eq_nil_iff] at hnil
      exact absurd hnil hne
    · refine ⟨r.minRow, maxRow, r.startColumnIndex, _, tail, hnumbers ▸ hplan.min,
        hnumbers ▸ hplan.max, rfl, length_of_mem_resultBlock, ?_, htail⟩
      rw [hcalls, hplan.dataBlock hcheck.toChecking hground]

def soloLabels : List SoloLabel :=
  [.elsewhere exampleWorld.db] ++ List.replicate 13 (.act (.main exampleTurn)) ++
    List.replicate 6 (.act (.child 0 { now := 1000, run := foundRun })) ++
    List.replicate 13 (.act (.main exampleTurn))

theorem run_writes_results_sample :
    ∃ w r,
      exec (soloStep exampleURL exampleClock "s") (exampleWorld, .find "s") soloLabels =
        some (w, .body r) ∧
      (findLinksBySheetsTaskOrdered w.db "s").map linkKey =
        r.filledCells.map fun row => (row.donorUrl, row.acceptor) := by
  obtain ⟨w, r, hr, hended, hok⟩ := exists_of_any (P := fun _ r => r.pc = .ended ∧ r.threw = none)
    (s := exec (soloStep exampleURL exampleClock "s") (exampleWorld, .find "s") soloLabels)
    (by decide +kernel)
  exact ⟨w, r, hr, (run_writes_results hr hended hok).1⟩

end Solo

end LinkBulker.Sheets
