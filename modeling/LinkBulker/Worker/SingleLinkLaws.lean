import LinkBulker.Foundations.Run
import LinkBulker.Worker.SingleLink

namespace LinkBulker.SingleLink

open Foundations Db Shared Crawler LinkRepository

variable {newURL : UrlParser} {w w' : World} {id : LinkId} {pc pc' : Pc} {p p' : ProcessOne}
  {t : Turn}

def Pc.awaitsStatement : Pc → Bool
  | .findById | .markStatus _ | .saveResult .. => true
  | _ => false

inductive Moves (newURL : UrlParser) (w : World) (id : LinkId) (t : Turn) :
    Pc → World → Pc → Prop
  | fails {pc : Pc} (ha : pc.awaitsStatement) (hr : t.rejects) : Moves newURL w id t pc w .rejected
  | missing (hr : t.rejects = false) (h : ∀ l ∈ w.db.links.rows, l.id ≠ id) :
    Moves newURL w id t .findById w .resolved
  | found {link : Link} (hr : t.rejects = false) (hl : link ∈ w.db.links.rows)
    (hid : link.id = id) : Moves newURL w id t .findById w (.markStatus link)
  | markGone {link : Link} (hr : t.rejects = false) (h : ∀ l ∈ w.db.links.rows, l.id ≠ id) :
    Moves newURL w id t (.markStatus link) w .rejected
  | marked {link : Link} {db : Database} (hr : t.rejects = false)
    (h : markStatus w.db id .CHECKING = some db) :
    Moves newURL w id t (.markStatus link) { w with db } (.publishChecking link)
  | checking {link : Link} :
    Moves newURL w id t (.publishChecking link)
      (w.publishNow t (.link_updated (checkingEvent id link))) (.crawl link)
  | crawled {link : Link} :
    Moves newURL w id t (.crawl link) { w with crawls := w.crawls ++ [id] }
      (.saveResult link
        (crawlAndAnalyze newURL link.donorUrl link.acceptorRaw t.run t.durationMs) t.now)
  | saveGone {link : Link} {result : CrawlAndAnalyzeResult} {now : ℤ} (hr : t.rejects = false)
    (h : ∀ l ∈ w.db.links.rows, l.id ≠ id) :
    Moves newURL w id t (.saveResult link result now) w .rejected
  | saved {link row : Link} {result : CrawlAndAnalyzeResult} {now : ℤ} {db : Database}
    (hr : t.rejects = false) (h : saveResult w.db id result now = some (row, db)) :
    Moves newURL w id t (.saveResult link result now)
      { w with db, stored := w.stored ++ [⟨id, result, now⟩] } (.publishSaved link row)
  | published {link row : Link} :
    Moves newURL w id t (.publishSaved link row)
      (w.publishNow t (.link_updated (savedEvent id link row))) .resolved

theorem move_eq_some (h : p.move newURL w t = some (w', p')) :
    p'.linkId = p.linkId ∧ Moves newURL w p.linkId t p.pc w' p'.pc := by
  obtain ⟨id, pc⟩ := p
  cases pc with
  | findById =>
    simp only [ProcessOne.move] at h
    split at h
    · cases h
      exact ⟨rfl, .fails rfl ‹_›⟩
    · rename_i hr
      split at h
      · rename_i hf
        cases h
        exact ⟨rfl, .missing (by simpa using hr) (Table.find?_eq_none.mp hf)⟩
      · rename_i hf
        cases h
        have hl := Table.find?_eq_some.mp hf
        exact ⟨rfl, .found (by simpa using hr) hl.1 hl.2⟩
  | markStatus link =>
    simp only [ProcessOne.move] at h
    split at h
    · cases h
      exact ⟨rfl, .fails rfl ‹_›⟩
    · rename_i hr
      split at h
      · rename_i hf
        cases h
        exact ⟨rfl, .markGone (by simpa using hr) (updateLink_eq_none.mp hf)⟩
      · rename_i hf
        cases h
        exact ⟨rfl, .marked (by simpa using hr) hf⟩
  | publishChecking link =>
    cases h
    exact ⟨rfl, .checking⟩
  | crawl link =>
    cases h
    exact ⟨rfl, .crawled⟩
  | saveResult link result now =>
    simp only [ProcessOne.move] at h
    split at h
    · cases h
      exact ⟨rfl, .fails rfl ‹_›⟩
    · rename_i hr
      split at h
      · rename_i hf
        cases h
        exact ⟨rfl, .saveGone (by simpa using hr) (saveResult_eq_none.mp hf)⟩
      · rename_i hf
        cases h
        exact ⟨rfl, .saved (by simpa using hr) hf⟩
  | publishSaved link row =>
    cases h
    exact ⟨rfl, .published⟩
  | resolved => cases h
  | rejected => cases h

@[simp] theorem publishNow_db (event : ProgressEvent) : (w.publishNow t event).db = w.db := by
  unfold World.publishNow
  split <;> rfl

@[simp] theorem publishNow_locks (event : ProgressEvent) :
    (w.publishNow t event).locks = w.locks := by
  unfold World.publishNow
  split <;> rfl

@[simp] theorem publishNow_issued (event : ProgressEvent) :
    (w.publishNow t event).issued = w.issued := by
  unfold World.publishNow
  split <;> rfl

@[simp] theorem publishNow_clock (event : ProgressEvent) :
    (w.publishNow t event).clock = w.clock := by
  unfold World.publishNow
  split <;> rfl

@[simp] theorem publishNow_crawls (event : ProgressEvent) :
    (w.publishNow t event).crawls = w.crawls := by
  unfold World.publishNow
  split <;> rfl

@[simp] theorem publishNow_stored (event : ProgressEvent) :
    (w.publishNow t event).stored = w.stored := by
  unfold World.publishNow
  split <;> rfl

theorem mem_publishNow {e event : ProgressEvent} (h : e ∈ (w.publishNow t event).published) :
    e ∈ w.published ∨ e = event := by
  unfold World.publishNow at h
  split at h
  · exact .inl h
  · exact (List.mem_append.mp h).imp_right List.mem_singleton.mp

structure Frame (w w' : World) : Prop where
  projects : w'.db.projects = w.db.projects
  sheetsTasks : w'.db.sheetsTasks = w.db.sheetsTasks
  locks : w'.locks = w.locks
  issued : w'.issued = w.issued
  clock : w'.clock = w.clock

theorem markStatus_eq_some {db db' : Database} {status : LinkStatus}
    (h : markStatus db id status = some db') :
    db'.projects = db.projects ∧ db'.sheetsTasks = db.sheetsTasks ∧
      db'.links.rows = db.links.rows.map fun l => if l.id = id then statusData status l else l := by
  obtain ⟨-, rfl⟩ := updateLink_eq_some.mp h
  simp [Table.updateWhere, Table.mapRows]

theorem saveResult_rows {db db' : Database} {result : CrawlAndAnalyzeResult} {now : ℤ} {row : Link}
    (h : saveResult db id result now = some (row, db')) :
    db'.projects = db.projects ∧ db'.sheetsTasks = db.sheetsTasks ∧
      db'.links.rows =
        db.links.rows.map fun l => if l.id = id then saveResultData result now l else l := by
  obtain ⟨_, _, _, _, rfl⟩ := saveResult_eq_some.mp h
  simp [Table.updateWhere, Table.mapRows]

theorem Moves.frame (h : Moves newURL w id t pc w' pc') : Frame w w' := by
  cases h with
  | fails ha hr => constructor <;> rfl
  | missing hr h => constructor <;> rfl
  | found hr hl hid => constructor <;> rfl
  | markGone hr h => constructor <;> rfl
  | marked hr h =>
    obtain ⟨hp, hs, -⟩ := markStatus_eq_some h
    exact ⟨hp, hs, rfl, rfl, rfl⟩
  | checking => constructor <;> simp
  | crawled => constructor <;> rfl
  | saveGone hr h => constructor <;> rfl
  | saved hr h =>
    obtain ⟨hp, hs, -⟩ := saveResult_rows h
    exact ⟨hp, hs, rfl, rfl, rfl⟩
  | published => constructor <;> simp

theorem Moves.links (h : Moves newURL w id t pc w' pc') :
    ∃ f : Link → Link, (∀ l, (f l).input = l.input) ∧ (∀ l, l.id ≠ id → f l = l) ∧
      w'.db.links.rows = w.db.links.rows.map f := by
  have same (hdb : w'.db = w.db) : ∃ f : Link → Link, (∀ l, (f l).input = l.input) ∧
      (∀ l, l.id ≠ id → f l = l) ∧ w'.db.links.rows = w.db.links.rows.map f :=
    ⟨fun l => l, fun _ => rfl, fun _ _ => rfl, by simp [hdb]⟩
  cases h with
  | fails ha hr => exact same rfl
  | missing hr h => exact same rfl
  | found hr hl hid => exact same rfl
  | markGone hr h => exact same rfl
  | marked hr h =>
    refine ⟨_, fun l => ?_, fun l hl => if_neg hl, (markStatus_eq_some h).2.2⟩
    split <;> rfl
  | checking => exact same (publishNow_db _)
  | crawled => exact same rfl
  | saveGone hr h => exact same rfl
  | saved hr h =>
    refine ⟨_, fun l => ?_, fun l hl => if_neg hl, (saveResult_rows h).2.2⟩
    split <;> rfl
  | published => exact same (publishNow_db _)

theorem Moves.inputs (h : Moves newURL w id t pc w' pc') :
    w'.db.links.rows.map Link.input = w.db.links.rows.map Link.input := by
  obtain ⟨f, hf, -, hrows⟩ := h.links
  rw [hrows, List.map_map]
  exact List.map_congr_left fun l _ => hf l

theorem Moves.unsettled (h : Moves newURL w id t pc w' pc') : pc ≠ .resolved ∧ pc ≠ .rejected := by
  cases h with
  | fails ha hr => constructor <;> rintro rfl <;> cases ha
  | _ => constructor <;> nofun

theorem move_isSome (h : p.settled = false) (w : World) (t : Turn) :
    (p.move newURL w t).isSome := by
  obtain ⟨id, pc⟩ := p
  cases pc with
  | resolved | rejected => cases h
  | publishChecking link | crawl link | publishSaved link saved => rfl
  | findById | markStatus link | saveResult link result now =>
    simp only [ProcessOne.move]
    split
    · rfl
    · split <;> rfl

def Pc.left : Pc → ℕ
  | .findById => 6
  | .markStatus _ => 5
  | .publishChecking _ => 4
  | .crawl _ => 3
  | .saveResult .. => 2
  | .publishSaved .. => 1
  | .resolved | .rejected => 0

theorem Moves.left_lt {w w' : World} {id : LinkId} {t : Turn} {pc pc' : Pc}
    (h : Moves newURL w id t pc w' pc') : pc'.left < pc.left := by
  cases h with
  | fails ha hr =>
    cases pc with
    | findById | markStatus link | saveResult link result now => exact Nat.succ_pos _
    | publishChecking link | crawl link | publishSaved link saved | resolved | rejected => cases ha
  | missing hr hno | markGone hr hno | saveGone hr hno => exact Nat.succ_pos _
  | found hr hl hid | marked hr hset | checking | crawled | saved hr hset | published =>
    exact Nat.lt_succ_self _

theorem Moves.count_other (h : Moves newURL w id t pc w' pc') {other : LinkId} (hne : other ≠ id) :
    w'.crawls.count other = w.crawls.count other := by
  cases h with
  | checking => rw [publishNow_crawls]
  | crawled =>
    rw [List.count_append, List.count_singleton, if_neg (by simpa using hne.symm), Nat.add_zero]
  | published => rw [publishNow_crawls]
  | _ => rfl

theorem Moves.count (h : Moves newURL w id t pc w' pc') (hrow : ∃ l ∈ w.db.links.rows, l.id = id)
    (hpc : pc' ≠ .rejected) {n : ℕ}
    (hn : w.crawls.count id = n + if ProcessOne.uncrawled ⟨id, pc⟩ then 0 else 1) :
    w'.crawls.count id = n + if ProcessOne.uncrawled ⟨id, pc'⟩ then 0 else 1 := by
  cases h with
  | fails ha hr => exact absurd rfl hpc
  | missing hr hno =>
    obtain ⟨l, hl, hid⟩ := hrow
    exact absurd hid (hno l hl)
  | found hr hl hid => exact hn
  | markGone hr hno => exact absurd rfl hpc
  | marked hr hset => exact hn
  | checking =>
    rw [publishNow_crawls]
    exact hn
  | crawled =>
    rw [List.count_append, hn, List.count_singleton_self]
    rfl
  | saveGone hr hno => exact absurd rfl hpc
  | saved hr hset => exact hn
  | published =>
    rw [publishNow_crawls]
    exact hn

end LinkBulker.SingleLink
