import LinkBulker.Foundations.Pool
import LinkBulker.Worker.SingleLinkLaws

/-! What a row says about the checks that were stored on it. -/

namespace LinkBulker.SingleLink

open Foundations Db Shared Crawler LinkRepository

variable {newURL : UrlParser} {w₀ w : World} {calls₀ calls : List ProcessOne}
  {as : List (ℕ × Turn)} {id : LinkId}

structure ResultColumns where
  status : LinkStatus
  donorStatusCode : Option ℤ
  donorFinalUrl : Option String
  donorRedirectChain : Option (List String)
  donorIndexable : Option Bool
  donorMetaRobots : Option String
  donorXRobotsTag : Option String
  donorCanonical : Option String
  canonicalMatches : Option Bool
  linkFound : Option Bool
  occurrences : Option (List LinkOccurrence)
  occurrencesCount : ℕ
  error : Option String
  checkDurationMs : Option ℤ
  lastCheckedAt : Option ℤ
  deriving DecidableEq

def resultColumns (l : Link) : ResultColumns where
  status := l.status
  donorStatusCode := l.donorStatusCode
  donorFinalUrl := l.donorFinalUrl
  donorRedirectChain := l.donorRedirectChain
  donorIndexable := l.donorIndexable
  donorMetaRobots := l.donorMetaRobots
  donorXRobotsTag := l.donorXRobotsTag
  donorCanonical := l.donorCanonical
  canonicalMatches := l.canonicalMatches
  linkFound := l.linkFound
  occurrences := l.occurrences
  occurrencesCount := l.occurrencesCount
  error := l.error
  checkDurationMs := l.checkDurationMs
  lastCheckedAt := l.lastCheckedAt

def Stored.columns (s : Stored) : ResultColumns where
  status := if s.result.ok then .DONE else .ERROR
  donorStatusCode := s.result.donorStatusCode
  donorFinalUrl := s.result.donorFinalUrl
  donorRedirectChain := s.result.donorRedirectChain
  donorIndexable := s.result.donorIndexable
  donorMetaRobots := s.result.donorMetaRobots
  donorXRobotsTag := s.result.donorXRobotsTag
  donorCanonical := s.result.donorCanonical
  canonicalMatches := s.result.canonicalMatches
  linkFound := s.result.linkFound
  occurrences := s.result.occurrences
  occurrencesCount := s.result.occurrencesCount
  error := s.result.error
  checkDurationMs := some s.result.durationMs
  lastCheckedAt := some s.now

structure ReflectsLast (row : Link) (last : Stored) : Prop where
  columns : resultColumns row = last.columns
  count : row.occurrencesCount = (row.occurrences.getD []).length
  found : row.linkFound = some true ↔ 0 < (row.occurrences.getD []).length
  error : row.status = .ERROR →
    row.occurrences = none ∧ row.donorRedirectChain = last.result.donorRedirectChain

def Stored.replay (row : Link) (s : Stored) : Link := saveResultData s.result s.now row

def storedOn (id : LinkId) (w : World) : List Stored := w.stored.filter fun s => s.linkId = id

def Pc.marked : Pc → Bool
  | .publishChecking _ | .crawl _ | .saveResult .. | .rejected => true
  | _ => false

structure Replayed (id : LinkId) (row₀ : Link) (w : World) (calls : List ProcessOne) : Prop where
  row : ∃ row ∈ w.db.links.rows, row.id = id ∧
    row = { (storedOn id w).foldl Stored.replay row₀ with status := row.status } ∧
      (storedOn id w = [] ∨ row.status = ((storedOn id w).foldl Stored.replay row₀).status ∨
        ∃ c ∈ calls, c.linkId = id ∧ c.pc.marked)
  wellFormed : ∀ s ∈ storedOn id w, s.result.WellFormed
  computed : ∀ c ∈ calls, ∀ link result now, c.pc = .saveResult link result now → result.WellFormed

theorem foldl_replay_id (row₀ : Link) (hs : List Stored) :
    (hs.foldl Stored.replay row₀).id = row₀.id := by
  induction hs generalizing row₀ with
  | nil => rfl
  | cons s hs ih => exact ih _

theorem foldl_replay_occurrences (row₀ : Link) (hs : List Stored) :
    (hs.foldl Stored.replay row₀).occurrences = none ↔
      row₀.occurrences = none ∧ ∀ s ∈ hs, s.result.occurrences = none := by
  induction hs generalizing row₀ with
  | nil => simp
  | cons s hs ih => simp [ih, Stored.replay, saveResultData, and_assoc, and_left_comm]

theorem foldl_replay_donorRedirectChain (row₀ : Link) (hs : List Stored) :
    (hs.foldl Stored.replay row₀).donorRedirectChain = none ↔
      row₀.donorRedirectChain = none ∧ ∀ s ∈ hs, s.result.donorRedirectChain = none := by
  induction hs generalizing row₀ with
  | nil => simp
  | cons s hs ih => simp [ih, Stored.replay, saveResultData, and_assoc, and_left_comm]

theorem storedOn_concat (db : Database) (s : Stored) :
    storedOn id { w with db, stored := w.stored ++ [s] } =
      if s.linkId = id then storedOn id w ++ [s] else storedOn id w := by
  simp only [storedOn, List.filter_append, List.filter_cons, List.filter_nil, decide_eq_true_eq]
  split
  · rfl
  · exact List.append_nil _

theorem Moves.wellFormed {pc : Pc} {t : Turn} {w' : World} {link : Link}
    {result : CrawlAndAnalyzeResult} {now : ℤ}
    (h : Moves newURL w id t pc w' (.saveResult link result now)) : result.WellFormed := by
  cases h with
  | crawled => exact crawlAndAnalyze_wellFormed ..

theorem marked_set {i : ℕ} {c c' : ProcessOne} (hget : calls[i]? = some c)
    (h : ∃ d ∈ calls, d.linkId = id ∧ d.pc.marked)
    (hmoved : c.linkId = id → c.pc.marked → c'.linkId = id ∧ c'.pc.marked) :
    ∃ d ∈ calls.set i c', d.linkId = id ∧ d.pc.marked := by
  obtain ⟨d, hd, hdid, hdm⟩ := h
  rcases Pool.mem_set_of_mem hget hd with rfl | hd'
  · exact ⟨c', Pool.mem_set_self hget, hmoved hdid hdm⟩
  · exact ⟨d, hd', hdid, hdm⟩

theorem Replayed.step {row₀ : Link} (h : Replayed id row₀ w calls) {a : ℕ × Turn} {w' : World}
    {calls' : List ProcessOne}
    (hs : Pool.act (ProcessOne.move newURL) (w, calls) a = some (w', calls')) :
    Replayed id row₀ w' calls' := by
  obtain ⟨i, t⟩ := a
  obtain ⟨c, c', hget, hmove, rfl⟩ := Pool.step_eq_some.mp hs
  obtain ⟨hlink, hm⟩ := move_eq_some hmove
  obtain ⟨row, hrow, hid, hreplay, hstatus⟩ := h.row
  have hcomputed : ∀ d ∈ calls.set i c', ∀ link result now,
      d.pc = .saveResult link result now → result.WellFormed := by
    refine Pool.forall_set h.computed fun link result now hpc => ?_
    rw [hpc] at hm
    exact hm.wellFormed
  -- a step that writes nothing of the row keeps every mark
  have hquiet (hdb : w'.db = w.db) (hst : w'.stored = w.stored)
      (hmark : c.pc.marked → c'.pc.marked) : Replayed id row₀ w' (calls.set i c') := by
    have hon : storedOn id w' = storedOn id w := by rw [storedOn, hst, storedOn]
    refine ⟨⟨row, hdb ▸ hrow, hid, hon ▸ hreplay, ?_⟩, hon ▸ h.wellFormed, hcomputed⟩
    rw [hon]
    exact hstatus.imp_right (Or.imp_right fun hmarks =>
      marked_set hget hmarks fun hcid hcm => ⟨hlink.trans hcid, hmark hcm⟩)
  generalize hpc : c.pc = pc, hpc' : c'.pc = pc' at hm
  rw [hpc, hpc'] at hquiet
  cases hm with
  | fails ha hr => exact hquiet rfl rfl fun _ => rfl
  | missing hr hno => exact hquiet rfl rfl nofun
  | found hr hl hlid => exact hquiet rfl rfl nofun
  | markGone hr hno => exact hquiet rfl rfl fun _ => rfl
  | checking => exact hquiet (publishNow_db _) (publishNow_stored _) fun _ => rfl
  | crawled => exact hquiet rfl rfl fun _ => rfl
  | saveGone hr hno => exact hquiet rfl rfl fun _ => rfl
  | published => exact hquiet (publishNow_db _) (publishNow_stored _) nofun
  | marked hr hdb =>
    obtain ⟨-, -, hrows⟩ := markStatus_eq_some hdb
    have hmem : (if row.id = c.linkId then statusData .CHECKING row else row) ∈
        ({ w with db := _ } : World).db.links.rows := hrows ▸ List.mem_map_of_mem hrow
    by_cases hc : row.id = c.linkId
    · rw [if_pos hc] at hmem
      refine ⟨⟨_, hmem, hid, ?_, .inr (.inr ⟨c', Pool.mem_set_self hget, ?_, ?_⟩)⟩, h.wellFormed,
        hcomputed⟩
      · rw [hreplay]
        rfl
      · exact hlink.trans (hc.symm.trans hid)
      · rw [hpc']
        rfl
    · rw [if_neg hc] at hmem
      refine ⟨⟨row, hmem, hid, hreplay, ?_⟩, h.wellFormed, hcomputed⟩
      exact hstatus.imp_right (Or.imp_right fun hmarks =>
        marked_set hget hmarks fun hcid _ => absurd (hid.trans hcid.symm) hc)
  | saved hr hdb =>
    rename_i link saved result now db
    obtain ⟨-, -, hrows⟩ := saveResult_rows hdb
    have hwf : result.WellFormed := h.computed c (List.mem_of_getElem? hget) link result now hpc
    have hmem : (if row.id = c.linkId then saveResultData result now row else row) ∈
        db.links.rows := hrows ▸ List.mem_map_of_mem hrow
    by_cases hc : row.id = c.linkId
    · rw [if_pos hc] at hmem
      have hon : storedOn id { w with db, stored := w.stored ++ [⟨c.linkId, result, now⟩] } =
          storedOn id w ++ [⟨c.linkId, result, now⟩] := by
        rw [storedOn_concat, if_pos (hc.symm.trans hid)]
      refine ⟨⟨_, hmem, hid, ?_, .inr (.inl ?_)⟩, ?_, hcomputed⟩
      · rw [hon, List.foldl_concat, hreplay]
        rfl
      · rw [hon, List.foldl_concat]
        rfl
      · rw [hon]
        simp only [List.mem_append, List.mem_singleton]
        rintro s (hs | rfl)
        · exact h.wellFormed s hs
        · exact hwf
    · rw [if_neg hc] at hmem
      have hon : storedOn id { w with db, stored := w.stored ++ [⟨c.linkId, result, now⟩] } =
          storedOn id w := by
        rw [storedOn_concat, if_neg fun he => hc (hid.trans he.symm)]
      refine ⟨⟨row, hmem, hid, hon ▸ hreplay, ?_⟩, hon ▸ h.wellFormed, hcomputed⟩
      rw [hon]
      exact hstatus.imp_right (Or.imp_right fun hmarks =>
        marked_set hget hmarks fun hcid _ => absurd (hid.trans hcid.symm) hc)

theorem Replayed.exec {row₀ : Link} (hrow : row₀ ∈ w₀.db.links.rows) (hid : row₀.id = id)
    (hstored : w₀.stored = []) (hcalls : ∀ c ∈ calls₀, c.pc = .findById)
    (hr : exec (Pool.act (ProcessOne.move newURL)) (w₀, calls₀) as = some (w, calls)) :
    Replayed id row₀ w calls := by
  have hon : storedOn id w₀ = [] := by simp [storedOn, hstored]
  have h₀ : Replayed id row₀ w₀ calls₀ := by
    refine ⟨⟨row₀, hrow, hid, by simp [hon], .inl hon⟩, by simp [hon], ?_⟩
    intro c hc link result now hpc
    rw [hcalls c hc] at hpc
    cases hpc
  exact exec_invariant (I := fun s => Replayed id row₀ s.1 s.2) (fun _ _ _ h hs => h.step hs) h₀ hr

theorem Replayed.settled {row₀ row : Link} (h : Replayed id row₀ w calls)
    (hdone : ∀ c ∈ calls, c.linkId = id → c.pc = .resolved) (hrow : row ∈ w.db.links.rows)
    (hid : row.id = id) (hne : storedOn id w ≠ []) :
    row = (storedOn id w).foldl Stored.replay row₀ := by
  obtain ⟨row', hrow', hid', hreplay, hstatus⟩ := h.row
  obtain rfl := w.db.links.eq_of_key_eq hrow hrow' (hid.trans hid'.symm)
  rcases hstatus with hnil | heq | ⟨c, hc, hcid, hmarked⟩
  · exact absurd hnil hne
  · rw [hreplay, heq]
  · rw [hdone c hc hcid] at hmarked
    cases hmarked

/-- A column whose `null` is not written shows the last check alone when the last check has a
value for it, or when nothing was there before. -/
def Overwritten {α : Type} (column : Link → Option α) (value : CrawlAndAnalyzeResult → Option α)
    (row₀ : Link) (earlier : List Stored) (last : Stored) : Prop :=
  value last.result ≠ none ∨ (column row₀ = none ∧ ∀ s ∈ earlier, value s.result = none)

theorem or_eq_left_iff {α : Type} {a b : Option α} : a.or b = a ↔ a ≠ none ∨ b = none := by
  cases a <;> simp

theorem resultColumns_replay {row : Link} {last : Stored} :
    resultColumns (last.replay row) = last.columns ↔
      (last.result.donorRedirectChain ≠ none ∨ row.donorRedirectChain = none) ∧
        (last.result.occurrences ≠ none ∨ row.occurrences = none) := by
  simp only [resultColumns, Stored.replay, saveResultData, Stored.columns,
    ResultColumns.mk.injEq, or_eq_left_iff]
  tauto

theorem ReflectsLast.of_columns {row : Link} {last : Stored} (hwf : last.result.WellFormed)
    (h : resultColumns row = last.columns) : ReflectsLast row last := by
  have hocc : row.occurrences = last.result.occurrences := congrArg ResultColumns.occurrences h
  have hcount : row.occurrencesCount = last.result.occurrencesCount :=
    congrArg ResultColumns.occurrencesCount h
  have hfound : row.linkFound = last.result.linkFound := congrArg ResultColumns.linkFound h
  have hchain : row.donorRedirectChain = last.result.donorRedirectChain :=
    congrArg ResultColumns.donorRedirectChain h
  have hstatus : row.status = if last.result.ok then .DONE else .ERROR :=
    congrArg ResultColumns.status h
  refine ⟨h, ?_, ?_, ?_⟩
  · rw [hcount, hocc, hwf.count]
  · rw [hfound, hocc, hwf.found]
    cases last.result.occurrences <;> simp
  · intro herr
    refine ⟨?_, hchain⟩
    have hok : last.result.ok = false := by
      cases hb : last.result.ok with
      | false => rfl
      | true => rw [hstatus, hb] at herr; cases herr
    rw [hocc, ← Option.isNone_iff_eq_none, ← Option.not_isSome, hwf.occurrences, hok]
    rfl

/-- Any number of calls on any links, in any order of their steps.  Once those on the link have
resolved, its row shows the last stored check alone exactly when neither of the two columns that
`saveResult` skips on `null` holds an older value. -/
theorem saveResult_reflects_last {row₀ row : Link} {earlier : List Stored} {last : Stored}
    (hrow₀ : row₀ ∈ w₀.db.links.rows) (hid₀ : row₀.id = id) (hstored : w₀.stored = [])
    (hcalls : ∀ c ∈ calls₀, c.pc = .findById)
    (hr : exec (Pool.act (ProcessOne.move newURL)) (w₀, calls₀) as = some (w, calls))
    (hdone : ∀ c ∈ calls, c.linkId = id → c.pc = .resolved)
    (hlast : storedOn id w = earlier ++ [last]) (hrow : row ∈ w.db.links.rows)
    (hid : row.id = id) :
    ReflectsLast row last ↔
      Overwritten Link.donorRedirectChain CrawlAndAnalyzeResult.donorRedirectChain row₀ earlier
          last ∧
        Overwritten Link.occurrences CrawlAndAnalyzeResult.occurrences row₀ earlier last := by
  have h := Replayed.exec hrow₀ hid₀ hstored hcalls hr
  have heq : row = last.replay (earlier.foldl Stored.replay row₀) := by
    rw [h.settled hdone hrow hid (by simp [hlast]), hlast, List.foldl_concat]
  have hwf : last.result.WellFormed := h.wellFormed last (by simp [hlast])
  have hcols : resultColumns row = last.columns ↔
      Overwritten Link.donorRedirectChain CrawlAndAnalyzeResult.donorRedirectChain row₀ earlier
          last ∧
        Overwritten Link.occurrences CrawlAndAnalyzeResult.occurrences row₀ earlier last := by
    rw [heq, resultColumns_replay, foldl_replay_donorRedirectChain, foldl_replay_occurrences]
    rfl
  rw [← hcols]
  exact ⟨fun hl => hl.columns, ReflectsLast.of_columns hwf⟩

def exampleLink (id : LinkId) : Link where
  id := id
  projectId := "p"
  sheetsTaskId := none
  source := .MANUAL
  donorUrl := "https://donor.example/post"
  acceptorHost := "acceptor.example"
  acceptorRaw := "acceptor.example"

def exampleWorld : World where
  db := exampleDatabase ⟨[exampleLink "l"], by decide⟩ .empty

def checkTurns (i : ℕ) (run : CrawlRun) (now : ℤ) : List (ℕ × Turn) :=
  [(i, {}), (i, {}), (i, {}), (i, { run, now }), (i, { now }), (i, {})]

/-- The link is found, then the donor times out. -/
theorem failed_check_keeps_occurrences :
    ∃ w calls row earlier last,
      exec (Pool.act (ProcessOne.move exampleURL))
        (exampleWorld, [⟨"l", .findById⟩, ⟨"l", .findById⟩])
        (checkTurns 0 foundRun 1000 ++ checkTurns 1 (.thrown "timeout") 2000) = some (w, calls) ∧
      (∀ c ∈ calls, c.linkId = "l" → c.pc = .resolved) ∧ storedOn "l" w = earlier ++ [last] ∧
      row ∈ w.db.links.rows ∧ row.id = "l" ∧ row.status = .ERROR ∧
      row.occurrences = some [exampleOccurrence] ∧ ¬ ReflectsLast row last := by
  refine ⟨_, _, _, [⟨"l", _, _⟩], ⟨"l", _, _⟩, rfl, by decide, rfl, List.mem_cons_self,
    by decide +kernel, by decide +kernel, by decide +kernel, fun h => ?_⟩
  exact absurd (h.error (by decide +kernel)).1 (by decide +kernel)

/-- The donor times out, then the link is found. -/
theorem saveResult_reflects_last_sample :
    ∃ w calls row earlier last,
      exec (Pool.act (ProcessOne.move exampleURL))
        (exampleWorld, [⟨"l", .findById⟩, ⟨"l", .findById⟩])
        (checkTurns 0 (.thrown "timeout") 1000 ++ checkTurns 1 foundRun 2000) = some (w, calls) ∧
      storedOn "l" w = earlier ++ [last] ∧ earlier.map (·.result.ok) = [false] ∧
      last.result.ok ∧ row ∈ w.db.links.rows ∧ row.id = "l" ∧ ReflectsLast row last := by
  have hr : exec (Pool.act (ProcessOne.move exampleURL))
      (exampleWorld, [⟨"l", .findById⟩, ⟨"l", .findById⟩])
      (checkTurns 0 (.thrown "timeout") 1000 ++ checkTurns 1 foundRun 2000) = some (_, _) := rfl
  have hid : (exampleLink "l").id = "l" := rfl
  refine ⟨_, _, _, [⟨"l", _, _⟩], ⟨"l", _, _⟩, hr, rfl, by decide +kernel, by decide +kernel,
    List.mem_cons_self, by decide +kernel, ?_⟩
  refine (@saveResult_reflects_last _ _ _ _ _ _ _ _ _ [⟨"l", _, _⟩] _ List.mem_cons_self hid rfl
    (by decide) hr (by decide) rfl List.mem_cons_self (by decide +kernel)).mpr ⟨?_, ?_⟩
  · exact .inl (by decide +kernel)
  · exact .inl (by decide +kernel)

end LinkBulker.SingleLink
