import LinkBulker.Web.ProjectStream
import LinkBulker.Worker.CheckHistory

/-! The row a page has cached and the row of the database, as checks of the link go by. -/

namespace LinkBulker.Web

open Foundations Db Shared Crawler LinkRepository SingleLink

variable {newURL : UrlParser} {w₀ w w' : World} {id : LinkId}

def check (newURL : UrlParser) (id : LinkId) (w : World) (turns : List Turn) : Option World :=
  (exec (fun s t => ProcessOne.move newURL s.1 s.2 t) (w, ⟨id, .findById⟩) turns).bind fun s =>
    if s.2.pc = .resolved then some s.1 else none

structure Checked (id : LinkId) (row : Link) (w w' : World) : Prop where
  done : ∃ (result : CrawlAndAnalyzeResult) (now : ℤ), result.WellFormed ∧
    w'.stored = w.stored ++ [⟨id, result, now⟩] ∧
    saveResultData result now row ∈ w'.db.links.rows ∧
    w'.published = w.published ++ [.link_updated (checkingEvent id row),
      .link_updated (savedEvent id row (saveResultData result now row))]

inductive Halfway (id : LinkId) (row : Link) (w : World) : World → Pc → Prop
  | findById : Halfway id row w w .findById
  | markStatus : Halfway id row w w (.markStatus row)
  | publishChecking {w' : World} (hp : w'.published = w.published) (hs : w'.stored = w.stored)
    (hrow : statusData .CHECKING row ∈ w'.db.links.rows) :
    Halfway id row w w' (.publishChecking row)
  | crawl {w' : World}
    (hp : w'.published = w.published ++ [.link_updated (checkingEvent id row)])
    (hs : w'.stored = w.stored) (hrow : statusData .CHECKING row ∈ w'.db.links.rows) :
    Halfway id row w w' (.crawl row)
  | saveResult {w' : World} {result : CrawlAndAnalyzeResult} {now : ℤ}
    (hp : w'.published = w.published ++ [.link_updated (checkingEvent id row)])
    (hs : w'.stored = w.stored) (hrow : statusData .CHECKING row ∈ w'.db.links.rows)
    (hwf : result.WellFormed) : Halfway id row w w' (.saveResult row result now)
  | publishSaved {w' : World} {result : CrawlAndAnalyzeResult} {now : ℤ}
    (hp : w'.published = w.published ++ [.link_updated (checkingEvent id row)])
    (hs : w'.stored = w.stored ++ [⟨id, result, now⟩])
    (hrow : saveResultData result now row ∈ w'.db.links.rows) (hwf : result.WellFormed) :
    Halfway id row w w' (.publishSaved row (saveResultData result now row))
  | resolved {w' : World} (h : Checked id row w w') : Halfway id row w w' .resolved
  | rejected {w' : World} : Halfway id row w w' .rejected

theorem published_publishNow {t : Turn} (ht : t.lost = false) (event : ProgressEvent) :
    (w.publishNow t event).published = w.published ++ [event] := by
  simp [World.publishNow, ht]

theorem Halfway.step {row : Link} (hrow : row ∈ w.db.links.rows) (hid : row.id = id)
    {w₁ w₂ : World} {pc pc' : Pc} {t : Turn} (ht : t.lost = false) (h : Halfway id row w w₁ pc)
    (hm : Moves newURL w₁ id t pc w₂ pc') : Halfway id row w w₂ pc' := by
  cases hm with
  | fails ha hr => exact .rejected
  | missing hr hno =>
    cases h with
    | findById => exact absurd hid (hno row hrow)
  | found hr hl hlid =>
    cases h with
    | findById =>
      obtain rfl := w.db.links.eq_of_key_eq hl hrow (hlid.trans hid.symm)
      exact .markStatus
  | markGone hr hno => exact .rejected
  | marked hr hdb =>
    cases h with
    | markStatus => exact .publishChecking rfl rfl (mem_of_markStatus hrow hid hdb)
  | checking =>
    cases h with
    | publishChecking hp hs hmem =>
      refine .crawl ?_ ((publishNow_stored _).trans hs) (by rwa [publishNow_db])
      rw [published_publishNow ht, hp]
  | crawled =>
    cases h with
    | crawl hp hs hmem => exact .saveResult hp hs hmem (crawlAndAnalyze_wellFormed ..)
  | saveGone hr hno => exact .rejected
  | saved hr hdb =>
    cases h with
    | saveResult hp hs hmem hwf =>
      have hmem' := mem_of_saveResult hdb
      obtain ⟨l, hl, hlid, rfl, -⟩ := saveResult_eq_some.mp hdb
      obtain rfl := w₁.db.links.eq_of_key_eq hl hmem (hlid.trans hid.symm)
      exact .publishSaved hp (by rw [hs]) hmem' hwf
  | published =>
    cases h with
    | publishSaved hp hs hmem hwf =>
      refine .resolved ⟨_, _, hwf, (publishNow_stored _).trans hs, by rwa [publishNow_db], ?_⟩
      rw [published_publishNow ht, hp, List.append_assoc]
      rfl

theorem check_eq_some {row : Link} (hrow : row ∈ w.db.links.rows) (hid : row.id = id)
    {turns : List Turn} (hsent : ∀ t ∈ turns, t.lost = false)
    (h : check newURL id w turns = some w') : Checked id row w w' := by
  simp only [check, Option.bind_eq_some_iff, Option.ite_none_right_eq_some,
    Option.some.injEq] at h
  obtain ⟨s, hr, hpc, rfl⟩ := h
  -- the turns of one call, with the row it reads fixed
  have hinv := exec_invariant_of_meets
    (I := fun s => s.2.linkId = id ∧ Halfway id row w s.1 s.2.pc)
    (C := fun _ t => t.lost = false) ?_ ⟨rfl, .findById⟩ (Meets.of_forall hsent _) hr
  · rw [hpc] at hinv
    cases hinv.2 with
    | resolved h => exact h
  · rintro ⟨w₁, p⟩ t ⟨w₂, p'⟩ ⟨hlink, hhalf⟩ ht hmove
    obtain ⟨hlink', hm⟩ := move_eq_some hmove
    simp only at hlink hhalf
    rw [hlink] at hm
    exact ⟨hlink'.trans hlink, hhalf.step hrow hid ht hm⟩

def cachedRow (row₀ row : Link) : LinkRow :=
  { linkRow row₀ with
    status := row.status
    linkFound := row.linkFound
    occurrencesCount := row.occurrencesCount
    donorStatusCode := row.donorStatusCode
    error := row.error
    lastCheckedAt := row.lastCheckedAt }

structure Streamed (id : LinkId) (row₀ : Link) (w : World) : Prop where
  row : w.stored.foldl Stored.replay row₀ ∈ w.db.links.rows
  cached : w.published.foldl patchRow (linkRow row₀) =
    cachedRow row₀ (w.stored.foldl Stored.replay row₀)

theorem Streamed.check {row₀ : Link} (hid : row₀.id = id) {turns : List Turn}
    (hsent : ∀ t ∈ turns, t.lost = false) (h : Streamed id row₀ w)
    (hc : check newURL id w turns = some w') : Streamed id row₀ w' := by
  have hrid : (w.stored.foldl Stored.replay row₀).id = id := (foldl_replay_id ..).trans hid
  obtain ⟨result, now, -, hstored, hrow, hpub⟩ := (check_eq_some h.row hrid hsent hc).done
  refine ⟨?_, ?_⟩
  · rw [hstored, List.foldl_concat]
    exact hrow
  · have hne : ¬ (cachedRow row₀ (w.stored.foldl Stored.replay row₀)).id ≠ id := not_not.mpr hid
    rw [hpub, List.foldl_append, h.cached, hstored, List.foldl_concat]
    simp only [List.foldl_cons, List.foldl_nil, patchRow, patchLink, checkingEvent, savedEvent,
      if_neg hne]
    rfl

theorem Streamed.exec {row₀ : Link} (hrow₀ : row₀ ∈ w₀.db.links.rows) (hid : row₀.id = id)
    (hpub : w₀.published = []) (hstored : w₀.stored = []) {checks : List (List Turn)}
    (hsent : ∀ turns ∈ checks, ∀ t ∈ turns, t.lost = false)
    (hr : exec (Web.check newURL id) w₀ checks = some w) : Streamed id row₀ w := by
  have h₀ : Streamed id row₀ w₀ := by
    refine ⟨by rwa [hstored], ?_⟩
    rw [hpub, hstored]
    rfl
  exact exec_invariant_of_meets (C := fun _ turns => ∀ t ∈ turns, t.lost = false)
    (fun _ _ _ h hsent hc => h.check hid hsent hc) h₀ (Meets.of_forall hsent _) hr

def latestOccurrences (checks : List Stored) : Option (List LinkOccurrence) :=
  checks.foldl (fun os s => s.result.occurrences.or os) none

theorem foldl_or (checks : List Stored) (os : Option (List LinkOccurrence)) :
    checks.foldl (fun os s => s.result.occurrences.or os) os =
      (latestOccurrences checks).or os := by
  induction checks generalizing os with
  | nil => rfl
  | cons s checks ih =>
    simp only [latestOccurrences, List.foldl_cons] at ih ⊢
    rw [ih, ih (s.result.occurrences.or none), Option.or_assoc, Option.or_none]

theorem foldl_replay_latest (row₀ : Link) (checks : List Stored) :
    (checks.foldl Stored.replay row₀).occurrences =
      (latestOccurrences checks).or row₀.occurrences := by
  rw [← foldl_or]
  induction checks generalizing row₀ with
  | nil => rfl
  | cons s checks ih => exact ih _

def VerdictKept (row₀ : Link) (last : CrawlAndAnalyzeResult) : Prop :=
  last.ok → isOk last.donorStatusCode → last.linkFound = some true →
    (row₀.donorIndexable = some true ↔ last.donorIndexable = some true) ∧
      (last.donorIndexable = some true →
        (row₀.canonicalMatches = some true ↔ last.canonicalMatches = some true))

def OccurrencesKept (row₀ : Link) (checks : List Stored) : Prop :=
  ∀ os, latestOccurrences checks = some os →
    (row₀.occurrences.getD [] = [] ↔ os = []) ∧
      ((∃ o ∈ row₀.occurrences.getD [], isDofollow o) ↔ ∃ o ∈ os, isDofollow o)

theorem computeRowStatus_cachedRow (row₀ : Link) (checks : List Stored) :
    computeRowStatus (cachedRow row₀ (checks.foldl Stored.replay row₀)) =
        computeRowStatus (linkRow (checks.foldl Stored.replay row₀)) ↔
      ∀ last ∈ checks.getLast?, VerdictKept row₀ last.result := by
  induction checks using List.reverseRecOn with
  | nil => simp [cachedRow, linkRow]
  | append_singleton checks last _ =>
    simp only [List.foldl_concat, List.getLast?_concat, Option.mem_def, Option.some.injEq,
      forall_eq']
    generalize checks.foldl Stored.replay row₀ = row
    cases hok : last.result.ok with
    | false =>
      have herr : (last.replay row).status = .ERROR := by simp [Stored.replay, saveResultData, hok]
      have hcongr : computeRowStatus (cachedRow row₀ (last.replay row)) =
          computeRowStatus (linkRow (last.replay row)) := by
        refine computeRowStatus_congr rfl ?_
        change (last.replay row).status ≠ .DONE
        rw [herr]
        decide
      simp [hcongr, VerdictKept, hok]
    | true =>
      have hdone : (last.replay row).status = .DONE := by
        simp [Stored.replay, saveResultData, hok]
      have hcached : (cachedRow row₀ (last.replay row)).status = .DONE := hdone
      have hfetched : (linkRow (last.replay row)).status = .DONE := hdone
      rw [computeRowStatus_eq_iff hcached hfetched rfl rfl]
      simp only [VerdictKept, hok, true_implies]
      rfl

theorem computeFollowKind_cachedRow (row₀ : Link) (checks : List Stored) :
    computeFollowKind (cachedRow row₀ (checks.foldl Stored.replay row₀)) =
        computeFollowKind (linkRow (checks.foldl Stored.replay row₀)) ↔
      OccurrencesKept row₀ checks := by
  have hcached : ∀ row, (cachedRow row₀ row).occurrences = row₀.occurrences := fun _ => rfl
  have hfetched : ∀ row, (linkRow row).occurrences = row.occurrences := fun _ => rfl
  rw [computeFollowKind_eq_iff, hcached, hfetched, foldl_replay_latest, OccurrencesKept]
  cases latestOccurrences checks with
  | none => simp
  | some os => simp

/-- A row cached as it was fetched, then patched with the events of any checks of its link: it
shows the same status and the same follow kind as the row in the database exactly when what the
events leave out has not changed in a way these two can see. -/
theorem applyEvent_agrees_iff {row₀ row : Link} (hrow₀ : row₀ ∈ w₀.db.links.rows)
    (hid₀ : row₀.id = id) (hpub : w₀.published = []) (hstored : w₀.stored = [])
    {checks : List (List Turn)} (hsent : ∀ turns ∈ checks, ∀ t ∈ turns, t.lost = false)
    (hr : exec (check newURL id) w₀ checks = some w) (hrow : row ∈ w.db.links.rows)
    (hid : row.id = id) {client : Client} (hcached : ∃ l ∈ client.rows, l.id = id)
    (hfresh : ∀ l ∈ client.rows, l.id = id → l = linkRow row₀) :
    (∀ l ∈ (w.published.foldl applyEvent client).rows, l.id = id →
        computeRowStatus l = computeRowStatus (linkRow row) ∧
          computeFollowKind l = computeFollowKind (linkRow row)) ↔
      (∀ last ∈ w.stored.getLast?, VerdictKept row₀ last.result) ∧
        OccurrencesKept row₀ w.stored := by
  have h := Streamed.exec hrow₀ hid₀ hpub hstored hsent hr
  have hrid : (w.stored.foldl Stored.replay row₀).id = id := (foldl_replay_id ..).trans hid₀
  obtain rfl := w.db.links.eq_of_key_eq hrow h.row (hid.trans hrid.symm)
  rw [← computeRowStatus_cachedRow, ← computeFollowKind_cachedRow, rows_foldl_applyEvent]
  have hpatch := foldl_patchRow_id w.published
  constructor
  · intro hall
    obtain ⟨l, hl, hlid⟩ := hcached
    have := hall _ (List.mem_map_of_mem hl) ((hpatch l).trans hlid)
    rwa [hfresh l hl hlid, h.cached] at this
  · intro hagree l hl hlid
    obtain ⟨l₀, hl₀, rfl⟩ := List.mem_map.mp hl
    rw [hfresh l₀ hl₀ ((hpatch l₀).symm.trans hlid), h.cached]
    exact hagree

def exampleClient : Client where
  links := some [⟨[linkRow (exampleLink "l")], 1, 1, 50⟩]
  project := none
  sheetsTasks := none
  progress := none
  sheetsProgress := fun _ => none
  invalidated := []

def aloneTurns (run : CrawlRun) (now : ℤ) : List Turn := (checkTurns 0 run now).map Prod.snd

/-- A page has a new link on screen, and its first check finds everything in order. -/
theorem first_check_looks_like_a_problem :
    ∃ w row l,
      exec (check exampleURL "l") exampleWorld [aloneTurns foundRun 1000] = some w ∧
      row ∈ w.db.links.rows ∧ row.id = "l" ∧
      l ∈ (w.published.foldl applyEvent exampleClient).rows ∧ l.id = "l" ∧
      computeRowStatus (linkRow row) = .GREEN ∧ computeRowStatus l = .PROBLEM ∧
      computeFollowKind (linkRow row) = some .dofollow ∧ computeFollowKind l = none :=
  ⟨_, _, _, rfl, List.mem_cons_self, by decide +kernel, List.mem_cons_self, by decide +kernel,
    by decide +kernel, by decide +kernel, by decide +kernel, by decide +kernel⟩

/-- A check that times out is shown as it is stored. -/
theorem applyEvent_agrees_iff_sample :
    ∃ w row,
      exec (check exampleURL "l") exampleWorld [aloneTurns (.thrown "timeout") 1000] = some w ∧
      row ∈ w.db.links.rows ∧
      ∀ l ∈ (w.published.foldl applyEvent exampleClient).rows, l.id = "l" →
        computeRowStatus l = computeRowStatus (linkRow row) ∧
          computeFollowKind l = computeFollowKind (linkRow row) := by
  have hr : exec (check exampleURL "l") exampleWorld [aloneTurns (.thrown "timeout") 1000] =
      some _ := rfl
  have hid : (exampleLink "l").id = "l" := rfl
  refine ⟨_, _, hr, List.mem_cons_self, ?_⟩
  refine (applyEvent_agrees_iff List.mem_cons_self hid rfl rfl (by decide) hr List.mem_cons_self
    (by decide +kernel) ⟨_, List.mem_cons_self, hid⟩ (by decide +kernel)).mpr ⟨?_, ?_⟩
  · intro last hlast hok
    cases hlast
    exact absurd hok (by decide +kernel)
  · intro os hos
    have hnone : (some os).isNone := by rw [← hos]; decide +kernel
    cases hnone

end LinkBulker.Web
