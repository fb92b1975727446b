import LinkBulker.Api.ManualLinks
import LinkBulker.Web.Classifiers
import LinkBulker.Web.ProjectStreamLaws
import LinkBulker.Worker.SheetsTaskLaws

/-! The follow rule of the web client looks at the occurrences of a row, those of the statistics and
of the spreadsheet at `linkFound` first. -/

namespace LinkBulker.Web

open Foundations Db Shared Crawler LinkRepository SingleLink LinksService StatsService

variable {newURL : UrlParser} {l : Link}

inductive LinkStep (newURL : UrlParser)
  | createManualLinks (userId : UserId) (projectId : ProjectId)
    (dto : CreateManualLinksInput newURL) (cuid : ℕ → LinkId)
  | replaceSheetsLinks (sheetsTaskId : SheetsTaskId) (projectId : ProjectId)
    (rows : List SheetsLinkData) (cuid : ℕ → LinkId)
  | markStatus (id : LinkId) (status : LinkStatus)
  | markManyStatus (ids : List LinkId) (status : LinkStatus)
  | saveResult (id : LinkId) (donorUrl acceptorRaw : String) (run : CrawlRun) (durationMs now : ℤ)

structure Recorded where
  db : Database
  stored : LinkId → List Stored := fun _ => []

def keepStored (kept : Link → Bool) (s : Recorded) (id : LinkId) : List Stored :=
  if (s.db.links.find? id).any kept then s.stored id else []

def Recorded.apply (s : Recorded) : LinkStep newURL → Recorded
  | .createManualLinks userId projectId dto cuid =>
    match LinksService.createManualLinks newURL cuid s.db userId projectId dto with
    | .ok db => ⟨db, keepStored (fun _ => true) s⟩
    | .error _ => s
  | .replaceSheetsLinks sheetsTaskId projectId rows cuid =>
    match LinkRepository.replaceSheetsLinks s.db sheetsTaskId projectId rows cuid with
    | some db => ⟨db, keepStored (fun l => l.sheetsTaskId != some sheetsTaskId) s⟩
    | none => s
  | .markStatus id status =>
    match LinkRepository.markStatus s.db id status with
    | some db => { s with db }
    | none => s
  | .markManyStatus ids status => { s with db := LinkRepository.markManyStatus s.db ids status }
  | .saveResult id donorUrl acceptorRaw run durationMs now =>
    let result := crawlAndAnalyze newURL donorUrl acceptorRaw run durationMs
    match LinkRepository.saveResult s.db id result now with
    | some (_, db) =>
      ⟨db, fun id' => if id' = id then s.stored id ++ [⟨id, result, now⟩] else s.stored id'⟩
    | none => s

/-- The row as it was created, with the stored checks replayed; only the status may have been
marked since. -/
structure Replays (stored : List Stored) (l : Link) : Prop where
  row : ∃ row₀ : Link, row₀.linkFound = none ∧ row₀.occurrences = none ∧
    l = { stored.foldl Stored.replay row₀ with status := l.status }
  wellFormed : ∀ c ∈ stored, c.result.WellFormed

theorem Replays.created (hfound : l.linkFound = none) (hocc : l.occurrences = none) :
    Replays [] l :=
  ⟨⟨l, hfound, hocc, rfl⟩, by simp⟩

theorem Replays.statusData {stored : List Stored} (h : Replays stored l) (status : LinkStatus) :
    Replays stored (statusData status l) := by
  obtain ⟨row₀, hfound, hocc, hl⟩ := h.row
  refine ⟨⟨row₀, hfound, hocc, ?_⟩, h.wellFormed⟩
  rw [hl]
  rfl

theorem Replays.saveResultData {stored : List Stored} (h : Replays stored l) (c : Stored)
    (hwf : c.result.WellFormed) :
    Replays (stored ++ [c]) (saveResultData c.result c.now l) := by
  obtain ⟨row₀, hfound, hocc, hl⟩ := h.row
  refine ⟨⟨row₀, hfound, hocc, ?_⟩, ?_⟩
  · rw [List.foldl_concat, hl]
    rfl
  · simp only [List.mem_append, List.mem_singleton]
    rintro d (hd | rfl)
    · exact h.wellFormed d hd
    · exact hwf

def Recorded.Replayed (s : Recorded) : Prop :=
  ∀ l ∈ s.db.links.rows, Replays (s.stored l.id) l

theorem keepStored_of_mem {kept : Link → Bool} {s : Recorded} (hl : l ∈ s.db.links.rows)
    (hk : kept l) : keepStored kept s l.id = s.stored l.id := by
  have hfind : s.db.links.find? l.id = some l := Table.find?_eq_some.mpr ⟨hl, rfl⟩
  rw [keepStored, hfind, if_pos]
  exact hk

theorem keepStored_of_not {kept : Link → Bool} {s : Recorded} {id : LinkId}
    (h : ∀ l ∈ s.db.links.rows, l.id = id → kept l = false) : keepStored kept s id = [] := by
  rw [keepStored, if_neg]
  cases hfind : s.db.links.find? id with
  | none => exact Bool.false_ne_true
  | some l =>
    obtain ⟨hl, hid⟩ := Table.find?_eq_some.mp hfind
    simpa using h l hl hid

theorem Recorded.Replayed.create {s : Recorded} {kept : Link → Bool} {db : Database} {new : List Link}
    (h : s.Replayed) (hrows : db.links.rows = s.db.links.rows.filter kept ++ new)
    (hnew : ∀ l ∈ new, l.linkFound = none ∧ l.occurrences = none) :
    Recorded.Replayed ⟨db, keepStored kept s⟩ := by
  intro l hl
  have hl' : l ∈ s.db.links.rows.filter kept ++ new := hrows ▸ hl
  obtain hold | hcreated := List.mem_append.mp hl'
  · obtain ⟨hold, hk⟩ := List.mem_filter.mp hold
    change Replays (keepStored kept s l.id) l
    rw [keepStored_of_mem hold hk]
    exact h l hold
  · have hnone : keepStored kept s l.id = [] := by
      refine keepStored_of_not fun l' hl' hid => ?_
      by_contra hk
      have hnodup := db.links.nodup
      rw [hrows, List.map_append, List.nodup_append] at hnodup
      refine hnodup.2.2 _ (List.mem_map_of_mem (List.mem_filter.mpr ⟨hl', ?_⟩)) _
        (List.mem_map_of_mem hcreated) hid
      simpa using hk
    change Replays (keepStored kept s l.id) l
    rw [hnone]
    exact .created (hnew l hcreated).1 (hnew l hcreated).2

theorem Recorded.Replayed.update {s : Recorded} {p : Link → Bool} {f : Link → Link}
    (hf : ∀ l, (f l).id = l.id) {stored : LinkId → List Stored}
    (hhit : ∀ l ∈ s.db.links.rows, p l → Replays (stored l.id) (f l))
    (hmiss : ∀ l ∈ s.db.links.rows, ¬ p l → Replays (stored l.id) l) :
    Recorded.Replayed ⟨{ s.db with links := s.db.links.updateWhere p f hf }, stored⟩ := by
  intro l hl
  have hmem : l ∈ (s.db.links.updateWhere p f hf).rows := hl
  obtain ⟨l₀, hl₀, rfl⟩ := Table.mem_updateWhere.mp hmem
  by_cases hp : p l₀
  · rw [if_pos hp, hf]
    exact hhit l₀ hl₀ hp
  · rw [if_neg hp]
    exact hmiss l₀ hl₀ hp

theorem Recorded.Replayed.apply {s : Recorded} (h : s.Replayed) (step : LinkStep newURL) :
    (s.apply step).Replayed := by
  cases step with
  | createManualLinks userId projectId dto cuid =>
    simp only [Recorded.apply]
    split
    · rename_i db hcreate
      obtain ⟨links, rfl, records, -, hrows⟩ := createManualLinks_eq_ok hcreate
      have hall : s.db.links.rows.filter (fun _ => true) = s.db.links.rows :=
        List.filter_eq_self.mpr fun _ _ => rfl
      refine h.create (hrows.trans (congrArg (· ++ _) hall.symm)) ?_
      · intro l hl
        obtain ⟨⟨r, idx⟩, -, rfl⟩ := List.mem_map.mp hl
        exact ⟨rfl, rfl⟩
    · exact h
  | replaceSheetsLinks sheetsTaskId projectId rows cuid =>
    simp only [Recorded.apply]
    split
    · rename_i db hreplace
      have hrows : db.links.rows = s.db.links.rows.filter
          (fun l => l.sheetsTaskId != some sheetsTaskId) ++
            rows.mapIdx fun i r => sheetsLink sheetsTaskId projectId (cuid i) r := by
        rw [replaceSheetsLinks_rows hreplace]
        refine congrArg (· ++ _) (List.filter_congr fun l _ => ?_)
        rw [Bool.eq_iff_iff]
        simp
      refine h.create hrows fun l hl => ?_
      obtain ⟨i, -, rfl⟩ := List.mem_mapIdx.mp hl
      exact ⟨rfl, rfl⟩
    · exact h
  | markStatus id status =>
    simp only [Recorded.apply]
    split
    · rename_i db hmark
      obtain ⟨-, rfl⟩ := updateLink_eq_some.mp hmark
      exact Recorded.Replayed.update (statusData_id status)
        (fun l hl _ => (h l hl).statusData status) fun l hl _ => h l hl
    · exact h
  | markManyStatus ids status =>
    simp only [Recorded.apply, LinkRepository.markManyStatus]
    split
    · exact h
    · exact Recorded.Replayed.update (statusData_id status)
        (fun l hl _ => (h l hl).statusData status) fun l hl _ => h l hl
  | saveResult id donorUrl acceptorRaw run durationMs now =>
    have hwf := crawlAndAnalyze_wellFormed newURL donorUrl acceptorRaw run durationMs
    simp only [Recorded.apply]
    generalize crawlAndAnalyze newURL donorUrl acceptorRaw run durationMs = result at hwf
    split
    · rename_i saved db hsave
      obtain ⟨-, -, -, -, rfl⟩ := saveResult_eq_some.mp hsave
      refine Recorded.Replayed.update (saveResultData_id _ now) ?_ ?_
      · intro l hl hid
        have hid : l.id = id := of_decide_eq_true hid
        rw [if_pos hid, ← hid]
        exact (h l hl).saveResultData ⟨l.id, result, now⟩ hwf
      · intro l hl hid
        rw [if_neg (by simpa using hid)]
        exact h l hl
    · exact h

theorem Recorded.Replayed.run {s : Recorded} (h : s.Replayed) (steps : List (LinkStep newURL)) :
    (steps.foldl Recorded.apply s).Replayed := by
  induction steps generalizing s with
  | nil => exact h
  | cons step steps ih => exact ih (h.apply step)

structure CountedAs (newURL : UrlParser) (l : Link) (total dofollow nofollow : ℕ) : Prop where
  found (scope : StatsScope) (before after : List Link) :
    (aggregate newURL ((before ++ l :: after).map linkSlim) scope).found =
      let found := (aggregate newURL ((before ++ after).map linkSlim) scope).found
      ⟨found.total + total, found.dofollow + dofollow, found.nofollow + nofollow⟩

inductive ClassifiedAlike (newURL : UrlParser) (l : Link) : Prop
  | notFound (hfound : l.linkFound ≠ some true) (hkind : computeFollowKind (linkRow l) = none)
      (hcell : Sheets.deriveFoundCell l = "no") (hcount : CountedAs newURL l 0 0 0)
  | dofollow (hkind : computeFollowKind (linkRow l) = some .dofollow)
      (hcell : Sheets.deriveFoundCell l = "dofollow") (hcount : CountedAs newURL l 1 1 0)
  | nofollow (hkind : computeFollowKind (linkRow l) = some .nofollow)
      (hcell : Sheets.deriveFoundCell l = "nofollow") (hcount : CountedAs newURL l 1 0 1)

theorem foldl_found (slims : List LinkSlim) (found : FoundCounts) :
    slims.foldl FoundCounts.add found =
      ⟨found.total + (slims.foldl FoundCounts.add {}).total,
        found.dofollow + (slims.foldl FoundCounts.add {}).dofollow,
        found.nofollow + (slims.foldl FoundCounts.add {}).nofollow⟩ := by
  induction slims generalizing found with
  | nil => rfl
  | cons l slims ih =>
    rw [List.foldl_cons, List.foldl_cons, ih, ih (FoundCounts.add {} l)]
    simp only [FoundCounts.add]
    split
    · split <;> simp <;> omega
    · simp

theorem CountedAs.of_add {total dofollow nofollow : ℕ}
    (h : FoundCounts.add {} (linkSlim l) = ⟨total, dofollow, nofollow⟩) :
    CountedAs newURL l total dofollow nofollow where
  found scope before after := by
    simp only [aggregate_found, List.map_append, List.map_cons, List.foldl_append, List.foldl_cons]
    generalize (before.map linkSlim).foldl FoundCounts.add {} = counted
    have hadd : counted.add (linkSlim l) =
        ⟨counted.total + total, counted.dofollow + dofollow, counted.nofollow + nofollow⟩ := by
      have hone := foldl_found [linkSlim l] counted
      simpa [h] using hone
    rw [hadd, foldl_found, foldl_found _ counted]
    simp only [FoundCounts.mk.injEq]
    omega

/-- A good last check has overwritten the occurrences; after a failed one the row still shows those
of the last good check. -/
def FoundStands (stored : List Stored) : Prop :=
  ∀ last ∈ stored.getLast?, last.result.ok ∨ (latestOccurrences stored).getD [] = []

instance (stored : List Stored) : Decidable (FoundStands stored) :=
  inferInstanceAs (Decidable (∀ last ∈ stored.getLast?, last.result.ok ∨
    (latestOccurrences stored).getD [] = []))

theorem Replays.occurrences {stored : List Stored} (h : Replays stored l) :
    l.occurrences = latestOccurrences stored := by
  obtain ⟨row₀, -, hocc, hl⟩ := h.row
  rw [hl]
  change (stored.foldl Stored.replay row₀).occurrences = _
  rw [foldl_replay_latest, hocc, Option.or_none]

theorem Replays.linkFound {stored : List Stored} (h : Replays stored l) :
    l.linkFound = stored.getLast?.bind fun last => last.result.linkFound := by
  obtain ⟨row₀, hfound, -, hl⟩ := h.row
  rw [hl]
  change (stored.foldl Stored.replay row₀).linkFound = _
  induction stored using List.reverseRecOn with
  | nil => exact hfound
  | append_singleton stored last _ =>
    rw [List.foldl_concat, List.getLast?_concat]
    rfl

theorem latestOccurrences_concat (stored : List Stored) (last : Stored) :
    latestOccurrences (stored ++ [last]) =
      last.result.occurrences.or (latestOccurrences stored) := by
  rw [latestOccurrences, List.foldl_concat, ← latestOccurrences]

theorem Replays.found_iff {stored : List Stored} (h : Replays stored l) :
    (l.linkFound = some true ↔ l.occurrences.getD [] ≠ []) ↔ FoundStands stored := by
  rw [h.linkFound, h.occurrences]
  induction stored using List.reverseRecOn with
  | nil => simp [FoundStands, latestOccurrences]
  | append_singleton stored last _ =>
    have hwf : last.result.WellFormed := h.wellFormed last (by simp)
    simp only [FoundStands, List.getLast?_concat, Option.bind_some, Option.mem_def,
      Option.some.injEq, forall_eq', latestOccurrences_concat, hwf.found, ← hwf.occurrences]
    cases last.result.occurrences with
    | none => simp
    | some os => cases os <;> simp

section Classifiers

def followKind (l : Link) : FollowKind :=
  if (l.occurrences.getD []).any isDofollow then .dofollow else .nofollow

theorem computeFollowKind_eq_none : computeFollowKind (linkRow l) = none ↔
    l.occurrences.getD [] = [] := by
  have hocc : (linkRow l).occurrences = l.occurrences := rfl
  rw [computeFollowKind, hocc]
  generalize l.occurrences.getD [] = os
  cases os with
  | nil => simp
  | cons o os => cases (o :: os).any isDofollow <;> simp

theorem computeFollowKind_of_ne (h : l.occurrences.getD [] ≠ []) :
    computeFollowKind (linkRow l) = some (followKind l) := by
  have hocc : (linkRow l).occurrences = l.occurrences := rfl
  have hlength : (l.occurrences.getD []).length ≠ 0 := fun e => h (List.length_eq_zero_iff.mp e)
  rw [computeFollowKind, hocc, if_neg hlength, followKind]
  split <;> rfl

theorem deriveFoundCell_of_not (h : l.linkFound ≠ some true) : Sheets.deriveFoundCell l = "no" :=
  if_pos h

theorem deriveFoundCell_of_found (h : l.linkFound = some true) : Sheets.deriveFoundCell l =
    match followKind l with
    | .dofollow => "dofollow"
    | .nofollow => "nofollow" := by
  have hrule : (fun o : LinkOccurrence => !o.rel.any fun r => toLowerCase r ∈ Sheets.NOFOLLOW_RELS) =
      isDofollow := by
    funext o
    refine congrArg _ (congrArg _ (funext fun r => ?_))
    simp [Sheets.NOFOLLOW_RELS, NOFOLLOW_RELS]
  rw [Sheets.deriveFoundCell, if_neg (not_not.mpr h), followKind]
  dsimp only
  rw [hrule]
  cases (l.occurrences.getD []).any isDofollow <;> rfl

theorem add_of_not (h : l.linkFound ≠ some true) :
    FoundCounts.add {} (linkSlim l) = ⟨0, 0, 0⟩ := by
  rw [FoundCounts.add, if_neg]
  exact h

theorem add_of_found (h : l.linkFound = some true) : FoundCounts.add {} (linkSlim l) =
    match followKind l with
    | .dofollow => ⟨1, 1, 0⟩
    | .nofollow => ⟨1, 0, 1⟩ := by
  have hrule : hasDofollow ((linkSlim l).occurrences.getD []) =
      (l.occurrences.getD []).any isDofollow := rfl
  rw [FoundCounts.add, if_pos, hrule, followKind]
  · cases (l.occurrences.getD []).any isDofollow <;> rfl
  · exact h

theorem classifiedAlike_iff :
    ClassifiedAlike newURL l ↔ (l.linkFound = some true ↔ l.occurrences.getD [] ≠ []) := by
  constructor
  · have hfound {cell : String} (hcell : Sheets.deriveFoundCell l = cell) (hne : cell ≠ "no") :
        l.linkFound = some true := by
      by_contra hnot
      exact hne (hcell.symm.trans (deriveFoundCell_of_not hnot))
    have hsome {kind : FollowKind} (hkind : computeFollowKind (linkRow l) = some kind) :
        l.occurrences.getD [] ≠ [] := by
      intro hnil
      rw [computeFollowKind_eq_none.mpr hnil] at hkind
      cases hkind
    rintro (⟨hnot, hnone, -, -⟩ | ⟨hkind, hcell, -⟩ | ⟨hkind, hcell, -⟩)
    · exact iff_of_false hnot (not_not.mpr (computeFollowKind_eq_none.mp hnone))
    · exact iff_of_true (hfound hcell (by decide)) (hsome hkind)
    · exact iff_of_true (hfound hcell (by decide)) (hsome hkind)
  · intro hiff
    by_cases hfound : l.linkFound = some true
    · have hkind := computeFollowKind_of_ne (hiff.mp hfound)
      have hcell := deriveFoundCell_of_found hfound
      have hcount := add_of_found hfound
      cases h : followKind l with
      | dofollow =>
        rw [h] at hkind hcell hcount
        exact .dofollow hkind hcell (.of_add hcount)
      | nofollow =>
        rw [h] at hkind hcell hcount
        exact .nofollow hkind hcell (.of_add hcount)
    · have hnil : l.occurrences.getD [] = [] := by
        by_contra hne
        exact hfound (hiff.mpr hne)
      exact .notFound hfound (computeFollowKind_eq_none.mpr hnil) (deriveFoundCell_of_not hfound)
        (.of_add (add_of_not hfound))

end Classifiers

def Recorded.start (db : Database) : Recorded := ⟨{ db with links := .empty }, fun _ => []⟩

/-- Whatever has been created, marked and stored, the three classify a row alike exactly when its
last check was a good one or the last good one found nothing. -/
theorem follow_classifiers_agree (db : Database) (steps : List (LinkStep newURL)) (l : Link)
    (hl : l ∈ (steps.foldl Recorded.apply (.start db)).db.links.rows) :
    ClassifiedAlike newURL l ↔
      FoundStands ((steps.foldl Recorded.apply (.start db)).stored l.id) := by
  have hstart : (Recorded.start db).Replayed := fun l hl => absurd hl List.not_mem_nil
  rw [classifiedAlike_iff]
  exact (hstart.run steps l hl).found_iff

def timeoutSteps : List (LinkStep exampleURL) :=
  [.replaceSheetsLinks "s" "p" [⟨"https://donor.example/post", "acceptor.example", "acceptor.example"⟩]
    fun _ => "a",
  .saveResult "a" "https://donor.example/post" "acceptor.example" foundRun 10 1000,
  .saveResult "a" "https://donor.example/post" "acceptor.example" (.thrown "timeout") 10 2000]

/-- The web table still calls the link dofollow, the other two have not found it. -/
theorem timeout_splits_classifiers : ¬ ∀ (newURL : UrlParser) (db : Database)
    (steps : List (LinkStep newURL)) (l : Link),
    l ∈ (steps.foldl Recorded.apply (.start db)).db.links.rows → ClassifiedAlike newURL l := by
  intro hall
  have hrow : ∃ l ∈ (timeoutSteps.foldl Recorded.apply (.start Sheets.exampleWorld.db)).db.links.rows,
      l.linkFound = none ∧ l.occurrences = some [exampleOccurrence] := by decide +kernel
  obtain ⟨l, hl, hfound, hocc⟩ := hrow
  have hiff := classifiedAlike_iff.mp (hall exampleURL Sheets.exampleWorld.db timeoutSteps l hl)
  rw [hfound, hocc] at hiff
  exact absurd (hiff.mpr (by simp)) (by simp)

theorem follow_classifiers_agree_sample :
    ∃ l ∈ ((timeoutSteps.take 2).foldl Recorded.apply
        (.start Sheets.exampleWorld.db)).db.links.rows,
      l.linkFound = some true ∧ ClassifiedAlike exampleURL l := by
  have hrow : ∃ l ∈ ((timeoutSteps.take 2).foldl Recorded.apply
      (.start Sheets.exampleWorld.db)).db.links.rows, l.linkFound = some true ∧
        FoundStands (((timeoutSteps.take 2).foldl Recorded.apply
          (.start Sheets.exampleWorld.db)).stored l.id) := by decide +kernel
  obtain ⟨l, hl, hfound, hstands⟩ := hrow
  exact ⟨l, hl, hfound, (follow_classifiers_agree Sheets.exampleWorld.db (timeoutSteps.take 2) l
    hl).mpr hstands⟩

end LinkBulker.Web
