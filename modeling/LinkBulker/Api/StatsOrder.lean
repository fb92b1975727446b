import LinkBulker.Api.ProblemDonors
import LinkBulker.Api.StatsTiming

/-! What the figures of a project owe to the order in which the database returns its links. -/

namespace LinkBulker.StatsService

open Foundations Shared

/-! A link adds its own share to a counter, whatever has been counted before. -/

section Counters

def Totals.plus (a b : Totals) : Totals :=
  ⟨a.total, a.done + b.done, a.problem + b.problem, a.error + b.error, a.pending + b.pending⟩

def FoundCounts.plus (a b : FoundCounts) : FoundCounts :=
  ⟨a.total + b.total, a.dofollow + b.dofollow, a.nofollow + b.nofollow⟩

def HttpCounts.plus (a b : HttpCounts) : HttpCounts :=
  ⟨a.ok + b.ok, a.redirect + b.redirect, a.notFound + b.notFound, a.serverError + b.serverError,
    a.other + b.other⟩

def IndexableCounts.plus (a b : IndexableCounts) : IndexableCounts :=
  ⟨a.yes + b.yes, a.no + b.no, a.unknown + b.unknown⟩

def CanonicalCounts.plus (a b : CanonicalCounts) : CanonicalCounts :=
  ⟨a.match_ + b.match_, a.mismatch + b.mismatch, a.notFound + b.notFound, a.unknown + b.unknown⟩

theorem Totals.add_eq (totals : Totals) (l : LinkSlim) :
    totals.add l = totals.plus (Totals.add ⟨0, 0, 0, 0, 0⟩ l) := by
  unfold Totals.add
  cases l.status with
  | DONE =>
    dsimp only
    split_ifs <;> rfl
  | _ => rfl

theorem FoundCounts.add_eq (found : FoundCounts) (l : LinkSlim) :
    found.add l = found.plus (FoundCounts.add {} l) := by
  unfold FoundCounts.add
  split_ifs <;> rfl

theorem HttpCounts.add_eq (http : HttpCounts) (l : LinkSlim) :
    http.add l = http.plus (HttpCounts.add {} l) := by
  unfold HttpCounts.add
  cases l.donorStatusCode with
  | none => rfl
  | some code =>
    dsimp only
    split_ifs <;> rfl

theorem IndexableCounts.add_eq (indexable : IndexableCounts) (l : LinkSlim) :
    indexable.add l = indexable.plus (IndexableCounts.add {} l) := by
  unfold IndexableCounts.add
  cases l.donorIndexable with
  | none => rfl
  | some isIndexable => cases isIndexable <;> rfl

theorem CanonicalCounts.add_eq (canonical : CanonicalCounts) (l : LinkSlim) :
    canonical.add l = canonical.plus (CanonicalCounts.add {} l) := by
  unfold CanonicalCounts.add
  cases l.donorCanonical with
  | none =>
    dsimp only
    split_ifs <;> rfl
  | some canonicalUrl =>
    cases l.canonicalMatches with
    | none => rfl
    | some isMatch => cases isMatch <;> rfl

variable {newURL : UrlParser} {links links' : List LinkSlim}

theorem counter_perm {C : Type} {counter : Counted → C} {add : C → LinkSlim → C} {plus : C → C → C}
    {zero : C} (hshare : ∀ x l, add x l = plus x (add zero l))
    (hplus : ∀ x y z, plus (plus x y) z = plus (plus x z) y)
    (hadd : ∀ c l, add (counter c) l = counter (c.add newURL l)) (h : links'.Perm links)
    (c : Counted) :
    counter (links'.foldl (Counted.add newURL) c) = counter (links.foldl (Counted.add newURL) c) := by
  rw [← List.foldl_hom counter hadd, ← List.foldl_hom counter hadd]
  refine h.foldl_eq' (fun l _ l' _ x => ?_) _
  rw [hshare (add x l) l', hshare x l, hplus, ← hshare x l', ← hshare]

theorem counters_perm (newURL : UrlParser) (h : links'.Perm links) (c : Counted) :
    (links'.foldl (Counted.add newURL) c).totals = (links.foldl (Counted.add newURL) c).totals ∧
    (links'.foldl (Counted.add newURL) c).found = (links.foldl (Counted.add newURL) c).found ∧
    (links'.foldl (Counted.add newURL) c).http = (links.foldl (Counted.add newURL) c).http ∧
    (links'.foldl (Counted.add newURL) c).indexable =
      (links.foldl (Counted.add newURL) c).indexable ∧
    (links'.foldl (Counted.add newURL) c).canonical =
      (links.foldl (Counted.add newURL) c).canonical := by
  refine ⟨?_, ?_, ?_, ?_, ?_⟩
  · refine counter_perm Totals.add_eq (fun x y z => ?_) (fun _ _ => rfl) h c
    simp only [Totals.plus, Nat.add_right_comm]
  · refine counter_perm FoundCounts.add_eq (fun x y z => ?_) (fun _ _ => rfl) h c
    simp only [FoundCounts.plus, Nat.add_right_comm]
  · refine counter_perm HttpCounts.add_eq (fun x y z => ?_) (fun _ _ => rfl) h c
    simp only [HttpCounts.plus, Nat.add_right_comm]
  · refine counter_perm IndexableCounts.add_eq (fun x y z => ?_) (fun _ _ => rfl) h c
    simp only [IndexableCounts.plus, Nat.add_right_comm]
  · refine counter_perm CanonicalCounts.add_eq (fun x y z => ?_) (fun _ _ => rfl) h c
    simp only [CanonicalCounts.plus, Nat.add_right_comm]

theorem positiveDurations_perm (h : links'.Perm links) :
    (positiveDurations links').Perm (positiveDurations links) :=
  (h.filterMap _).filter _

theorem computeTiming_perm {D D' : List ℤ} (h : D'.Perm D) : computeTiming D' = computeTiming D := by
  have hsorts := sorts_durations D'
  have hsorted : (D'.mergeSort fun a b => a ≤ b) = D.mergeSort fun a b => a ≤ b := by
    simpa using Sorts.map_key_eq ⟨hsorts.perm.trans h, hsorts.sorted⟩ (sorts_durations D)
  unfold computeTiming
  rw [h.length_eq, hsorted]

theorem aggregate_eq (h : links'.Perm links) (scope : StatsScope) :
    aggregate newURL links' scope = { aggregate newURL links scope with
      topProblemDonors := (aggregate newURL links' scope).topProblemDonors } := by
  have htiming : (aggregate newURL links' scope).timing = (aggregate newURL links scope).timing := by
    rw [aggregate_timing_eq, aggregate_timing_eq, computeTiming_perm (positiveDurations_perm h)]
  obtain ⟨htotals, hfound, hhttp, hindexable, hcanonical⟩ :=
    counters_perm newURL h { totals := { total := links'.length } }
  unfold aggregate at htiming ⊢
  dsimp only at htiming ⊢
  rw [htotals, hfound, hhttp, hindexable, hcanonical, htiming, h.length_eq]

end Counters

section Order

variable {newURL : UrlParser} {links links' : List LinkSlim}

def TiesAtTop (newURL : UrlParser) (links : List LinkSlim) : Prop :=
  ∃ a ∈ problemHosts newURL links, ∃ b ∈ problemHosts newURL links, a ≠ b ∧
    problemCount newURL links a = problemCount newURL links b ∧
    (problemHosts newURL links).dedup.countP (fun host =>
      problemCount newURL links a < problemCount newURL links host) < TOP_PROBLEM_LIMIT

theorem problemHosts_perm (h : links'.Perm links) :
    (problemHosts newURL links').Perm (problemHosts newURL links) :=
  ((h.filter _).filterMap _).filter _

theorem sorts_rankedHosts_of_perm (h : links'.Perm links) :
    Sorts rank (Tally.tally (problemHosts newURL links)) (rankedHosts newURL links') :=
  ⟨(sorts_rankedHosts newURL links').perm.trans (Tally.tally_perm (problemHosts_perm h)),
    (sorts_rankedHosts newURL links').sorted⟩

theorem problemCounts_perm (h : links'.Perm links) (scope : StatsScope) :
    (aggregate newURL links' scope).topProblemDonors.map ProblemDonor.problemCount =
      (aggregate newURL links scope).topProblemDonors.map ProblemDonor.problemCount := by
  have hcounts : (rankedHosts newURL links').map Prod.snd = (rankedHosts newURL links).map Prod.snd :=
    (sorts_rankedHosts_of_perm h).map_key_eq (sorts_rankedHosts newURL links)
  rw [topProblemDonors_eq, topProblemDonors_eq, List.map_map, List.map_map]
  show ((rankedHosts newURL links').take _).map Prod.snd =
    ((rankedHosts newURL links).take _).map Prod.snd
  rw [List.map_take, List.map_take, hcounts]

theorem countP_rank (newURL : UrlParser) (links : List LinkSlim) (host : String) (n : ℕ) :
    (Tally.tally (problemHosts newURL links)).countP (fun p => rank p < rank (host, n)) =
      (problemHosts newURL links).dedup.countP fun host => n < problemCount newURL links host := by
  rw [Tally.tally_eq, List.countP_map, ← (Tally.eraseDups_perm _).countP_eq]
  refine List.countP_congr fun k hk => ?_
  have hne : k ≠ "" := ne_empty_of_mem_problemHosts (List.mem_eraseDups.mp hk)
  rw [← count_problemHosts newURL links hne]
  exact Iff.rfl

theorem topProblemDonors_of_not_tiesAtTop (h : links'.Perm links) (scope : StatsScope)
    (hties : ¬ TiesAtTop newURL links) : (aggregate newURL links' scope).topProblemDonors =
      (aggregate newURL links scope).topProblemDonors := by
  rw [topProblemDonors_eq, topProblemDonors_eq]
  congr 1
  refine (sorts_rankedHosts_of_perm h).take_eq (sorts_rankedHosts newURL links) ?_
  intro p hp p' hp' hrank hroom
  obtain ⟨hmem, hcount⟩ := mem_tally_problemHosts.mp hp
  obtain ⟨hmem', hcount'⟩ := mem_tally_problemHosts.mp hp'
  have hsame : p.2 = p'.2 := hrank
  by_contra hne
  refine hties ⟨p.1, hmem, p'.1, hmem', fun hhost => hne (Prod.ext hhost hsame), ?_, ?_⟩
  · rw [← hcount, ← hcount', hsame]
  · rwa [← hcount, ← countP_rank newURL links p.1]

theorem rankedHosts_cons {host : String} {hosts : List String}
    (h : problemHosts newURL links = host :: hosts) :
    (rankedHosts newURL links)[(problemHosts newURL links).dedup.countP fun host' =>
      problemCount newURL links host < problemCount newURL links host']? =
        some (host, problemCount newURL links host) := by
  have hhost : host ∈ problemHosts newURL links := h ▸ List.mem_cons_self
  have hmem : (host, problemCount newURL links host) ∈ Tally.tally (problemHosts newURL links) :=
    mem_tally_problemHosts.mpr ⟨hhost, rfl⟩
  rw [← countP_rank newURL links host]
  refine (sorts_rankedHosts newURL links).getElem?_of_first (nodup_rankedHosts newURL links).of_map
    hmem fun p hp hne hrank => ?_
  have hfirst : [(host, problemCount newURL links host), p].Sublist
      (Tally.tally (problemHosts newURL links)) := by
    obtain ⟨counts, hcounts⟩ := Tally.tally_cons host hosts
    rw [← h, count_problemHosts newURL links (ne_empty_of_mem_problemHosts hhost)] at hcounts
    rw [hcounts] at hp ⊢
    exact (List.singleton_sublist.mpr ((List.mem_cons.mp hp).resolve_left hne)).cons_cons _
  have hcount : p.2 = problemCount newURL links host := hrank
  exact List.pair_sublist_mergeSort (fun _ _ _ => by simpa using fun hba hcb => hcb.trans hba)
    (fun _ _ => by simpa using Nat.le_total ..) (decide_eq_true hcount.le) hfirst

theorem topProblemDonors_cons {host : String} {hosts : List String} {i : ℕ}
    (h : problemHosts newURL links = host :: hosts)
    (hi : (problemHosts newURL links).dedup.countP (fun host' =>
      problemCount newURL links host < problemCount newURL links host') = i)
    (hroom : i < TOP_PROBLEM_LIMIT) (scope : StatsScope) :
    (aggregate newURL links scope).topProblemDonors[i]? =
      some ⟨host, problemCount newURL links host⟩ := by
  rw [topProblemDonors_eq, List.getElem?_map, List.getElem?_take_of_lt hroom, ← hi,
    rankedHosts_cons h]
  rfl

theorem exists_perm_first {host : String} (hhost : host ∈ problemHosts newURL links)
    (hroom : (problemHosts newURL links).dedup.countP (fun host' =>
      problemCount newURL links host < problemCount newURL links host') < TOP_PROBLEM_LIMIT)
    (scope : StatsScope) : ∃ links' : List LinkSlim, links'.Perm links ∧
      (aggregate newURL links' scope).topProblemDonors[(problemHosts newURL links).dedup.countP
        fun host' => problemCount newURL links host < problemCount newURL links host']? =
          some ⟨host, problemCount newURL links host⟩ := by
  obtain ⟨hhost, hne⟩ := List.mem_filter.mp hhost
  obtain ⟨l, hl, hdonor⟩ := List.mem_filterMap.mp hhost
  obtain ⟨hl, hproblem⟩ := List.mem_filter.mp hl
  obtain ⟨pre, post, rfl⟩ := List.append_of_mem hl
  have hperm : (l :: (pre ++ post)).Perm (pre ++ l :: post) := List.perm_middle.symm
  have hhosts : problemHosts newURL (l :: (pre ++ post)) =
      host :: problemHosts newURL (pre ++ post) := by
    rw [problemHosts_cons]
    simp [problemHosts, hproblem, hdonor, of_decide_eq_true hne]
  have hcount (host' : String) : problemCount newURL (l :: (pre ++ post)) host' =
      problemCount newURL (pre ++ l :: post) host' := hperm.countP_eq _
  refine ⟨l :: (pre ++ post), hperm, ?_⟩
  refine (topProblemDonors_cons hhosts ?_ hroom scope).trans (by rw [hcount host])
  simp only [hcount, (problemHosts_perm hperm).dedup.countP_eq]

/-- Only the order of the hosts that share a count can depend on the order of the links: the figures
are the same for every order exactly when no two hosts share one that reaches into the list. -/
theorem aggregate_perm (newURL : UrlParser) (links : List LinkSlim) (scope : StatsScope) :
    (∀ links' : List LinkSlim, links'.Perm links →
      aggregate newURL links' scope = { aggregate newURL links scope with
        topProblemDonors := (aggregate newURL links' scope).topProblemDonors } ∧
      (aggregate newURL links' scope).topProblemDonors.map ProblemDonor.problemCount =
        (aggregate newURL links scope).topProblemDonors.map ProblemDonor.problemCount) ∧
    ((∀ links' : List LinkSlim, links'.Perm links →
      aggregate newURL links' scope = aggregate newURL links scope) ↔
        ¬ TiesAtTop newURL links) := by
  refine ⟨fun links' h => ⟨aggregate_eq h scope, problemCounts_perm h scope⟩, ?_, ?_⟩
  · rintro hall ⟨a, ha, b, hb, hne, hcount, hroom⟩
    obtain ⟨linksA, hlinksA, htopA⟩ := exists_perm_first ha hroom scope
    obtain ⟨linksB, hlinksB, htopB⟩ := exists_perm_first hb (hcount ▸ hroom) scope
    rw [hall linksA hlinksA] at htopA
    rw [hall linksB hlinksB, ← hcount, htopA] at htopB
    exact hne (congrArg ProblemDonor.donorHost (Option.some.inj htopB))
  · intro hties links' h
    rw [aggregate_eq h scope, topProblemDonors_of_not_tiesAtTop h scope hties]

def errorLink (donorUrl : String) : LinkSlim where
  donorUrl
  status := .ERROR
  donorStatusCode := none
  donorIndexable := none
  donorCanonical := none
  canonicalMatches := none
  linkFound := none
  occurrences := none
  checkDurationMs := none

def twoSites : UrlParser := knownURL ["a.example", "b.example"]

/-- Two hosts with one problem link each stand in the order of the links. -/
theorem tied_hosts_swap : ¬ ∀ (newURL : UrlParser) (links links' : List LinkSlim)
    (scope : StatsScope), links'.Perm links →
      aggregate newURL links' scope = aggregate newURL links scope := by
  intro hall
  have hsame := hall twoSites [errorLink "https://a.example/", errorLink "https://b.example/"]
    [errorLink "https://b.example/", errorLink "https://a.example/"] .all (List.Perm.swap ..)
  have ha : problemHosts twoSites [errorLink "https://a.example/", errorLink "https://b.example/"] =
      ["a.example", "b.example"] := by decide +kernel
  have hb : problemHosts twoSites [errorLink "https://b.example/", errorLink "https://a.example/"] =
      ["b.example", "a.example"] := by decide +kernel
  have htop := topProblemDonors_cons ha (by decide +kernel) (by decide : 0 < TOP_PROBLEM_LIMIT) .all
  rw [← hsame, topProblemDonors_cons hb (by decide +kernel) (by decide) .all] at htop
  exact absurd (congrArg (Option.map ProblemDonor.donorHost) htop) (by decide)

end Order

end LinkBulker.StatsService
