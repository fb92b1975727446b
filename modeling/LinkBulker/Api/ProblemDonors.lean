import LinkBulker.Api.StatsService
import LinkBulker.Foundations.Ranking
import LinkBulker.Foundations.Tally
import LinkBulker.Shared.Acceptor

/-! The hosts with the most problem links. -/

namespace LinkBulker.StatsService

open Foundations Shared

section Hosts

variable {newURL : UrlParser} {links : List LinkSlim} {host : String}

def donorHost (newURL : UrlParser) (l : LinkSlim) : Option String :=
  (newURL l.donorUrl).map fun u => bareHost u.hostname

def problemCount (newURL : UrlParser) (links : List LinkSlim) (host : String) : ℕ :=
  links.countP fun l => isProblem l && donorHost newURL l == some host

def problemHosts (newURL : UrlParser) (links : List LinkSlim) : List String :=
  ((links.filter isProblem).filterMap (donorHost newURL)).filter fun host => host ≠ ""

theorem safeHostname_eq (newURL : UrlParser) (l : LinkSlim) :
    safeHostname newURL l.donorUrl = donorHost newURL l := by
  unfold safeHostname donorHost bareHost dropWww
  refine congrArg (fun f => (newURL l.donorUrl).map f) (funext fun u => ?_)
  split
  · rw [toLowerCase, String.toList_ofList, List.map_drop, toList_toLowerCase]
  · rw [String.ofList_toList]

theorem countHost_eq (host : String) (counts : List (String × ℕ)) :
    countHost host counts = Tally.bump host counts := by
  induction counts with
  | nil => rfl
  | cons p counts ih => rw [countHost, Tally.bump, ih]

theorem addProblemDonor_eq (newURL : UrlParser) (counts : List (String × ℕ)) (l : LinkSlim) :
    addProblemDonor newURL counts l =
      (problemHosts newURL [l]).foldl (fun counts host => Tally.bump host counts) counts := by
  unfold addProblemDonor problemHosts
  rw [safeHostname_eq]
  by_cases hproblem : isProblem l
  · cases hhost : donorHost newURL l with
    | none => simp [hproblem, hhost]
    | some host => by_cases hempty : host = "" <;> simp [hproblem, hhost, hempty, countHost_eq]
  · simp [hproblem]

theorem problemHosts_cons (newURL : UrlParser) (l : LinkSlim) (links : List LinkSlim) :
    problemHosts newURL (l :: links) = problemHosts newURL [l] ++ problemHosts newURL links := by
  unfold problemHosts
  rw [← List.filter_append, ← List.filterMap_append, ← List.filter_append, List.singleton_append]

theorem problemDonorCount_foldl (newURL : UrlParser) (links : List LinkSlim) (c : Counted) :
    (links.foldl (Counted.add newURL) c).problemDonorCount =
      (problemHosts newURL links).foldl (fun counts host => Tally.bump host counts)
        c.problemDonorCount := by
  induction links generalizing c with
  | nil => rfl
  | cons l links ih =>
    rw [List.foldl_cons, ih, problemHosts_cons, List.foldl_append, ← addProblemDonor_eq]
    rfl

theorem count_problemHosts (newURL : UrlParser) (links : List LinkSlim) (hhost : host ≠ "") :
    (problemHosts newURL links).count host = problemCount newURL links host := by
  rw [problemHosts, List.count_filter (by simpa using hhost), List.count_filterMap,
    List.countP_filter]
  exact List.countP_congr fun l _ => by rw [Bool.and_comm]

theorem ne_empty_of_mem_problemHosts (h : host ∈ problemHosts newURL links) : host ≠ "" :=
  of_decide_eq_true (List.mem_filter.mp h).2

end Hosts

section Top

variable {newURL : UrlParser} {links : List LinkSlim}

def rank (p : String × ℕ) : ℕᵒᵈ := OrderDual.toDual p.2

def rankedHosts (newURL : UrlParser) (links : List LinkSlim) : List (String × ℕ) :=
  (Tally.tally (problemHosts newURL links)).mergeSort fun a b => b.2 ≤ a.2

theorem topProblemDonors_eq (newURL : UrlParser) (links : List LinkSlim) (scope : StatsScope) :
    (aggregate newURL links scope).topProblemDonors =
      ((rankedHosts newURL links).take TOP_PROBLEM_LIMIT).map fun p => ⟨p.1, p.2⟩ := by
  have hcount := problemDonorCount_foldl newURL links { totals := { total := links.length } }
  unfold aggregate rankedHosts Tally.tally
  dsimp only
  rw [hcount]

theorem sorts_rankedHosts (newURL : UrlParser) (links : List LinkSlim) :
    Sorts rank (Tally.tally (problemHosts newURL links)) (rankedHosts newURL links) :=
  Sorts.mergeSort _ fun _ _ => decide_eq_true_iff

structure TopList (newURL : UrlParser) (links : List LinkSlim) (top : List ProblemDonor) :
    Prop where
  counted : ∀ donor ∈ top, donor.donorHost ∈ problemHosts newURL links ∧ donor.donorHost ≠ "" ∧
    donor.problemCount = problemCount newURL links donor.donorHost
  distinct : (top.map ProblemDonor.donorHost).Nodup
  descending : top.Pairwise fun donor next => next.problemCount ≤ donor.problemCount
  length : top.length = min TOP_PROBLEM_LIMIT (problemHosts newURL links).dedup.length
  leftOut : ∀ host ∈ problemHosts newURL links, host ∉ top.map ProblemDonor.donorHost →
    ∀ donor ∈ top, problemCount newURL links host ≤ donor.problemCount

theorem mem_tally_problemHosts {p : String × ℕ} : p ∈ Tally.tally (problemHosts newURL links) ↔
    p.1 ∈ problemHosts newURL links ∧ p.2 = problemCount newURL links p.1 := by
  rw [Tally.mem_tally]
  refine and_congr_right fun hmem => ?_
  rw [count_problemHosts newURL links (ne_empty_of_mem_problemHosts hmem)]

theorem mem_rankedHosts {p : String × ℕ} : p ∈ rankedHosts newURL links ↔
    p.1 ∈ problemHosts newURL links ∧ p.2 = problemCount newURL links p.1 :=
  (sorts_rankedHosts newURL links).perm.mem_iff.trans mem_tally_problemHosts

theorem nodup_rankedHosts (newURL : UrlParser) (links : List LinkSlim) :
    ((rankedHosts newURL links).map Prod.fst).Nodup := by
  have hperm := ((sorts_rankedHosts newURL links).perm.map Prod.fst).nodup_iff
  rw [hperm, Tally.keys_tally]
  exact Tally.nodup_eraseDups _

theorem topList_take (newURL : UrlParser) (links : List LinkSlim) :
    TopList newURL links
      (((rankedHosts newURL links).take TOP_PROBLEM_LIMIT).map fun p => ⟨p.1, p.2⟩) := by
  have hsorts := sorts_rankedHosts newURL links
  have hhosts : (((rankedHosts newURL links).take TOP_PROBLEM_LIMIT).map fun p =>
      (⟨p.1, p.2⟩ : ProblemDonor)).map ProblemDonor.donorHost =
        ((rankedHosts newURL links).take TOP_PROBLEM_LIMIT).map Prod.fst := by
    rw [List.map_map]
    rfl
  refine ⟨?_, ?_, ?_, ?_, ?_⟩
  · intro donor hdonor
    obtain ⟨p, hp, rfl⟩ := List.mem_map.mp hdonor
    obtain ⟨hmem, hcount⟩ := mem_rankedHosts.mp (List.mem_of_mem_take hp)
    exact ⟨hmem, ne_empty_of_mem_problemHosts hmem, hcount⟩
  · rw [hhosts]
    exact ((List.take_sublist _ _).map Prod.fst).nodup (nodup_rankedHosts newURL links)
  · rw [List.pairwise_map]
    exact hsorts.sorted.sublist (List.take_sublist _ _)
  · rw [List.length_map, List.length_take, hsorts.perm.length_eq, Tally.length_tally]
  · intro host hmem hout donor hdonor
    obtain ⟨p, hp, rfl⟩ := List.mem_map.mp hdonor
    rw [hhosts] at hout
    have hhost : (host, problemCount newURL links host) ∈ rankedHosts newURL links :=
      mem_rankedHosts.mpr ⟨hmem, rfl⟩
    rw [← List.take_append_drop TOP_PROBLEM_LIMIT (rankedHosts newURL links), List.mem_append] at hhost
    have hdrop := hhost.resolve_left fun h => hout (List.mem_map.mpr ⟨_, h, rfl⟩)
    have hsorted := hsorts.sorted
    rw [← List.take_append_drop TOP_PROBLEM_LIMIT (rankedHosts newURL links),
      List.pairwise_append] at hsorted
    exact hsorted.2.2 p hp _ hdrop

/-- The list that `aggregate` returns is the true top list. -/
theorem topProblemDonors_topList (newURL : UrlParser) (links : List LinkSlim) (scope : StatsScope) :
    TopList newURL links (aggregate newURL links scope).topProblemDonors := by
  rw [topProblemDonors_eq]
  exact topList_take newURL links

end Top

end LinkBulker.StatsService
