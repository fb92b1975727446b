import LinkBulker.Api.StatsService
import LinkBulker.Web.Status
import LinkBulker.Worker.SheetsRows

/-! One status rule and one follow rule, as the web client, the statistics and the spreadsheet
write them. -/

namespace LinkBulker.Web

open Db Shared StatsService

variable {newURL : UrlParser} {scope : StatsScope} {l : Link} {links : List Link}

section Folds

theorem foldl_add (slims : List LinkSlim) (c : Counted) :
    slims.foldl (Counted.add newURL) c =
      { totals := slims.foldl Totals.add c.totals
        found := slims.foldl FoundCounts.add c.found
        http := slims.foldl HttpCounts.add c.http
        indexable := slims.foldl IndexableCounts.add c.indexable
        canonical := slims.foldl CanonicalCounts.add c.canonical
        durations := slims.foldl addDuration c.durations
        problemDonorCount := slims.foldl (addProblemDonor newURL) c.problemDonorCount } := by
  induction slims generalizing c with
  | nil => rfl
  | cons l slims ih => exact ih _

theorem aggregate_totals (slims : List LinkSlim) :
    (aggregate newURL slims scope).totals =
      slims.foldl Totals.add { total := slims.length } := by
  rw [aggregate, foldl_add]

theorem aggregate_found (slims : List LinkSlim) :
    (aggregate newURL slims scope).found = slims.foldl FoundCounts.add {} := by
  rw [aggregate, foldl_add]

end Folds

theorem isOk_linkSlim (l : Link) : StatsService.isOk (linkSlim l) = isOk l.donorStatusCode := by
  change l.donorStatusCode.any _ = _
  cases l.donorStatusCode <;> rfl

def passes (l : Link) : Bool :=
  isOk l.donorStatusCode && l.linkFound == some true && l.donorIndexable == some true

theorem not_passes (l : Link) : (!isOk l.donorStatusCode || l.linkFound != some true ||
    l.donorIndexable != some true) = !passes l := by
  simp only [passes, Bool.not_and, bne]

theorem computeRowStatus_done (h : l.status = .DONE) :
    computeRowStatus (linkRow l) =
      if passes l then if l.canonicalMatches = some true then .GREEN else .YELLOW
      else .PROBLEM := by
  simp only [computeRowStatus, linkRow, h, not_passes]
  cases passes l <;> rfl

theorem deriveLabel_done (h : l.status = .DONE) :
    Sheets.deriveLabel l =
      if passes l then if l.canonicalMatches = some true then "Done" else "Done (canonical mismatch)"
      else "Problem" := by
  have hok : (l.donorStatusCode.any fun code => 200 ≤ code && code < 300) =
      isOk l.donorStatusCode := isOk_linkSlim l
  simp only [Sheets.deriveLabel, h, hok, not_passes]
  cases passes l <;> rfl

def statusLabel : RowStatus → String
  | .PENDING => "Pending"
  | .CHECKING => "Checking"
  | .ERROR => "Error"
  | .PROBLEM => "Problem"
  | .GREEN => "Done"
  | .YELLOW => "Done (canonical mismatch)"

theorem statusLabel_injective : Function.Injective statusLabel := by
  intro s s' h
  revert h
  cases s <;> cases s' <;> decide

theorem deriveLabel_eq (l : Link) :
    Sheets.deriveLabel l = statusLabel (computeRowStatus (linkRow l)) := by
  cases h : l.status with
  | DONE =>
    rw [deriveLabel_done h, computeRowStatus_done h]
    split
    · split <;> rfl
    · rfl
  | _ => simp only [Sheets.deriveLabel, computeRowStatus, linkRow, h, statusLabel]

def countStatus (totals : Totals) : RowStatus → Totals
  | .PENDING | .CHECKING => { totals with pending := totals.pending + 1 }
  | .ERROR => { totals with error := totals.error + 1 }
  | .PROBLEM => { totals with problem := totals.problem + 1 }
  | .GREEN | .YELLOW => { totals with done := totals.done + 1 }

theorem add_done {totals : Totals} (h : l.status = .DONE) :
    totals.add (linkSlim l) =
      if passes l then { totals with done := totals.done + 1 }
      else { totals with problem := totals.problem + 1 } := by
  have hstatus : (linkSlim l).status = .DONE := h
  have hnot : (!StatsService.isOk (linkSlim l) || !((linkSlim l).linkFound == some true) ||
      !((linkSlim l).donorIndexable == some true)) = !passes l := by
    rw [isOk_linkSlim]
    exact not_passes l
  simp only [Totals.add, hstatus, hnot]
  cases passes l <;> rfl

theorem totals_add (totals : Totals) (l : Link) :
    totals.add (linkSlim l) = countStatus totals (computeRowStatus (linkRow l)) := by
  cases h : l.status with
  | DONE =>
    rw [add_done h, computeRowStatus_done h]
    split
    · split <;> rfl
    · rfl
  | _ => simp only [Totals.add, computeRowStatus, linkRow, linkSlim, h, countStatus]

theorem isProblem_linkSlim (l : Link) :
    isProblem (linkSlim l) ↔
      computeRowStatus (linkRow l) = .PROBLEM ∨ computeRowStatus (linkRow l) = .ERROR := by
  cases h : l.status with
  | DONE =>
    have hproblem : isProblem (linkSlim l) = !passes l := by
      rw [← not_passes, isProblem, isOk_linkSlim]
      simp only [linkSlim, h]
    rw [hproblem, computeRowStatus_done h]
    cases passes l with
    | false => simp
    | true => by_cases hc : l.canonicalMatches = some true <;> simp [hc]
  | _ => simp [isProblem, computeRowStatus, linkRow, linkSlim, h]

theorem foldl_totals (links : List Link) (totals : Totals) :
    (links.map linkSlim).foldl Totals.add totals =
      { total := totals.total
        done := totals.done + links.countP fun l =>
          computeRowStatus (linkRow l) = .GREEN ∨ computeRowStatus (linkRow l) = .YELLOW
        problem := totals.problem + links.countP fun l => computeRowStatus (linkRow l) = .PROBLEM
        error := totals.error + links.countP fun l => computeRowStatus (linkRow l) = .ERROR
        pending := totals.pending + links.countP fun l =>
          computeRowStatus (linkRow l) = .PENDING ∨ computeRowStatus (linkRow l) = .CHECKING } := by
  induction links generalizing totals with
  | nil => simp
  | cons l links ih =>
    simp only [List.map_cons, List.foldl_cons, totals_add, ih, List.countP_cons]
    cases computeRowStatus (linkRow l) <;> simp [countStatus] <;> omega

theorem length_eq_countP (links : List Link) :
    (links.countP fun l =>
        computeRowStatus (linkRow l) = .PENDING ∨ computeRowStatus (linkRow l) = .CHECKING) +
      (links.countP fun l => computeRowStatus (linkRow l) = .ERROR) +
      (links.countP fun l => computeRowStatus (linkRow l) = .PROBLEM) +
      (links.countP fun l =>
        computeRowStatus (linkRow l) = .GREEN ∨ computeRowStatus (linkRow l) = .YELLOW) =
      links.length := by
  induction links with
  | nil => rfl
  | cons l links ih =>
    simp only [List.countP_cons, List.length_cons, ← ih]
    cases computeRowStatus (linkRow l) <;> simp <;> omega

/-- The three status classifiers. -/
theorem status_classifiers_agree (newURL : UrlParser) (scope : StatsScope) (links : List Link) :
    let stats := aggregate newURL (links.map linkSlim) scope
    (stats.totals.pending = links.countP fun l =>
      computeRowStatus (linkRow l) = .PENDING ∨ computeRowStatus (linkRow l) = .CHECKING) ∧
    (stats.totals.error = links.countP fun l => computeRowStatus (linkRow l) = .ERROR) ∧
    (stats.totals.problem = links.countP fun l => computeRowStatus (linkRow l) = .PROBLEM) ∧
    (stats.totals.done = links.countP fun l =>
      computeRowStatus (linkRow l) = .GREEN ∨ computeRowStatus (linkRow l) = .YELLOW) ∧
    stats.totals.pending + stats.totals.error + stats.totals.problem + stats.totals.done =
      stats.totals.total ∧
    (∀ l s, Sheets.deriveLabel l = statusLabel s ↔ computeRowStatus (linkRow l) = s) ∧
    ∀ l, isProblem (linkSlim l) ↔
      (aggregate newURL ((links ++ [l]).map linkSlim) scope).totals.problem +
          (aggregate newURL ((links ++ [l]).map linkSlim) scope).totals.error =
        stats.totals.problem + stats.totals.error + 1 := by
  simp only [aggregate_totals, foldl_totals, List.length_map, Nat.zero_add, true_and]
  refine ⟨length_eq_countP links, fun l s => ?_, fun l => ?_⟩
  · rw [deriveLabel_eq]
    exact statusLabel_injective.eq_iff
  · rw [isProblem_linkSlim]
    simp only [List.countP_append, List.countP_singleton]
    cases computeRowStatus (linkRow l) <;> simp <;> omega

end LinkBulker.Web
