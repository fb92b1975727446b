import Mathlib.Algebra.Order.BigOperators.Group.List
import Mathlib.Data.List.GetD
import Mathlib.Data.List.MinMax
import Mathlib.Tactic.NormNum
import Mathlib.Tactic.Ring
import LinkBulker.Api.StatsService
import LinkBulker.Foundations.Ranking

/-! The timing figures of a project as order statistics of the durations of its checks. -/

namespace LinkBulker.StatsService

open Foundations Shared

def positiveDurations (links : List LinkSlim) : List ℤ :=
  (links.filterMap fun l => l.checkDurationMs).filter fun ms => 0 < ms

theorem addDuration_eq (durations : List ℤ) (l : LinkSlim) :
    addDuration durations l = durations ++ positiveDurations [l] := by
  unfold addDuration positiveDurations
  cases hms : l.checkDurationMs with
  | none => simp [hms]
  | some ms => by_cases hpos : 0 < ms <;> simp [hms, hpos]

theorem positiveDurations_cons (l : LinkSlim) (links : List LinkSlim) :
    positiveDurations (l :: links) = positiveDurations [l] ++ positiveDurations links := by
  unfold positiveDurations
  rw [← List.filter_append, ← List.filterMap_append, List.singleton_append]

theorem durations_foldl (newURL : UrlParser) (links : List LinkSlim) (c : Counted) :
    (links.foldl (Counted.add newURL) c).durations = c.durations ++ positiveDurations links := by
  induction links generalizing c with
  | nil => exact (List.append_nil _).symm
  | cons l links ih =>
    rw [List.foldl_cons, ih, positiveDurations_cons, ← List.append_assoc, ← addDuration_eq]
    rfl

theorem aggregate_timing_eq (newURL : UrlParser) (links : List LinkSlim) (scope : StatsScope) :
    (aggregate newURL links scope).timing = computeTiming (positiveDurations links) := by
  show computeTiming (links.foldl (Counted.add newURL) _).durations = _
  rw [durations_foldl]
  rfl

section Timing

variable {D sorted : List ℤ}

theorem sorts_durations (D : List ℤ) : Sorts id D (D.mergeSort fun a b => a ≤ b) :=
  Sorts.mergeSort D fun _ _ => decide_eq_true_iff

theorem ceil_le_iff {num den n c : ℕ} (hden : 0 < den) :
    (num * n + den - 1) / den ≤ c ↔ (num / den : ℚ) * n ≤ c := by
  have hden' : (0 : ℚ) < den := Nat.cast_pos.mpr hden
  have hcast : (num / den : ℚ) * n ≤ c ↔ num * n ≤ c * den := by
    rw [div_mul_eq_mul_div, div_le_iff₀ hden']
    exact_mod_cast Iff.rfl
  rw [hcast, ← Nat.lt_succ_iff, Nat.div_lt_iff_lt_mul hden, Nat.succ_mul]
  omega

theorem percentile_nearestRank (num den : ℕ) (hnum : 0 < num) (hle : num ≤ den)
    (h : Sorts id D sorted) (hne : D ≠ []) :
    NearestRank D (num / den) (percentile sorted num den) := by
  have hden : 0 < den := hnum.trans_le hle
  have hlen : sorted.length = D.length := h.perm.length_eq
  have hpos : 0 < D.length := List.length_pos_of_ne_nil hne
  unfold percentile
  rw [hlen]
  generalize hrank : (num * D.length + den - 1) / den = rank
  have hone : 1 ≤ rank := by
    rw [← hrank, Nat.le_div_iff_mul_le hden]
    have : 0 < num * D.length := Nat.mul_pos hnum hpos
    omega
  have hupper : rank ≤ D.length := by
    rw [← hrank, ← Nat.lt_succ_iff, Nat.div_lt_iff_lt_mul hden, Nat.succ_mul]
    have : num * D.length ≤ D.length * den := Nat.mul_comm num _ ▸ Nat.mul_le_mul_left _ hle
    omega
  -- Neither clamp cuts anything off.
  have hidx : min (D.length - 1) (rank - 1) = rank - 1 := by omega
  have hk : rank - 1 < sorted.length := by omega
  dsimp only
  rw [hidx, List.getD_eq_getElem _ _ hk]
  refine h.nearestRank hk fun c => ?_
  rw [← ceil_le_iff hden, hrank]
  omega

theorem roundDiv_bounds {a lo hi : ℤ} {b : ℕ} (hb : 0 < b) (hlo : b * lo ≤ a) (hhi : a ≤ b * hi) :
    lo ≤ roundDiv a b ∧ roundDiv a b ≤ hi := by
  have hb : (0 : ℤ) < 2 * b := by omega
  unfold roundDiv
  constructor
  · have hprod : lo * (2 * b) = 2 * (b * lo) := by ring
    rw [Int.le_ediv_iff_mul_le hb, hprod]
    omega
  · have hprod : (hi + 1) * (2 * b) = 2 * (b * hi) + 2 * b := by ring
    rw [← Int.lt_add_one_iff, Int.ediv_lt_iff_lt_mul hb, hprod]
    omega

end Timing

/-- Without a duration there are no figures. Otherwise the percentiles are the durations of nearest
rank, and all three figures lie between the shortest and the longest. -/
theorem aggregate_timing (newURL : UrlParser) (links : List LinkSlim) (scope : StatsScope) :
    (positiveDurations links = [] ∧ (aggregate newURL links scope).timing = ⟨none, none, none⟩) ∨
    ∃ avg p50 p95 shortest longest : ℤ,
      (aggregate newURL links scope).timing = ⟨some avg, some p50, some p95⟩ ∧
      NearestRank (positiveDurations links) (1 / 2) p50 ∧
      NearestRank (positiveDurations links) (19 / 20) p95 ∧
      (positiveDurations links).min? = some shortest ∧
      (positiveDurations links).max? = some longest ∧
      shortest ≤ p50 ∧ p50 ≤ p95 ∧ p95 ≤ longest ∧ shortest ≤ avg ∧ avg ≤ longest := by
  rw [aggregate_timing_eq]
  generalize positiveDurations links = D
  unfold computeTiming
  by_cases hne : D = []
  · exact .inl ⟨hne, if_pos (congrArg List.length hne)⟩
  have hsorts := sorts_durations D
  generalize (D.mergeSort fun a b => a ≤ b) = sorted at hsorts ⊢
  obtain ⟨shortest, hmin⟩ := Option.ne_none_iff_exists'.mp (mt List.min?_eq_none_iff.mp hne)
  obtain ⟨longest, hmax⟩ := Option.ne_none_iff_exists'.mp (mt List.max?_eq_none_iff.mp hne)
  have hlo := (List.min?_eq_some_iff.mp hmin).2
  have hhi := (List.max?_eq_some_iff.mp hmax).2
  have h50 : NearestRank D (1 / 2) (percentile sorted 1 2) := by
    exact_mod_cast percentile_nearestRank 1 2 (by decide) (by decide) hsorts hne
  have h95 : NearestRank D (19 / 20) (percentile sorted 19 20) := by
    exact_mod_cast percentile_nearestRank 19 20 (by decide) (by decide) hsorts hne
  have havg : shortest ≤ roundDiv sorted.sum sorted.length ∧
      roundDiv sorted.sum sorted.length ≤ longest := by
    rw [hsorts.perm.sum_eq, hsorts.perm.length_eq]
    refine roundDiv_bounds (List.length_pos_of_ne_nil hne) ?_ ?_
    · simpa using D.card_nsmul_le_sum shortest fun x hx => hlo x hx
    · simpa using D.sum_le_card_nsmul longest fun x hx => hhi x hx
  refine .inr ⟨_, _, _, shortest, longest, if_neg (mt List.length_eq_zero_iff.mp hne), h50, h95,
    hmin, hmax, hlo _ h50.1.1, h50.le h95 (by norm_num), hhi _ h95.1.1, havg⟩

end LinkBulker.StatsService
