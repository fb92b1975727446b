import Mathlib.Algebra.Order.Field.Rat
import Mathlib.Data.List.Sort
import Mathlib.Order.Bounds.Basic
import LinkBulker.Foundations.Paging

/-! Order statistics of a list by nearest rank. -/

universe u v

namespace Foundations

variable {α : Type u} [LinearOrder α] {l sorted : List α} {p q : ℚ} {x y : α}

/-- The least element that at least the fraction `p` of the list does not exceed. -/
def NearestRank (l : List α) (p : ℚ) (x : α) : Prop :=
  IsLeast {x | x ∈ l ∧ p * l.length ≤ (l.countP fun y => y ≤ x : ℕ)} x

theorem NearestRank.le (hx : NearestRank l p x) (hy : NearestRank l q y) (h : p ≤ q) : x ≤ y := by
  refine hx.2 ⟨hy.1.1, le_trans ?_ hy.1.2⟩
  exact mul_le_mul_of_nonneg_right h (Nat.cast_nonneg _)

theorem Sorts.nearestRank (h : Sorts id l sorted) {k : ℕ} (hk : k < sorted.length)
    (hrank : ∀ c : ℕ, p * l.length ≤ c ↔ k < c) : NearestRank l p sorted[k] := by
  obtain ⟨hbelow, habove⟩ := h.countP_le hk
  refine ⟨⟨h.perm.mem_iff.mp (List.getElem_mem hk), (hrank _).mpr habove⟩, ?_⟩
  rintro x ⟨-, hx⟩
  exact le_of_countP hbelow ((hrank _).mp hx)

section Top

variable {κ : Type v} [LinearOrder κ] {β : Type u} {key : β → κ} {rows a b answer : List β} {n : ℕ}

theorem Sorts.map_key_eq (ha : Sorts key rows a) (hb : Sorts key rows b) :
    a.map key = b.map key :=
  List.Perm.eq_of_pairwise' (List.pairwise_map.mpr ha.sorted) (List.pairwise_map.mpr hb.sorted)
    ((ha.perm.trans hb.perm.symm).map key)

theorem Sorts.take_eq (ha : Sorts key rows a) (hb : Sorts key rows b)
    (hties : ∀ r ∈ rows, ∀ r' ∈ rows, key r = key r' →
      rows.countP (fun r' => key r' < key r) < n → r = r') : a.take n = b.take n := by
  have hlen : a.length = b.length := ha.perm.length_eq.trans hb.perm.length_eq.symm
  refine List.ext_getElem (by rw [List.length_take, List.length_take, hlen]) fun i hi hi' => ?_
  rw [List.length_take, Nat.lt_min] at hi hi'
  rw [List.getElem_take, List.getElem_take]
  obtain ⟨hbelow, habove⟩ := ha.countP_le hi.2
  obtain ⟨hbelow', habove'⟩ := hb.countP_le hi'.2
  exact hties _ (ha.perm.mem_iff.mp (List.getElem_mem hi.2)) _
    (hb.perm.mem_iff.mp (List.getElem_mem hi'.2))
    (le_antisymm (le_of_countP hbelow habove') (le_of_countP hbelow' habove)) (hbelow.trans_lt hi.1)

theorem Sorts.getElem?_of_first {r : β} (h : Sorts key rows answer) (hnodup : answer.Nodup)
    (hr : r ∈ rows)
    (hfirst : ∀ r' ∈ rows, r' ≠ r → key r' = key r → [r, r'].Sublist answer) :
    answer[rows.countP fun r' => key r' < key r]? = some r := by
  obtain ⟨pre, post, rfl⟩ := List.append_of_mem (h.perm.mem_iff.mpr hr)
  obtain ⟨-, hpost, hsorted⟩ := List.pairwise_append.mp h.sorted
  have hdisjoint := List.disjoint_of_nodup_append hnodup
  have hbefore : ∀ r' ∈ pre, key r' < key r := by
    intro r' hr'
    refine lt_of_le_of_ne (hsorted r' hr' r List.mem_cons_self) fun hkey => ?_
    have hne : r' ≠ r := fun heq => hdisjoint hr' (heq ▸ List.mem_cons_self)
    have hmem : r' ∈ rows := h.perm.mem_iff.mp (List.mem_append_left _ hr')
    obtain ⟨front, back, heq, hfront, hback⟩ :=
      List.sublist_append_iff.mp (hfirst r' hmem hne hkey)
    cases front with
    | nil =>
      obtain rfl : [r, r'] = back := heq
      exact hdisjoint hr' (hback.subset (by simp))
    | cons x front =>
      obtain rfl : r = x := (List.cons.inj heq).1
      exact hdisjoint (hfront.subset List.mem_cons_self) List.mem_cons_self
  have hafter : ∀ r' ∈ r :: post, ¬ key r' < key r := by
    intro r' hr'
    rcases List.mem_cons.mp hr' with rfl | hr'
    · exact lt_irrefl _
    · exact not_lt.mpr (List.rel_of_pairwise_cons hpost hr')
  have hcount : rows.countP (fun r' => key r' < key r) = pre.length := by
    rw [← h.perm.countP_eq, List.countP_append,
      List.countP_eq_length.mpr fun r' hr' => decide_eq_true (hbefore r' hr'),
      List.countP_eq_zero.mpr fun r' hr' => by simpa using hafter r' hr', Nat.add_zero]
  rw [hcount, List.getElem?_append_right le_rfl, Nat.sub_self, List.getElem?_cons_zero]

end Top

end Foundations
