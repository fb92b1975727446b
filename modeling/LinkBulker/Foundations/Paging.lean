import Mathlib.Data.List.Nodup
import Mathlib.Data.List.Perm.Basic
import Mathlib.Data.Nat.Basic
import Mathlib.Order.Lattice
import Mathlib.Order.Nat

/-! Offset pagination of a query whose `ORDER BY` may leave ties, where every page comes from a
query of its own. -/

universe u v

namespace Foundations

def page {α : Type u} (rows : List α) (skip take : ℕ) : List α := (rows.drop skip).take take

theorem filter_eq_take_countP {α : Type u} {P : α → Bool} {l : List α}
    (hP : l.Pairwise fun x y => P y → P x) : l.filter P = l.take (l.countP P) := by
  induction l with
  | nil => rfl
  | cons a l ih =>
    obtain ⟨ha, hl⟩ := List.pairwise_cons.mp hP
    cases h : P a with
    | true => simp [h, ih hl]
    | false =>
      have hnone : ∀ b ∈ l, ¬ P b := fun b hb hPb => by simpa [h] using ha b hb hPb
      simp only [List.countP_cons_of_neg (by simp [h] : ¬ P a), List.countP_eq_zero.mpr hnone,
        List.take_zero, List.filter_eq_nil_iff, List.mem_cons]
      rintro b (rfl | hb)
      · simp [h]
      · exact hnone b hb

theorem take_filter_isPrefix {α : Type u} (P : α → Bool) (l : List α) (n : ℕ) :
    (l.take n).filter P <+: (l.filter P).take n := by
  rw [List.prefix_take_iff]
  refine ⟨(List.take_prefix n l).filter P, ?_⟩
  exact (List.length_filter_le ..).trans (List.length_take_le ..)

theorem length_filter_key_ne {α : Type u} {κ : Type v} [DecidableEq κ] {key : α → κ} {l : List α}
    (hl : (l.map key).Nodup) {k : κ} (hk : ∃ r ∈ l, key r = k) :
    (l.filter fun r => key r ≠ k).length + 1 = l.length := by
  have hone : l.countP (fun r => decide (key r = k)) = 1 := by
    have hcount := List.count_eq_one_of_mem hl (List.mem_map.mpr hk)
    rwa [List.count, List.countP_map] at hcount
  have hsum := List.length_eq_countP_add_countP (fun r => decide (key r = k)) (l := l)
  rw [← List.countP_eq_length_filter]
  simpa [hone, Nat.add_comm] using hsum.symm

section Ties

variable {α : Type u} {κ : Type v} [LinearOrder κ] {key : α → κ} {rows a b : List α} {n : ℕ}

/-- An answer to the query for `rows` ordered by `key`: ties come in any order. -/
structure Sorts (key : α → κ) (rows answer : List α) : Prop where
  perm : answer.Perm rows
  sorted : answer.Pairwise fun r r' => key r ≤ key r'

def CutsTie (key : α → κ) (rows : List α) (n : ℕ) : Prop :=
  ∃ r ∈ rows, rows.countP (fun r' => key r' < key r) < n ∧
    n < rows.countP fun r' => key r' ≤ key r

instance CutsTie.decidable (key : α → κ) (rows : List α) (n : ℕ) :
    Decidable (CutsTie key rows n) :=
  inferInstanceAs (Decidable (∃ r ∈ rows, _))

theorem Sorts.mergeSort {le : α → α → Bool} (rows : List α) (hle : ∀ r r', le r r' ↔ key r ≤ key r') :
    Sorts key rows (rows.mergeSort le) := by
  refine ⟨List.mergeSort_perm .., ?_⟩
  have hsorted := @List.pairwise_mergeSort α le
    (fun x y z => by simpa [hle] using fun h h' => le_trans h h')
    (fun x y => by simpa [hle] using le_total ..) rows
  exact hsorted.imp fun h => (hle _ _).mp h

theorem Sorts.exists (key : α → κ) (rows : List α) : ∃ answer, Sorts key rows answer :=
  ⟨rows.mergeSort fun r r' => key r ≤ key r', Sorts.mergeSort rows fun _ _ => decide_eq_true_iff⟩

theorem Sorts.filter_le (h : Sorts key rows a) (t : κ) :
    a.filter (fun r => key r ≤ t) = a.take (rows.countP fun r => key r ≤ t) := by
  rw [← h.perm.countP_eq]
  exact filter_eq_take_countP (h.sorted.imp fun hxy hy => by simpa using hxy.trans (by simpa using hy))

theorem Sorts.filter_lt (h : Sorts key rows a) (t : κ) :
    a.filter (fun r => key r < t) = a.take (rows.countP fun r => key r < t) := by
  rw [← h.perm.countP_eq]
  exact filter_eq_take_countP
    (h.sorted.imp fun hxy hy => by simpa using hxy.trans_lt (by simpa using hy))

theorem Sorts.countP_le (h : Sorts key rows a) (hn : n < a.length) :
    rows.countP (fun r => key r < key a[n]) ≤ n ∧ n < rows.countP fun r => key r ≤ key a[n] := by
  constructor
  · by_contra! hlt
    have hmem : a[n] ∈ a.filter fun r => key r < key a[n] := by
      rw [h.filter_lt]
      exact List.mem_take_iff_getElem.mpr ⟨n, by omega, rfl⟩
    simp at hmem
  · have hall : ∀ r ∈ a.take (n + 1), key r ≤ key a[n] := by
      intro r hr
      obtain ⟨i, hi, rfl⟩ := List.mem_take_iff_getElem.mp hr
      obtain rfl | hlt : i = n ∨ i < n := by omega
      · exact le_rfl
      · exact List.pairwise_iff_getElem.mp h.sorted i n (by omega) hn hlt
    have hfull : (a.take (n + 1)).countP (fun r => key r ≤ key a[n]) = n + 1 := by
      rw [List.countP_eq_length.mpr fun r hr => by simpa using hall r hr, List.length_take]
      omega
    have hle := (List.take_sublist (n + 1) a).countP_le (p := fun r => decide (key r ≤ key a[n]))
    rw [h.perm.countP_eq] at hle
    omega

theorem le_of_countP {k k' : κ} (hbelow : rows.countP (fun r => key r < k) ≤ n)
    (habove : n < rows.countP fun r => key r ≤ k') : k ≤ k' := by
  by_contra! hlt
  have hle : rows.countP (fun r => decide (key r ≤ k')) ≤ rows.countP fun r => decide (key r < k) :=
    List.countP_mono_left fun r _ hr => by simpa using lt_of_le_of_lt (by simpa using hr) hlt
  omega

theorem Sorts.take_perm (ha : Sorts key rows a) (hb : Sorts key rows b)
    (hcut : ¬ CutsTie key rows n) : (a.take n).Perm (b.take n) := by
  have hlen : a.length = b.length := ha.perm.length_eq.trans hb.perm.length_eq.symm
  cases n with
  | zero => simp
  | succ n =>
    by_cases hn : n < a.length
    · obtain ⟨hlt, hle⟩ := ha.countP_le hn
      have hend : rows.countP (fun r => key r ≤ key a[n]) = n + 1 := by
        have : ¬ n + 1 < rows.countP fun r => key r ≤ key a[n] := fun h =>
          hcut ⟨a[n], ha.perm.mem_iff.mp (List.getElem_mem hn), by omega, h⟩
        omega
      rw [← hend, ← ha.filter_le, ← hb.filter_le]
      exact (ha.perm.trans hb.perm.symm).filter _
    · rw [List.take_of_length_le (by omega), List.take_of_length_le (by omega)]
      exact ha.perm.trans hb.perm.symm

theorem Sorts.swap {pre post : List α} {x y : α} (h : Sorts key rows (pre ++ x :: y :: post))
    (hxy : key x = key y) : Sorts key rows (pre ++ y :: x :: post) where
  perm := ((List.Perm.swap x y post).append_left pre).trans h.perm
  sorted := by
    have hkeys := List.pairwise_map.mpr h.sorted
    apply List.pairwise_map.mp
    simpa [hxy] using hkeys

theorem Sorts.exists_tie (h : Sorts key rows a) (hcut : CutsTie key rows n) :
    ∃ pre x y post, a = pre ++ x :: y :: post ∧ pre.length + 1 = n ∧ key x = key y := by
  obtain ⟨r, -, hlt, hle⟩ := hcut
  have hlen : n < a.length := by
    rw [h.perm.length_eq]
    exact lt_of_lt_of_le hle List.countP_le_length
  obtain ⟨n, rfl⟩ : ∃ m, n = m + 1 := ⟨n - 1, by omega⟩
  have hsplit : a = a.take n ++ a[n] :: a[n + 1] :: a.drop (n + 2) := by simp
  refine ⟨a.take n, a[n], a[n + 1], a.drop (n + 2), hsplit, by rw [List.length_take]; omega, ?_⟩
  have hmono : key a[n] ≤ key a[n + 1] :=
    List.pairwise_iff_getElem.mp h.sorted n (n + 1) (by omega) hlen (by omega)
  -- one key before the tie would leave too few rows below it, one key after it too many
  have hlow : key r ≤ key a[n] :=
    le_of_countP (Nat.lt_succ_iff.mp hlt) (h.countP_le (show n < a.length by omega)).2
  have hhigh : key a[n + 1] ≤ key r := le_of_countP (h.countP_le hlen).1 hle
  exact le_antisymm hmono (hhigh.trans hlow)

end Ties

section Pages

variable {α : Type u} {answer : ℕ → List α} {limit k : ℕ}

def pages (answer : ℕ → List α) (limit k : ℕ) : List α :=
  (List.range k).flatMap fun i => page (answer i) (i * limit) limit

theorem pages_succ : pages answer limit (k + 1) =
    pages answer limit k ++ page (answer k) (k * limit) limit := by
  simp [pages, List.range_succ]

theorem mem_page {l : List α} {skip take : ℕ} {r : α} :
    r ∈ page l skip take ↔ ∃ i, skip ≤ i ∧ i < skip + take ∧ l[i]? = some r := by
  simp only [page, List.mem_take_iff_getElem, List.getElem_drop]
  constructor
  · rintro ⟨i, hi, rfl⟩
    rw [List.length_drop] at hi
    exact ⟨skip + i, by omega, by omega, List.getElem?_eq_getElem (by omega)⟩
  · rintro ⟨i, hlow, hhigh, hr⟩
    obtain ⟨hi, rfl⟩ := List.getElem?_eq_some_iff.mp hr
    exact ⟨i - skip, by rw [List.length_drop]; omega, by congr 1; omega⟩

theorem mem_pages {r : α} : r ∈ pages answer limit k ↔
    ∃ i < k, r ∈ page (answer i) (i * limit) limit := by
  simp [pages]

theorem take_append_page (l : List α) (skip take : ℕ) :
    l.take skip ++ page l skip take = l.take (skip + take) := List.take_add.symm

theorem pages_isPrefix {m : ℕ} (h : k ≤ m) : pages answer limit k <+: pages answer limit m := by
  induction m, h using Nat.le_induction with
  | base => exact List.prefix_refl _
  | succ m _ ih => exact ih.trans (pages_succ ▸ List.prefix_append ..)

variable {κ : Type v} [LinearOrder κ] {key : α → κ} {rows a : List α}

theorem pages_perm (hans : ∀ i, Sorts key rows (answer i)) (ha : Sorts key rows a)
    (hcut : ∀ i, ¬ CutsTie key rows (i * limit)) :
    (pages answer limit k).Perm (a.take (k * limit)) := by
  induction k with
  | zero => simp [pages]
  | succ k ih =>
    have hfront := (hans k).take_perm ha (hcut k)
    have hpage : (page (answer k) (k * limit) limit).Perm (page a (k * limit) limit) := by
      have hboth := (hans k).take_perm ha (hcut (k + 1))
      rw [Nat.succ_mul, ← take_append_page, ← take_append_page] at hboth
      exact (List.perm_append_left_iff _).mp ((hfront.symm.append_right _).trans hboth)
    rw [pages_succ, Nat.succ_mul, ← take_append_page]
    exact ih.append hpage

/-- Where a boundary cuts a tie, the two queries beside it can give the last row before it and the
first row after it the same row. -/
theorem exists_pages_twice [DecidableEq α] {m : ℕ} (hcut : CutsTie key rows (k * limit))
    (hm : rows.length ≤ m * limit) :
    ∃ answer : ℕ → List α, (∀ i, Sorts key rows (answer i)) ∧
      ∃ r ∈ rows, 2 ≤ (pages answer limit m).count r := by
  obtain ⟨a, ha⟩ := Sorts.exists key rows
  obtain ⟨pre, x, y, post, rfl, hpre, hxy⟩ := ha.exists_tie hcut
  have hb := ha.swap hxy
  refine ⟨fun i => if i < k then pre ++ x :: y :: post else pre ++ y :: x :: post, fun i => ?_, x,
    ha.perm.mem_iff.mp (by simp), ?_⟩
  · dsimp only
    split
    · exact ha
    · exact hb
  · obtain ⟨j, rfl⟩ : ∃ j, k = j + 1 := ⟨k - 1, by cases k <;> omega⟩
    have hlt : j + 1 < m := by
      have hlen := ha.perm.length_eq
      simp only [List.length_append, List.length_cons] at hlen
      exact Nat.lt_of_mul_lt_mul_right (a := limit) (by omega)
    have hlimit : 0 < limit := by
      by_contra! h
      simp [Nat.le_zero.mp h] at hpre
    refine le_trans ?_ ((pages_isPrefix hlt).sublist.count_le x)
    rw [pages_succ, List.count_append]
    refine Nat.add_le_add (List.count_pos_iff.mpr ?_) (List.count_pos_iff.mpr ?_)
    · refine mem_pages.mpr ⟨j, by omega, mem_page.mpr ⟨pre.length, ?_, ?_, ?_⟩⟩
      · rw [Nat.succ_mul] at hpre
        omega
      · rw [Nat.succ_mul] at hpre
        omega
      · simp
    · exact mem_page.mpr ⟨pre.length + 1, by omega, by omega, by simp⟩

end Pages

end Foundations
