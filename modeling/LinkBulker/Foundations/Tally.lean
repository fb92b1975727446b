import Mathlib.Data.List.Dedup
import Mathlib.Data.List.Induction
import Mathlib.Data.List.Perm.Basic

/-! Keys counted in a map that keeps them in the order in which they first came. -/

universe u

namespace Foundations.Tally

variable {κ : Type u} [DecidableEq κ] {k : κ} {keys ks ks' : List κ}

def bump (k : κ) : List (κ × ℕ) → List (κ × ℕ)
  | [] => [(k, 1)]
  | (h, n) :: counts => if h = k then (h, n + 1) :: counts else (h, n) :: bump k counts

def tally (ks : List κ) : List (κ × ℕ) := ks.foldl (fun counts k => bump k counts) []

theorem bump_of_not_mem (f : κ → ℕ) (hk : k ∉ keys) :
    bump k (keys.map fun x => (x, f x)) = (keys.map fun x => (x, f x)) ++ [(k, 1)] := by
  induction keys with
  | nil => rfl
  | cons h keys ih =>
    rw [List.mem_cons, not_or] at hk
    rw [List.map_cons, bump, if_neg (Ne.symm hk.1), ih hk.2, List.cons_append]

theorem bump_of_mem (f : κ → ℕ) (hkeys : keys.Nodup) (hk : k ∈ keys) :
    bump k (keys.map fun x => (x, f x)) = keys.map fun x => (x, if x = k then f x + 1 else f x) := by
  induction keys with
  | nil => exact absurd hk List.not_mem_nil
  | cons h keys ih =>
    obtain ⟨hnot, hkeys⟩ := List.nodup_cons.mp hkeys
    rw [List.map_cons, List.map_cons, bump]
    by_cases heq : h = k
    · subst heq
      rw [if_pos rfl, if_pos rfl]
      congr 1
      refine List.map_congr_left fun x hx => ?_
      rw [if_neg (ne_of_mem_of_not_mem hx hnot)]
    · rw [if_neg heq, if_neg heq, ih hkeys ((List.mem_cons.mp hk).resolve_left (Ne.symm heq))]

theorem eraseDups_concat (ks : List κ) (k : κ) :
    (ks ++ [k]).eraseDups = if k ∈ ks then ks.eraseDups else ks.eraseDups ++ [k] := by
  rw [List.eraseDups_append]
  by_cases hk : k ∈ ks <;> simp [List.removeAll, hk, List.eraseDups_cons]

theorem nodup_eraseDups (ks : List κ) : ks.eraseDups.Nodup := by
  induction ks using List.reverseRecOn with
  | nil => exact List.nodup_nil
  | append_singleton ks k ih =>
    rw [eraseDups_concat]
    split
    · exact ih
    · rename_i hk
      rw [← List.concat_eq_append]
      exact ih.concat fun h => hk (List.mem_eraseDups.mp h)

theorem tally_eq (ks : List κ) : tally ks = ks.eraseDups.map fun k => (k, ks.count k) := by
  induction ks using List.reverseRecOn with
  | nil => rfl
  | append_singleton ks k ih =>
    have hfold : tally (ks ++ [k]) = bump k (tally ks) := by
      rw [tally, List.foldl_append]
      rfl
    rw [hfold, ih, eraseDups_concat]
    split
    · rename_i hk
      rw [bump_of_mem _ (nodup_eraseDups ks) (List.mem_eraseDups.mpr hk)]
      refine List.map_congr_left fun x _ => ?_
      rw [List.count_append]
      by_cases hx : x = k
      · simp [hx]
      · simp [hx, Ne.symm hx]
    · rename_i hk
      rw [bump_of_not_mem _ fun h => hk (List.mem_eraseDups.mp h), List.map_append]
      congr 1
      · refine List.map_congr_left fun x hx => ?_
        have hne : k ≠ x := fun h => hk (h ▸ List.mem_eraseDups.mp hx)
        simp [List.count_append, hne]
      · simp [List.count_append, List.count_eq_zero.mpr hk]

theorem mem_tally {p : κ × ℕ} : p ∈ tally ks ↔ p.1 ∈ ks ∧ p.2 = ks.count p.1 := by
  rw [tally_eq, List.mem_map]
  constructor
  · rintro ⟨x, hx, rfl⟩
    exact ⟨List.mem_eraseDups.mp hx, rfl⟩
  · rintro ⟨hmem, hcount⟩
    exact ⟨p.1, List.mem_eraseDups.mpr hmem, by rw [← hcount]⟩

theorem keys_tally (ks : List κ) : (tally ks).map Prod.fst = ks.eraseDups := by
  rw [tally_eq, List.map_map]
  exact List.map_id _

theorem eraseDups_perm (ks : List κ) : ks.eraseDups.Perm ks.dedup := by
  rw [List.perm_ext_iff_of_nodup (nodup_eraseDups ks) ks.nodup_dedup]
  exact fun k => List.mem_eraseDups.trans List.mem_dedup.symm

theorem length_tally (ks : List κ) : (tally ks).length = ks.dedup.length := by
  rw [tally_eq, List.length_map, (eraseDups_perm ks).length_eq]

theorem nodup_tally (ks : List κ) : (tally ks).Nodup := by
  apply List.Nodup.of_map Prod.fst
  rw [keys_tally]
  exact nodup_eraseDups ks

theorem tally_perm (h : ks.Perm ks') : (tally ks).Perm (tally ks') := by
  rw [List.perm_ext_iff_of_nodup (nodup_tally ks) (nodup_tally ks')]
  intro p
  rw [mem_tally, mem_tally, h.mem_iff, h.count_eq]

theorem tally_cons (k : κ) (ks : List κ) :
    ∃ counts, tally (k :: ks) = (k, (k :: ks).count k) :: counts := by
  rw [tally_eq, List.eraseDups_cons, List.map_cons]
  exact ⟨_, rfl⟩

end Foundations.Tally
