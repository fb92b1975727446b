import Mathlib
import LinkBulker.Foundations.Pool
import LinkBulker.Foundations.Run

/-! Runs that come to rest: a rank that no action raises and that a busy one lowers. -/

universe u v w

namespace Foundations

variable {σ : Type u} {α : Type v} {β : Type w} {step : σ → α → Option σ}

/-- The rank of a state, in which `allowed` actions may be taken as long as `I` holds. -/
structure Ranks [Preorder β] (step : σ → α → Option σ) (I : σ → Prop) (allowed busy : α → Prop)
    (rank : σ → β) : Prop where
  keeps : ∀ {s a s'}, I s → allowed a → step s a = some s' → I s'
  le : ∀ {s a s'}, I s → allowed a → step s a = some s' → rank s' ≤ rank s
  lt : ∀ {s a s'}, I s → allowed a → busy a → step s a = some s' → rank s' < rank s

section Laws

variable [Preorder β] {I : σ → Prop} {allowed busy : α → Prop} {rank : σ → β} {s s' : σ}

theorem Ranks.exec_le (h : Ranks step I allowed busy rank) {as : List α} (hs : I s)
    (ha : ∀ a ∈ as, allowed a) (hr : exec step s as = some s') : I s' ∧ rank s' ≤ rank s := by
  induction as generalizing s with
  | nil =>
    cases hr
    exact ⟨hs, le_rfl⟩
  | cons a as ih =>
    obtain ⟨t, ht, hr⟩ := exec_cons.mp hr
    have hallowed := ha a List.mem_cons_self
    obtain ⟨hs', hle⟩ :=
      ih (h.keeps hs hallowed ht) (fun b hb => ha b (List.mem_cons_of_mem a hb)) hr
    exact ⟨hs', hle.trans (h.le hs hallowed ht)⟩

/-- Of an infinite sequence of actions only finitely many are busy, as far as they can be taken. -/
theorem Ranks.eventually_idle [WellFoundedLT β] (h : Ranks step I allowed busy rank) (hs : I s)
    (labels : ℕ → α) (ha : ∀ n, allowed (labels n)) :
    ∃ N, ∀ n, N ≤ n → (exec step s ((List.range (n + 1)).map labels)).isSome →
      ¬ busy (labels n) := by
  induction hb : rank s using WellFoundedLT.induction generalizing s labels with
  | ind b ih =>
    subst hb
    by_cases hbusy : ∃ n, (exec step s ((List.range (n + 1)).map labels)).isSome ∧ busy (labels n)
    · obtain ⟨n, hsome, hbusy⟩ := hbusy
      obtain ⟨s', hr⟩ := Option.isSome_iff_exists.mp hsome
      have hsplit := hr
      rw [List.range_succ, List.map_append, List.map_singleton, exec_concat] at hsplit
      obtain ⟨t, ht, hlast⟩ := hsplit
      obtain ⟨hI, hle⟩ := h.exec_le hs (by simp [ha]) ht
      have hlt := (h.lt hI (ha n) hbusy hlast).trans_le hle
      -- from here on with the rest of the actions
      obtain ⟨N, hN⟩ := ih _ hlt (h.keeps hI (ha n) hlast) (fun k => labels (n + 1 + k))
        (fun k => ha _) rfl
      refine ⟨n + 1 + N, fun m hm hsome => ?_⟩
      obtain ⟨k, rfl⟩ := Nat.exists_eq_add_of_le (Nat.le_of_add_right_le hm)
      rw [Nat.add_assoc, List.range_add, List.map_append] at hsome
      obtain ⟨s'', hr''⟩ := Option.isSome_iff_exists.mp hsome
      obtain ⟨t', ht', hrest⟩ := exec_append.mp hr''
      obtain rfl := Option.some.inj (hr.symm.trans ht')
      rw [List.map_map] at hrest
      exact hN k (by omega) (Option.isSome_iff_exists.mpr ⟨s'', hrest⟩)
    · exact ⟨0, fun n _ hsome hn => hbusy ⟨n, hsome, hn⟩⟩

end Laws

theorem Pool.sum_map_set {γ : Type v} (f : γ → ℕ) {cs : List γ} {i : ℕ} {c : γ}
    (h : cs[i]? = some c) (c' : γ) :
    ((cs.set i c').map f).sum + f c = (cs.map f).sum + f c' := by
  obtain ⟨rest, hcs, hset⟩ := exists_rest h
  have hbefore := (hcs.map f).sum_nat
  have hafter := ((hset c').map f).sum_nat
  simp only [List.map_cons, List.sum_cons] at hbefore hafter
  omega

end Foundations
