import Mathlib.Data.List.Basic

/-! A list with some of its dispensable elements left out, and what a fold that looks past those makes
of it. -/

universe u v w

namespace Foundations

variable {α : Type u} {Q : α → Prop} {xs ys xs' ys' : List α}

inductive Thinned (Q : α → Prop) : List α → List α → Prop
  | nil : Thinned Q [] []
  | keep {xs ys : List α} (a : α) (h : Thinned Q xs ys) : Thinned Q (a :: xs) (a :: ys)
  | drop {xs ys : List α} {a : α} (ha : Q a) (h : Thinned Q xs ys) : Thinned Q xs (a :: ys)

namespace Thinned

theorem refl (xs : List α) : Thinned Q xs xs := by
  induction xs with
  | nil => exact .nil
  | cons a xs ih => exact .keep a ih

theorem append (h : Thinned Q xs ys) (h' : Thinned Q xs' ys') :
    Thinned Q (xs ++ xs') (ys ++ ys') := by
  induction h with
  | nil => exact h'
  | keep a h ih => exact .keep a ih
  | drop ha h ih => exact .drop ha ih

theorem sublist (h : Thinned Q xs ys) : xs.Sublist ys := by
  induction h with
  | nil => exact .slnil
  | keep a h ih => exact ih.cons_cons a
  | drop ha h ih => exact ih.cons _

theorem filter (h : Thinned Q xs ys) (p : α → Bool) : Thinned Q (xs.filter p) (ys.filter p) := by
  induction h with
  | nil => exact .nil
  | keep a h ih =>
    rw [List.filter_cons, List.filter_cons]
    split
    · exact .keep a ih
    · exact ih
  | drop ha h ih =>
    rw [List.filter_cons]
    split
    · exact .drop ha ih
    · exact ih

theorem eq_of_forall (h : Thinned Q xs ys) (hkept : ∀ a ∈ ys, ¬ Q a) : xs = ys := by
  induction h with
  | nil => rfl
  | keep a h ih => rw [ih fun b hb => hkept b (List.mem_cons_of_mem a hb)]
  | @drop xs ys a ha h ih => exact absurd ha (hkept a List.mem_cons_self)

theorem split {a : α} (ha : ¬ Q a) (h : Thinned Q xs (ys ++ a :: ys')) :
    ∃ before after, xs = before ++ a :: after ∧ Thinned Q before ys ∧ Thinned Q after ys' := by
  induction ys generalizing xs with
  | nil =>
    cases h with
    | keep a h => exact ⟨[], _, rfl, .nil, h⟩
    | drop hQ h => exact absurd hQ ha
  | cons b ys ih =>
    cases h with
    | keep b h =>
      obtain ⟨before, after, rfl, hbefore, hafter⟩ := ih h
      exact ⟨b :: before, after, rfl, .keep b hbefore, hafter⟩
    | drop hQ h =>
      obtain ⟨before, after, rfl, hbefore, hafter⟩ := ih h
      exact ⟨before, after, rfl, .drop hQ hbefore, hafter⟩

theorem foldl_eq {σ : Type v} {ω : Type w} {f : σ → α → σ} {view : σ → ω} (h : Thinned Q xs ys)
    (hdrop : ∀ s a, Q a → view (f s a) = view s)
    (hview : ∀ s s' a, view s = view s' → view (f s a) = view (f s' a)) {s s' : σ}
    (hs : view s = view s') : view (xs.foldl f s) = view (ys.foldl f s') := by
  induction h generalizing s s' with
  | nil => exact hs
  | keep a h ih => exact ih (hview s s' a hs)
  | @drop xs ys a ha h ih => exact ih (hs.trans (hdrop s' a ha).symm)

end Thinned

end Foundations
