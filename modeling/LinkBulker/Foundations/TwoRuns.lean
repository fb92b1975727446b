import LinkBulker.Foundations.Run
import Mathlib.Data.List.Forall2

/-! Two runs side by side: what a relation between their states says of what an observer sees. -/

universe u v w x y

namespace Foundations

section Answers

variable {σ : Type u} {τ : Type v} {α : Type w} {ω : Type x} {γ : Type y}

def answers (serve : σ → α → σ × ω) : σ → List α → σ × List ω
  | s, [] => (s, [])
  | s, a :: as =>
    let r := serve s a
    let rest := answers serve r.1 as
    (rest.1, r.2 :: rest.2)

variable {serve : σ → α → σ × ω} {serve' : τ → α → τ × ω}

/-- Related states that answer alike and stay related answer every list of actions alike.  The
relation may speak of the actions still to come. -/
theorem answers_agree {R : List α → σ → τ → Prop}
    (hstep : ∀ a as s t, R (a :: as) s t →
      (serve s a).2 = (serve' t a).2 ∧ R as (serve s a).1 (serve' t a).1)
    {s : σ} {t : τ} {as : List α} (h : R as s t) :
    (answers serve s as).2 = (answers serve' t as).2 ∧
      R [] (answers serve s as).1 (answers serve' t as).1 := by
  induction as generalizing s t with
  | nil => exact ⟨rfl, h⟩
  | cons a as ih =>
    obtain ⟨hout, hnext⟩ := hstep a as s t h
    obtain ⟨hrest, hlast⟩ := ih hnext
    refine ⟨?_, hlast⟩
    simp only [answers, hout, hrest]

theorem answers_keep {I : List α → σ → Prop} {f : σ → γ}
    (hstep : ∀ a as s, I (a :: as) s → f (serve s a).1 = f s ∧ I as (serve s a).1)
    {s : σ} {as : List α} (h : I as s) : f (answers serve s as).1 = f s := by
  induction as generalizing s with
  | nil => rfl
  | cons a as ih =>
    obtain ⟨hf, hnext⟩ := hstep a as s h
    exact (ih hnext).trans hf

end Answers

section Product

variable {σ : Type u} {τ : Type v} {α : Type w} {β : Type x} {step : σ → α → Option σ}
  {step' : τ → β → Option τ}

def product (step : σ → α → Option σ) (step' : τ → β → Option τ) (s : σ × τ) (a : α × β) :
    Option (σ × τ) :=
  (step s.1 a.1).bind fun s₁ => (step' s.2 a.2).map fun t₁ => (s₁, t₁)

theorem product_eq_some {s s' : σ × τ} {a : α × β} :
    product step step' s a = some s' ↔ step s.1 a.1 = some s'.1 ∧ step' s.2 a.2 = some s'.2 := by
  obtain ⟨s₁, t₁⟩ := s'
  simp only [product, Option.bind_eq_some_iff, Option.map_eq_some_iff, Prod.mk.injEq]
  constructor
  · rintro ⟨_, hs, _, ht, rfl, rfl⟩
    exact ⟨hs, ht⟩
  · rintro ⟨hs, ht⟩
    exact ⟨s₁, hs, t₁, ht, rfl, rfl⟩

theorem exec_product {s s' : σ × τ} {as : List (α × β)} :
    exec (product step step') s as = some s' ↔
      exec step s.1 (as.map Prod.fst) = some s'.1 ∧ exec step' s.2 (as.map Prod.snd) = some s'.2 := by
  induction as generalizing s with
  | nil =>
    simp only [exec_nil, List.map_nil, Option.some_inj]
    exact Prod.ext_iff
  | cons a as ih =>
    simp only [exec_cons, List.map_cons, ih, product_eq_some]
    constructor
    · rintro ⟨u, ⟨hs, ht⟩, hrs, hrt⟩
      exact ⟨⟨u.1, hs, hrs⟩, u.2, ht, hrt⟩
    · rintro ⟨⟨u, hs, hrs⟩, v, ht, hrt⟩
      exact ⟨(u, v), ⟨hs, ht⟩, hrs, hrt⟩

end Product

end Foundations
