import Mathlib.Data.List.Forall2
import LinkBulker.Foundations.Pool
import LinkBulker.Foundations.Table

/-! Two tables that are related row by row, and two pools that are related component by component:
what their statements and their steps keep of it. -/

universe u v w

namespace Foundations

theorem rel_map {α β : Type u} {γ δ : Type v} {R : α → β → Prop} {S : γ → δ → Prop} {f : α → γ}
    {g : β → δ} {o : Option α} {o' : Option β} (h : Option.Rel R o o')
    (hfg : ∀ a b, R a b → S (f a) (g b)) : Option.Rel S (o.map f) (o'.map g) := by
  cases h with
  | none => exact .none
  | some h => exact .some (hfg _ _ h)

theorem rel_cases {α β : Type u} {R : α → β → Prop} {o : Option α} {o' : Option β}
    (h : Option.Rel R o o') :
    (o = none ∧ o' = none) ∨ ∃ a b, o = some a ∧ o' = some b ∧ R a b := by
  cases h with
  | none => exact .inl ⟨rfl, rfl⟩
  | some h => exact .inr ⟨_, _, rfl, rfl, h⟩

theorem rel_ite {α β : Type u} {R : α → β → Prop} {p : Prop} [Decidable p] {o₁ o₂ : Option α}
    {o₁' o₂' : Option β} (h₁ : p → Option.Rel R o₁ o₁') (h₂ : ¬ p → Option.Rel R o₂ o₂') :
    Option.Rel R (if p then o₁ else o₂) (if p then o₁' else o₂') := by
  split
  · rename_i h
    exact h₁ h
  · rename_i h
    exact h₂ h

theorem isSome_of_rel {α β : Type u} {R : α → β → Prop} {o : Option α} {o' : Option β}
    (h : Option.Rel R o o') : o.isSome = o'.isSome := by
  cases h <;> rfl

section Lists

variable {α : Type u} {β : Type v} {R : α → α → Prop} {as as' : List α}

theorem map_of_forall₂ (h : List.Forall₂ R as as') {f f' : α → β}
    (hf : ∀ a a', R a a' → f a = f' a') : as.map f = as'.map f' := by
  induction h with
  | nil => rfl
  | cons ha _ ih => rw [List.map_cons, List.map_cons, ih, hf _ _ ha]

theorem countP_of_forall₂ (h : List.Forall₂ R as as') {q q' : α → Bool}
    (hq : ∀ a a', R a a' → q a = q' a') : as.countP q = as'.countP q' := by
  rw [← Function.id_comp q, ← Function.id_comp q', ← List.countP_map, ← List.countP_map,
    map_of_forall₂ h hq]

theorem any_of_forall₂ (h : List.Forall₂ R as as') {q q' : α → Bool}
    (hq : ∀ a a', R a a' → q a = q' a') : as.any q = as'.any q' := by
  rw [← Function.id_comp q, ← Function.id_comp q', ← List.any_map, ← List.any_map,
    map_of_forall₂ h hq]

theorem all_of_forall₂ (h : List.Forall₂ R as as') {q q' : α → Bool}
    (hq : ∀ a a', R a a' → q a = q' a') : as.all q = as'.all q' := by
  rw [← Function.id_comp q, ← Function.id_comp q', ← List.all_map, ← List.all_map,
    map_of_forall₂ h hq]

theorem rel_getElem? (h : List.Forall₂ R as as') (i : ℕ) : Option.Rel R as[i]? as'[i]? := by
  induction h generalizing i with
  | nil => exact .none
  | cons ha _ ih =>
    cases i with
    | zero => exact .some ha
    | succ i => exact ih i

theorem forall₂_set (h : List.Forall₂ R as as') (i : ℕ) {a a' : α} (ha : R a a') :
    List.Forall₂ R (as.set i a) (as'.set i a') := by
  induction h generalizing i with
  | nil => exact .nil
  | cons hb h ih =>
    cases i with
    | zero => exact .cons ha h
    | succ i => exact .cons hb (ih i)

end Lists

namespace Table

variable {κ : Type u} {ρ : Type v} {key : ρ → κ} {R : ρ → ρ → Prop} {t t' : Table key}

def Related (R : ρ → ρ → Prop) (t t' : Table key) : Prop := List.Forall₂ R t.rows t'.rows

instance [∀ r r', Decidable (R r r')] : Decidable (Related R t t') :=
  inferInstanceAs (Decidable (List.Forall₂ R t.rows t'.rows))

theorem Related.filter (h : Related R t t') {q q' : ρ → Bool}
    (hq : ∀ r r', R r r' → q r = q' r') :
    List.Forall₂ R (t.rows.filter q) (t'.rows.filter q') := by
  refine List.rel_filter ?_ h
  intro r r' hr
  exact iff_of_eq (congrArg (· = true) (hq r r' hr))

theorem Related.keepWhere (h : Related R t t') {q q' : ρ → Bool}
    (hq : ∀ r r', R r r' → q r = q' r') : Related R (t.keepWhere q) (t'.keepWhere q') :=
  h.filter hq

theorem Related.deleteWhere (h : Related R t t') {q q' : ρ → Bool}
    (hq : ∀ r r', R r r' → q r = q' r') : Related R (t.deleteWhere q) (t'.deleteWhere q') :=
  h.filter fun r r' hr => by rw [hq r r' hr]

theorem Related.updateWhere (h : Related R t t') {q q' : ρ → Bool} {f f' : ρ → ρ}
    (hf : ∀ r, key (f r) = key r) (hf' : ∀ r, key (f' r) = key r)
    (hq : ∀ r r', R r r' → q r = q' r') (hR : ∀ r r', R r r' → R (f r) (f' r')) :
    Related R (t.updateWhere q f hf) (t'.updateWhere q' f' hf') := by
  refine List.rel_map ?_ h
  intro r r' hr
  dsimp only
  rw [hq r r' hr]
  split
  · exact hR r r' hr
  · exact hr

variable [DecidableEq κ] (hkey : ∀ r r', R r r' → key r = key r')

include hkey

theorem Related.find? (h : Related R t t') (k : κ) : Option.Rel R (t.find? k) (t'.find? k) := by
  unfold Table.find?
  rw [Related] at h
  generalize t.rows = rs at h
  generalize t'.rows = rs' at h
  induction h with
  | nil => exact .none
  | @cons r r' rs rs' hr _ ih =>
    rw [List.find?_cons, List.find?_cons, hkey r r' hr]
    split
    · exact .some hr
    · exact ih

theorem Related.update (h : Related R t t') (k : κ) {f f' : ρ → ρ}
    (hf : ∀ r, key (f r) = key r) (hf' : ∀ r, key (f' r) = key r)
    (hR : ∀ r r', R r r' → R (f r) (f' r')) :
    Option.Rel (Related R) (t.update k f hf) (t'.update k f' hf') := by
  unfold Table.update
  rw [isSome_of_rel (h.find? hkey k)]
  split
  · exact .some (h.updateWhere hf hf' (fun r r' hr => by rw [hkey r r' hr]) hR)
  · exact .none

theorem Related.insertMany (h : Related R t t') {rs rs' : List ρ} (hrs : List.Forall₂ R rs rs') :
    Option.Rel (Related R) (t.insertMany rs) (t'.insertMany rs') := by
  have hall : List.Forall₂ R (t.rows ++ rs) (t'.rows ++ rs') := List.rel_append h hrs
  have hkeys := map_of_forall₂ hall hkey
  unfold Table.insertMany
  split
  · rename_i hnodup
    rw [dif_pos (hkeys ▸ hnodup)]
    exact .some hall
  · rename_i hnodup
    rw [dif_neg (hkeys ▸ hnodup)]
    exact .none

end Table

namespace Pool

variable {ω : Type u} {γ : Type v} {α : Type w} {W : ω → ω → Prop} {R : γ → γ → Prop}
  {move move' : ω → γ → α → Option (ω × γ)} {w₁ w₁' : ω} {cs cs' : List γ} {i : ℕ} {a a' : α}

def Both (W : ω → ω → Prop) (R : γ → γ → Prop) (s s' : ω × γ) : Prop := W s.1 s'.1 ∧ R s.2 s'.2

theorem step_related (hcs : List.Forall₂ R cs cs')
    (hmove : ∀ c c', cs[i]? = some c → cs'[i]? = some c' → R c c' →
      Option.Rel (Both W R) (move w₁ c a) (move' w₁' c' a')) :
    Option.Rel (Both W (List.Forall₂ R)) (step move w₁ cs i a) (step move' w₁' cs' i a') := by
  unfold step
  obtain ⟨hc, hc'⟩ | ⟨c, c', hc, hc', hR⟩ := rel_cases (rel_getElem? hcs i)
  · rw [hc, hc']
    exact .none
  · rw [hc, hc']
    refine rel_map (hmove c c' hc hc' hR) ?_
    rintro ⟨w₂, d⟩ ⟨w₂', d'⟩ ⟨hW, hR⟩
    exact ⟨hW, forall₂_set hcs i hR⟩

end Pool

end Foundations
