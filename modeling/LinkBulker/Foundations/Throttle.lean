import Mathlib.Algebra.Order.Group.Defs
import Mathlib.Algebra.Order.Sub.Defs
import Mathlib.Data.List.Induction
import Mathlib.Data.Option.Basic

/-! A throttle: of what is offered under one key, everything that comes within `window` of the last
offer let through is dropped. -/

universe u v w

namespace Foundations.Throttle

structure Offer (κ : Type u) (τ : Type v) (α : Type w) where
  key : κ
  time : τ
  value : α
  passed : Bool

variable {κ : Type u} {τ : Type v} {α : Type w} [DecidableEq κ]

def times (key : κ) (offers : List (Offer κ τ α)) : List τ :=
  (offers.filter fun o => o.passed && o.key = key).map Offer.time

def last (origin : τ) (key : κ) (offers : List (Offer κ τ α)) : τ :=
  (times key offers).getLast?.getD origin

def gate [Sub τ] [LT τ] [DecidableLT τ] (window origin : τ) (memory : κ → Option τ) (key : κ)
    (now : τ) : (κ → Option τ) × Bool :=
  if now - (memory key).getD origin < window then (memory, false)
  else (Function.update memory key (some now), true)

/-- Throttles side by side, each with keys of its own, are one throttle over the pairs. -/
theorem gate_prod {ι : Type u} [DecidableEq ι] [Sub τ] [LT τ] [DecidableLT τ] {window origin : τ}
    (memory : ι → κ → Option τ) (i : ι) (key : κ) (now : τ) :
    gate window origin (fun k : ι × κ => memory k.1 k.2) (i, key) now =
      let r := gate window origin (memory i) key now
      (fun k => Function.update memory i r.1 k.1 k.2, r.2) := by
  unfold gate
  dsimp only
  split
  · rw [Function.update_eq_self]
  · congr 1
    funext ⟨j, k⟩
    dsimp only
    by_cases hj : j = i
    · subst hj
      rw [Function.update_self]
      by_cases hk : k = key
      · rw [hk, Function.update_self, Function.update_self]
      · rw [Function.update_of_ne hk, Function.update_of_ne fun h => hk (congrArg Prod.snd h)]
    · rw [Function.update_of_ne hj, Function.update_of_ne fun h => hj (congrArg Prod.fst h)]

theorem times_concat (key : κ) (offers : List (Offer κ τ α)) (o : Offer κ τ α) :
    times key (offers ++ [o]) =
      times key offers ++ if o.passed ∧ o.key = key then [o.time] else [] := by
  unfold times
  rw [List.filter_append, List.map_append]
  cases hpassed : o.passed <;> by_cases hkey : o.key = key <;> simp [hpassed, hkey]

section Rule

variable [AddCommGroup τ] [LinearOrder τ] {window origin : τ} {memory : κ → Option τ}
  {offers before after : List (Offer κ τ α)} {o : Offer κ τ α} {key : κ} {now : τ}

inductive Ruled (window origin : τ) : List (Offer κ τ α) → Prop
  | nil : Ruled window origin []
  | concat {offers : List (Offer κ τ α)} {o : Offer κ τ α} (h : Ruled window origin offers)
    (ho : o.passed = decide ¬ o.time - last origin o.key offers < window) :
    Ruled window origin (offers ++ [o])

structure Remembers (window origin : τ) (memory : κ → Option τ) (offers : List (Offer κ τ α)) :
    Prop where
  ruled : Ruled window origin offers
  memory_eq : ∀ key, memory key = (times key offers).getLast?

theorem Remembers.start : Remembers window origin (fun _ => none) ([] : List (Offer κ τ α)) :=
  ⟨.nil, fun _ => rfl⟩

theorem Remembers.gate (h : Remembers window origin memory offers) (key : κ) (now : τ) (value : α) :
    Remembers window origin (gate window origin memory key now).1
      (offers ++ [⟨key, now, value, (gate window origin memory key now).2⟩]) := by
  have hlast : (memory key).getD origin = last origin key offers := by rw [h.memory_eq, last]
  unfold Throttle.gate
  rw [hlast]
  split
  · rename_i hsoon
    refine ⟨h.ruled.concat (by simp [hsoon]), fun k => ?_⟩
    rw [times_concat]
    simpa using h.memory_eq k
  · rename_i hlate
    refine ⟨h.ruled.concat (by simpa using hlate), fun k => ?_⟩
    rw [times_concat]
    by_cases hk : key = k
    · subst hk
      simp
    · simpa [hk, Function.update_of_ne (Ne.symm hk)] using h.memory_eq k

theorem Ruled.dropped [IsOrderedAddMonoid τ] (h : Ruled window origin offers)
    (hoffers : offers = before ++ o :: after) (ho : o.passed = false) :
    o.time < last origin o.key before + window := by
  induction h generalizing after with
  | nil => exact absurd hoffers (by simp)
  | @concat offers o' h ho' ih =>
    cases after using List.reverseRecOn with
    | nil =>
      obtain ⟨rfl, hlast⟩ := List.append_inj' hoffers rfl
      cases hlast
      rw [ho, eq_comm, decide_eq_false_iff_not, not_not] at ho'
      exact sub_lt_iff_lt_add'.mp ho'
    | append_singleton after a =>
      rw [← List.cons_append, ← List.append_assoc] at hoffers
      exact ih (List.append_inj' hoffers rfl).1

theorem Ruled.spaced [IsOrderedAddMonoid τ] (hwindow : 0 ≤ window) (h : Ruled window origin offers)
    (key : κ) : (times key offers).Pairwise fun t t' => t + window ≤ t' := by
  induction h with
  | nil => exact .nil
  | @concat offers o h ho ih =>
    rw [times_concat]
    split
    · rename_i hpassed
      obtain ⟨hpassed, rfl⟩ := hpassed
      rw [hpassed, eq_comm, decide_eq_true_iff, not_lt, le_sub_iff_add_le'] at ho
      refine List.pairwise_append.mpr ⟨ih, List.pairwise_singleton .., fun t ht t' ht' => ?_⟩
      rw [List.mem_singleton.mp ht']
      refine le_trans ?_ ho
      -- the last one let through comes after all the others
      cases hlast : times o.key offers using List.reverseRecOn with
      | nil =>
        rw [hlast] at ht
        cases ht
      | append_singleton ts t₁ =>
        rw [hlast] at ht ih
        rw [last, hlast, List.getLast?_concat, Option.getD_some]
        obtain ht | ht := List.mem_append.mp ht
        · have hle := (List.pairwise_append.mp ih).2.2 t ht t₁ (List.mem_singleton.mpr rfl)
          exact hle.trans (le_add_of_nonneg_right hwindow)
        · rw [List.mem_singleton.mp ht]
    · rwa [List.append_nil]

end Rule

end Foundations.Throttle
