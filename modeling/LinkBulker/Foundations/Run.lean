import Mathlib.Data.List.Induction

/-! Runs of a system given by a partial step function.  Every choice the environment makes
(who moves, what an awaited call answers) is part of the action, so a list of actions is an
interleaving. -/

universe u v

namespace Foundations

variable {σ : Type u} {α : Type v} {step : σ → α → Option σ}

def exec (step : σ → α → Option σ) : σ → List α → Option σ
  | s, [] => some s
  | s, a :: as => (step s a).bind fun s' => exec step s' as

@[simp] theorem exec_nil (s : σ) : exec step s [] = some s := rfl

theorem exec_cons {s s' : σ} {a : α} {as : List α} :
    exec step s (a :: as) = some s' ↔ ∃ t, step s a = some t ∧ exec step t as = some s' := by
  simp [exec, Option.bind_eq_some_iff]

theorem exec_append {s s' : σ} {as bs : List α} :
    exec step s (as ++ bs) = some s' ↔ ∃ t, exec step s as = some t ∧ exec step t bs = some s' := by
  induction as generalizing s with
  | nil => simp
  | cons a as ih => simp only [List.cons_append, exec_cons, ih]; grind

theorem exec_concat {s s' : σ} {as : List α} {a : α} :
    exec step s (as ++ [a]) = some s' ↔ ∃ t, exec step s as = some t ∧ step t a = some s' := by
  simp [exec_append, exec_cons]

theorem exists_exec_nil {P : σ → Prop} {s : σ} (h : P s) :
    ∃ as s', exec step s as = some s' ∧ P s' := ⟨[], s, rfl, h⟩

theorem exists_exec_cons {P : σ → Prop} {s t : σ} {a : α} (ht : step s a = some t)
    (h : ∃ as s', exec step t as = some s' ∧ P s') : ∃ as s', exec step s as = some s' ∧ P s' := by
  obtain ⟨as, s', hr, hP⟩ := h
  exact ⟨a :: as, s', exec_cons.mpr ⟨t, ht, hr⟩, hP⟩

theorem exists_of_any {P : σ → Prop} [DecidablePred P] {s : Option σ} (h : s.any fun s => P s) :
    ∃ s₁, s = some s₁ ∧ P s₁ := by
  obtain ⟨s₁, rfl, h⟩ := (Option.any_eq_true _ _).mp h
  exact ⟨s₁, rfl, of_decide_eq_true h⟩

def Meets (step : σ → α → Option σ) (C : σ → α → Prop) : σ → List α → Prop
  | _, [] => True
  | s, a :: as => C s a ∧ ∀ s', step s a = some s' → Meets step C s' as

instance Meets.decidable (step : σ → α → Option σ) (C : σ → α → Prop)
    [∀ s a, Decidable (C s a)] : ∀ s as, Decidable (Meets step C s as)
  | _, [] => .isTrue trivial
  | s, a :: as =>
    match h : step s a with
    | none => decidable_of_iff (C s a) (by simp [Meets, h])
    | some t =>
      have := Meets.decidable step C t as
      decidable_of_iff (C s a ∧ Meets step C t as) (by simp [Meets, h])

theorem Meets.of_forall {P : α → Prop} {as : List α} (h : ∀ a ∈ as, P a) (s : σ) :
    Meets step (fun _ a => P a) s as := by
  induction as generalizing s with
  | nil => trivial
  | cons a as ih =>
    exact ⟨h a List.mem_cons_self, fun s' _ => ih (fun b hb => h b (List.mem_cons_of_mem a hb)) s'⟩

theorem Meets.and {C D : σ → α → Prop} {s : σ} {as : List α} (hc : Meets step C s as)
    (hd : Meets step D s as) : Meets step (fun s a => C s a ∧ D s a) s as := by
  induction as generalizing s with
  | nil => trivial
  | cons a as ih => exact ⟨⟨hc.1, hd.1⟩, fun s' hs' => ih (hc.2 s' hs') (hd.2 s' hs')⟩

theorem Meets.of_exec {C : σ → α → Prop} {s s' : σ} {as : List α} (hr : exec step s as = some s')
    (h : ∀ before a s₁ s₂, before ++ [a] <+: as → exec step s before = some s₁ →
      step s₁ a = some s₂ → C s₁ a) : Meets step C s as := by
  induction as generalizing s with
  | nil => trivial
  | cons a as ih =>
    obtain ⟨t, ht, hr⟩ := exec_cons.mp hr
    refine ⟨h [] a s t (List.prefix_append [a] as) rfl ht, fun s₁ hs₁ => ?_⟩
    obtain rfl := Option.some.inj (ht.symm.trans hs₁)
    refine ih hr fun before b s₁ s₂ hpre hbefore hb => ?_
    exact h (a :: before) b s₁ s₂ (List.cons_prefix_cons.mpr ⟨rfl, hpre⟩)
      (exec_cons.mpr ⟨t, ht, hbefore⟩) hb

theorem Meets.of_append {C : σ → α → Prop} {s s₁ : σ} {as bs : List α}
    (hm : Meets step C s (as ++ bs)) (hr : exec step s as = some s₁) :
    Meets step C s as ∧ Meets step C s₁ bs := by
  induction as generalizing s with
  | nil =>
    cases hr
    exact ⟨trivial, hm⟩
  | cons a as ih =>
    obtain ⟨t, ht, hr⟩ := exec_cons.mp hr
    obtain ⟨has, hbs⟩ := ih (hm.2 t ht) hr
    refine ⟨⟨hm.1, fun t' ht' => ?_⟩, hbs⟩
    obtain rfl := Option.some.inj (ht.symm.trans ht')
    exact has

theorem Meets.concat {C : σ → α → Prop} {s : σ} {as : List α} {a : α} :
    Meets step C s (as ++ [a]) ↔
      Meets step C s as ∧ ∀ t, exec step s as = some t → C t a := by
  induction as generalizing s with
  | nil => simp [Meets]
  | cons b as ih =>
    simp only [List.cons_append, Meets, ih, exec_cons]
    constructor
    · rintro ⟨hb, hrest⟩
      exact ⟨⟨hb, fun t ht => (hrest t ht).1⟩, fun u ⟨t, ht, hu⟩ => (hrest t ht).2 u hu⟩
    · rintro ⟨⟨hb, hrest⟩, hlast⟩
      exact ⟨hb, fun t ht => ⟨hrest t ht, fun u hu => hlast u ⟨t, ht, hu⟩⟩⟩

/-- What every allowed step keeps, every allowed run keeps. -/
theorem exec_invariant_of_meets {C : σ → α → Prop} {I : σ → Prop}
    (hstep : ∀ s a s', I s → C s a → step s a = some s' → I s')
    {s s' : σ} {as : List α} (hs : I s) (hm : Meets step C s as)
    (hr : exec step s as = some s') : I s' := by
  induction as generalizing s with
  | nil => cases hr; exact hs
  | cons a as ih =>
    obtain ⟨t, ht, hr⟩ := exec_cons.mp hr
    exact ih (hstep s a t hs hm.1 ht) (hm.2 t ht) hr

theorem exec_invariant {I : σ → Prop}
    (hstep : ∀ s a s', I s → step s a = some s' → I s')
    {s s' : σ} {as : List α} (hs : I s) (hr : exec step s as = some s') : I s' := by
  induction as generalizing s with
  | nil => cases hr; exact hs
  | cons a as ih =>
    obtain ⟨t, ht, hr⟩ := exec_cons.mp hr
    exact ih (hstep s a t hs ht) hr

/-- An invariant that ties the state to the actions taken so far, oldest first. -/
theorem exec_history {s₀ : σ} {P : List α → σ → Prop} (h0 : P [] s₀)
    (hstep : ∀ as s a s', P as s → step s a = some s' → P (as ++ [a]) s')
    {s : σ} {as : List α} (hr : exec step s₀ as = some s) : P as s := by
  induction as using List.reverseRecOn generalizing s with
  | nil => cases hr; exact h0
  | append_singleton as a ih =>
    obtain ⟨t, ht, ha⟩ := exec_concat.mp hr
    exact hstep as t a s (ih ht) ha

theorem exec_history_of_meets {C : σ → α → Prop} {s₀ : σ} {P : List α → σ → Prop} (h0 : P [] s₀)
    (hstep : ∀ as s a s', P as s → C s a → step s a = some s' → P (as ++ [a]) s')
    {s : σ} {as : List α} (hm : Meets step C s₀ as) (hr : exec step s₀ as = some s) : P as s := by
  induction as using List.reverseRecOn generalizing s with
  | nil => cases hr; exact h0
  | append_singleton as a ih =>
    obtain ⟨t, ht, ha⟩ := exec_concat.mp hr
    obtain ⟨hm, hlast⟩ := Meets.concat.mp hm
    exact hstep as t a s (ih hm ht) (hlast t ht) ha

section Outputs

universe w

variable {β : Type w} {out : σ → α → σ → List β}

end Outputs

end Foundations
