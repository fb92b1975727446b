import Mathlib.Data.List.Perm.Basic

/-! A pool of components that take turns over a shared world.  An action names the component
that moves, so the runs of a pool are the interleavings of its components. -/

universe u v w

namespace Foundations.Pool

variable {ω : Type u} {γ : Type v} {α : Type w} {move : ω → γ → α → Option (ω × γ)}

def step (move : ω → γ → α → Option (ω × γ)) (w : ω) (cs : List γ) (i : ℕ) (a : α) :
    Option (ω × List γ) :=
  match cs[i]? with
  | none => none
  | some c => (move w c a).map fun r => (r.1, cs.set i r.2)

theorem step_eq_some {w w' : ω} {cs cs' : List γ} {i : ℕ} {a : α} :
    step move w cs i a = some (w', cs') ↔
      ∃ c c', cs[i]? = some c ∧ move w c a = some (w', c') ∧ cs' = cs.set i c' := by
  unfold step
  cases cs[i]? with
  | none => simp
  | some c =>
    simp only [Option.map_eq_some_iff, Option.some.injEq, Prod.exists, Prod.mk.injEq]
    constructor
    · rintro ⟨w₁, c', h, rfl, rfl⟩
      exact ⟨c, c', rfl, h, rfl⟩
    · rintro ⟨_, c', rfl, h, rfl⟩
      exact ⟨w', c', h, rfl, rfl⟩

theorem isSome_step {w : ω} {cs : List γ} {i : ℕ} {c : γ} {a : α} (hget : cs[i]? = some c)
    (h : (move w c a).isSome) : (step move w cs i a).isSome := by
  unfold step
  simp only [hget, Option.isSome_map]
  exact h

theorem step_map {w w' : ω} {cs : List γ} {i : ℕ} {a a' : α} {f : ω → ω}
    (h : ∀ c ∈ cs[i]?, move w' c a' = (move w c a).map fun r => (f r.1, r.2)) :
    step move w' cs i a' = (step move w cs i a).map fun r => (f r.1, r.2) := by
  unfold step
  cases hget : cs[i]? with
  | none => rfl
  | some c =>
    simp only [h c hget, Option.map_map]
    rfl

def act (move : ω → γ → α → Option (ω × γ)) (s : ω × List γ) (a : ℕ × α) : Option (ω × List γ) :=
  step move s.1 s.2 a.1 a.2

theorem exists_rest {cs : List γ} {i : ℕ} {c : γ} (h : cs[i]? = some c) :
    ∃ rest, cs.Perm (c :: rest) ∧ ∀ c', (cs.set i c').Perm (c' :: rest) := by
  obtain ⟨hi, rfl⟩ := List.getElem?_eq_some_iff.mp h
  exact ⟨cs.eraseIdx i, (List.getElem_cons_eraseIdx_perm hi).symm,
    fun c' => List.set_perm_cons_eraseIdx hi c'⟩

theorem forall_set {P : γ → Prop} {cs : List γ} (h : ∀ d ∈ cs, P d) {i : ℕ} {c' : γ} (hc : P c') :
    ∀ d ∈ cs.set i c', P d := by
  intro d hd
  rcases List.mem_or_eq_of_mem_set hd with hd | rfl
  · exact h d hd
  · exact hc

theorem mem_set_of_mem {cs : List γ} {i : ℕ} {c c' d : γ} (h : cs[i]? = some c) (hd : d ∈ cs) :
    d = c ∨ d ∈ cs.set i c' := by
  obtain ⟨rest, hcs, hset⟩ := exists_rest h
  rcases List.mem_cons.mp (hcs.mem_iff.mp hd) with rfl | hd
  · exact .inl rfl
  · exact .inr ((hset c').mem_iff.mpr (List.mem_cons_of_mem _ hd))

theorem getElem?_set_self {cs : List γ} {i : ℕ} {c c' : γ} (h : cs[i]? = some c) :
    (cs.set i c')[i]? = some c' :=
  List.getElem?_set_self (List.getElem?_eq_some_iff.mp h).1

theorem mem_set_self {cs : List γ} {i : ℕ} {c c' : γ} (h : cs[i]? = some c) : c' ∈ cs.set i c' := by
  obtain ⟨hi, -⟩ := List.getElem?_eq_some_iff.mp h
  exact List.mem_set hi c'

theorem mem_set_of_mem_eraseIdx {cs : List γ} {i : ℕ} {c c' d : γ} (h : cs[i]? = some c)
    (hd : d ∈ cs.eraseIdx i) : d ∈ cs.set i c' := by
  obtain ⟨hi, -⟩ := List.getElem?_eq_some_iff.mp h
  exact (List.set_perm_cons_eraseIdx hi c').mem_iff.mpr (List.mem_cons_of_mem _ hd)

section Selection

variable {δ : Type v} {f : γ → Option δ} {cs : List γ} {i : ℕ} {c c' : γ}

theorem filterMap_set_sublist (h : cs[i]? = some c) (hf : f c' = none ∨ f c' = f c) :
    ((cs.set i c').filterMap f).Sublist (cs.filterMap f) := by
  obtain ⟨hi, rfl⟩ := List.getElem?_eq_some_iff.mp h
  have hcs : cs = cs.take i ++ cs[i] :: cs.drop (i + 1) := by
    rw [List.getElem_cons_drop, List.take_append_drop]
  rw [List.set_eq_take_append_cons_drop, if_pos hi]
  nth_rewrite 3 [hcs]
  rw [List.filterMap_append, List.filterMap_append, List.filterMap_cons, List.filterMap_cons]
  refine List.Sublist.append (List.Sublist.refl _) ?_
  rcases hf with hf | hf
  · rw [hf]
    cases f cs[i] with
    | none => exact List.Sublist.refl _
    | some x => exact List.sublist_cons_self ..
  · rw [hf]

theorem filterMap_set_perm {x : δ} (h : cs[i]? = some c) (hc : f c = none) (hc' : f c' = some x) :
    ((cs.set i c').filterMap f).Perm (x :: cs.filterMap f) := by
  obtain ⟨rest, hcs, hset⟩ := exists_rest h
  have hold := hcs.filterMap f
  have hnew := (hset c').filterMap f
  rw [List.filterMap_cons, hc] at hold
  rw [List.filterMap_cons, hc'] at hnew
  exact hnew.trans (hold.symm.cons x)

theorem filterMap_sublist {g : γ → Option δ} (hfg : ∀ c, f c = none ∨ f c = g c) :
    (cs.filterMap f).Sublist (cs.filterMap g) := by
  induction cs with
  | nil => exact List.Sublist.refl _
  | cons c cs ih =>
    rw [List.filterMap_cons, List.filterMap_cons]
    rcases hfg c with hf | hf
    · rw [hf]
      cases g c with
      | none => exact ih
      | some x => exact ih.cons x
    · rw [hf]
      cases g c with
      | none => exact ih
      | some x => exact ih.cons_cons x

end Selection

end Foundations.Pool
