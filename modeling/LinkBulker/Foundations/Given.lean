import LinkBulker.Foundations.Table

/-! A keyed table over a run in which no key is given twice: `given` are the keys that rows have had,
`drawn` the new ones of a step, and `fixed` is what of a row is written once. -/

universe u v w

namespace Foundations

variable {κ : Type u} {ρ : Type v} {φ : Type w} {key : ρ → κ} {fixed : ρ → φ}
  {given given' drawn drawn' : List κ} {t t' t'' : Table key} {k : κ} {P : φ → Prop}

def Grows (fixed : ρ → φ) (drawn : List κ) (t t' : Table key) : Prop :=
  ∀ r' ∈ t'.rows, (∃ r ∈ t.rows, key r = key r' ∧ fixed r = fixed r') ∨ key r' ∈ drawn

structure Knows (fixed : ρ → φ) (given : List κ) (t : Table key) (k : κ) (P : φ → Prop) : Prop where
  given : k ∈ given
  row : ∀ r ∈ t.rows, key r = k → P (fixed r)

namespace Grows

theorem refl (t : Table key) : Grows fixed drawn t t := fun r hr => .inl ⟨r, hr, rfl, rfl⟩

theorem of_subset (h : t'.rows ⊆ t.rows) : Grows fixed drawn t t' :=
  fun r hr => .inl ⟨r, h hr, rfl, rfl⟩

theorem deleteWhere {p : ρ → Bool} : Grows fixed drawn t (t.deleteWhere p) :=
  of_subset fun _ hr => (Table.mem_deleteWhere.mp hr).1

theorem updateWhere {p : ρ → Bool} {f : ρ → ρ} (hf : ∀ r, key (f r) = key r)
    (hfixed : ∀ r, fixed (f r) = fixed r) : Grows fixed drawn t (t.updateWhere p f hf) := by
  intro r' hr'
  obtain ⟨r, hr, rfl⟩ := Table.mem_updateWhere.mp hr'
  refine .inl ⟨r, hr, ?_⟩
  split
  · exact ⟨(hf r).symm, (hfixed r).symm⟩
  · exact ⟨rfl, rfl⟩

theorem append {rs : List ρ} (h : t'.rows = t.rows ++ rs) (hnew : ∀ r ∈ rs, key r ∈ drawn) :
    Grows fixed drawn t t' := by
  intro r hr
  rw [h] at hr
  obtain hr | hr := List.mem_append.mp hr
  · exact .inl ⟨r, hr, rfl, rfl⟩
  · exact .inr (hnew r hr)

theorem trans (h : Grows fixed drawn t t') (h' : Grows fixed drawn' t' t'') :
    Grows fixed (drawn ++ drawn') t t'' := by
  intro r'' hr''
  obtain ⟨r', hr', hkey', hfixed'⟩ | hnew := h' r'' hr''
  · obtain ⟨r, hr, hkey, hfixed⟩ | hnew := h r' hr'
    · exact .inl ⟨r, hr, hkey.trans hkey', hfixed.trans hfixed'⟩
    · exact .inr (List.mem_append_left _ (hkey' ▸ hnew))
  · exact .inr (List.mem_append_right _ hnew)

theorem keys (h : Grows fixed drawn t t') : t'.rows.map key ⊆ t.rows.map key ++ drawn := by
  intro k hk
  obtain ⟨r', hr', rfl⟩ := List.mem_map.mp hk
  obtain ⟨r, hr, hkey, -⟩ | hnew := h r' hr'
  · exact List.mem_append_left _ (List.mem_map.mpr ⟨r, hr, hkey⟩)
  · exact List.mem_append_right _ hnew

theorem old (h : Grows fixed drawn t t') (hfresh : ∀ k ∈ drawn, k ∉ given) {r' : ρ}
    (hr' : r' ∈ t'.rows) (hgiven : key r' ∈ given) :
    ∃ r ∈ t.rows, key r = key r' ∧ fixed r = fixed r' :=
  (h r' hr').resolve_right fun hnew => hfresh _ hnew hgiven

end Grows

namespace Knows

theorem grows (h : Knows fixed given t k P) (hg : Grows fixed drawn t t')
    (hfresh : ∀ k ∈ drawn, k ∉ given) (hsub : given ⊆ given') : Knows fixed given' t' k P := by
  refine ⟨hsub h.given, fun r' hr' hk => ?_⟩
  obtain ⟨r, hr, hkey, hfixed⟩ := hg.old hfresh hr' (hk ▸ h.given)
  rw [← hfixed]
  exact h.row r hr (hkey.trans hk)

theorem of_gone (hgiven : k ∈ given) (hgone : ∀ r ∈ t.rows, key r ≠ k) :
    Knows fixed given t k fun _ => False :=
  ⟨hgiven, hgone⟩

end Knows

end Foundations
