import Mathlib.Data.List.Nodup
import Mathlib.Data.List.Perm.Subperm

/-! Ordered tables with a primary key: the rows of a relational table under a fixed `ORDER BY`,
or the members of a keyed set. -/

universe u v w

namespace Foundations

structure Table {κ : Type u} {ρ : Type v} (key : ρ → κ) where
  rows : List ρ
  nodup : (rows.map key).Nodup

namespace Table

variable {κ : Type u} {ρ : Type v} {key : ρ → κ}

def empty : Table key := ⟨[], by simp⟩

@[ext] theorem ext {t t' : Table key} (h : t.rows = t'.rows) : t = t' := by
  cases t; cases t'; cases h; rfl

theorem eq_of_key_eq (t : Table key) {r r' : ρ} (hr : r ∈ t.rows) (hr' : r' ∈ t.rows)
    (h : key r = key r') : r = r' :=
  List.inj_on_of_nodup_map t.nodup hr hr' h

def keepWhere (t : Table key) (p : ρ → Bool) : Table key :=
  ⟨t.rows.filter p, t.nodup.sublist (List.filter_sublist.map key)⟩

theorem rows_keepWhere (t : Table key) (p : ρ → Bool) :
    (t.keepWhere p).rows = t.rows.filter p := rfl

def deleteWhere (t : Table key) (p : ρ → Bool) : Table key := t.keepWhere fun r => !p r

def mapRows (t : Table key) (f : ρ → ρ) (hf : ∀ r, key (f r) = key r) : Table key :=
  ⟨t.rows.map f, by simpa [Function.comp_def, hf] using t.nodup⟩

def updateWhere (t : Table key) (p : ρ → Bool) (f : ρ → ρ) (hf : ∀ r, key (f r) = key r) :
    Table key :=
  t.mapRows (fun r => if p r then f r else r) (by intro r; split <;> simp [hf])

@[simp] theorem mem_keepWhere {t : Table key} {p : ρ → Bool} {r : ρ} :
    r ∈ (t.keepWhere p).rows ↔ r ∈ t.rows ∧ p r := by simp [keepWhere]

@[simp] theorem mem_deleteWhere {t : Table key} {p : ρ → Bool} {r : ρ} :
    r ∈ (t.deleteWhere p).rows ↔ r ∈ t.rows ∧ ¬ p r := by simp [deleteWhere]

theorem mem_updateWhere {t : Table key} {p : ρ → Bool} {f : ρ → ρ}
    {hf : ∀ r, key (f r) = key r} {r : ρ} :
    r ∈ (t.updateWhere p f hf).rows ↔ ∃ r₀ ∈ t.rows, (if p r₀ then f r₀ else r₀) = r := by
  simp [updateWhere, mapRows]

theorem mem_updateWhere_of_mem {t : Table key} {p : ρ → Bool} {f : ρ → ρ}
    (hf : ∀ r, key (f r) = key r) {r : ρ} (hr : r ∈ t.rows) (hp : p r) :
    f r ∈ (t.updateWhere p f hf).rows :=
  mem_updateWhere.mpr ⟨r, hr, if_pos hp⟩

theorem map_updateWhere {γ : Type w} (t : Table key) (p : ρ → Bool) (f : ρ → ρ)
    (hf : ∀ r, key (f r) = key r) {g : ρ → γ} (hg : ∀ r, g (f r) = g r) :
    (t.updateWhere p f hf).rows.map g = t.rows.map g := by
  simp only [updateWhere, mapRows, List.map_map]
  apply List.map_congr_left
  intro r _
  simp only [Function.comp_apply]
  split
  · exact hg r
  · rfl

section Part

variable {t : Table key} {p q : ρ → Bool} {f : ρ → ρ}

theorem keepWhere_congr (h : ∀ r ∈ t.rows, p r = q r) : t.keepWhere p = t.keepWhere q :=
  ext (List.filter_congr h)

theorem keepWhere_eq_self (h : ∀ r ∈ t.rows, p r) : t.keepWhere p = t :=
  ext (List.filter_eq_self.mpr h)

theorem filter_keepWhere (h : ∀ r ∈ t.rows, q r → p r) :
    (t.keepWhere p).rows.filter q = t.rows.filter q := by
  rw [rows_keepWhere, List.filter_filter]
  apply List.filter_congr
  intro r hr
  rw [Bool.and_eq_left_iff_imp]
  exact h r hr

theorem countP_keepWhere (h : ∀ r ∈ t.rows, q r → p r) :
    (t.keepWhere p).rows.countP q = t.rows.countP q := by
  rw [List.countP_eq_length_filter, filter_keepWhere h, ← List.countP_eq_length_filter]

theorem keepWhere_comm : (t.keepWhere p).keepWhere q = (t.keepWhere q).keepWhere p := by
  apply ext
  simp only [keepWhere, List.filter_filter]
  exact List.filter_congr fun r _ => Bool.and_comm _ _

theorem keepWhere_deleteWhere : (t.deleteWhere q).keepWhere p = (t.keepWhere p).deleteWhere q :=
  keepWhere_comm

theorem keepWhere_deleteWhere_of_not (h : ∀ r ∈ t.rows, q r → p r = false) :
    (t.deleteWhere q).keepWhere p = t.keepWhere p := by
  rw [keepWhere_deleteWhere]
  apply keepWhere_eq_self
  intro r hr
  obtain ⟨hr, hp⟩ := mem_keepWhere.mp hr
  cases hq : q r with
  | false => rfl
  | true =>
    rw [h r hr hq] at hp
    cases hp

theorem keepWhere_updateWhere (hf : ∀ r, key (f r) = key r) (hp : ∀ r, p (f r) = p r) :
    (t.updateWhere q f hf).keepWhere p = (t.keepWhere p).updateWhere q f hf := by
  apply ext
  simp only [keepWhere, updateWhere, mapRows, List.filter_map]
  congr 1
  apply List.filter_congr
  intro r _
  simp only [Function.comp_apply]
  split
  · exact hp r
  · rfl

theorem keepWhere_updateWhere_of_not (hf : ∀ r, key (f r) = key r) (hp : ∀ r, p (f r) = p r)
    (h : ∀ r ∈ t.rows, q r → p r = false) : (t.updateWhere q f hf).keepWhere p = t.keepWhere p := by
  rw [keepWhere_updateWhere hf hp]
  apply ext
  simp only [updateWhere, mapRows]
  rw [List.map_congr_left (g := id), List.map_id]
  intro r hr
  obtain ⟨hr, hpr⟩ := mem_keepWhere.mp hr
  apply if_neg
  intro hq
  rw [h r hr hq] at hpr
  cases hpr

theorem exists_updateWhere {γ : Type w} (hf : ∀ r, key (f r) = key r) {g : ρ → γ}
    (hg : ∀ r, g (f r) = g r) {c : γ} :
    (∃ r ∈ (t.updateWhere q f hf).rows, g r = c) ↔ ∃ r ∈ t.rows, g r = c := by
  rw [← List.mem_map, map_updateWhere t q f hf hg, List.mem_map]

end Part

variable [DecidableEq κ]

def find? (t : Table key) (k : κ) : Option ρ := t.rows.find? fun r => key r = k

def update (t : Table key) (k : κ) (f : ρ → ρ) (hf : ∀ r, key (f r) = key r) :
    Option (Table key) :=
  if (t.find? k).isSome then some (t.updateWhere (fun r => key r = k) f hf) else none

def insertMany (t : Table key) (rs : List ρ) : Option (Table key) :=
  if h : ((t.rows ++ rs).map key).Nodup then some ⟨t.rows ++ rs, h⟩ else none

def delete (t : Table key) (k : κ) : Table key := t.deleteWhere fun r => key r = k

theorem nodup_upsert (t : Table key) (r : ρ) :
    (((t.delete (key r)).rows ++ [r]).map key).Nodup := by
  rw [List.map_append, List.nodup_append]
  refine ⟨(t.delete (key r)).nodup, by simp, ?_⟩
  simp only [List.mem_map, List.map_cons, List.map_nil, List.mem_singleton]
  rintro _ ⟨r', hr', rfl⟩ _ rfl
  simpa [delete] using (mem_deleteWhere.mp hr').2

def upsert (t : Table key) (r : ρ) : Table key := ⟨(t.delete (key r)).rows ++ [r], nodup_upsert t r⟩

theorem find?_eq_some {t : Table key} {k : κ} {r : ρ} :
    t.find? k = some r ↔ r ∈ t.rows ∧ key r = k := by
  constructor
  · intro h
    exact ⟨List.mem_of_find?_eq_some h, by simpa using List.find?_some h⟩
  · rintro ⟨hr, hk⟩
    cases h : t.find? k with
    | none =>
      have := List.find?_eq_none.mp h r hr
      simp [hk] at this
    | some r' =>
      have hk' : key r' = k := by simpa using List.find?_some h
      rw [t.eq_of_key_eq (List.mem_of_find?_eq_some h) hr (hk'.trans hk.symm)]

theorem find?_keepWhere (t : Table key) (p : ρ → Bool) (k : κ) :
    (t.keepWhere p).find? k = (t.find? k).filter p := by
  cases h : t.find? k with
  | none =>
    rw [find?, List.find?_eq_none] at h
    rw [Option.filter_none, find?, List.find?_eq_none]
    exact fun r hr => h r (mem_keepWhere.mp hr).1
  | some r =>
    obtain ⟨hr, rfl⟩ := find?_eq_some.mp h
    cases hp : p r with
    | true =>
      rw [Option.filter_some, if_pos hp]
      exact find?_eq_some.mpr ⟨mem_keepWhere.mpr ⟨hr, hp⟩, rfl⟩
    | false =>
      rw [Option.filter_some, hp, if_neg Bool.false_ne_true, find?, List.find?_eq_none]
      intro r' hr' hk
      obtain ⟨hr', hp'⟩ := mem_keepWhere.mp hr'
      obtain rfl := t.eq_of_key_eq hr' hr (of_decide_eq_true hk)
      rw [hp] at hp'
      cases hp'

theorem find?_eq_none {t : Table key} {k : κ} : t.find? k = none ↔ ∀ r ∈ t.rows, key r ≠ k := by
  simp [find?]

theorem mem_delete {t : Table key} {k : κ} {r : ρ} :
    r ∈ (t.delete k).rows ↔ r ∈ t.rows ∧ key r ≠ k := by
  simp [delete]

theorem mem_upsert {t : Table key} {r r' : ρ} :
    r' ∈ (t.upsert r).rows ↔ r' ∈ t.rows ∧ key r' ≠ key r ∨ r' = r := by
  simp [upsert, mem_delete]

theorem find?_deleteWhere_of_keep {t : Table key} {p : ρ → Bool} {k : κ}
    (h : ∀ r ∈ t.rows, key r = k → ¬ p r) : (t.deleteWhere p).find? k = t.find? k := by
  cases hfind : t.find? k with
  | none =>
    rw [find?_eq_none] at hfind ⊢
    exact fun r hr => hfind r (mem_deleteWhere.mp hr).1
  | some r =>
    obtain ⟨hr, rfl⟩ := find?_eq_some.mp hfind
    exact find?_eq_some.mpr ⟨mem_deleteWhere.mpr ⟨hr, h r hr rfl⟩, rfl⟩

theorem find?_delete_self (t : Table key) (k : κ) : (t.delete k).find? k = none :=
  find?_eq_none.mpr fun _ hr => (mem_delete.mp hr).2

theorem find?_delete_of_ne {t : Table key} {k k' : κ} (h : k' ≠ k) :
    (t.delete k).find? k' = t.find? k' :=
  find?_deleteWhere_of_keep fun _ _ hr hk => h (hr.symm.trans (of_decide_eq_true hk))

theorem delete_eq_self {t : Table key} {k : κ} : t.delete k = t ↔ t.find? k = none := by
  constructor
  · intro h
    rw [← h]
    exact find?_delete_self t k
  · intro h
    refine ext (List.filter_eq_self.mpr fun r hr => ?_)
    simpa using find?_eq_none.mp h r hr

theorem find?_upsert_self (t : Table key) (r : ρ) : (t.upsert r).find? (key r) = some r :=
  find?_eq_some.mpr ⟨mem_upsert.mpr (.inr rfl), rfl⟩

theorem find?_upsert_of_ne {t : Table key} {r : ρ} {k : κ} (h : k ≠ key r) :
    (t.upsert r).find? k = t.find? k := by
  cases hfind : t.find? k with
  | none =>
    rw [find?_eq_none] at hfind ⊢
    intro r' hr'
    obtain ⟨hr', -⟩ | rfl := mem_upsert.mp hr'
    · exact hfind r' hr'
    · exact h.symm
  | some r' =>
    obtain ⟨hr', rfl⟩ := find?_eq_some.mp hfind
    exact find?_eq_some.mpr ⟨mem_upsert.mpr (.inl ⟨hr', h⟩), rfl⟩

theorem find?_isSome {t : Table key} {k : κ} : (t.find? k).isSome ↔ ∃ r ∈ t.rows, key r = k := by
  simp [find?]

theorem update_eq_some {t t' : Table key} {k : κ} {f : ρ → ρ} {hf : ∀ r, key (f r) = key r} :
    t.update k f hf = some t' ↔
      (∃ r ∈ t.rows, key r = k) ∧ t' = t.updateWhere (fun r => key r = k) f hf := by
  unfold update
  split
  · rename_i h
    have := find?_isSome.mp h
    rw [Option.some_inj]
    exact ⟨fun e => ⟨this, e.symm⟩, fun e => e.2.symm⟩
  · rename_i h
    rw [find?_isSome] at h
    simp [h]

theorem map_update_eq_some {δ : Type*} {t : Table key} {k : κ} {f : ρ → ρ}
    {hf : ∀ r, key (f r) = key r} {g : Table key → δ} {d : δ} :
    (t.update k f hf).map g = some d ↔
      (∃ r ∈ t.rows, key r = k) ∧ d = g (t.updateWhere (fun r => key r = k) f hf) := by
  rw [Option.map_eq_some_iff]
  constructor
  · rintro ⟨t', ht', rfl⟩
    obtain ⟨h, rfl⟩ := update_eq_some.mp ht'
    exact ⟨h, rfl⟩
  · rintro ⟨h, rfl⟩
    exact ⟨_, update_eq_some.mpr ⟨h, rfl⟩, rfl⟩

theorem update_eq_none {t : Table key} {k : κ} {f : ρ → ρ} {hf : ∀ r, key (f r) = key r} :
    t.update k f hf = none ↔ ∀ r ∈ t.rows, key r ≠ k := by
  unfold update
  split
  · rename_i h
    simpa using find?_isSome.mp h
  · rename_i h
    rw [find?_isSome] at h
    simpa using h

theorem find?_updateWhere_key (t : Table key) (k k' : κ) (f : ρ → ρ) (hf : ∀ r, key (f r) = key r) :
    (t.updateWhere (fun r => key r = k) f hf).find? k' =
      (t.find? k').map fun r => if key r = k then f r else r := by
  have hkey : ∀ r, key (if key r = k then f r else r) = key r := by
    intro r
    split
    · exact hf r
    · rfl
  cases h : t.find? k' with
  | none =>
    rw [find?_eq_none] at h
    rw [Option.map_none, find?_eq_none]
    intro r hr
    obtain ⟨r₀, hr₀, rfl⟩ := mem_updateWhere.mp hr
    simpa [hkey] using h r₀ hr₀
  | some r =>
    obtain ⟨hr, rfl⟩ := find?_eq_some.mp h
    exact find?_eq_some.mpr ⟨mem_updateWhere.mpr ⟨r, hr, by simp⟩, hkey r⟩

theorem find?_updateWhere (t : Table key) (k : κ) (f : ρ → ρ) (hf : ∀ r, key (f r) = key r) :
    (t.updateWhere (fun r => key r = k) f hf).find? k = (t.find? k).map f := by
  rw [find?_updateWhere_key]
  apply Option.map_congr
  intro r hr
  rw [if_pos (find?_eq_some.mp hr).2]

theorem updateWhere_key_eq_self {t : Table key} {k : κ} {r : ρ} {f : ρ → ρ}
    {hf : ∀ r, key (f r) = key r} (h : t.find? k = some r) :
    t.updateWhere (fun r => key r = k) f hf = t ↔ f r = r := by
  constructor
  · intro hself
    have hfind := find?_updateWhere t k f hf
    rw [hself, h, Option.map_some] at hfind
    exact (Option.some.inj hfind).symm
  · intro hr
    refine ext ((List.map_congr_left fun r' hr' => ?_).trans (List.map_id _))
    simp only [decide_eq_true_eq, id_eq]
    split
    · rename_i hk
      obtain ⟨hmem, hkey⟩ := find?_eq_some.mp h
      rwa [t.eq_of_key_eq hr' hmem (hk.trans hkey.symm)]
    · rfl

theorem insertMany_eq_some {t t' : Table key} {rs : List ρ} :
    t.insertMany rs = some t' ↔ t'.rows = t.rows ++ rs := by
  unfold insertMany
  split
  · rename_i h
    rw [Option.some_inj]
    exact ⟨fun e => e ▸ rfl, fun e => ext e.symm⟩
  · rename_i h
    simp only [reduceCtorEq, false_iff]
    intro e
    exact h (e ▸ t'.nodup)

theorem insertMany_of_unused {t : Table key} {rs : List ρ} (hnodup : (rs.map key).Nodup)
    (h : ∀ r ∈ rs, t.find? (key r) = none) : ∃ t', t.insertMany rs = some t' := by
  have hall : ((t.rows ++ rs).map key).Nodup := by
    rw [List.map_append, List.nodup_append]
    refine ⟨t.nodup, hnodup, ?_⟩
    intro k hk k' hk' hkk
    obtain ⟨r', hr', rfl⟩ := List.mem_map.mp hk
    obtain ⟨r, hr, rfl⟩ := List.mem_map.mp hk'
    exact find?_eq_none.mp (h r hr) r' hr' hkk
  exact ⟨⟨_, hall⟩, dif_pos hall⟩

theorem insertMany_singleton {t : Table key} {r : ρ} (h : t.find? (key r) = none) :
    ∃ t', t.insertMany [r] = some t' :=
  insertMany_of_unused (List.nodup_singleton _) fun _ hr => List.mem_singleton.mp hr ▸ h

theorem insertMany_keepWhere {t t' : Table key} {rs : List ρ} {p : ρ → Bool}
    (h : t.insertMany rs = some t') (hp : ∀ r ∈ rs, p r) :
    (t.keepWhere p).insertMany rs = some (t'.keepWhere p) := by
  rw [insertMany_eq_some, rows_keepWhere, rows_keepWhere, insertMany_eq_some.mp h,
    List.filter_append, List.filter_eq_self.mpr hp]

theorem keepWhere_insertMany_of_not {t t' : Table key} {rs : List ρ} {p : ρ → Bool}
    (h : t.insertMany rs = some t') (hp : ∀ r ∈ rs, p r = false) :
    t'.keepWhere p = t.keepWhere p := by
  apply ext
  have hnone : rs.filter p = [] := List.filter_eq_nil_iff.mpr fun r hr => by simp [hp r hr]
  rw [rows_keepWhere, rows_keepWhere, insertMany_eq_some.mp h, List.filter_append, hnone,
    List.append_nil]

theorem find?_of_insertMany {t t' : Table key} {r : ρ} (h : t.insertMany [r] = some t') :
    t.find? (key r) = none := by
  have hnodup := t'.nodup
  rw [insertMany_eq_some.mp h, List.map_append, List.nodup_append] at hnodup
  exact find?_eq_none.mpr fun r' hr' =>
    hnodup.2.2 _ (List.mem_map_of_mem hr') _ (List.mem_singleton.mpr rfl)

theorem find?_insertMany_self {t t' : Table key} {r : ρ} (h : t.insertMany [r] = some t') :
    t'.find? (key r) = some r :=
  find?_eq_some.mpr ⟨by simp [insertMany_eq_some.mp h], rfl⟩

theorem find?_insertMany_of_not {t t' : Table key} {rs : List ρ} {k : κ}
    (h : t.insertMany rs = some t') (hk : ∀ r ∈ rs, key r ≠ k) : t'.find? k = t.find? k := by
  have hnone : rs.find? (fun r => key r = k) = none :=
    List.find?_eq_none.mpr fun r hr => by simpa using hk r hr
  rw [find?, find?, insertMany_eq_some.mp h, List.find?_append, hnone, Option.or_none]

theorem find?_insertMany_of_ne {t t' : Table key} {r : ρ} {k : κ} (h : t.insertMany [r] = some t')
    (hk : key r ≠ k) : t'.find? k = t.find? k :=
  find?_insertMany_of_not h fun _ hr => List.mem_singleton.mp hr ▸ hk

section Missing

variable {t : Table key} {k : κ} {q : ρ → Bool} {f : ρ → ρ}

theorem find?_deleteWhere_of_none (h : t.find? k = none) : (t.deleteWhere q).find? k = none := by
  rw [deleteWhere, find?_keepWhere, h, Option.filter_none]

theorem find?_updateWhere_of_none (hf : ∀ r, key (f r) = key r) (h : t.find? k = none) :
    (t.updateWhere q f hf).find? k = none := by
  rw [find?_eq_none] at h ⊢
  intro r hr hk
  obtain ⟨r₀, hr₀, hk₀⟩ := (exists_updateWhere hf hf).mp ⟨r, hr, hk⟩
  exact h r₀ hr₀ hk₀

end Missing

theorem countP_mem_le (t : Table key) (ks : List κ) :
    (t.rows.countP fun r => key r ∈ ks) ≤ ks.length := by
  have hnodup : ((t.rows.filter fun r => key r ∈ ks).map key).Nodup :=
    t.nodup.sublist (List.filter_sublist.map key)
  have hsub : ((t.rows.filter fun r => key r ∈ ks).map key) ⊆ ks := by
    intro k hk
    obtain ⟨r, hr, rfl⟩ := List.mem_map.mp hk
    exact of_decide_eq_true (List.mem_filter.mp hr).2
  rw [List.countP_eq_length_filter, ← List.length_map key]
  exact (List.subperm_of_subset hnodup hsub).length_le

end Table

end Foundations
