import LinkBulker.Foundations.Pool

/-! A lock and its clients, each inside or outside of what the lock protects. -/

namespace Foundations.Exclusion

inductive Effect (free : Bool) : Bool → Bool → Bool → Prop
  | stays {inside : Bool} : Effect free inside free inside
  | takes (hfree : free = true) : Effect free false false true
  | leaves {free' : Bool} : Effect free true free' false

structure Excludes (free : Bool) (places : List Bool) : Prop where
  held : true ∈ places → free = false
  alone : places.count true ≤ 1

variable {free free' inside inside' : Bool} {places : List Bool} {i : ℕ}

theorem Excludes.start (h : true ∉ places) : Excludes free places where
  held hin := absurd hin h
  alone := by
    rw [List.count_eq_zero_of_not_mem h]
    exact Nat.zero_le 1

theorem Excludes.wait (h : Excludes free places) (hheld : true ∈ places → free' = false) :
    Excludes free' places :=
  ⟨hheld, h.alone⟩

theorem Excludes.join (h : Excludes free places) : Excludes free (places ++ [false]) where
  held hin := h.held (by simpa using hin)
  alone := by
    rw [List.count_append]
    simpa using h.alone

theorem Excludes.step (h : Excludes free places) (hget : places[i]? = some inside)
    (he : Effect free inside free' inside') : Excludes free' (places.set i inside') := by
  obtain ⟨rest, hplaces, hset⟩ := Pool.exists_rest hget
  have hcount := hplaces.count_eq true
  have hcount' := (hset inside').count_eq true
  have hmem : true ∈ places.set i inside' ↔ true ∈ inside' :: rest := (hset inside').mem_iff
  cases he with
  | stays =>
    refine ⟨fun hin => h.held (hplaces.mem_iff.mpr (hmem.mp hin)), ?_⟩
    rw [hcount', ← hcount]
    exact h.alone
  | takes hfree =>
    have hno : true ∉ places := fun hin => by
      rw [h.held hin] at hfree
      cases hfree
    refine ⟨fun _ => rfl, ?_⟩
    rw [List.count_eq_zero_of_not_mem hno, List.count_cons_of_ne (by decide)] at hcount
    rw [hcount', List.count_cons_self]
    omega
  | leaves =>
    have halone := h.alone
    rw [hcount, List.count_cons_self] at halone
    have hzero : rest.count true = 0 := by omega
    refine ⟨fun hin => ?_, ?_⟩
    · rcases List.mem_cons.mp (hmem.mp hin) with hfalse | hin
      · cases hfalse
      · exact absurd hin (List.count_eq_zero.mp hzero)
    · rw [hcount', List.count_cons_of_ne (by decide), hzero]
      exact Nat.zero_le 1

end Foundations.Exclusion
