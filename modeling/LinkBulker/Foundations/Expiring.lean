import Mathlib.Data.Int.Order.Basic

/-! A key of a store that drops the value once the clock is past its deadline. -/

universe u

namespace Foundations

structure Expiring (α : Type u) where
  value : α
  deadline : ℤ
  deriving DecidableEq

abbrev Slot (α : Type u) := Option (Expiring α)

namespace Slot

variable {α : Type u}

def read (slot : Slot α) (now : ℤ) : Option α :=
  slot.bind fun e => if e.deadline < now then none else some e.value

/-- A time to live that is not positive deletes the key. -/
def write (value : α) (now ttl : ℤ) : Slot α :=
  if ttl ≤ 0 then none else some ⟨value, now + ttl⟩

def modify (slot : Slot α) (now : ℤ) (f : α → α) : Slot α :=
  slot.bind fun e => if e.deadline < now then none else some ⟨f e.value, e.deadline⟩

@[simp] theorem read_none (now : ℤ) : read (none : Slot α) now = none := rfl

theorem read_eq_some {slot : Slot α} {now : ℤ} {a : α} :
    slot.read now = some a ↔ ∃ d, slot = some ⟨a, d⟩ ∧ now ≤ d := by
  cases slot with
  | none => simp
  | some e =>
    obtain ⟨b, d⟩ := e
    simp only [read, Option.bind_some, Option.some.injEq, Expiring.mk.injEq]
    split
    · rename_i h
      simp only [reduceCtorEq, false_iff, not_exists, not_and, not_le]
      rintro _ ⟨-, rfl⟩
      exact h
    · rename_i h
      constructor
      · intro hab
        exact ⟨d, ⟨by simpa using hab, rfl⟩, by omega⟩
      · rintro ⟨_, ⟨rfl, rfl⟩, -⟩
        rfl

theorem read_write {a : α} {now ttl : ℤ} (h : 0 < ttl) {t : ℤ} :
    (write a now ttl).read t = if t ≤ now + ttl then some a else none := by
  have h' : ¬ ttl ≤ 0 := by omega
  simp only [write, if_neg h', read, Option.bind_some]
  split <;> split <;> first | rfl | omega

theorem modify_of_le {a : α} {d now : ℤ} (f : α → α) (h : now ≤ d) :
    modify (some ⟨a, d⟩) now f = some ⟨f a, d⟩ := by
  simp [modify, h]

theorem read_modify (slot : Slot α) (now : ℤ) (f : α → α) :
    (slot.modify now f).read now = (slot.read now).map f := by
  cases slot with
  | none => rfl
  | some e =>
    simp only [modify, read, Option.bind_some]
    split
    · rfl
    · rename_i h
      simp [h]

theorem read_mono {slot : Slot α} {now later : ℤ} (h : now ≤ later) {a : α}
    (hr : slot.read later = some a) : slot.read now = some a := by
  obtain ⟨d, rfl, hd⟩ := read_eq_some.mp hr
  exact read_eq_some.mpr ⟨d, rfl, by omega⟩

end Slot

end Foundations
