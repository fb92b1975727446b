import Mathlib.Data.List.Basic

/-! Words and numbers read from the front of a text, each as long as it can be. -/

universe u

namespace Foundations.Munch

variable {α : Type u} {p : α → Bool} {word rest : List α}

/-- The longest word of such characters, which may not be empty, and what follows it. -/
def munch (p : α → Bool) (cs : List α) : Option (List α × List α) :=
  let word := cs.takeWhile p
  if word.isEmpty then none else some (word, cs.dropWhile p)

def readNumber (cs : List Char) : Option (ℕ × List Char) :=
  (munch Char.isDigit cs).map fun r => (Nat.ofDigitChars 10 r.1 0, r.2)

theorem takeWhile_append_of_stop (hword : ∀ c ∈ word, p c) (hrest : ∀ c ∈ rest.head?, ¬ p c) :
    (word ++ rest).takeWhile p = word := by
  rw [List.takeWhile_append_of_pos hword]
  cases rest with
  | nil => rw [List.takeWhile_nil, List.append_nil]
  | cons c cs => rw [List.takeWhile_cons_of_neg (hrest c rfl), List.append_nil]

theorem dropWhile_append_of_stop (hword : ∀ c ∈ word, p c) (hrest : ∀ c ∈ rest.head?, ¬ p c) :
    (word ++ rest).dropWhile p = rest := by
  rw [List.dropWhile_append_of_pos hword]
  cases rest with
  | nil => rfl
  | cons c cs => exact List.dropWhile_cons_of_neg (hrest c rfl)

theorem munch_append (hne : word ≠ []) (hword : ∀ c ∈ word, p c)
    (hrest : ∀ c ∈ rest.head?, ¬ p c) : munch p (word ++ rest) = some (word, rest) := by
  unfold munch
  rw [takeWhile_append_of_stop hword hrest, dropWhile_append_of_stop hword hrest]
  exact if_neg (mt List.isEmpty_iff.mp hne)

theorem isDigit_of_mem_toString {n : ℕ} {c : Char} (hc : c ∈ (toString n).toList) : c.isDigit := by
  rw [Nat.toString_eq_repr, Nat.toList_repr] at hc
  exact Nat.isDigit_of_mem_toDigits (by decide) (by decide) hc

theorem toList_toString_ne_nil (n : ℕ) : (toString n).toList ≠ [] := by
  rw [Nat.toString_eq_repr, Nat.toList_repr]
  exact Nat.toDigits_ne_nil

theorem isDigit_of_mem_head? {n : ℕ} {rest : List Char} :
    ∀ c ∈ ((toString n).toList ++ rest).head?, c.isDigit := by
  intro c hc
  rw [List.head?_append_of_ne_nil _ (toList_toString_ne_nil n)] at hc
  exact isDigit_of_mem_toString (List.mem_of_mem_head? hc)

theorem ofDigitChars_toString (n : ℕ) : Nat.ofDigitChars 10 (toString n).toList 0 = n := by
  rw [Nat.toString_eq_repr, Nat.toList_repr]
  exact Nat.ofDigitChars_toDigits (by decide) (by decide)

theorem readNumber_append (n : ℕ) {rest : List Char} (hrest : ∀ c ∈ rest.head?, ¬ c.isDigit) :
    readNumber ((toString n).toList ++ rest) = some (n, rest) := by
  unfold readNumber
  rw [munch_append (toList_toString_ne_nil n) (fun _ hc => isDigit_of_mem_toString hc) hrest,
    Option.map_some, ofDigitChars_toString]

end Foundations.Munch
