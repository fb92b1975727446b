import Mathlib.Data.List.Induction
import Mathlib.Data.List.Shortlex
import Mathlib.Data.Nat.Basic

/-! Numerals without a zero: in base `b` the letters count from `1` to `b`. -/

universe u

namespace Foundations.Bijective

structure Alphabet (α : Type u) (b : ℕ) where
  digit : α → ℕ
  letter : ℕ → α
  pos : 0 < b
  digit_letter : ∀ r < b, digit (letter r) = r + 1

namespace Alphabet

variable {α : Type u} {b : ℕ} (A : Alphabet α b)

def IsLetter (c : α) : Prop := ∃ r < b, A.letter r = c

def value (xs : List α) : ℕ := xs.foldl (fun n x => n * b + A.digit x) 0

def numeral : ℕ → List α
  | 0 => []
  | n + 1 => numeral (n / b) ++ [A.letter (n % b)]
termination_by n => n
decreasing_by exact Nat.lt_succ_of_le (Nat.div_le_self n b)

variable {A} {c : α} {xs ys : List α}

theorem IsLetter.digit_pos (hc : A.IsLetter c) : 0 < A.digit c := by
  obtain ⟨r, hr, rfl⟩ := hc
  rw [A.digit_letter r hr]
  exact r.succ_pos

theorem IsLetter.digit_le (hc : A.IsLetter c) : A.digit c ≤ b := by
  obtain ⟨r, hr, rfl⟩ := hc
  rw [A.digit_letter r hr]
  exact hr

theorem value_append_singleton (xs : List α) (c : α) :
    A.value (xs ++ [c]) = A.value xs * b + A.digit c := by
  simp [value, List.foldl_append]

theorem numeral_zero : A.numeral 0 = [] := by rw [numeral]

theorem numeral_succ (n : ℕ) : A.numeral (n + 1) = A.numeral (n / b) ++ [A.letter (n % b)] := by
  rw [numeral]

theorem numeral_ne_nil {n : ℕ} (hn : 0 < n) : A.numeral n ≠ [] := by
  obtain ⟨m, rfl⟩ := Nat.exists_eq_add_of_le' hn
  rw [numeral_succ]
  exact List.append_ne_nil_of_right_ne_nil _ (List.cons_ne_nil _ _)

theorem isLetter_of_mem_numeral (n : ℕ) : ∀ c ∈ A.numeral n, A.IsLetter c := by
  induction n using Nat.strongRecOn with
  | ind n ih =>
    cases n with
    | zero => simp [numeral_zero]
    | succ n =>
      intro c hc
      rw [numeral_succ, List.mem_append, List.mem_singleton] at hc
      rcases hc with hc | rfl
      · exact ih (n / b) (Nat.lt_succ_of_le (Nat.div_le_self n b)) c hc
      · exact ⟨n % b, Nat.mod_lt n A.pos, rfl⟩

/-- The carry of a numeral without a zero: `n + 1` leaves `n / b` and `n % b + 1`. -/
theorem value_numeral (n : ℕ) : A.value (A.numeral n) = n := by
  induction n using Nat.strongRecOn with
  | ind n ih =>
    cases n with
    | zero => rw [numeral_zero]; rfl
    | succ n =>
      have hlt : n / b < n + 1 := Nat.lt_succ_of_le (Nat.div_le_self n b)
      calc
        A.value (A.numeral (n + 1))
          = n / b * b + (n % b + 1) := by
            rw [numeral_succ, value_append_singleton, ih _ hlt,
              A.digit_letter _ (Nat.mod_lt n A.pos)]
        _ = n + 1 := by rw [← Nat.add_assoc, Nat.div_add_mod']

theorem numeral_value (hxs : ∀ c ∈ xs, A.IsLetter c) : A.numeral (A.value xs) = xs := by
  induction xs using List.reverseRecOn with
  | nil => exact numeral_zero
  | append_singleton xs c ih =>
    obtain ⟨r, hr, rfl⟩ := hxs c (by simp)
    have hdiv : (A.value xs * b + r) / b = A.value xs := by
      rw [Nat.mul_comm, Nat.mul_add_div A.pos, Nat.div_eq_of_lt hr, Nat.add_zero]
    have hmod : (A.value xs * b + r) % b = r := by
      rw [Nat.mul_comm, Nat.mul_add_mod, Nat.mod_eq_of_lt hr]
    rw [value_append_singleton, A.digit_letter r hr, ← Nat.add_assoc, numeral_succ, hdiv, hmod,
      ih fun c hc => hxs c (List.mem_append_left _ hc)]

theorem value_pos (hxs : ∀ c ∈ xs, A.IsLetter c) (h : xs ≠ []) : 0 < A.value xs := by
  refine Nat.pos_of_ne_zero fun h0 => h ?_
  rw [← numeral_value hxs, h0, numeral_zero]

theorem value_lt_of_length_lt (hxs : ∀ c ∈ xs, A.IsLetter c) (hys : ∀ c ∈ ys, A.IsLetter c)
    (h : xs.length < ys.length) : A.value xs < A.value ys := by
  induction xs using List.reverseRecOn generalizing ys with
  | nil => exact value_pos hys (List.ne_nil_of_length_pos h)
  | append_singleton xs c ih =>
    cases ys using List.reverseRecOn with
    | nil => exact absurd h (Nat.not_lt_zero _)
    | append_singleton ys d =>
      have hlt : A.value xs < A.value ys := by
        refine ih (fun a ha => hxs a (List.mem_append_left _ ha))
          (fun a ha => hys a (List.mem_append_left _ ha)) ?_
        simpa using h
      have hc : A.digit c ≤ b := (hxs c (by simp)).digit_le
      have hd : 0 < A.digit d := (hys d (by simp)).digit_pos
      rw [value_append_singleton, value_append_singleton]
      calc
        A.value xs * b + A.digit c ≤ (A.value xs + 1) * b := by rw [Nat.succ_mul]; omega
        _ ≤ A.value ys * b := Nat.mul_le_mul_right b hlt
        _ < A.value ys * b + A.digit d := Nat.lt_add_of_pos_right hd

theorem foldl_lt {n m : ℕ} (hxs : ∀ c ∈ xs, A.IsLetter c) (hys : ∀ c ∈ ys, A.IsLetter c)
    (hlen : xs.length = ys.length) (h : n < m) :
    xs.foldl (fun n x => n * b + A.digit x) n < ys.foldl (fun n x => n * b + A.digit x) m := by
  induction xs generalizing ys n m with
  | nil => rwa [List.length_eq_zero_iff.mp hlen.symm]
  | cons c xs ih =>
    cases ys with
    | nil => exact absurd hlen (Nat.succ_ne_zero _)
    | cons d ys =>
      rw [List.forall_mem_cons] at hxs hys
      rw [List.foldl_cons, List.foldl_cons]
      refine ih hxs.2 hys.2 (Nat.succ.inj hlen) ?_
      have hc : A.digit c ≤ b := hxs.1.digit_le
      have hd : 0 < A.digit d := hys.1.digit_pos
      have hle : (n + 1) * b ≤ m * b := Nat.mul_le_mul_right b h
      rw [Nat.succ_mul] at hle
      omega

section Order

variable [LinearOrder α]

theorem foldl_lt_of_lex (hmono : StrictMonoOn A.digit {c | A.IsLetter c})
    (hlex : List.Lex (· < ·) xs ys) :
    ∀ n : ℕ, (∀ c ∈ xs, A.IsLetter c) → (∀ c ∈ ys, A.IsLetter c) → xs.length = ys.length →
      xs.foldl (fun n x => n * b + A.digit x) n < ys.foldl (fun n x => n * b + A.digit x) n := by
  induction hlex with
  | nil => exact fun n _ _ hlen => absurd hlen.symm (Nat.succ_ne_zero _)
  | cons _ ih =>
    intro n hxs hys hlen
    exact ih _ (List.forall_mem_cons.mp hxs).2 (List.forall_mem_cons.mp hys).2
      (Nat.succ.inj hlen)
  | rel hlt =>
    intro n hxs hys hlen
    rw [List.forall_mem_cons] at hxs hys
    rw [List.foldl_cons, List.foldl_cons]
    refine foldl_lt hxs.2 hys.2 (Nat.succ.inj hlen) ?_
    exact Nat.add_lt_add_left (hmono hxs.1 hys.1 hlt) _

theorem value_lt_of_shortlex (hmono : StrictMonoOn A.digit {c | A.IsLetter c})
    (hxs : ∀ c ∈ xs, A.IsLetter c) (hys : ∀ c ∈ ys, A.IsLetter c)
    (h : List.Shortlex (· < ·) xs ys) : A.value xs < A.value ys := by
  rcases List.shortlex_def.mp h with hlen | ⟨hlen, hlex⟩
  · exact value_lt_of_length_lt hxs hys hlen
  · exact foldl_lt_of_lex hmono hlex 0 hxs hys hlen

theorem value_lt_iff (hmono : StrictMonoOn A.digit {c | A.IsLetter c})
    (hxs : ∀ c ∈ xs, A.IsLetter c) (hys : ∀ c ∈ ys, A.IsLetter c) :
    A.value xs < A.value ys ↔ List.Shortlex (· < ·) xs ys := by
  refine ⟨fun hlt => ?_, value_lt_of_shortlex hmono hxs hys⟩
  by_contra hnot
  have hrev : ¬ List.Shortlex (· < ·) ys xs := fun h =>
    Nat.lt_asymm hlt (value_lt_of_shortlex hmono hys hxs h)
  have heq : xs = ys := Std.Trichotomous.trichotomous xs ys hnot hrev
  exact Nat.lt_irrefl _ (heq ▸ hlt)

end Order

end Alphabet

end Foundations.Bijective
