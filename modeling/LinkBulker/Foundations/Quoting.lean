import Mathlib.Data.List.Basic

/-! Text between quotes, where a quote that belongs to the text is written twice. -/

universe u

namespace Foundations.Quoting

variable {α : Type u} [DecidableEq α] {q : α} {cs rest : List α}

def escape (q : α) (cs : List α) : List α := cs.flatMap fun c => if c = q then [q, q] else [c]

def readQuoted (q : α) : List α → Option (List α × List α)
  | [] => none
  | c :: cs =>
    if c = q then
      match cs with
      | [] => some ([], [])
      | d :: ds =>
        if d = q then (readQuoted q ds).map fun r => (q :: r.1, r.2) else some ([], d :: ds)
    else (readQuoted q cs).map fun r => (c :: r.1, r.2)

theorem escape_cons_self : escape q (q :: cs) = q :: q :: escape q cs := by
  simp [escape]

theorem escape_cons_of_ne {c : α} (h : c ≠ q) : escape q (c :: cs) = c :: escape q cs := by
  simp [escape, h]

theorem readQuoted_cons_of_ne {c : α} (h : c ≠ q) :
    readQuoted q (c :: cs) = (readQuoted q cs).map fun r => (c :: r.1, r.2) := by
  rw [readQuoted.eq_def]
  exact if_neg h

theorem readQuoted_cons_self (hrest : rest.head? ≠ some q) :
    readQuoted q (q :: rest) = some ([], rest) := by
  cases rest with
  | nil => simp [readQuoted]
  | cons d ds =>
    have hd : d ≠ q := fun h => hrest (by rw [h, List.head?_cons])
    simp [readQuoted, hd]

theorem readQuoted_escape (hrest : rest.head? ≠ some q) :
    readQuoted q (escape q cs ++ q :: rest) = some (cs, rest) := by
  induction cs with
  | nil => exact readQuoted_cons_self hrest
  | cons c cs ih =>
    by_cases hc : c = q
    · subst hc
      simp [escape_cons_self, readQuoted, ih]
    · rw [escape_cons_of_ne hc, List.cons_append, readQuoted_cons_of_ne hc, ih]
      rfl

end Foundations.Quoting
