import LinkBulker.Foundations.Bijective
import LinkBulker.Shared.Columns
import Mathlib

/-! Column letters are the numerals of a base without a zero. -/

namespace LinkBulker.Shared

open Foundations.Bijective

structure IsColumn (s : String) : Prop where
  ne_nil : s.toList ≠ []
  isAlpha : ∀ c ∈ s.toList, c.isAlpha

theorem toNat_upperLetter : ∀ r < 26, (Char.ofNat (65 + r)).toNat = 65 + r := by decide

def upperLetters : Alphabet Char 26 where
  digit := fun c => c.toNat - 64
  letter := fun r => Char.ofNat (65 + r)
  pos := by decide
  digit_letter := fun r hr => by
    rw [toNat_upperLetter r hr]
    omega

theorem isUpper_iff_toNat {c : Char} : c.isUpper ↔ 65 ≤ c.toNat ∧ c.toNat ≤ 90 := by
  simp [Char.isUpper, UInt32.le_iff_toNat_le]

theorem isLetter_iff {c : Char} : upperLetters.IsLetter c ↔ c.isUpper := by
  rw [isUpper_iff_toNat]
  constructor
  · rintro ⟨r, hr, rfl⟩
    rw [show upperLetters.letter r = Char.ofNat (65 + r) from rfl, toNat_upperLetter r hr]
    omega
  · intro h
    refine ⟨c.toNat - 65, by omega, ?_⟩
    have hsum : 65 + (c.toNat - 65) = c.toNat := by omega
    rw [show upperLetters.letter (c.toNat - 65) = Char.ofNat (65 + (c.toNat - 65)) from rfl,
      hsum, Char.ofNat_toNat]

theorem strictMonoOn_digit : StrictMonoOn upperLetters.digit {c | upperLetters.IsLetter c} := by
  intro c hc d hd hlt
  have hc : 65 ≤ c.toNat ∧ c.toNat ≤ 90 := isUpper_iff_toNat.mp (isLetter_iff.mp hc)
  have hlt : c.toNat < d.toNat := UInt32.lt_iff_toNat_lt.mp hlt
  show c.toNat - 64 < d.toNat - 64
  omega

theorem colLetterLoop_eq (n : ℕ) (result : List Char) :
    colLetterLoop n result = upperLetters.numeral n ++ result := by
  induction n using Nat.strongRecOn generalizing result with
  | ind n ih =>
    cases n with
    | zero => simp [colLetterLoop, Alphabet.numeral_zero]
    | succ n =>
      rw [colLetterLoop, if_pos n.succ_pos, ih _ (by omega), Alphabet.numeral_succ]
      simp [upperLetters]

theorem indexToColLetter_natCast (n : ℕ) :
    indexToColLetter n = .ok (String.ofList (upperLetters.numeral (n + 1))) := by
  unfold indexToColLetter
  rw [if_neg (by omega), colLetterLoop_eq, List.append_nil, Int.toNat_natCast]

theorem toList_toUpper (s : String) : s.toUpper.toList = s.toList.map Char.toUpper :=
  String.toList_map

theorem toUpper_eq_self {s : String} (h : ∀ c ∈ s.toList, c.isUpper) : s.toUpper = s := by
  rw [← String.toList_inj, toList_toUpper]
  refine (List.map_congr_left fun c hc => ?_).trans (List.map_id _)
  exact Char.toUpper_eq_of_not_isLower (Char.not_isLower_of_isUpper (h c hc))

theorem colLetterToIndex_eq {s : String} (hne : s.toUpper.toList ≠ [])
    (hs : ∀ c ∈ s.toUpper.toList, upperLetters.IsLetter c) :
    colLetterToIndex s = .ok (upperLetters.value s.toUpper.toList - 1) := by
  have hupper : s.toUpper.toList.all Char.isUpper :=
    List.all_eq_true.mpr fun c hc => isLetter_iff.mp (hs c hc)
  unfold colLetterToIndex
  rw [← toList_toUpper]
  exact if_pos ⟨hne, hupper⟩

namespace IsColumn

variable {s t : String}

theorem toUpper_ne_nil (hs : IsColumn s) : s.toUpper.toList ≠ [] := by
  rw [toList_toUpper]
  exact mt List.map_eq_nil_iff.mp hs.ne_nil

theorem isLetter (hs : IsColumn s) : ∀ c ∈ s.toUpper.toList, upperLetters.IsLetter c := by
  intro c hc
  rw [toList_toUpper] at hc
  obtain ⟨d, hd, rfl⟩ := List.mem_map.mp hc
  rw [isLetter_iff, Char.isUpper_toUpper_eq_isAlpha]
  exact hs.isAlpha d hd

theorem index_eq (hs : IsColumn s) :
    ∃ i, colLetterToIndex s = .ok i ∧ i + 1 = upperLetters.value s.toUpper.toList := by
  refine ⟨_, colLetterToIndex_eq hs.toUpper_ne_nil hs.isLetter, ?_⟩
  exact Nat.sub_add_cancel (Alphabet.value_pos hs.isLetter hs.toUpper_ne_nil)

theorem indexToColLetter_index (hs : IsColumn s) :
    ∃ i : ℕ, colLetterToIndex s = .ok i ∧ indexToColLetter i = .ok s.toUpper := by
  obtain ⟨i, hi, hvalue⟩ := hs.index_eq
  refine ⟨i, hi, ?_⟩
  rw [indexToColLetter_natCast, hvalue, Alphabet.numeral_value hs.isLetter, String.ofList_toList]

theorem index_lt_iff (hs : IsColumn s) (ht : IsColumn t) {i j : ℕ}
    (hi : colLetterToIndex s = .ok i) (hj : colLetterToIndex t = .ok j) :
    i < j ↔ List.Shortlex (· < ·) s.toUpper.toList t.toUpper.toList := by
  obtain ⟨i', hi', hsvalue⟩ := hs.index_eq
  obtain ⟨j', hj', htvalue⟩ := ht.index_eq
  obtain rfl : i' = i := Except.ok.inj (hi'.symm.trans hi)
  obtain rfl : j' = j := Except.ok.inj (hj'.symm.trans hj)
  rw [← Alphabet.value_lt_iff strictMonoOn_digit hs.isLetter ht.isLetter, ← hsvalue, ← htvalue]
  exact Nat.succ_lt_succ_iff.symm

end IsColumn

theorem colLetterToIndex_index (n : ℕ) :
    ∃ s, indexToColLetter n = .ok s ∧ s ≠ "" ∧ (∀ c ∈ s.toList, c.isUpper) ∧
      colLetterToIndex s = .ok n := by
  refine ⟨_, indexToColLetter_natCast n, ?_⟩
  generalize hs : String.ofList (upperLetters.numeral (n + 1)) = s
  have htoList : s.toList = upperLetters.numeral (n + 1) := by rw [← hs, String.toList_ofList]
  have hne : s.toList ≠ [] := htoList ▸ Alphabet.numeral_ne_nil n.succ_pos
  have hletter : ∀ c ∈ s.toList, upperLetters.IsLetter c :=
    htoList ▸ Alphabet.isLetter_of_mem_numeral (n + 1)
  have hupper : ∀ c ∈ s.toList, c.isUpper := fun c hc => isLetter_iff.mp (hletter c hc)
  have hself : s.toUpper = s := toUpper_eq_self hupper
  refine ⟨fun h => hne (String.toList_eq_nil_iff.mpr h), hupper, ?_⟩
  rw [colLetterToIndex_eq (by rwa [hself]) (by rwa [hself]), hself, htoList,
    Alphabet.value_numeral, Nat.add_sub_cancel]

theorem offset_offset (s : String) (a b : ℤ)
    (h : ∀ i : ℕ, colLetterToIndex s = .ok i → 0 ≤ i + a) :
    (offsetColLetter s a).bind (offsetColLetter · b) = offsetColLetter s (a + b) := by
  unfold offsetColLetter
  cases hs : colLetterToIndex s with
  | error e => rfl
  | ok i =>
    obtain ⟨m, hm⟩ := Int.eq_ofNat_of_zero_le (h i hs)
    obtain ⟨t, ht, -, -, hback⟩ := colLetterToIndex_index m
    show (indexToColLetter (i + a)).bind _ = indexToColLetter (i + (a + b))
    rw [hm, ht, ← Int.add_assoc, hm]
    show (colLetterToIndex t).bind _ = _
    rw [hback]
    rfl

/-- Both inverses, the order of the columns, and moves that add up. -/
theorem columnLetters_bijective :
    (∀ n : ℕ, ∃ s, indexToColLetter n = .ok s ∧ s ≠ "" ∧ (∀ c ∈ s.toList, c.isUpper) ∧
      colLetterToIndex s = .ok n) ∧
    (∀ s, IsColumn s → ∃ i : ℕ, colLetterToIndex s = .ok i ∧ indexToColLetter i = .ok s.toUpper) ∧
    (∀ (s t : String) (i j : ℕ), IsColumn s → IsColumn t → colLetterToIndex s = .ok i →
      colLetterToIndex t = .ok j →
      (i < j ↔ List.Shortlex (· < ·) s.toUpper.toList t.toUpper.toList)) ∧
    (∀ (s : String) (a b : ℤ), (∀ i : ℕ, colLetterToIndex s = .ok i → 0 ≤ i + a) →
      (offsetColLetter s a).bind (offsetColLetter · b) = offsetColLetter s (a + b)) :=
  ⟨colLetterToIndex_index, fun _ hs => hs.indexToColLetter_index,
    fun _ _ _ _ hs ht hi hj => hs.index_lt_iff ht hi hj, offset_offset⟩

/-- A carry at `Z`, and a move back over it. -/
theorem columnLetters_bijective_sample :
    (∃ i : ℕ, colLetterToIndex "az" = .ok i ∧ indexToColLetter i = .ok "az".toUpper) ∧
      (offsetColLetter "az" 1).bind (offsetColLetter · (-27)) = offsetColLetter "az" (-26) := by
  have hcolumn : IsColumn "az" := ⟨by decide, List.all_eq_true.mp (by decide +kernel)⟩
  have hindex : colLetterToIndex "az" = .ok 51 := by decide +kernel
  obtain ⟨-, hinverse, -, hoffset⟩ := columnLetters_bijective
  refine ⟨hinverse "az" hcolumn, hoffset "az" 1 (-27) fun i hi => ?_⟩
  obtain rfl : 51 = i := Except.ok.inj (hindex.symm.trans hi)
  decide

end LinkBulker.Shared
