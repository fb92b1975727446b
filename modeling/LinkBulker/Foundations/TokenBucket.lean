import Mathlib.Algebra.Order.Field.Basic
import Mathlib.Data.Finset.Card
import Mathlib.Data.Finset.Max
import Mathlib.Order.Interval.Finset.Nat
import Mathlib.Tactic.Linarith

/-! Token buckets over an ordered field: what a bucket grants in any stretch of time, and what is
left of that when those it grants act some time later. -/

universe u

namespace Foundations

structure Bucket (K : Type u) where
  tokens : K
  ts : K

namespace Bucket

variable {K : Type u} [Field K] [LinearOrder K]

variable {cap rate now : K} {b : Bucket K} {n : ℕ} {g g' : ℕ → K}

def refilled (cap rate : K) (b : Bucket K) (now : K) : K :=
  min cap (b.tokens + max 0 (now - b.ts) * rate)

def serve (cap rate : K) (b : Bucket K) (now : K) : Bool × Bucket K :=
  if 1 ≤ b.refilled cap rate now then (true, ⟨b.refilled cap rate now - 1, now⟩)
  else (false, ⟨b.refilled cap rate now, now⟩)

structure Fair (cap rate : K) (n : ℕ) (g : ℕ → K) (b : Bucket K) : Prop where
  nonneg : 0 ≤ b.tokens
  since : ∀ i < n, (n - i : K) + b.tokens ≤ cap + rate * (b.ts - g i)
  between : ∀ i j, i ≤ j → j < n → (j + 1 - i : K) ≤ cap + rate * (g j - g i)

theorem Fair.congr (h : Fair cap rate n g b) (he : ∀ i < n, g i = g' i) : Fair cap rate n g' b where
  nonneg := h.nonneg
  since i hi := he i hi ▸ h.since i hi
  between i j hij hj := he i (hij.trans_lt hj) ▸ he j hj ▸ h.between i j hij hj

theorem Fair.full (hcap : 0 ≤ cap) : Fair cap rate 0 g ⟨cap, now⟩ where
  nonneg := hcap
  since _ hi := absurd hi (Nat.not_lt_zero _)
  between _ _ _ hj := absurd hj (Nat.not_lt_zero _)

theorem refilled_le_cap : b.refilled cap rate now ≤ cap := min_le_left _ _

variable [IsStrictOrderedRing K]

theorem Fair.reset (hcap : 0 ≤ cap) (h : Fair cap rate n g b)
    (hfull : cap ≤ rate * (now - b.ts)) : Fair cap rate n g ⟨cap, now⟩ where
  nonneg := hcap
  since i hi := by
    have hs := h.since i hi
    have ht := h.nonneg
    have hsplit : rate * (now - g i) = rate * (now - b.ts) + rate * (b.ts - g i) := by
      rw [← mul_add, sub_add_sub_cancel]
    simp only
    linarith
  between := h.between

theorem refilled_le (hts : b.ts ≤ now) :
    b.refilled cap rate now ≤ b.tokens + rate * (now - b.ts) := by
  have hmax : max 0 (now - b.ts) = now - b.ts := max_eq_right (sub_nonneg.mpr hts)
  calc
    b.refilled cap rate now ≤ b.tokens + max 0 (now - b.ts) * rate := min_le_right _ _
    _ = b.tokens + rate * (now - b.ts) := by rw [hmax, mul_comm]

theorem refilled_nonneg (hcap : 0 ≤ cap) (hrate : 0 ≤ rate) (h : 0 ≤ b.tokens) :
    0 ≤ b.refilled cap rate now :=
  le_min hcap (add_nonneg h (mul_nonneg (le_max_left _ _) hrate))

theorem Fair.since_refilled (h : Fair cap rate n g b) (hts : b.ts ≤ now) {i : ℕ} (hi : i < n) :
    (n - i : K) + b.refilled cap rate now ≤ cap + rate * (now - g i) := by
  have hs := h.since i hi
  have hr : b.refilled cap rate now ≤ b.tokens + rate * (now - b.ts) := refilled_le hts
  have hsplit : rate * (now - g i) = rate * (now - b.ts) + rate * (b.ts - g i) := by
    rw [← mul_add, sub_add_sub_cancel]
  linarith

theorem Fair.serve (hcap : 0 ≤ cap) (hrate : 0 ≤ rate) (h : Fair cap rate n g b)
    (hts : b.ts ≤ now) :
    if (b.serve cap rate now).1 then
      Fair cap rate (n + 1) (Function.update g n now) (b.serve cap rate now).2
    else Fair cap rate n g (b.serve cap rate now).2 := by
  unfold Bucket.serve
  by_cases h1 : 1 ≤ b.refilled cap rate now
  · simp only [h1, if_true]
    have hold : ∀ i < n, Function.update g n now i = g i := fun i hi =>
      Function.update_of_ne hi.ne _ _
    have hnew : Function.update g n now n = now := Function.update_self ..
    have hsince : ∀ i < n + 1, ((n + 1 : ℕ) - i : K) + (b.refilled cap rate now - 1) ≤
        cap + rate * (now - Function.update g n now i) := by
      intro i hi
      push_cast
      rcases Nat.lt_succ_iff_lt_or_eq.mp hi with hi | rfl
      · have hs := h.since_refilled hts hi
        rw [hold i hi]
        linarith
      · have hc : b.refilled cap rate now ≤ cap := refilled_le_cap
        rw [hnew]
        linarith
    refine ⟨sub_nonneg.mpr h1, hsince, ?_⟩
    intro i j hij hj
    rcases Nat.lt_succ_iff_lt_or_eq.mp hj with hj | rfl
    · rw [hold i (hij.trans_lt hj), hold j hj]
      exact h.between i j hij hj
    · have hs := hsince i (Nat.lt_succ_of_le hij)
      push_cast at hs
      rw [hnew]
      linarith
  · simp only [h1, if_false, Bool.false_eq_true]
    exact ⟨refilled_nonneg hcap hrate h.nonneg, fun i hi => h.since_refilled hts hi, h.between⟩

/-- Those granted act later: if no two come closer together than their grants, any stretch of time
sees no more of them than the bucket would grant in it. -/
theorem Fair.window (hcap : 0 ≤ cap) (hrate : 0 ≤ rate) (h : Fair cap rate n g b)
    {acts : List (ℕ × K)} (hnodup : (acts.map Prod.fst).Nodup) (hlt : ∀ x ∈ acts, x.1 < n)
    (hapart : ∀ x ∈ acts, ∀ y ∈ acts, |g x.1 - g y.1| ≤ |x.2 - y.2|)
    {s t : K} (hst : s ≤ t) (hin : ∀ x ∈ acts, s ≤ x.2 ∧ x.2 ≤ t) :
    (acts.length : K) ≤ cap + rate * (t - s) := by
  by_cases hnil : acts = []
  · subst hnil
    simpa using add_nonneg hcap (mul_nonneg hrate (sub_nonneg.mpr hst))
  -- the first and the last grant among those that act
  have hne : (acts.map Prod.fst).toFinset.Nonempty := by
    rw [List.toFinset_nonempty_iff]
    simpa using hnil
  obtain ⟨x, hx, hxmin⟩ : ∃ x ∈ acts, ∀ y ∈ acts, x.1 ≤ y.1 := by
    obtain ⟨i, hi, hmin⟩ := Finset.exists_min_image _ id hne
    obtain ⟨x, hx, rfl⟩ := List.mem_map.mp (List.mem_toFinset.mp hi)
    exact ⟨x, hx, fun y hy => hmin y.1 (List.mem_toFinset.mpr (List.mem_map_of_mem hy))⟩
  obtain ⟨y, hy, hymax⟩ : ∃ y ∈ acts, ∀ z ∈ acts, z.1 ≤ y.1 := by
    obtain ⟨j, hj, hmax⟩ := Finset.exists_max_image _ id hne
    obtain ⟨y, hy, rfl⟩ := List.mem_map.mp (List.mem_toFinset.mp hj)
    exact ⟨y, hy, fun z hz => hmax z.1 (List.mem_toFinset.mpr (List.mem_map_of_mem hz))⟩
  have hcount : acts.length ≤ y.1 + 1 - x.1 := by
    have hlen : acts.length = (acts.map Prod.fst).length := (List.length_map ..).symm
    rw [hlen, ← List.toFinset_card_of_nodup hnodup,
      ← Nat.card_Icc]
    refine Finset.card_le_card fun i hi => ?_
    obtain ⟨z, hz, rfl⟩ := List.mem_map.mp (List.mem_toFinset.mp hi)
    exact Finset.mem_Icc.mpr ⟨hxmin z hz, hymax z hz⟩
  have hxy : x.1 ≤ y.1 := hxmin y hy
  have hcast : (acts.length : K) ≤ y.1 + 1 - x.1 := by
    have hle : acts.length + x.1 ≤ y.1 + 1 := by omega
    have hle' : ((acts.length + x.1 : ℕ) : K) ≤ ((y.1 + 1 : ℕ) : K) := Nat.cast_le.mpr hle
    push_cast at hle'
    linarith
  have hgap : g y.1 - g x.1 ≤ t - s :=
    calc
      g y.1 - g x.1 ≤ |g y.1 - g x.1| := le_abs_self _
      _ ≤ |y.2 - x.2| := hapart y hy x hx
      _ ≤ t - s := abs_sub_le_of_le_of_le (hin y hy).1 (hin y hy).2 (hin x hx).1 (hin x hx).2
  calc
    (acts.length : K) ≤ y.1 + 1 - x.1 := hcast
    _ ≤ cap + rate * (g y.1 - g x.1) := h.between x.1 y.1 hxy (hlt y hy)
    _ ≤ cap + rate * (t - s) := by
      have := mul_le_mul_of_nonneg_left hgap hrate
      linarith

section Polling

variable {t : K}

theorem refilled_refilled (hrate : 0 ≤ rate) (hts : b.ts ≤ t) (ht : t ≤ now) :
    refilled cap rate ⟨b.refilled cap rate t, t⟩ now = b.refilled cap rate now := by
  have hfirst : 0 ≤ t - b.ts := sub_nonneg.mpr hts
  have hsecond : 0 ≤ now - t := sub_nonneg.mpr ht
  have hwhole : 0 ≤ now - b.ts := sub_nonneg.mpr (hts.trans ht)
  have hadd : 0 ≤ (now - t) * rate := mul_nonneg hsecond hrate
  have hsplit : (now - b.ts) * rate = (t - b.ts) * rate + (now - t) * rate := by
    rw [← add_mul, add_comm, sub_add_sub_cancel]
  simp only [refilled, max_eq_right hfirst, max_eq_right hsecond, max_eq_right hwhole]
  rw [hsplit, ← add_assoc, min_add, ← min_assoc, min_eq_left (le_add_of_nonneg_right hadd)]

theorem refilled_eq_cap (h : 0 ≤ b.tokens) (hts : b.ts ≤ now)
    (hfull : cap ≤ rate * (now - b.ts)) : b.refilled cap rate now = cap := by
  rw [refilled, max_eq_right (sub_nonneg.mpr hts), mul_comm]
  exact min_eq_left (hfull.trans (le_add_of_nonneg_left h))

theorem one_le_refilled_iff (hcap : 1 ≤ cap) (hrate : 0 < rate) (hts : b.ts ≤ t) (ht : t ≤ now) :
    1 ≤ b.refilled cap rate now ↔ t + (1 - b.refilled cap rate t) / rate ≤ now := by
  have hsecond : 0 ≤ now - t := sub_nonneg.mpr ht
  rw [← refilled_refilled hrate.le hts ht, refilled]
  simp only [max_eq_right hsecond]
  rw [le_min_iff, and_iff_right hcap, ← le_sub_iff_add_le', div_le_iff₀ hrate, sub_le_iff_le_add']

end Polling

section AnyClock

def grants (cap rate : K) : Bucket K → List K → ℕ
  | _, [] => 0
  | b, t :: ts =>
    (if (b.serve cap rate t).1 then 1 else 0) + grants cap rate (b.serve cap rate t).2 ts

def forward : K → List K → K
  | _, [] => 0
  | s, t :: ts => max 0 (t - s) + forward t ts

variable {ts : List K} {t : K}

omit [IsStrictOrderedRing K] in
theorem serve_ts : (b.serve cap rate now).2.ts = now := by
  unfold Bucket.serve
  split <;> rfl

omit [IsStrictOrderedRing K] in
theorem serve_tokens : ((if (b.serve cap rate now).1 then 1 else 0 : ℕ) : K) +
    (b.serve cap rate now).2.tokens = b.refilled cap rate now := by
  unfold Bucket.serve
  split
  · push_cast
    simp
  · simp

theorem forward_nonneg (t : K) (ts : List K) : 0 ≤ forward t ts := by
  induction ts generalizing t with
  | nil => exact le_refl 0
  | cons u ts ih => exact add_nonneg (le_max_left 0 _) (ih u)

theorem serve_nonneg (hcap : 0 ≤ cap) (hrate : 0 ≤ rate) (h : 0 ≤ b.tokens) :
    0 ≤ (b.serve cap rate now).2.tokens := by
  unfold Bucket.serve
  split
  · rename_i h1
    exact sub_nonneg.mpr h1
  · exact refilled_nonneg hcap hrate h

theorem grants_le (hcap : 0 ≤ cap) (hrate : 0 ≤ rate) (h : 0 ≤ b.tokens) (ts : List K) :
    (grants cap rate b ts : K) ≤ b.tokens + rate * forward b.ts ts := by
  induction ts generalizing b with
  | nil => simpa [grants, forward] using h
  | cons t ts ih =>
    have hrest := ih (b := (b.serve cap rate t).2) (serve_nonneg hcap hrate h)
    have htokens : _ = b.refilled cap rate t := serve_tokens
    have hrefill : b.refilled cap rate t ≤ b.tokens + max 0 (t - b.ts) * rate := min_le_right _ _
    rw [serve_ts] at hrest
    rw [grants, forward, Nat.cast_add, mul_add]
    linarith

theorem one_le_length_cons (t : K) (ts : List K) : 1 ≤ ((t :: ts).length : K) :=
  Nat.one_le_cast.mpr (Nat.succ_pos _)

theorem grants_eq_length (hrate : 0 ≤ rate) (hone : rate * forward b.ts ts ≤ 1)
    (hroom : b.tokens + rate * forward b.ts ts ≤ cap)
    (hpay : (ts.length : K) ≤ b.tokens + rate * forward b.ts ts) :
    grants cap rate b ts = ts.length := by
  induction ts generalizing b with
  | nil => rfl
  | cons t ts ih =>
    have hstep : 0 ≤ rate * max 0 (t - b.ts) := mul_nonneg hrate (le_max_left 0 _)
    have hrest : 0 ≤ rate * forward t ts := mul_nonneg hrate (forward_nonneg t ts)
    rw [forward, mul_add] at hone hroom hpay
    rw [List.length_cons, Nat.cast_add, Nat.cast_one] at hpay
    have hfill : b.refilled cap rate t = b.tokens + rate * max 0 (t - b.ts) := by
      rw [refilled, mul_comm, min_eq_right]
      linarith
    have hlast : ts = [] ∨ 1 ≤ (ts.length : K) := by
      cases ts with
      | nil => exact .inl rfl
      | cons u us => exact .inr (one_le_length_cons u us)
    have hgrant : 1 ≤ b.refilled cap rate t := by
      rcases hlast with rfl | hlen
      · rw [hfill]
        simp only [List.length_nil, Nat.cast_zero, forward, mul_zero] at hpay
        linarith
      · rw [hfill]
        linarith
    have hserve : b.serve cap rate t = (true, ⟨b.refilled cap rate t - 1, t⟩) := if_pos hgrant
    rw [grants, hserve, if_pos rfl, ih, List.length_cons, Nat.add_comm]
    · dsimp only
      linarith
    · dsimp only
      linarith
    · dsimp only
      linarith

/-- A bucket that starts full keeps to its rate over a span of time, at every capacity and rate,
exactly when the steps forward come to no more than the span. -/
theorem grants_le_iff {span : K} (hspan : 0 ≤ span) (t : K) (ts : List K) :
    (∀ cap rate : K, 1 ≤ cap → 0 < rate →
      (grants cap rate ⟨cap, t⟩ (t :: ts) : K) ≤ cap + rate * span) ↔ forward t ts ≤ span := by
  have hself : forward t (t :: ts) = forward t ts := by
    rw [forward, sub_self, max_self, zero_add]
  constructor
  · intro h
    by_contra hlt
    rw [not_le] at hlt
    have hpos : 0 < forward t ts := hspan.trans_lt hlt
    have hlen : 1 ≤ (ts.length : K) := by
      cases ts with
      | nil => exact absurd hpos (lt_irrefl 0)
      | cons u us => exact one_le_length_cons u us
    -- a bucket for all calls but one, that brings in the missing token on the way
    have hrate : (forward t ts)⁻¹ * forward t ts = 1 := inv_mul_cancel₀ hpos.ne'
    have hall : grants (ts.length : K) (forward t ts)⁻¹ ⟨ts.length, t⟩ (t :: ts) = ts.length + 1 := by
      have hfull : Bucket.refilled (ts.length : K) (forward t ts)⁻¹ ⟨ts.length, t⟩ t = ts.length := by
        simp [refilled]
      have hserve : Bucket.serve (ts.length : K) (forward t ts)⁻¹ ⟨ts.length, t⟩ t =
          (true, ⟨ts.length - 1, t⟩) := by
        rw [Bucket.serve, hfull, if_pos hlen]
      rw [grants, hserve, if_pos rfl, grants_eq_length (inv_nonneg.mpr hpos.le), Nat.add_comm]
      · exact hrate.le
      · dsimp only
        linarith
      · dsimp only
        linarith
    have hbound := h _ _ hlen (inv_pos.mpr hpos)
    have hshort : (forward t ts)⁻¹ * span < 1 := by
      rw [← hrate]
      exact mul_lt_mul_of_pos_left hlt (inv_pos.mpr hpos)
    rw [hall, Nat.cast_add, Nat.cast_one] at hbound
    linarith
  · intro h cap rate hcap hrate
    have hle := grants_le (zero_le_one.trans hcap) hrate.le
      (b := ⟨cap, t⟩) (zero_le_one.trans hcap) (t :: ts)
    rw [hself] at hle
    exact hle.trans (add_le_add_right (mul_le_mul_of_nonneg_left h hrate.le) cap)

end AnyClock

end Bucket

end Foundations
