import Mathlib.Data.Rat.Floor
import LinkBulker.Foundations.Expiring
import LinkBulker.Foundations.TokenBucket

/-! `packages/worker-core/src/domain-rate-limiter.ts`: the token bucket of one host, in exact
rational arithmetic. -/

namespace LinkBulker.DomainRateLimiter

open Foundations

structure Fields where
  tokens : ℚ
  ts : ℤ
  deriving DecidableEq

abbrev Key := Slot Fields

structure DomainRateLimiterOptions where
  ratePerSec : ℚ := 2
  capacity : ℚ := ratePerSec
  ttlMs : ℤ := 5 * 60 * 1000

/-- `redisNow` is the clock Redis expires keys by, `now_ms` the caller's argument.  The answer is
the wait in milliseconds, 0 when a token was taken. -/
def CONSUME_LUA (key : Key) (redisNow : ℤ) (capacity refill_per_sec : ℚ) (now_ms ttl_ms : ℤ) :
    ℤ × Key :=
  let data := (key.read redisNow).getD ⟨capacity, now_ms⟩
  let elapsed_sec : ℚ := (now_ms - data.ts) / 1000
  let elapsed_sec := if elapsed_sec < 0 then 0 else elapsed_sec
  let tokens := min capacity (data.tokens + elapsed_sec * refill_per_sec)
  if 1 ≤ tokens then (0, Slot.write ⟨tokens - 1, now_ms⟩ redisNow ttl_ms)
  else (⌈(1 - tokens) / refill_per_sec * 1000⌉, Slot.write ⟨tokens, now_ms⟩ redisNow ttl_ms)

section Laws

variable {key : Key} {redisNow now ttl : ℤ} {capacity rate : ℚ}

def Fields.bucket (f : Fields) : Bucket ℚ := ⟨f.tokens, f.ts / 1000⟩

def Key.data (key : Key) (redisNow now : ℤ) (capacity : ℚ) : Fields :=
  (key.read redisNow).getD ⟨capacity, now⟩

def stored (key : Key) (redisNow now : ℤ) (capacity rate : ℚ) : Fields :=
  ⟨((key.data redisNow now capacity).bucket.serve capacity rate (now / 1000)).2.tokens, now⟩

theorem CONSUME_LUA_eq :
    CONSUME_LUA key redisNow capacity rate now ttl =
      (if ((key.data redisNow now capacity).bucket.serve capacity rate (now / 1000)).1 then 0
        else ⌈(1 - (key.data redisNow now capacity).bucket.refilled capacity rate (now / 1000)) /
          rate * 1000⌉,
        Slot.write (stored key redisNow now capacity rate) redisNow ttl) := by
  have helapsed : ∀ ts : ℤ, (if ((now - ts : ℚ) / 1000) < 0 then 0 else (now - ts : ℚ) / 1000) =
      max 0 ((now : ℚ) / 1000 - ts / 1000) := by
    intro ts
    rw [← sub_div]
    split
    · rename_i h
      rw [max_eq_left h.le]
    · rename_i h
      rw [max_eq_right (not_lt.mp h)]
  have htokens : min capacity ((key.data redisNow now capacity).tokens +
      max 0 ((now : ℚ) / 1000 - (key.data redisNow now capacity).ts / 1000) * rate) =
      (key.data redisNow now capacity).bucket.refilled capacity rate (now / 1000) := rfl
  rw [Key.data] at htokens
  simp only [CONSUME_LUA, helapsed, htokens]
  rw [← Key.data]
  by_cases h : 1 ≤ (key.data redisNow now capacity).bucket.refilled capacity rate (now / 1000)
  · simp [stored, Bucket.serve, h]
  · simp [stored, Bucket.serve, h]

theorem wait_pos (hrate : 0 < rate)
    (h : ((key.data redisNow now capacity).bucket.serve capacity rate (now / 1000)).1 = false) :
    0 < (CONSUME_LUA key redisNow capacity rate now ttl).1 := by
  rw [CONSUME_LUA_eq, h]
  simp only [Bool.false_eq_true, if_false, Int.ceil_pos]
  have hlt : (key.data redisNow now capacity).bucket.refilled capacity rate (now / 1000) < 1 := by
    by_contra hge
    rw [Bucket.serve, if_pos (not_lt.mp hge)] at h
    cases h
  exact mul_pos (div_pos (sub_pos.mpr hlt) hrate) (by norm_num)

theorem bucket_stored :
    (stored key redisNow now capacity rate).bucket =
      ((key.data redisNow now capacity).bucket.serve capacity rate (now / 1000)).2 := by
  unfold stored Bucket.serve
  by_cases h : 1 ≤ (key.data redisNow now capacity).bucket.refilled capacity rate (now / 1000)
  · simp only [if_pos h]
    rfl
  · simp only [if_neg h]
    rfl

theorem CONSUME_LUA_spec (hrate : 0 < rate) (httl : 0 < ttl) {wait : ℤ} {key' : Key}
    (h : CONSUME_LUA key redisNow capacity rate now ttl = (wait, key')) :
    key' = some ⟨stored key redisNow now capacity rate, redisNow + ttl⟩ ∧
      (wait ≤ 0 ↔
        ((key.data redisNow now capacity).bucket.serve capacity rate (now / 1000)).1) := by
  have hwait : ((key.data redisNow now capacity).bucket.serve capacity rate (now / 1000)).1 =
      false → 0 < (CONSUME_LUA key redisNow capacity rate now ttl).1 := wait_pos hrate
  rw [h] at hwait
  rw [CONSUME_LUA_eq] at h
  obtain ⟨hw, rfl⟩ := Prod.mk.inj h
  refine ⟨if_neg (not_le.mpr httl), fun hle => ?_, fun hserve => ?_⟩
  · by_contra hserve
    have := hwait (by simpa using hserve)
    omega
  · rw [if_pos hserve] at hw
    omega

theorem CONSUME_LUA_zero (hrate : 0 < rate) :
    (CONSUME_LUA key redisNow capacity rate now ttl).1 = 0 ↔
      ((key.data redisNow now capacity).bucket.serve capacity rate (now / 1000)).1 := by
  constructor
  · intro h
    by_contra hserve
    have hpos : 0 < (CONSUME_LUA key redisNow capacity rate now ttl).1 :=
      wait_pos hrate (by simpa using hserve)
    omega
  · intro h
    rw [CONSUME_LUA_eq, h]
    rfl

end Laws

end LinkBulker.DomainRateLimiter
