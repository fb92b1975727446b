import LinkBulker.WorkerCore.DomainRateLimiter

/-! What the limiter grants one host whose callers read their clocks on their own. -/

namespace LinkBulker.DomainRateLimiter

open Foundations

structure Call where
  redisNow : ℤ
  now : ℤ
  deriving DecidableEq

def waits (capacity rate : ℚ) (ttl : ℤ) : Key → List Call → List ℤ
  | _, [] => []
  | key, c :: cs =>
    let r := CONSUME_LUA key c.redisNow capacity rate c.now ttl
    r.1 :: waits capacity rate ttl r.2 cs

theorem waits_nil (capacity rate : ℚ) (ttl : ℤ) (key : Key) :
    waits capacity rate ttl key [] = [] := rfl

theorem waits_cons (capacity rate : ℚ) (ttl : ℤ) (key : Key) (c : Call) (cs : List Call) :
    waits capacity rate ttl key (c :: cs) =
      (CONSUME_LUA key c.redisNow capacity rate c.now ttl).1 ::
        waits capacity rate ttl (CONSUME_LUA key c.redisNow capacity rate c.now ttl).2 cs := rfl

def forward : List ℤ → ℤ
  | [] => 0
  | [_] => 0
  | s :: t :: ts => max 0 (t - s) + forward (t :: ts)

def span (ts : List ℤ) : ℤ := ts.max?.getD 0 - ts.min?.getD 0

variable {capacity rate : ℚ} {ttl : ℤ} {calls : List Call}

def Kept (ttl : ℤ) (calls : List Call) : Prop :=
  calls.IsChain fun a b => b.redisNow ≤ a.redisNow + ttl

instance (ttl : ℤ) (calls : List Call) : Decidable (Kept ttl calls) :=
  inferInstanceAs (Decidable (calls.IsChain _))

theorem count_waits (hrate : 0 < rate) (httl : 0 < ttl) {key : Key} {b : Bucket ℚ}
    (hdata : ∀ c ∈ calls.head?, (key.data c.redisNow c.now capacity).bucket = b)
    (hkept : Kept ttl calls) :
    (waits capacity rate ttl key calls).count 0 =
      b.grants capacity rate (calls.map fun c => (c.now / 1000 : ℚ)) := by
  induction calls generalizing key b with
  | nil => rfl
  | cons c cs ih =>
    obtain rfl := hdata c rfl
    have hkey : (CONSUME_LUA key c.redisNow capacity rate c.now ttl).2 =
        some ⟨stored key c.redisNow c.now capacity rate, c.redisNow + ttl⟩ :=
      (CONSUME_LUA_spec hrate httl rfl).1
    have hrest : (waits capacity rate ttl
        (CONSUME_LUA key c.redisNow capacity rate c.now ttl).2 cs).count 0 =
          Bucket.grants capacity rate
            ((key.data c.redisNow c.now capacity).bucket.serve capacity rate (c.now / 1000)).2
            (cs.map fun c => (c.now / 1000 : ℚ)) := by
      refine ih (fun d hd => ?_) hkept.tail
      have hle : d.redisNow ≤ c.redisNow + ttl := by
        cases cs with
        | nil => cases hd
        | cons e es =>
          obtain rfl := Option.some.inj hd
          exact (List.isChain_cons_cons.mp hkept).1
      rw [hkey, Key.data, Slot.read_eq_some.mpr ⟨_, rfl, hle⟩, Option.getD_some]
      exact bucket_stored
    rw [waits_cons, List.count_cons, hrest, List.map_cons, Bucket.grants, Nat.add_comm]
    congr 1
    simp only [beq_iff_eq, CONSUME_LUA_zero hrate]

theorem forward_cast (t : ℤ) (ts : List ℤ) :
    Bucket.forward (t / 1000 : ℚ) (ts.map fun u : ℤ => (u / 1000 : ℚ)) =
      (forward (t :: ts) : ℚ) / 1000 := by
  induction ts generalizing t with
  | nil => simp [Bucket.forward, forward]
  | cons u ts ih =>
    have hstep : max 0 ((u : ℚ) / 1000 - t / 1000) = ((max 0 (u - t) : ℤ) : ℚ) / 1000 := by
      rw [← sub_div, ← zero_div (1000 : ℚ), max_div_div_right (by norm_num)]
      push_cast
      simp
    rw [List.map_cons, Bucket.forward, ih, hstep, forward, Int.cast_add, add_div]

theorem span_nonneg (ts : List ℤ) : 0 ≤ span ts := by
  unfold span
  cases ts with
  | nil => simp
  | cons t ts =>
    obtain ⟨lo, hlo⟩ : ∃ lo, (t :: ts).min? = some lo := ⟨_, List.min?_cons'⟩
    obtain ⟨hi, hhi⟩ : ∃ hi, (t :: ts).max? = some hi := ⟨_, List.max?_cons'⟩
    have hle : lo ≤ t := (List.min?_eq_some_iff.mp hlo).2 t List.mem_cons_self
    have hge : t ≤ hi := (List.max?_eq_some_iff.mp hhi).2 t List.mem_cons_self
    rw [hlo, hhi, Option.getD_some, Option.getD_some]
    omega

/-- From an absent key on, and whatever timestamps the callers send: the calls granted keep to
capacity and rate over the span of the timestamps, at every capacity and rate, exactly when the
timestamps do not go forward by more than that span in all. -/
theorem grants_in_span (httl : 0 < ttl) (hkept : Kept ttl calls) :
    (∀ capacity rate : ℚ, 1 ≤ capacity → 0 < rate →
      ((waits capacity rate ttl none calls).count 0 : ℚ) ≤
        capacity + rate * span (calls.map Call.now) / 1000) ↔
    forward (calls.map Call.now) ≤ span (calls.map Call.now) := by
  cases calls with
  | nil =>
    refine iff_of_true (fun capacity rate hcap hrate => ?_) (by decide)
    simp only [waits_nil, List.count_nil, Nat.cast_zero, List.map_nil, span]
    simpa using zero_le_one.trans hcap
  | cons c cs =>
    have hcount : ∀ capacity rate : ℚ, 0 < rate → (waits capacity rate ttl none (c :: cs)).count 0 =
        Bucket.grants capacity rate ⟨capacity, c.now / 1000⟩
          ((c.now / 1000 : ℚ) :: cs.map fun c => (c.now / 1000 : ℚ)) := by
      intro capacity rate hrate
      refine count_waits hrate httl (fun d hd => ?_) hkept
      obtain rfl := Option.some.inj hd
      rfl
    have hspan : (0 : ℚ) ≤ span ((c :: cs).map Call.now) / 1000 :=
      div_nonneg (Int.cast_nonneg (span_nonneg _)) (by norm_num)
    have hlaw := Bucket.grants_le_iff hspan ((c.now : ℚ) / 1000) (cs.map fun c => (c.now / 1000 : ℚ))
    have hforward := forward_cast c.now (cs.map Call.now)
    rw [List.map_map] at hforward
    rw [show (cs.map fun c => (c.now / 1000 : ℚ)) =
      cs.map ((fun u : ℤ => (u / 1000 : ℚ)) ∘ Call.now) from rfl, hforward,
      div_le_div_iff_of_pos_right (by norm_num), Int.cast_le] at hlaw
    rw [List.map_cons] at hlaw ⊢
    rw [← hlaw]
    refine forall_congr' fun capacity => forall_congr' fun rate => forall_congr' fun hcap =>
      forall_congr' fun hrate => ?_
    rw [hcount capacity rate hrate, mul_div_assoc]
    rfl

/-- Timestamps of two workers whose clocks differ by a second. -/
theorem grants_in_span_sample :
    ((waits 2 2 300000 none [⟨0, 1000⟩, ⟨1, 0⟩, ⟨2, 10⟩, ⟨3, 500⟩]).count 0 : ℚ) ≤
      2 + 2 * span [1000, 0, 10, 500] / 1000 :=
  (@grants_in_span _ [⟨0, 1000⟩, ⟨1, 0⟩, ⟨2, 10⟩, ⟨3, 500⟩] (by decide) (by decide)).mpr
    (by decide) 2 2 (by norm_num) (by norm_num)

/-- Two clocks a second apart taking turns: each turn brings in a second's tokens again. -/
theorem skewed_clocks_overdraw :
    ¬ ((waits 1 1 300000 none [⟨0, 1000⟩, ⟨1, 0⟩, ⟨2, 1000⟩, ⟨3, 0⟩, ⟨4, 1000⟩]).count 0 : ℚ) ≤
      1 + 1 * span [1000, 0, 1000, 0, 1000] / 1000 := by
  have hcount :
      (waits 1 1 300000 none [⟨0, 1000⟩, ⟨1, 0⟩, ⟨2, 1000⟩, ⟨3, 0⟩, ⟨4, 1000⟩]).count 0 = 3 := by
    decide +kernel
  have hspan : span [1000, 0, 1000, 0, 1000] = 1000 := by decide
  rw [hcount, hspan]
  norm_num

end LinkBulker.DomainRateLimiter
