import LinkBulker.WorkerCore.DomainRateLimiterLaws

/-! A host's key under callers that come back too early: the wait they are told, and what their
coming back does to the others. -/

namespace LinkBulker.DomainRateLimiter

open Foundations

/-- Redis's clock is ahead of the callers' by `skew`. -/
def Call.reading (skew t : ℤ) : Call := ⟨t + skew, t⟩

section Levels

variable {capacity rate : ℚ} {ttl ttl' skew t now : ℤ} {key key' : Key}

def Key.level (key : Key) (skew : ℤ) (capacity rate : ℚ) (now : ℤ) : ℚ :=
  (key.data (now + skew) now capacity).bucket.refilled capacity rate (now / 1000)

theorem CONSUME_LUA_reading :
    CONSUME_LUA key (t + skew) capacity rate t ttl =
      if 1 ≤ key.level skew capacity rate t then
        (0, Slot.write ⟨key.level skew capacity rate t - 1, t⟩ (t + skew) ttl)
      else (⌈(1 - key.level skew capacity rate t) / rate * 1000⌉,
        Slot.write ⟨key.level skew capacity rate t, t⟩ (t + skew) ttl) := by
  rw [CONSUME_LUA_eq, stored, Bucket.serve, Key.level]
  split <;> rfl

theorem level_lost (h : key.read (t + skew) = none) :
    key.level skew capacity rate t = capacity := by
  rw [Key.level, Key.data, h]
  simp [Fields.bucket, Bucket.refilled]

theorem level_found {f : Fields} (h : key.read (t + skew) = some f) :
    key.level skew capacity rate t = f.bucket.refilled capacity rate (t / 1000) := by
  rw [Key.level, Key.data, h]
  rfl

structure Fields.Agree (capacity rate : ℚ) (f f' : Fields) : Prop where
  le : f.ts ≤ f'.ts
  nonneg : 0 ≤ f.tokens
  nonneg' : 0 ≤ f'.tokens
  refilled : ∀ now : ℤ, f'.ts ≤ now →
    f.bucket.refilled capacity rate (now / 1000) = f'.bucket.refilled capacity rate (now / 1000)

theorem Fields.Agree.refl {f : Fields} (h : 0 ≤ f.tokens) : f.Agree capacity rate f :=
  ⟨le_refl _, h, h, fun _ _ => rfl⟩

theorem seconds_le {s t : ℤ} (h : s ≤ t) : (s / 1000 : ℚ) ≤ t / 1000 :=
  (div_le_div_iff_of_pos_right (by norm_num)).mpr (Int.cast_le.mpr h)

theorem Fields.Agree.poll (hcap : 0 ≤ capacity) (hrate : 0 ≤ rate) {f f' : Fields}
    (h : f.Agree capacity rate f') (ht : f'.ts ≤ t) :
    f.Agree capacity rate ⟨f'.bucket.refilled capacity rate (t / 1000), t⟩ where
  le := h.le.trans ht
  nonneg := h.nonneg
  nonneg' := Bucket.refilled_nonneg hcap hrate h.nonneg'
  refilled now hnow := by
    rw [h.refilled now (ht.trans hnow)]
    exact (Bucket.refilled_refilled hrate (seconds_le ht) (seconds_le hnow)).symm

def Key.Holds (skew ttl : ℤ) (f : Fields) (key : Key) : Prop :=
  key = some ⟨f, f.ts + skew + ttl⟩

theorem Key.Holds.read {f : Fields} (h : key.Holds skew ttl f) :
    key.read (t + skew) = if t ≤ f.ts + ttl then some f else none := by
  rw [h, Slot.read, Option.bind_some]
  have hdeadline : f.ts + skew + ttl < t + skew ↔ ¬ t ≤ f.ts + ttl := by omega
  simp only [hdeadline, ite_not]

/-- Where the bucket fills up within the time to live, nobody can tell whether the key was lost. -/
theorem Key.Holds.level {f : Fields} (h : key.Holds skew ttl f) (htokens : 0 ≤ f.tokens)
    (ht : f.ts ≤ t) (hrate : 0 ≤ rate)
    (hlost : t ≤ f.ts + ttl ∨ 1000 * capacity ≤ ttl * rate) :
    key.level skew capacity rate t = f.bucket.refilled capacity rate (t / 1000) := by
  by_cases halive : t ≤ f.ts + ttl
  · exact level_found (by rw [h.read, if_pos halive])
  · rw [level_lost (by rw [h.read, if_neg halive])]
    refine (Bucket.refilled_eq_cap htokens (seconds_le ht) ?_).symm
    have hfill : 1000 * capacity ≤ ttl * rate := hlost.resolve_left halive
    have hgap : (ttl : ℚ) ≤ t - f.ts := by
      have : ttl ≤ t - f.ts := by omega
      exact_mod_cast this
    have hmul : (ttl : ℚ) * rate ≤ (t - f.ts) * rate := mul_le_mul_of_nonneg_right hgap hrate
    simp only [Fields.bucket]
    linarith

theorem holds_consume (httl : 0 < ttl) :
    (CONSUME_LUA key (t + skew) capacity rate t ttl).2.Holds skew ttl
      ⟨if 1 ≤ key.level skew capacity rate t then key.level skew capacity rate t - 1
        else key.level skew capacity rate t, t⟩ := by
  rw [CONSUME_LUA_reading, Key.Holds]
  split
  · rw [Slot.write, if_neg (by omega)]
  · rw [Slot.write, if_neg (by omega)]

theorem granted_iff (hrate : 0 < rate) :
    (CONSUME_LUA key (t + skew) capacity rate t ttl).1 = 0 ↔
      1 ≤ key.level skew capacity rate t := by
  rw [CONSUME_LUA_zero hrate, Bucket.serve, ← Key.level]
  by_cases h : 1 ≤ key.level skew capacity rate t
  · simp [h]
  · simp [h]

theorem refused_iff (hrate : 0 < rate) :
    0 < (CONSUME_LUA key (t + skew) capacity rate t ttl).1 ↔
      key.level skew capacity rate t < 1 := by
  rw [CONSUME_LUA_reading]
  by_cases h : 1 ≤ key.level skew capacity rate t
  · simp [h]
  · rw [if_neg h]
    rw [not_le] at h
    simp only [h, iff_true, Int.ceil_pos]
    exact mul_pos (div_pos (sub_pos.mpr h) hrate) (by norm_num)

theorem holds_refused (hcap : 1 ≤ capacity) (hrate : 0 < rate) (httl : 0 < ttl) {f f' : Fields}
    (h : key.Holds skew ttl f') (hagree : f.Agree capacity rate f') (ht : f'.ts ≤ t)
    (hrefused : 0 < (CONSUME_LUA key (t + skew) capacity rate t ttl).1) :
    t ≤ f'.ts + ttl ∧ f.bucket.refilled capacity rate (t / 1000) < 1 ∧
      ∃ f'', f''.ts = t ∧ f.Agree capacity rate f'' ∧
        (CONSUME_LUA key (t + skew) capacity rate t ttl).2.Holds skew ttl f'' := by
  rw [refused_iff hrate] at hrefused
  have halive : t ≤ f'.ts + ttl := by
    by_contra hlost
    rw [level_lost (by rw [h.read, if_neg hlost])] at hrefused
    exact absurd hcap (not_le.mpr hrefused)
  have hlevel : key.level skew capacity rate t = f'.bucket.refilled capacity rate (t / 1000) :=
    h.level hagree.nonneg' ht hrate.le (.inl halive)
  refine ⟨halive, ?_, _, ?_, hagree.poll (zero_le_one.trans hcap) hrate.le ht, ?_⟩
  · rw [hagree.refilled t ht, ← hlevel]
    exact hrefused
  · rfl
  · have hholds : (CONSUME_LUA key (t + skew) capacity rate t ttl).2.Holds skew ttl
        ⟨if 1 ≤ key.level skew capacity rate t then key.level skew capacity rate t - 1
          else key.level skew capacity rate t, t⟩ := holds_consume httl
    rwa [if_neg (not_le.mpr hrefused), hlevel] at hholds

def Key.Reached (skew ttl t : ℤ) (key : Key) : Prop :=
  key = none ∨ ∃ f, key.Holds skew ttl f ∧ f.ts ≤ t ∧ 0 ≤ f.tokens

theorem Key.Reached.level_nonneg (hcap : 0 ≤ capacity) (hrate : 0 ≤ rate)
    (h : key.Reached skew ttl t) : 0 ≤ key.level skew capacity rate now := by
  refine Bucket.refilled_nonneg hcap hrate ?_
  rcases h with rfl | ⟨f, hf, -, htokens⟩
  · exact hcap
  · rw [Key.data, hf.read]
    split
    · exact htokens
    · exact hcap

theorem consume_alike (httl : 0 < ttl) (httl' : 0 < ttl')
    (hnonneg : 0 ≤ key.level skew capacity rate t)
    (hlevel : key'.level skew capacity rate t = key.level skew capacity rate t) :
    (CONSUME_LUA key (t + skew) capacity rate t ttl).1 =
        (CONSUME_LUA key' (t + skew) capacity rate t ttl').1 ∧
      ∃ f, f.ts = t ∧ 0 ≤ f.tokens ∧
        (CONSUME_LUA key (t + skew) capacity rate t ttl).2.Holds skew ttl f ∧
        (CONSUME_LUA key' (t + skew) capacity rate t ttl').2.Holds skew ttl' f := by
  have hholds : (CONSUME_LUA key' (t + skew) capacity rate t ttl').2.Holds skew ttl' _ :=
    holds_consume httl'
  rw [hlevel] at hholds
  constructor
  · rw [CONSUME_LUA_reading, CONSUME_LUA_reading, hlevel]
    split <;> rfl
  · refine ⟨_, rfl, ?_, holds_consume httl, hholds⟩
    simp only
    split
    · rename_i h1
      exact sub_nonneg.mpr h1
    · exact hnonneg

theorem Key.Reached.consume (hcap : 0 ≤ capacity) (hrate : 0 ≤ rate) (httl : 0 < ttl)
    (h : key.Reached skew ttl t) (now : ℤ) :
    ∃ f, f.ts = now ∧ 0 ≤ f.tokens ∧
      (CONSUME_LUA key (now + skew) capacity rate now ttl).2.Holds skew ttl f := by
  obtain ⟨-, f, hts, htokens, hf, -⟩ := consume_alike httl httl (h.level_nonneg hcap hrate) rfl
  exact ⟨f, hts, htokens, hf⟩

end Levels

section Runs

variable {capacity rate : ℚ} {ttl skew t t' : ℤ} {key : Key} {ts : List ℤ}

def after (capacity rate : ℚ) (ttl : ℤ) : Key → List Call → Key
  | key, [] => key
  | key, c :: cs => after capacity rate ttl (CONSUME_LUA key c.redisNow capacity rate c.now ttl).2 cs

theorem waits_append (as bs : List Call) :
    waits capacity rate ttl key (as ++ bs) =
      waits capacity rate ttl key as ++ waits capacity rate ttl (after capacity rate ttl key as) bs := by
  induction as generalizing key with
  | nil => rfl
  | cons a as ih =>
    rw [List.cons_append, waits_cons, ih]
    rfl

@[simp] theorem length_waits (cs : List Call) : (waits capacity rate ttl key cs).length = cs.length := by
  induction cs generalizing key with
  | nil => rfl
  | cons c cs ih => rw [waits_cons, List.length_cons, ih, List.length_cons]

def answers (capacity rate : ℚ) (ttl skew : ℤ) (key : Key) (ts : List ℤ) : List ℤ :=
  waits capacity rate ttl key (ts.map (Call.reading skew))

theorem answers_cons : answers capacity rate ttl skew key (t :: ts) =
    (CONSUME_LUA key (t + skew) capacity rate t ttl).1 ::
      answers capacity rate ttl skew (CONSUME_LUA key (t + skew) capacity rate t ttl).2 ts := rfl

theorem Key.Reached.after (hcap : 0 ≤ capacity) (hrate : 0 ≤ rate) (httl : 0 < ttl)
    (h : key.Reached skew ttl t) (hts : ∀ x ∈ ts, x ≤ t) :
    (after capacity rate ttl key (ts.map (Call.reading skew))).Reached skew ttl t := by
  induction ts generalizing key with
  | nil => exact h
  | cons x ts ih =>
    obtain ⟨f, rfl, htokens, hf⟩ := h.consume hcap hrate httl x
    exact ih (.inr ⟨f, hf, hts f.ts List.mem_cons_self, htokens⟩)
      fun y hy => hts y (List.mem_cons_of_mem _ hy)

theorem holds_polled (hcap : 1 ≤ capacity) (hrate : 0 < rate) (httl : 0 < ttl) {f f' : Fields}
    (h : key.Holds skew ttl f') (hagree : f.Agree capacity rate f')
    (hts : (f'.ts :: ts).Pairwise (· ≤ ·))
    (hrefused : ∀ w ∈ answers capacity rate ttl skew key ts, 0 < w) :
    ∃ f'', f''.ts = (f'.ts :: ts).getLast (List.cons_ne_nil _ _) ∧ f.Agree capacity rate f'' ∧
      (after capacity rate ttl key (ts.map (Call.reading skew))).Holds skew ttl f'' := by
  induction ts generalizing key f' with
  | nil => exact ⟨f', rfl, hagree, h⟩
  | cons x ts ih =>
    rw [answers_cons] at hrefused
    obtain ⟨hle, hrest⟩ := List.pairwise_cons.mp hts
    obtain ⟨-, -, g, rfl, hg, hholds⟩ := holds_refused hcap hrate httl h hagree
      (hle x List.mem_cons_self) (hrefused _ List.mem_cons_self)
    obtain ⟨f'', hlast, hagree'', hholds''⟩ :=
      ih hholds hg hrest fun w hw => hrefused w (List.mem_cons_of_mem _ hw)
    exact ⟨f'', hlast, hagree'', hholds''⟩

theorem one_le_refilled_iff (hcap : 1 ≤ capacity) (hrate : 0 < rate) {f : Fields} (hts : f.ts ≤ t)
    (ht : t ≤ t') : 1 ≤ f.bucket.refilled capacity rate (t' / 1000) ↔
      t + ⌈(1 - f.bucket.refilled capacity rate (t / 1000)) / rate * 1000⌉ ≤ t' := by
  rw [Bucket.one_le_refilled_iff hcap hrate (seconds_le hts) (seconds_le ht), ← le_sub_iff_add_le',
    ← sub_div, le_div_iff₀ (by norm_num), ← Int.cast_sub, ← Int.ceil_le, le_sub_iff_add_le']

/-- Between a refusal and the next grant: no caller is granted before the wait is over, unless the
key was lost, and the first one after that is. -/
theorem wait_exact (hcap : 1 ≤ capacity) (hrate : 0 < rate) (httl : 0 < ttl)
    (h : key.Reached skew ttl t) {polls refused : List ℤ} {w r : ℤ}
    (hts : (t :: (polls ++ [t'])).Pairwise (· ≤ ·))
    (hrun : answers capacity rate ttl skew key (t :: (polls ++ [t'])) = w :: (refused ++ [r]))
    (hlength : refused.length = polls.length) (hw : 0 < w) (hrefused : ∀ x ∈ refused, 0 < x) :
    (t + w ≤ t' → r = 0) ∧
      (t' ≤ t + w - 1 → (t' ≤ (t :: polls).getLast (List.cons_ne_nil _ _) + ttl ∨
        1000 * capacity ≤ ttl * rate) → 0 < r) := by
  rw [answers_cons, List.cons.injEq] at hrun
  obtain ⟨rfl, hrun⟩ := hrun
  obtain ⟨hle, hrest⟩ := List.pairwise_cons.mp hts
  rcases h with rfl | ⟨f, hf, hft, htokens⟩
  · -- an absent key grants
    rw [refused_iff hrate, level_lost rfl] at hw
    exact absurd hcap (not_le.mpr hw)
  obtain ⟨halive, hlow, g, rfl, hg, hholds⟩ :=
    holds_refused hcap hrate httl hf (Fields.Agree.refl htokens) hft hw
  have hwait : (CONSUME_LUA key (g.ts + skew) capacity rate g.ts ttl).1 =
      ⌈(1 - f.bucket.refilled capacity rate (g.ts / 1000)) / rate * 1000⌉ := by
    have hlevel : key.level skew capacity rate g.ts =
        f.bucket.refilled capacity rate (g.ts / 1000) := hf.level htokens hft hrate.le (.inl halive)
    rw [CONSUME_LUA_reading, hlevel, if_neg (not_le.mpr hlow)]
  rw [answers, List.map_append, waits_append] at hrun
  obtain ⟨hpolls, hlast⟩ := List.append_inj hrun (by simp [hlength])
  obtain ⟨g', hg', hagree, hholds'⟩ := holds_polled hcap hrate httl hholds hg
    (hts.sublist (List.Sublist.cons_cons _ (List.sublist_append_left _ _)))
    (fun x hx => hrefused x (hpolls ▸ hx))
  obtain ⟨rfl, -⟩ := List.cons.inj hlast
  have hgt : g.ts ≤ t' := hle t' (by simp)
  have hgt' : g'.ts ≤ t' := by
    rw [← List.cons_append, List.pairwise_append] at hts
    exact hts.2.2 _ (hg' ▸ List.getLast_mem _) t' (List.mem_singleton_self t')
  have hsame : f.bucket.refilled capacity rate (t' / 1000) =
      g'.bucket.refilled capacity rate (t' / 1000) := hagree.refilled t' hgt'
  have hexact : 1 ≤ f.bucket.refilled capacity rate (t' / 1000) ↔ _ :=
    one_le_refilled_iff hcap hrate hft hgt
  rw [hwait]
  constructor
  · intro hover
    refine (granted_iff hrate).mpr ?_
    by_cases halive' : t' ≤ g'.ts + ttl
    · rw [hholds'.level hagree.nonneg' hgt' hrate.le (.inl halive'), ← hsame]
      exact hexact.mpr hover
    · rw [level_lost (by rw [hholds'.read, if_neg halive'])]
      exact hcap
  · intro hbefore hlost
    refine (refused_iff hrate).mpr ?_
    rw [hholds'.level hagree.nonneg' hgt' hrate.le (hg' ▸ hlost), ← hsame, ← not_le, hexact]
    omega

section Marks

def kept {β : Type} (calls : List (Bool × ℤ)) (bs : List β) : List β :=
  ((calls.zip bs).filter fun x => x.1.1).map Prod.snd

@[simp] theorem kept_true {β : Type} {calls : List (Bool × ℤ)} {b : β} {bs : List β} :
    kept ((true, t) :: calls) (b :: bs) = b :: kept calls bs := rfl

@[simp] theorem kept_false {β : Type} {calls : List (Bool × ℤ)} {b : β} {bs : List β} :
    kept ((false, t) :: calls) (b :: bs) = kept calls bs := rfl

def found (ttl : ℤ) : Option ℤ → List ℤ → List Bool
  | _, [] => []
  | last, t :: ts => last.any (fun s => t ≤ s + ttl) :: found ttl (some t) ts

def marked (calls : List (Bool × ℤ)) : List ℤ := (calls.filter Prod.fst).map Prod.snd

/-- Two keys with the same tokens for everyone, the second one of which refused callers have
visited since. -/
def Polled (capacity rate : ℚ) (ttl skew : ℤ) (last last' : Option ℤ) (key key' : Key) : Prop :=
  (last = none ∧ last' = none ∧ key = none ∧ key' = none) ∨
  ∃ f f' : Fields, f.Agree capacity rate f' ∧ key.Holds skew ttl f ∧ key'.Holds skew ttl f' ∧
    last = some f.ts ∧ last' = some f'.ts

theorem kept_replicate {β : Type} (calls : List (Bool × ℤ)) (b : β) :
    kept calls (List.replicate (calls.map Prod.snd).length b) =
      List.replicate (marked calls).length b := by
  induction calls with
  | nil => rfl
  | cons c calls ih =>
    obtain ⟨mark, t⟩ := c
    cases mark with
    | true => exact congrArg (b :: ·) ih
    | false => exact ih

variable {last last' : Option ℤ} {key' : Key}

theorem Polled.level_eq (hrate : 0 ≤ rate)
    (h : Polled capacity rate ttl skew last last' key key') (ht : ∀ s ∈ last', s ≤ t)
    (hfound : last'.any (fun s => t ≤ s + ttl) = last.any (fun s => t ≤ s + ttl) ∨
      1000 * capacity ≤ ttl * rate) :
    key'.level skew capacity rate t = key.level skew capacity rate t := by
  rcases h with ⟨-, -, rfl, rfl⟩ | ⟨f, f', hagree, hf, hf', rfl, rfl⟩
  · rfl
  have ht' : f'.ts ≤ t := ht _ rfl
  by_cases hboth : t ≤ f.ts + ttl ∨ 1000 * capacity ≤ ttl * rate
  · have hboth' : t ≤ f'.ts + ttl ∨ 1000 * capacity ≤ ttl * rate :=
      hboth.imp_left fun hle => by have := hagree.le; omega
    rw [hf.level hagree.nonneg (hagree.le.trans ht') hrate hboth,
      hf'.level hagree.nonneg' ht' hrate hboth', hagree.refilled t ht']
  · -- lost to both
    rw [not_or] at hboth
    have hlost : ¬ t ≤ f'.ts + ttl := by
      simpa [hboth.1, hboth.2] using hfound
    rw [level_lost (by rw [hf'.read, if_neg hlost]), level_lost (by rw [hf.read, if_neg hboth.1])]

theorem Polled.consume (hcap : 0 ≤ capacity) (hrate : 0 ≤ rate) (httl : 0 < ttl)
    (h : Polled capacity rate ttl skew last last' key key') :
    Polled capacity rate ttl skew (some t) (some t)
      (CONSUME_LUA key (t + skew) capacity rate t ttl).2
      (CONSUME_LUA key (t + skew) capacity rate t ttl).2 := by
  have hreached : ∃ s, key.Reached skew ttl s := by
    rcases h with ⟨-, -, rfl, -⟩ | ⟨f, f', hagree, hf, -⟩
    · exact ⟨0, .inl rfl⟩
    · exact ⟨f.ts, .inr ⟨f, hf, le_refl _, hagree.nonneg⟩⟩
  obtain ⟨s, hs⟩ := hreached
  obtain ⟨f, rfl, htokens, hf⟩ := hs.consume hcap hrate httl t
  exact .inr ⟨f, f, Fields.Agree.refl htokens, hf, hf, rfl, rfl⟩

theorem Polled.poll (hcap : 1 ≤ capacity) (hrate : 0 < rate) (httl : 0 < ttl)
    (h : Polled capacity rate ttl skew last last' key key') (ht : ∀ s ∈ last', s ≤ t)
    (hrefused : 0 < (CONSUME_LUA key' (t + skew) capacity rate t ttl).1) :
    Polled capacity rate ttl skew last (some t) key
      (CONSUME_LUA key' (t + skew) capacity rate t ttl).2 := by
  rcases h with ⟨-, -, -, rfl⟩ | ⟨f, f', hagree, hf, hf', rfl, rfl⟩
  · rw [refused_iff hrate, level_lost rfl] at hrefused
    exact absurd hcap (not_le.mpr hrefused)
  · obtain ⟨-, -, f'', rfl, hagree', hf''⟩ :=
      holds_refused hcap hrate httl hf' hagree (ht _ rfl) hrefused
    exact .inr ⟨f, f'', hagree', hf, hf'', rfl, rfl⟩

/-- Refused calls change no other answer, unless one of them keeps a key that would have been lost
and was not full by then. -/
theorem Polled.kept_answers (hcap : 1 ≤ capacity) (hrate : 0 < rate) (httl : 0 < ttl)
    {calls : List (Bool × ℤ)} (h : Polled capacity rate ttl skew last last' key key')
    (hlast : ∀ s ∈ last', ∀ x ∈ calls, s ≤ x.2) (hts : (calls.map Prod.snd).Pairwise (· ≤ ·))
    (hrefused : ∀ x ∈ calls.zip (answers capacity rate ttl skew key' (calls.map Prod.snd)),
      x.1.1 = false → 0 < x.2)
    (hfound : kept calls (found ttl last' (calls.map Prod.snd)) = found ttl last (marked calls) ∨
      1000 * capacity ≤ ttl * rate) :
    kept calls (answers capacity rate ttl skew key' (calls.map Prod.snd)) =
      answers capacity rate ttl skew key (marked calls) := by
  induction calls generalizing key key' last last' with
  | nil => rfl
  | cons c calls ih =>
    obtain ⟨mark, t⟩ := c
    obtain ⟨hle, hrest⟩ := List.pairwise_cons.mp hts
    have hnext : ∀ s ∈ some t, ∀ x ∈ calls, s ≤ x.2 := by
      rintro _ ⟨⟩ x hx
      exact hle _ (List.mem_map_of_mem hx)
    rw [List.map_cons, answers_cons] at hrefused
    have htail : ∀ x ∈ calls.zip (answers capacity rate ttl skew
        (CONSUME_LUA key' (t + skew) capacity rate t ttl).2 (calls.map Prod.snd)),
        x.1.1 = false → 0 < x.2 := fun x hx => hrefused x (List.mem_cons_of_mem _ hx)
    cases mark with
    | true =>
      have hmarked : marked ((true, t) :: calls) = t :: marked calls := rfl
      rw [List.map_cons, found, kept_true, hmarked, found, List.cons.injEq] at hfound
      have hlevel : key'.level skew capacity rate t = key.level skew capacity rate t :=
        h.level_eq hrate.le (fun s hs => hlast s hs _ List.mem_cons_self) (hfound.imp_left And.left)
      have hsame : CONSUME_LUA key' (t + skew) capacity rate t ttl =
          CONSUME_LUA key (t + skew) capacity rate t ttl := by
        rw [CONSUME_LUA_reading, CONSUME_LUA_reading, hlevel]
      rw [List.map_cons, answers_cons, kept_true, hmarked, answers_cons, hsame]
      rw [hsame] at htail
      exact congrArg _ (ih (h.consume (zero_le_one.trans hcap) hrate.le httl) hnext hrest htail
        (hfound.imp_left And.right))
    | false =>
      have hmarked : marked ((false, t) :: calls) = marked calls := rfl
      rw [List.map_cons, found, kept_false, hmarked] at hfound
      rw [List.map_cons, answers_cons, kept_false, hmarked]
      exact ih (h.poll hcap hrate httl (fun s hs => hlast s hs _ List.mem_cons_self)
        (hrefused _ List.mem_cons_self rfl)) hnext hrest htail hfound

end Marks

section TimeToLive

variable {ttl' : ℤ} {key' : Key}

theorem answers_of_ttl_nonpos (hcap : 1 ≤ capacity) (httl : ttl ≤ 0) :
    answers capacity rate ttl skew none ts = List.replicate ts.length 0 := by
  induction ts with
  | nil => rfl
  | cons t ts ih =>
    have hgrant : CONSUME_LUA none (t + skew) capacity rate t ttl = (0, none) := by
      have hlevel : Key.level none skew capacity rate t = capacity := level_lost rfl
      rw [CONSUME_LUA_reading, hlevel, if_pos hcap, Slot.write, if_pos httl]
    rw [answers_cons, hgrant, ih]
    rfl

theorem answers_of_holds (hcap : 0 ≤ capacity) (hrate : 0 ≤ rate) (httl : 0 < ttl) (httl' : 0 < ttl')
    {f : Fields} (hf : key.Holds skew ttl f) (hf' : key'.Holds skew ttl' f) (htokens : 0 ≤ f.tokens)
    (hts : (f.ts :: ts).Pairwise (· ≤ ·)) (hfill : 1000 * capacity ≤ ttl * rate)
    (hkept : Kept ttl' ((f.ts :: ts).map (Call.reading skew))) :
    answers capacity rate ttl skew key ts = answers capacity rate ttl' skew key' ts := by
  induction ts generalizing key key' f with
  | nil => rfl
  | cons t ts ih =>
    obtain ⟨hle, hrest⟩ := List.pairwise_cons.mp hts
    obtain ⟨hnext, hkept⟩ := List.isChain_cons_cons.mp hkept
    have ht : f.ts ≤ t := hle t List.mem_cons_self
    have halive : t ≤ f.ts + ttl' := by
      simp only [Call.reading] at hnext
      omega
    have hlevel : key'.level skew capacity rate t = key.level skew capacity rate t := by
      rw [hf.level htokens ht hrate (.inr hfill), hf'.level htokens ht hrate (.inl halive)]
    have hreached : key.Reached skew ttl f.ts := .inr ⟨f, hf, le_refl _, htokens⟩
    obtain ⟨hanswer, g, rfl, hnonneg, hg, hg'⟩ :=
      consume_alike httl httl' (hreached.level_nonneg hcap hrate) hlevel
    rw [answers_cons, answers_cons, hanswer, ih hg hg' hnonneg hrest hkept]

theorem answers_lost (hcap : 0 ≤ capacity) (hrate : 0 ≤ rate) (httl : 0 < ttl) (httl' : 0 < ttl')
    (hts : ts.Pairwise (· ≤ ·)) (hfill : 1000 * capacity ≤ ttl * rate)
    (hkept : Kept ttl' (ts.map (Call.reading skew))) :
    answers capacity rate ttl skew none ts = answers capacity rate ttl' skew none ts := by
  cases ts with
  | nil => rfl
  | cons t ts =>
    have hreached : Key.Reached skew ttl t none := .inl rfl
    have hlevel : 0 ≤ Key.level none skew capacity rate t := hreached.level_nonneg hcap hrate
    obtain ⟨hanswer, g, rfl, hnonneg, hg, hg'⟩ := consume_alike httl httl' hlevel rfl
    rw [answers_cons, answers_cons, hanswer, answers_of_holds hcap hrate httl httl' hg hg' hnonneg
      hts hfill hkept]

end TimeToLive

/-- From an absent key on.  A refused caller is told exactly how long to wait, unless the key is
lost before it comes back; refused calls change no other answer, unless they change who finds the
key; and a time to live in which the bucket fills up is never noticed. -/
theorem polling_free (hcap : 1 ≤ capacity) (hrate : 1 ≤ rate) :
    (∀ (before polls ws refused : List ℤ) (t t' w r : ℤ),
      (before ++ t :: (polls ++ [t'])).Pairwise (· ≤ ·) →
      answers capacity rate ttl skew none (before ++ t :: (polls ++ [t'])) =
        ws ++ w :: (refused ++ [r]) →
      ws.length = before.length → refused.length = polls.length →
      0 < w → (∀ x ∈ refused, 0 < x) →
        (t + w ≤ t' → r = 0) ∧
        (t' ≤ t + w - 1 → (t' ≤ (t :: polls).getLast (List.cons_ne_nil _ _) + ttl ∨
          1000 * capacity ≤ ttl * rate) → 0 < r)) ∧
    (∀ calls : List (Bool × ℤ), (calls.map Prod.snd).Pairwise (· ≤ ·) →
      (∀ x ∈ calls.zip (answers capacity rate ttl skew none (calls.map Prod.snd)),
        x.1.1 = false → 0 < x.2) →
      (kept calls (found ttl none (calls.map Prod.snd)) = found ttl none (marked calls) ∨
        1000 * capacity ≤ ttl * rate) →
      kept calls (answers capacity rate ttl skew none (calls.map Prod.snd)) =
        answers capacity rate ttl skew none (marked calls)) ∧
    (1000 * capacity ≤ ttl * rate → ∀ (ts : List ℤ) (ttl' : ℤ), ts.Pairwise (· ≤ ·) → 0 < ttl' →
      Kept ttl' (ts.map (Call.reading skew)) →
      answers capacity rate ttl skew none ts = answers capacity rate ttl' skew none ts) := by
  have hcap' : 0 ≤ capacity := zero_le_one.trans hcap
  have hrate' : 0 < rate := zero_lt_one.trans_le hrate
  rcases lt_or_ge 0 ttl with httl | httl
  · refine ⟨?_, ?_, fun hfill ts ttl' hts httl' hkept =>
      answers_lost hcap' hrate'.le httl httl' hts hfill hkept⟩
    · intro before polls ws refused t t' w r hts hrun hbefore hpolls hw hrefused
      obtain ⟨-, hrest, hle⟩ := List.pairwise_append.mp hts
      rw [answers, List.map_append, waits_append] at hrun
      obtain ⟨-, hrun⟩ := List.append_inj hrun (by simp [hbefore])
      have hreached : Key.Reached skew ttl t none := .inl rfl
      exact wait_exact hcap hrate' httl
        (hreached.after hcap' hrate'.le httl fun x hx => hle x hx t List.mem_cons_self)
        hrest hrun hpolls hw hrefused
    · intro calls hts hrefused hfound
      have hpolled : Polled capacity rate ttl skew none none none none :=
        .inl ⟨rfl, rfl, rfl, rfl⟩
      exact hpolled.kept_answers hcap hrate' httl (fun s hs => by cases hs) hts hrefused hfound
  · -- nobody is ever refused
    have hnone : ∀ ts, answers capacity rate ttl skew none ts = List.replicate ts.length 0 :=
      fun ts => answers_of_ttl_nonpos hcap httl
    refine ⟨?_, ?_, ?_⟩
    · intro before polls ws refused t t' w r _ hrun _ _ hw
      rw [hnone] at hrun
      have hmem : w ∈ List.replicate (before ++ t :: (polls ++ [t'])).length (0 : ℤ) := by
        rw [hrun]
        simp
      exact absurd (List.eq_of_mem_replicate hmem) hw.ne'
    · intro calls _ _ _
      rw [hnone, hnone, kept_replicate]
    · intro hfill
      have hneg : (ttl : ℚ) * rate ≤ 0 :=
        mul_nonpos_of_nonpos_of_nonneg (Int.cast_nonpos.mpr httl) hrate'.le
      linarith

/-- Two tokens a second: the caller at 100 ms is told to wait 400 ms, the one at 300 ms changes
nothing, and the one at 500 ms is served. -/
theorem polling_free_sample :
    kept [(true, 0), (true, 0), (true, 100), (false, 300), (true, 500)]
        (answers 2 2 300000 0 none [0, 0, 100, 300, 500]) =
      answers 2 2 300000 0 none [0, 0, 100, 500] :=
  (polling_free (by norm_num) (by norm_num)).2.1
    [(true, 0), (true, 0), (true, 100), (false, 300), (true, 500)] (by decide) (by decide +kernel)
    (.inr (by norm_num))

/-- With a time to live too short for the bucket to fill up, a caller refused at 100 ms and told to
wait 900 ms is served at 700 ms, and a caller refused at 500 ms keeps the key, and so takes a token
from those who come at 1400 ms. -/
theorem refused_call_keeps_key :
    answers 1 1 500 0 none [0, 100, 700] = [0, 900, 0] ∧
      ¬ ∀ calls : List (Bool × ℤ), (calls.map Prod.snd).Pairwise (· ≤ ·) →
        (∀ x ∈ calls.zip (answers 2 1 1000 0 none (calls.map Prod.snd)), x.1.1 = false → 0 < x.2) →
        kept calls (answers 2 1 1000 0 none (calls.map Prod.snd)) =
          answers 2 1 1000 0 none (marked calls) := by
  refine ⟨by decide +kernel, fun h => ?_⟩
  have hrun := h [(true, 0), (true, 0), (false, 500), (true, 1400), (true, 1400)] (by decide)
    (by decide +kernel)
  revert hrun
  decide +kernel

end Runs

end LinkBulker.DomainRateLimiter
