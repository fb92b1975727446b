import LinkBulker.Foundations.Pool
import LinkBulker.Foundations.Run
import LinkBulker.WorkerCore.CircuitBreaker

namespace LinkBulker.CircuitBreaker

open Foundations

variable {o : CircuitBreakerOptions} {cb : Breaker} {now clock : ℤ} {s s' : Session} {l : Label}
  {labels : List Label}

def Sound (o : CircuitBreakerOptions) (cb : Breaker) : Prop :=
  cb.state = .CLOSED ↔ cb.consecutiveFailures < o.failureThreshold

@[simp] theorem getState_failures :
    (getState o cb now).consecutiveFailures = cb.consecutiveFailures := by
  unfold getState
  split <;> rfl

theorem getState_closed : (getState o cb now).state = .CLOSED ↔ cb.state = .CLOSED := by
  unfold getState
  split
  · rename_i h
    simp [h.1]
  · rfl

theorem getState_eq (h : (getState o cb now).state ≠ .OPEN) :
    getState o cb now = cb ∧ cb.state ≠ .OPEN ∨
      (getState o cb now).state = .HALF_OPEN ∧ cb.state = .OPEN ∧ cb.openedAt + o.cooldownMs ≤ now := by
  unfold getState at h ⊢
  split
  · rename_i hopen
    exact .inr ⟨rfl, hopen.1, by omega⟩
  · rename_i hopen
    rw [if_neg hopen] at h
    exact .inl ⟨rfl, h⟩

theorem getState_open : (getState o cb now).state = .OPEN ↔
    cb.state = .OPEN ∧ now < cb.openedAt + o.cooldownMs := by
  unfold getState
  split
  · rename_i h
    exact iff_of_false nofun fun hopen => by omega
  · rename_i h
    refine ⟨fun hopen => ⟨hopen, ?_⟩, And.left⟩
    by_contra hpast
    exact h ⟨hopen, by omega⟩

theorem getState_of_open (h : (getState o cb now).state = .OPEN) : getState o cb now = cb := by
  unfold getState at h ⊢
  split
  · rename_i hopen
    rw [if_pos hopen] at h
    cases h
  · rfl

theorem Sound.getState (h : Sound o cb) : Sound o (getState o cb now) := by
  rw [Sound, getState_closed, getState_failures]
  exact h

theorem Sound.onSuccess (hpos : 1 ≤ o.failureThreshold) : Sound o (onSuccess cb) :=
  iff_of_true rfl hpos

theorem Sound.onFailure (h : Sound o cb) : Sound o (onFailure o cb now) := by
  unfold CircuitBreaker.onFailure
  dsimp only
  split
  · rename_i hopens
    refine iff_of_false nofun ?_
    rcases hopens with hle | hhalf
    · exact Nat.not_lt.mpr hle
    · have : ¬ cb.consecutiveFailures < o.failureThreshold := fun hlt => by
        rw [h.mpr hlt] at hhalf
        cases hhalf
      dsimp only
      omega
  · rename_i hstays
    rw [not_or, not_le] at hstays
    exact iff_of_true (h.mpr (Nat.lt_of_succ_lt hstays.1)) hstays.1

theorem Sound.settle (hpos : 1 ≤ o.failureThreshold) (h : Sound o cb) (ok : Bool) :
    Sound o (settle o cb now ok).1 := by
  cases ok
  · exact h.onFailure
  · exact Sound.onSuccess hpos

theorem Sound.start (hpos : 1 ≤ o.failureThreshold) : Sound o {} := iff_of_true rfl hpos

theorem Sound.step (hpos : 1 ≤ o.failureThreshold) (h : Sound o s.breaker)
    (hs : step o s l = some s') : Sound o s'.breaker := by
  cases l with
  | getState now =>
    cases hs
    exact h.getState
  | start now =>
    cases hs
    exact h.getState
  | settle i now ok =>
    simp only [CircuitBreaker.step] at hs
    split at hs
    · cases hs
      exact h.settle hpos ok
    · cases hs
  | reset =>
    cases hs
    exact Sound.start hpos

section Failures

theorem settles_concat : settles (labels ++ [l]) =
    match l with
    | .settle _ _ ok => settles labels ++ [ok]
    | .reset => []
    | _ => settles labels := by
  cases l <;> simp only [settles, List.foldl_append, List.foldl_cons, List.foldl_nil]

@[simp] theorem failureRun_nil : failureRun [] = 0 := rfl

theorem failureRun_concat (oks : List Bool) (ok : Bool) :
    failureRun (oks ++ [ok]) = if ok then 0 else failureRun oks + 1 := by
  unfold failureRun
  rw [List.rtakeWhile_concat]
  cases ok <;> simp

theorem step_failures (hs : step o s l = some s')
    (h : s.breaker.consecutiveFailures = failureRun (settles labels)) :
    s'.breaker.consecutiveFailures = failureRun (settles (labels ++ [l])) := by
  rw [settles_concat]
  cases l with
  | getState now =>
    cases hs
    exact getState_failures.trans h
  | start now =>
    cases hs
    exact getState_failures.trans h
  | settle i now ok =>
    simp only [CircuitBreaker.step] at hs
    split at hs
    · cases hs
      rw [failureRun_concat, ← h]
      cases ok
      · simp only [CircuitBreaker.settle, onFailure, Bool.false_eq_true, if_false]
        split <;> rfl
      · rfl
    · cases hs
  | reset =>
    cases hs
    rfl

/-- Whatever the order of starts, settlings, resets and looks at the state, and whatever the clock
says: the counter is the number of failures in a row since the last reset, and the breaker is
`CLOSED` exactly below the threshold. -/
theorem state_characterised (hpos : 1 ≤ o.failureThreshold)
    (hr : Foundations.exec (step o) (Session.start clock) labels = some s) :
    s.breaker.consecutiveFailures = failureRun (settles labels) ∧
      (s.breaker.state = .CLOSED ↔ s.breaker.consecutiveFailures < o.failureThreshold) := by
  refine exec_history
    (P := fun as s => s.breaker.consecutiveFailures = failureRun (settles as) ∧ Sound o s.breaker)
    ⟨rfl, Sound.start hpos⟩ ?_ hr
  intro as s a s' h hs
  exact ⟨step_failures hs h.1, h.2.step hpos hs⟩

/-- A failure while `HALF_OPEN`, a late success, a call turned away and a reset. -/
theorem state_characterised_sample :
    ∃ s, Foundations.exec (step ⟨1, 500⟩) (Session.start 0)
        [.start 0, .start 1, .settle 0 10 false, .start 20, .getState 600, .start 601,
          .settle 3 700 false, .settle 1 701 true, .reset, .start 710] = some s ∧
      (s.breaker.state = .CLOSED ↔ s.breaker.consecutiveFailures < 1) := by
  have hs : ∃ s, Foundations.exec (step ⟨1, 500⟩) (Session.start 0)
      [.start 0, .start 1, .settle 0 10 false, .start 20, .getState 600, .start 601,
        .settle 3 700 false, .settle 1 701 true, .reset, .start 710] = some s :=
    Option.isSome_iff_exists.mp (by decide)
  obtain ⟨s, hs⟩ := hs
  exact ⟨s, hs, (state_characterised (o := ⟨1, 500⟩) (Nat.le_refl 1) hs).2⟩

end Failures

section Trial

structure Tracked (s : Session) : Prop where
  settled : ∀ e ∈ s.log, ∀ i, e.settles i → i < s.calls.length
  running : ∀ i ∈ s.log.filterMap Event.trial, (∀ e ∈ s.log, e.settles i = false) →
    s.calls[i]? = some ⟨.HALF_OPEN, none⟩
  half : s.breaker.state = .HALF_OPEN → ⟨.HALF_OPEN, none⟩ ∈ s.calls

def Single (s : Session) : Prop :=
  ∀ i, s.calls[i]? = some ⟨.HALF_OPEN, none⟩ → ∃ before turn during,
    s.log = before ++ turn :: during ∧ turn.turnsHalfOpen ∧ turn.trial = some i ∧
      during.filterMap Event.trial = [] ∧ ∀ e ∈ s.log, e.settles i = false

theorem settle_ne_half {ok : Bool} : (settle o cb now ok).1.state ≠ .HALF_OPEN := by
  cases ok
  · simp only [settle, Bool.false_eq_true, if_false, onFailure]
    split
    · nofun
    · rename_i hstays
      exact fun hhalf => hstays (.inr hhalf)
  · nofun

theorem settle_eq_some {i : ℕ} {ok : Bool} (hs : step o s (.settle i now ok) = some s') :
    ∃ state, s.calls[i]? = some ⟨state, none⟩ ∧
      s' = { s with
        breaker := (settle o s.breaker now ok).1
        clock := now
        calls := s.calls.set i ⟨state, some (settle o s.breaker now ok).2⟩
        log := s.log ++ [.settled i now ok (settle o s.breaker now ok).1.state] } := by
  simp only [step] at hs
  split at hs
  · rename_i state hcall
    exact ⟨state, hcall, (Option.some.inj hs).symm⟩
  · cases hs

theorem trial_started {i : ℕ} {before : CircuitState} :
    Event.trial (.started i now before (exec o cb now).2) =
      if (getState o cb now).state = .HALF_OPEN then some i else none := rfl

theorem callsFn_started {i : ℕ} {before : CircuitState} :
    Event.callsFn (.started i now before (exec o cb now).2) =
      decide ((getState o cb now).state ≠ .OPEN) := by
  simp only [Event.callsFn, exec]
  split <;> simp_all

theorem exec_half (h : (getState o cb now).state = .HALF_OPEN) :
    (exec o cb now).2 = ⟨.HALF_OPEN, none⟩ := by
  simp [exec, h]

theorem exec_ne_half (h : (getState o cb now).state ≠ .HALF_OPEN) :
    (exec o cb now).2 ≠ ⟨.HALF_OPEN, none⟩ :=
  fun he => h (congrArg Exec.state he)

theorem Tracked.start (h : Tracked s) (hs : step o s (.start now) = some s') : Tracked s' := by
  cases hs
  refine ⟨?_, ?_, ?_⟩
  · intro e he i hi
    rw [List.length_append, List.length_singleton]
    rcases List.mem_append.mp he with he | he
    · exact Nat.lt_succ_of_lt (h.settled e he i hi)
    · rw [List.mem_singleton.mp he] at hi
      cases hi
  · intro i hi hfree
    rw [List.filterMap_append, List.mem_append] at hi
    rcases hi with hi | hi
    · have hrun := h.running i hi fun e he => hfree e (List.mem_append_left _ he)
      rw [List.getElem?_append_left (List.getElem?_eq_some_iff.mp hrun).1]
      exact hrun
    · simp only [List.filterMap_cons, List.filterMap_nil, trial_started] at hi
      by_cases hhalf : (getState o s.breaker now).state = .HALF_OPEN
      · rw [if_pos hhalf, List.mem_singleton] at hi
        subst hi
        rw [List.getElem?_concat_length, exec_half hhalf]
      · rw [if_neg hhalf] at hi
        cases hi
  · intro hhalf
    exact List.mem_append_right _ (List.mem_singleton.mpr (exec_half hhalf).symm)

theorem Tracked.settle {i : ℕ} {ok : Bool} (h : Tracked s)
    (hs : step o s (.settle i now ok) = some s') : Tracked s' := by
  obtain ⟨state, hcall, rfl⟩ := settle_eq_some hs
  have hi : i < s.calls.length := (List.getElem?_eq_some_iff.mp hcall).1
  refine ⟨?_, ?_, fun hhalf => absurd hhalf settle_ne_half⟩
  · intro e he j hj
    rw [List.length_set]
    rcases List.mem_append.mp he with he | he
    · exact h.settled e he j hj
    · rw [List.mem_singleton.mp he] at hj
      obtain rfl : j = i := by simpa [Event.settles] using hj
      exact hi
  · intro j hj hfree
    rw [List.filterMap_append, List.mem_append] at hj
    have hne : i ≠ j := by
      have := hfree _ (List.mem_append_right _ (List.mem_singleton_self _))
      rintro rfl
      simp [Event.settles] at this
    rcases hj with hj | hj
    · rw [List.getElem?_set_ne hne]
      exact h.running j hj fun e he => hfree e (List.mem_append_left _ he)
    · cases hj

theorem Tracked.step (h : Tracked s) (hexec : l.execs) (hs : step o s l = some s') : Tracked s' := by
  cases l with
  | getState now => cases hexec
  | start now => exact h.start hs
  | settle i now ok => exact h.settle hs
  | reset => cases hexec

theorem Single.start (h : Single s) (ht : Tracked s) (halone : Alone o s (.start now))
    (hs : step o s (.start now) = some s') : Single s' := by
  cases hs
  intro i hi
  rcases Nat.lt_or_ge i s.calls.length with hlt | hge
  · rw [List.getElem?_append_left hlt] at hi
    obtain ⟨before, turn, during, hlog, hturn, htrial, hduring, hfree⟩ := h i hi
    have hnone : (getState o s.breaker now).state ≠ .HALF_OPEN := by
      rw [getState_open.mpr (halone (List.mem_of_getElem? hi))]
      nofun
    refine ⟨before, turn, during ++ [_], by rw [hlog, List.append_assoc]; rfl, hturn, htrial, ?_, ?_⟩
    · rw [List.filterMap_append, hduring]
      simp [trial_started, hnone]
    · intro e he
      rcases List.mem_append.mp he with he | he
      · exact hfree e he
      · rw [List.mem_singleton.mp he]
        rfl
  · rw [List.getElem?_append_right hge] at hi
    rw [List.getElem?_singleton] at hi
    split at hi
    · rename_i hzero
      obtain rfl : i = s.calls.length := by omega
      have hhalf : (getState o s.breaker now).state = .HALF_OPEN := by
        by_contra hne
        exact exec_ne_half hne (Option.some.inj hi)
      -- the breaker was not already `HALF_OPEN`: the trial of that time would still run
      have hopen : s.breaker.state = .OPEN := by
        have hshut : (getState o s.breaker now).state ≠ .OPEN := by rw [hhalf]; nofun
        rcases getState_eq hshut with
          ⟨hsame, -⟩ | ⟨-, hopen, -⟩
        · rw [hsame] at hhalf
          have hopen := (halone (ht.half hhalf)).1
          rw [hhalf] at hopen
          cases hopen
        · exact hopen
      refine ⟨s.log, _, [], rfl, ?_, ?_, rfl, ?_⟩
      · simp [Event.turnsHalfOpen, hopen, exec_half hhalf]
      · rw [trial_started, if_pos hhalf]
      · intro e he
        rcases List.mem_append.mp he with he | he
        · by_contra hset
          exact absurd (ht.settled e he _ (by simpa using hset)) (Nat.lt_irrefl _)
        · rw [List.mem_singleton.mp he]
          rfl
    · cases hi

theorem Single.settle {i : ℕ} {ok : Bool} (h : Single s)
    (hs : step o s (.settle i now ok) = some s') : Single s' := by
  obtain ⟨state, hcall, rfl⟩ := settle_eq_some hs
  intro j hj
  have hne : i ≠ j := by
    rintro rfl
    rw [Pool.getElem?_set_self hcall] at hj
    cases hj
  rw [List.getElem?_set_ne hne] at hj
  obtain ⟨before, turn, during, hlog, hturn, htrial, hduring, hfree⟩ := h j hj
  refine ⟨before, turn, during ++ [_], by rw [hlog, List.append_assoc]; rfl, hturn, htrial, ?_, ?_⟩
  · rw [List.filterMap_append, hduring]
    rfl
  · intro e he
    rcases List.mem_append.mp he with he | he
    · exact hfree e he
    · rw [List.mem_singleton.mp he]
      simpa [Event.settles] using hne.symm

theorem step_log (hexec : l.execs) (hs : step o s l = some s') : ∃ e, s'.log = s.log ++ [e] := by
  cases l with
  | getState now => cases hexec
  | start now =>
    cases hs
    exact ⟨_, rfl⟩
  | settle i now ok =>
    obtain ⟨state, -, rfl⟩ := settle_eq_some hs
    exact ⟨_, rfl⟩
  | reset => cases hexec

theorem concat_prefix_concat {α : Type} {xs ys : List α} {x y : α} :
    xs ++ [x] <+: ys ++ [y] ↔ xs ++ [x] <+: ys ∨ xs = ys ∧ x = y := by
  rw [List.prefix_concat_iff, or_comm]
  refine or_congr_right ⟨fun h => ?_, fun ⟨hxs, hx⟩ => hxs ▸ hx ▸ rfl⟩
  obtain ⟨hxs, hx⟩ := List.append_inj' h rfl
  exact ⟨hxs, List.cons.inj hx |>.1⟩

def Windows (log : List Event) : Prop :=
  ∃ before turn during, log = before ++ turn :: during ∧ turn.turnsHalfOpen ∧
    ∀ i ∈ (turn :: during).filterMap Event.trial, ∀ e ∈ log, e.settles i = false

theorem OneTrial.nil : OneTrial [] := by
  intro before turn during e hpre
  simp at hpre

theorem OneTrial.concat_iff {log : List Event} {e : Event} :
    OneTrial (log ++ [e]) ↔ OneTrial log ∧ (Windows log → e.callsFn = false) := by
  constructor
  · intro h
    refine ⟨fun before turn during e' hpre => ?_, ?_⟩
    · exact h before turn during e' (hpre.trans (List.prefix_append log [e]))
    · rintro ⟨before, turn, during, rfl, hturn, hfree⟩
      exact h before turn during e (List.prefix_refl _) hturn hfree
  · rintro ⟨h, hlast⟩ before turn during e' hpre hturn hfree
    rcases concat_prefix_concat.mp hpre with hpre | ⟨rfl, rfl⟩
    · exact h before turn during e' hpre hturn hfree
    · exact hlast ⟨before, turn, during, rfl, hturn, hfree⟩

theorem windows_iff (ht : Tracked s) (hsingle : Single s) :
    Windows s.log ↔ ⟨.HALF_OPEN, none⟩ ∈ s.calls := by
  constructor
  · rintro ⟨before, turn, during, hlog, hturn, hfree⟩
    obtain ⟨i, hi⟩ : ∃ i, turn.trial = some i := by
      cases turn with
      | started i now before call =>
        refine ⟨i, if_pos ?_⟩
        simpa using (Bool.and_eq_true_iff.mp hturn).2
      | settled i now ok after => cases hturn
    have htrial : i ∈ (turn :: during).filterMap Event.trial := by
      rw [List.filterMap_cons_some hi]
      exact List.mem_cons_self
    have hmem : i ∈ s.log.filterMap Event.trial := by
      rw [hlog, List.filterMap_append]
      exact List.mem_append_right _ htrial
    exact List.mem_of_getElem? (ht.running i hmem (hfree i htrial))
  · intro hrun
    obtain ⟨i, hi⟩ := List.mem_iff_getElem?.mp hrun
    obtain ⟨before, turn, during, hlog, hturn, htrial, hduring, hfree⟩ := hsingle i hi
    refine ⟨before, turn, during, hlog, hturn, fun j hj => ?_⟩
    rw [List.filterMap_cons_some htrial, hduring, List.mem_singleton] at hj
    rw [hj]
    exact hfree

theorem alone_iff (hexec : l.execs) (hs : step o s l = some s') {e : Event}
    (hlog : s'.log = s.log ++ [e]) :
    Alone o s l ↔ (⟨.HALF_OPEN, none⟩ ∈ s.calls → e.callsFn = false) := by
  cases l with
  | getState now => cases hexec
  | start now =>
    cases hs
    obtain rfl : _ = e := by simpa using hlog
    rw [callsFn_started, decide_eq_false_iff_not, not_not, Alone, getState_open]
  | settle i now ok =>
    obtain ⟨state, -, rfl⟩ := settle_eq_some hs
    obtain rfl : _ = e := by simpa using hlog
    exact iff_of_true trivial fun _ => rfl
  | reset => cases hexec

/-- From a turn to `HALF_OPEN` until a call let through in it settles, no other call reaches its
`fn`, exactly in the runs where no call starts while one let through in `HALF_OPEN` runs, unless a
failure has opened the breaker again less than the cooldown before. -/
theorem half_open_one_trial (hexec : ∀ l ∈ labels, l.execs)
    (hr : Foundations.exec (step o) (Session.start clock) labels = some s) :
    OneTrial s.log ↔ Meets (step o) (Alone o) (Session.start clock) labels := by
  suffices h : Tracked s ∧ (OneTrial s.log ↔ Meets (step o) (Alone o) (Session.start clock) labels) ∧
      (OneTrial s.log → Single s) from h.2.1
  induction labels using List.reverseRecOn generalizing s with
  | nil =>
    cases hr
    refine ⟨⟨?_, ?_, nofun⟩, iff_of_true OneTrial.nil trivial, fun _ => ?_⟩
    · intro e he
      cases he
    · intro i hi
      cases hi
    · intro i hi
      cases hi
  | append_singleton labels l ih =>
    obtain ⟨t, ht, hs⟩ := exec_concat.mp hr
    have hl := hexec l (List.mem_append_right _ (List.mem_singleton_self l))
    obtain ⟨htrack, hiff, hsingle⟩ := ih (fun l hl => hexec l (List.mem_append_left _ hl)) ht
    obtain ⟨e, hlog⟩ := step_log hl hs
    have hlast : OneTrial t.log → ((Windows t.log → e.callsFn = false) ↔ Alone o t l) := fun hone => by
      rw [alone_iff hl hs hlog, windows_iff htrack (hsingle hone)]
    have hmeets : Meets (step o) (Alone o) (Session.start clock) (labels ++ [l]) ↔
        Meets (step o) (Alone o) (Session.start clock) labels ∧ Alone o t l := by
      rw [Meets.concat]
      refine and_congr_right fun _ => ⟨fun h => h t ht, fun h u hu => ?_⟩
      rw [ht] at hu
      exact Option.some.inj hu ▸ h
    rw [hlog, OneTrial.concat_iff, hmeets, ← hiff]
    refine ⟨htrack.step hl hs, and_congr_right hlast, fun ⟨hone, hwin⟩ => ?_⟩
    have halone := (hlast hone).mp hwin
    cases l with
    | getState now => cases hl
    | start now => exact (hsingle hone).start htrack halone hs
    | settle i now ok => exact (hsingle hone).settle hs
    | reset => cases hl

/-- A call from before fails while the trial runs, the next call is turned away, and the trial ends. -/
theorem half_open_one_trial_sample :
    ∃ s, Foundations.exec (step ⟨1, 500⟩) (Session.start 0)
        [.start 0, .start 1, .settle 0 10 false, .start 600, .settle 1 650 false, .start 700,
          .settle 2 800 false, .start 1300, .settle 4 1400 true, .start 1400] = some s ∧
      OneTrial s.log := by
  have hs : ∃ s, Foundations.exec (step ⟨1, 500⟩) (Session.start 0)
      [.start 0, .start 1, .settle 0 10 false, .start 600, .settle 1 650 false, .start 700,
        .settle 2 800 false, .start 1300, .settle 4 1400 true, .start 1400] = some s :=
    Option.isSome_iff_exists.mp (by decide)
  obtain ⟨s, hs⟩ := hs
  exact ⟨s, hs, (half_open_one_trial (o := ⟨1, 500⟩) (by decide) hs).mpr (by decide)⟩

/-- Two calls that start one after the other once the cooldown has passed both reach their `fn`. -/
theorem half_open_two_trials :
    ∃ s, Foundations.exec (step ⟨1, 500⟩) (Session.start 0)
        [.start 0, .settle 0 10 false, .start 600, .start 601] = some s ∧ ¬ OneTrial s.log := by
  refine ⟨_, rfl, fun h => ?_⟩
  have hlast := h [.started 0 0 .CLOSED ⟨.CLOSED, none⟩, .settled 0 10 false .OPEN]
    (.started 1 600 .OPEN ⟨.HALF_OPEN, none⟩) []
    (.started 2 601 .HALF_OPEN ⟨.HALF_OPEN, none⟩) (by decide) (by decide) (by decide)
  cases hlast

end Trial

section Cooldown

def Cooling (o : CircuitBreakerOptions) (s : Session) : Prop :=
  ∀ e ∈ s.log, ∀ t ∈ e.opensAt, t ≤ s.clock ∧
    (t + o.cooldownMs ≤ s.clock ∨ s.breaker.state = .OPEN ∧ t ≤ s.breaker.openedAt)

theorem CooldownKept.nil : CooldownKept o [] := by
  intro before opening during e hpre
  simp at hpre

theorem CooldownKept.concat_iff {log : List Event} {e : Event} :
    CooldownKept o (log ++ [e]) ↔ CooldownKept o log ∧ ∀ opening ∈ log, ∀ t ∈ opening.opensAt,
      ∀ now ∈ e.startsAt, now < t + o.cooldownMs → e.callsFn = false := by
  constructor
  · intro h
    refine ⟨fun before opening during e' hpre => ?_, fun opening hmem => ?_⟩
    · exact h before opening during e' (hpre.trans (List.prefix_append log [e]))
    · obtain ⟨before, during, rfl⟩ := List.append_of_mem hmem
      exact h before opening during e (List.prefix_refl _)
  · rintro ⟨h, hlast⟩ before opening during e' hpre
    rcases concat_prefix_concat.mp hpre with hpre | ⟨rfl, rfl⟩
    · exact h before opening during e' hpre
    · exact hlast opening (List.mem_append_right _ List.mem_cons_self)

theorem Cooling.getState (h : Cooling o s) (hle : s.clock ≤ now) :
    Cooling o { s with breaker := getState o s.breaker now, clock := now } := by
  intro e he t ht
  obtain ⟨htle, hcool⟩ := h e he t ht
  refine ⟨htle.trans hle, ?_⟩
  rcases hcool with hpast | ⟨hopen, hopened⟩
  · exact .inl (hpast.trans hle)
  · by_cases hstays : (CircuitBreaker.getState o s.breaker now).state = .OPEN
    · rw [getState_of_open hstays]
      exact .inr ⟨hopen, hopened⟩
    · rcases getState_eq hstays with ⟨-, hne⟩ | ⟨-, -, hpast⟩
      · exact absurd hopen hne
      · exact .inl (by dsimp only; omega)

theorem onFailure_open (hsound : Sound o cb) (hopen : cb.state = .OPEN) :
    (onFailure o cb now).state = .OPEN ∧ (onFailure o cb now).openedAt = now := by
  have hge : ¬ cb.consecutiveFailures < o.failureThreshold := fun hlt => by
    rw [hsound.mpr hlt] at hopen
    cases hopen
  have hopens : cb.consecutiveFailures + 1 ≥ o.failureThreshold ∨ cb.state = .HALF_OPEN :=
    .inl (by omega)
  simp only [onFailure, if_pos hopens, and_self]

theorem onFailure_opens (hsound : Sound o cb) (hopen : (onFailure o cb now).state = .OPEN) :
    (onFailure o cb now).openedAt = now := by
  by_cases hwas : cb.state = .OPEN
  · exact (onFailure_open hsound hwas).2
  · unfold onFailure at hopen ⊢
    dsimp only at hopen ⊢
    split at hopen
    · rename_i hopens
      rw [if_pos hopens]
    · exact absurd hopen hwas

theorem mem_opensAt_settled {i : ℕ} {t : ℤ} {ok : Bool} {after : CircuitState} :
    t ∈ Event.opensAt (.settled i now ok after) ↔ ok = false ∧ after = .OPEN ∧ t = now := by
  unfold Event.opensAt
  cases ok <;> cases after <;> simp [eq_comm]

theorem Cooling.settle {i : ℕ} {ok : Bool} (h : Cooling o s) (hsound : Sound o s.breaker)
    (hle : s.clock ≤ now) (hnot : ¬ LateSuccess o s (.settle i now ok))
    (hs : step o s (.settle i now ok) = some s') : Cooling o s' := by
  obtain ⟨state, -, rfl⟩ := settle_eq_some hs
  intro e he t ht
  rcases List.mem_append.mp he with he | he
  · obtain ⟨htle, hcool⟩ := h e he t ht
    refine ⟨htle.trans hle, ?_⟩
    rcases hcool with hpast | ⟨hopen, hopened⟩
    · exact .inl (hpast.trans hle)
    · cases ok with
      | false =>
        obtain ⟨hstill, hat⟩ : (onFailure o s.breaker now).state = .OPEN ∧ _ :=
          onFailure_open hsound hopen
        exact .inr ⟨hstill, (htle.trans hle).trans hat.ge⟩
      | true =>
        have hpast : ¬ now - s.breaker.openedAt < o.cooldownMs := fun hlt => hnot ⟨hopen, hlt⟩
        exact .inl (by dsimp only; omega)
  · rw [List.mem_singleton.mp he, mem_opensAt_settled] at ht
    obtain ⟨rfl, hopen, rfl⟩ := ht
    exact ⟨le_refl _, .inr ⟨hopen, (onFailure_opens hsound hopen).ge⟩⟩

theorem Cooling.step (h : Cooling o s) (hsound : Sound o s.breaker) (hlater : l.later s)
    (hreset : l ≠ .reset) (hnot : ¬ LateSuccess o s l) (hs : step o s l = some s') :
    Cooling o s' := by
  cases l with
  | getState now =>
    cases hs
    exact h.getState (by simpa [Label.later] using hlater)
  | start now =>
    cases hs
    intro e he t ht
    rcases List.mem_append.mp he with he | he
    · exact h.getState (by simpa [Label.later] using hlater) e he t ht
    · rw [List.mem_singleton.mp he] at ht
      cases ht
  | settle i now ok => exact h.settle hsound (by simpa [Label.later] using hlater) hnot hs
  | reset => exact absurd rfl hreset

theorem Cooling.kept (h : Cooling o s) (hlater : l.later s)
    (hs : CircuitBreaker.step o s l = some s')
    (hkept : CooldownKept o s.log) : CooldownKept o s'.log := by
  cases l with
  | getState now =>
    cases hs
    exact hkept
  | start now =>
    cases hs
    refine CooldownKept.concat_iff.mpr ⟨hkept, fun e he t ht at_ hat hlt => ?_⟩
    obtain rfl : now = at_ := Option.some.inj hat
    obtain ⟨-, hcool⟩ := h e he t ht
    have hle : s.clock ≤ now := by simpa [Label.later] using hlater
    rw [callsFn_started]
    by_contra hne
    rw [decide_eq_false_iff_not, not_not] at hne
    rcases hcool with hpast | ⟨hopen, hopened⟩
    · omega
    · rcases getState_eq hne with ⟨-, hwas⟩ | ⟨-, -, hpast⟩
      · exact hwas hopen
      · omega
  | settle i now ok =>
    obtain ⟨state, -, rfl⟩ := settle_eq_some hs
    exact CooldownKept.concat_iff.mpr ⟨hkept, fun e he t ht at_ hat => by cases hat⟩
  | reset =>
    cases hs
    exact hkept

def Opened (s : Session) : Prop :=
  s.breaker.state = .OPEN → ∃ e ∈ s.log, s.breaker.openedAt ∈ e.opensAt

theorem Opened.step (h : Opened s) (hs : step o s l = some s') (hsound : Sound o s.breaker) :
    Opened s' := by
  cases l with
  | getState now =>
    cases hs
    intro hopen
    have hsame : getState o s.breaker now = s.breaker := getState_of_open hopen
    rw [hsame] at hopen ⊢
    exact h hopen
  | start now =>
    cases hs
    intro hopen
    have hsame : (exec o s.breaker now).1 = s.breaker := getState_of_open hopen
    rw [hsame] at hopen ⊢
    obtain ⟨e, he, hat⟩ := h hopen
    exact ⟨e, List.mem_append_left _ he, hat⟩
  | settle i now ok =>
    obtain ⟨state, -, rfl⟩ := settle_eq_some hs
    intro hopen
    refine ⟨_, List.mem_append_right _ (List.mem_singleton_self _), mem_opensAt_settled.mpr ?_⟩
    cases ok with
    | true => cases hopen
    | false => exact ⟨rfl, hopen, onFailure_opens hsound hopen⟩
  | reset =>
    cases hs
    nofun

/-- After a late success the next call gets through although the cooldown has not passed. -/
theorem late_success_breaks (hopened : Opened s) {i : ℕ}
    (hlate : LateSuccess o s (.settle i now true)) (hs : step o s (.settle i now true) = some s') :
    ∃ s'', step o s' (.start now) = some s'' ∧ ¬ CooldownKept o s''.log := by
  obtain ⟨state, -, rfl⟩ := settle_eq_some hs
  obtain ⟨hopen, hlt⟩ := hlate
  obtain ⟨e, he, hat⟩ := hopened hopen
  refine ⟨_, rfl, fun hkept => ?_⟩
  have hfast := (CooldownKept.concat_iff.mp hkept).2 e (List.mem_append_left _ he) _ hat now rfl
    (by omega)
  cases hfast

/-- A breaker that opened lets no call through before its cooldown has passed, in every run in which
no call succeeds while the breaker is open and cooling; and wherever one does, the next call to
start gets through too early. -/
theorem open_keeps_cooldown (hpos : 1 ≤ o.failureThreshold)
    (hr : Foundations.exec (step o) (Session.start clock) labels = some s)
    (hlater : Meets (step o) (fun s l => l.later s) (Session.start clock) labels)
    (hreset : ∀ l ∈ labels, l ≠ .reset) :
    (Meets (step o) (fun s l => ¬ LateSuccess o s l) (Session.start clock) labels →
      CooldownKept o s.log) ∧
    ∀ i now s', LateSuccess o s (.settle i now true) → step o s (.settle i now true) = some s' →
      ∃ s'', step o s' (.start now) = some s'' ∧ ¬ CooldownKept o s''.log := by
  constructor
  · intro hnot
    have hmeets := (hlater.and (Meets.of_forall hreset _)).and hnot
    refine (exec_invariant_of_meets (I := fun s => Sound o s.breaker ∧ Cooling o s ∧
      CooldownKept o s.log) ?_ ⟨Sound.start hpos, ?_, CooldownKept.nil⟩ hmeets hr).2.2
    · rintro s l s' ⟨hsound, hcool, hkept⟩ ⟨⟨hl, hne⟩, hnl⟩ hs
      exact ⟨hsound.step hpos hs, hcool.step hsound hl hne hnl hs, hcool.kept hl hs hkept⟩
    · intro e he
      cases he
  · intro i now s' hlate hs
    refine late_success_breaks ?_ hlate hs
    refine (exec_invariant (I := fun s => Sound o s.breaker ∧ Opened s) ?_
      ⟨Sound.start hpos, fun hopen => by cases hopen⟩ hr).2
    rintro s l s' ⟨hsound, hopened⟩ hs
    exact ⟨hsound.step hpos hs, hopened.step hs hsound⟩

/-- A failure, a late failure, calls turned away, and the trial after the cooldown. -/
theorem open_keeps_cooldown_sample :
    ∃ s, Foundations.exec (step ⟨1, 500⟩) (Session.start 0)
        [.start 0, .start 1, .settle 0 10 false, .settle 1 20 false, .start 500, .start 520] =
          some s ∧ CooldownKept ⟨1, 500⟩ s.log := by
  have hs : ∃ s, Foundations.exec (step ⟨1, 500⟩) (Session.start 0)
      [.start 0, .start 1, .settle 0 10 false, .settle 1 20 false, .start 500, .start 520] = some s :=
    Option.isSome_iff_exists.mp (by decide)
  obtain ⟨s, hs⟩ := hs
  exact ⟨s, hs, (open_keeps_cooldown (o := ⟨1, 500⟩) (Nat.le_refl 1) hs (by decide)
    (by decide)).1 (by decide)⟩

/-- A call that started before the breaker opened and succeeds after it: the next call gets through
20 ms after the opening. -/
theorem late_success_closes :
    ∃ s, Foundations.exec (step ⟨1, 500⟩) (Session.start 0)
        [.start 0, .start 1, .settle 0 10 false, .settle 1 20 true, .start 30] = some s ∧
      ¬ CooldownKept ⟨1, 500⟩ s.log := by
  refine ⟨_, rfl, fun h => ?_⟩
  have hfast := h [.started 0 0 .CLOSED ⟨.CLOSED, none⟩, .started 1 1 .CLOSED ⟨.CLOSED, none⟩]
    (.settled 0 10 false .OPEN) [.settled 1 20 true .CLOSED]
    (.started 2 30 .CLOSED ⟨.CLOSED, none⟩) (by decide) 10 rfl 30 rfl (by decide)
  cases hfast

end Cooldown

end LinkBulker.CircuitBreaker
