import LinkBulker.Backend.Answers
import LinkBulker.Backend.Endings

/-! When nothing more comes in, the backend works off what there is and comes to rest. -/

namespace LinkBulker.Backend

open Foundations Db Shared SingleLink Worker
open ProjectLock (Check)

variable {newURL : UrlParser} {clock : Sheets.LocalClock} {db : Database}
  {locks : String → LockManager.Key} {time : ℤ} {before : List (Label newURL)}
  {s s' : State newURL} {l : Label newURL}

def Label.comes : Label newURL → Bool
  | .dispatch (.ask _) | .dispatch (.schedule _) | .row .. | .task _ => true
  | _ => false

def Label.beats : Label newURL → Bool
  | .dispatch (.work _ a) => !Worker.advances a
  | _ => false

structure State.AtRest (s : State newURL) : Prop where
  requests : ∀ r ∈ s.requests, r.answered
  rowRequests : ∀ r ∈ s.rowRequests, r.answered
  taskRequests : ∀ r ∈ s.taskRequests, r.2.isAnswered
  manualQueue : s.manualQueue.length ≤ s.manualTaken
  sheetsQueue : s.sheetsQueue.length ≤ s.sheetsTaken
  singleLinkQueue : s.singleLinkQueue.length ≤ s.singles.length
  checks : ∀ c ∈ s.checks, c.over ∧ Check.settled c
  singles : ∀ p ∈ s.singles, p.settled

section Rank

def State.unanswered (s : State newURL) : ℕ :=
  (s.requests.map Dispatch.Request.rank).sum + (s.rowRequests.map fun r => r.pc.rank).sum +
    (s.taskRequests.map fun r => r.2.rank).sum

def State.waiting (s : State newURL) : ℕ :=
  s.manualQueue.length - s.manualTaken + (s.sheetsQueue.length - s.sheetsTaken) +
    (s.singleLinkQueue.length - s.singles.length)

def State.unread (s : State newURL) : ℕ := (s.checks.map fun c => (Worker.unread c).toNat).sum

def State.ahead (s : State newURL) : ℕ :=
  (s.checks.map checkRank).sum + (s.singles.map fun p => p.pc.rank).sum

def State.rank (s : State newURL) : ℕ ×ₗ ℕ ×ₗ ℕ ×ₗ ℕ :=
  toLex (s.unanswered, toLex (s.waiting, toLex (s.unread, s.ahead)))

theorem rank_lt_iff : s'.rank < s.rank ↔ s'.unanswered < s.unanswered ∨
    s'.unanswered = s.unanswered ∧ (s'.waiting < s.waiting ∨ s'.waiting = s.waiting ∧
      (s'.unread < s.unread ∨ s'.unread = s.unread ∧ s'.ahead < s.ahead)) := by
  simp only [State.rank, Prod.Lex.toLex_lt_toLex]

theorem rank_le_iff : s'.rank ≤ s.rank ↔ s'.unanswered < s.unanswered ∨
    s'.unanswered = s.unanswered ∧ (s'.waiting < s.waiting ∨ s'.waiting = s.waiting ∧
      (s'.unread < s.unread ∨ s'.unread = s.unread ∧ s'.ahead ≤ s.ahead)) := by
  simp only [State.rank, Prod.Lex.toLex_le_toLex]

def Sound (s : State newURL) : Prop := ∀ c ∈ s.checks, Able c ∧ CheckSweeps c

theorem sound_of_exec (hr : exec (step clock) (.start db locks time) before = some s) : Sound s := by
  intro c hc
  obtain ⟨i, hi⟩ := List.mem_iff_getElem?.mp hc
  have hspends := (exec_history Spending.start
    (fun _ _ _ _ h hs => Spending.step h hs) hr).jobs i c hi
  exact ⟨hspends.able, hspends.sweeps⟩

theorem rank_served {i : ℕ} {r : Dispatch.Request} (hget : s.requests[i]? = some r)
    (r' : Dispatch.Request) (hless : r'.rank < r.rank) (hrequests : s'.requests = s.requests.set i r')
    (hrows : s'.rowRequests = s.rowRequests) (htasks : s'.taskRequests = s.taskRequests) :
    s'.rank < s.rank := by
  have hsum := Pool.sum_map_set Dispatch.Request.rank hget r'
  rw [← hrequests] at hsum
  refine rank_lt_iff.mpr (.inl ?_)
  simp only [State.unanswered, hrows, htasks]
  omega

theorem rank_worked {i : ℕ} {a : ProjectLock.Act} {c c' : Check} {w w' : World}
    (hsound : Sound s) (hget : s.checks[i]? = some c)
    (hs : ProjectLock.Steps newURL clock w c a w' c') (hunanswered : s'.unanswered = s.unanswered)
    (hwaiting : s'.waiting = s.waiting) (hchecks : s'.checks = s.checks.set i c')
    (hsingles : s'.singles = s.singles) :
    s'.rank ≤ s.rank ∧ (Worker.advances a → s'.rank < s.rank) := by
  obtain ⟨hable, hsweeps⟩ := hsound c (List.mem_of_getElem? hget)
  have hunread := Pool.sum_map_set (fun c => (Worker.unread c).toNat) hget c'
  have hahead := Pool.sum_map_set checkRank hget c'
  rw [← hchecks] at hunread hahead
  have hless : s'.unread < s.unread ∨ s'.unread = s.unread ∧
      s'.ahead + (Worker.advances a).toNat ≤ s.ahead := by
    simp only [State.unread, State.ahead, hsingles]
    obtain ⟨hsame, hrank⟩ | ⟨hbefore, hafter⟩ := unread_or_checkRank hable hsweeps hs
    · rw [hsame] at hunread
      exact .inr ⟨by omega, by omega⟩
    · rw [hbefore, hafter, Bool.toNat_true, Bool.toNat_false] at hunread
      exact .inl (by omega)
  rw [rank_le_iff, rank_lt_iff]
  refine ⟨.inr ⟨hunanswered, .inr ⟨hwaiting, hless.imp_right fun h => ⟨h.1, by omega⟩⟩⟩,
    fun hadvances => .inr ⟨hunanswered, .inr ⟨hwaiting, hless.imp_right fun h => ⟨h.1, ?_⟩⟩⟩⟩
  rw [hadvances, Bool.toNat_true] at h
  omega

/-- What does not come from outside takes the backend further, but for the heartbeats. -/
theorem rank_step (hsound : Sound s) (hl : l.comes = false) (hs : step clock s l = some s') :
    s'.rank ≤ s.rank ∧ (l.beats = false → s'.rank < s.rank) := by
  have of_lt (h : s'.rank < s.rank) : s'.rank ≤ s.rank ∧ (l.beats = false → s'.rank < s.rank) :=
    ⟨h.le, fun _ => h⟩
  obtain ⟨-, -, hdoes⟩ := step_eq_some hs
  cases hdoes with
  | row => cases hl
  | task => cases hl
  | @serveRow i cuid r r' db hget hm =>
    have hless := RowRequests.rank_move hm
    have hsum := Pool.sum_map_set (fun r => r.pc.rank) hget r'
    refine of_lt (rank_lt_iff.mpr (.inl ?_))
    simp only [State.unanswered]
    omega
  | @serveTask i t op r r' store hget hm =>
    have hless := SheetsSchedules.rank_move hm
    have hsum := Pool.sum_map_set (fun r => r.2.rank) hget (op, r')
    refine of_lt (rank_lt_iff.mpr (.inl ?_))
    simp only [State.unanswered] at hsum ⊢
    omega
  | dispatch hallows hd =>
    cases hd with
    | asked => cases hl
    | scheduled => cases hl
    | created | refused | deleted => cases hallows
    | @bulk i now r r' queue hget hm =>
      exact of_lt (rank_served hget (.startManualCheck r') (BulkQueue.rank_move hm) rfl rfl rfl)
    | @recheck i now r r' server hget hm =>
      exact of_lt (rank_served hget (.recheckOne r') (RecheckOne.rank_move hm) rfl rfl rfl)
    | @run i now r r' queue hget hm =>
      exact of_lt (rank_served hget (.runNow r') (Dispatch.RunNow.rank_move hm) rfl rfl rfl)
    | tookManual hq =>
      have hlt := (List.getElem?_eq_some_iff.mp hq).1
      refine of_lt (rank_lt_iff.mpr (.inr ⟨rfl, .inl ?_⟩))
      simp only [State.waiting, Dispatch.State.at_] at hlt ⊢
      omega
    | tookSheets hjob =>
      have hlt := (List.getElem?_eq_some_iff.mp hjob).1
      refine of_lt (rank_lt_iff.mpr (.inr ⟨rfl, .inl ?_⟩))
      simp only [State.waiting, Dispatch.State.at_] at hlt ⊢
      omega
    | tookSingle hjob =>
      have hlt := (List.getElem?_eq_some_iff.mp hjob).1
      refine of_lt (rank_lt_iff.mpr (.inr ⟨rfl, .inl ?_⟩))
      simp only [State.waiting, Dispatch.State.at_, List.length_append, List.length_singleton] at hlt ⊢
      omega
    | @worked i a c c' world hget hm =>
      have hbusy : Label.beats (.dispatch (.work i a) : Label newURL) = false →
          Worker.advances a := by simp [Label.beats]
      exact And.imp_right (fun hlt hbeats => hlt (hbusy hbeats))
        (rank_worked hsound hget (ProjectLock.steps_of_move hm) rfl rfl rfl rfl)
    | @checked j t c c' world hget hm =>
      obtain ⟨-, hmoves⟩ := SingleLink.move_eq_some hm
      have hless := rank_moves hmoves
      have hsum := Pool.sum_map_set (fun p : ProcessOne => p.pc.rank) hget c'
      refine of_lt (rank_lt_iff.mpr (.inr ⟨rfl, .inr ⟨?_, .inr ⟨rfl, ?_⟩⟩⟩))
      · simp only [State.waiting, Dispatch.State.at_, List.length_set]
      · simp only [State.ahead, Dispatch.State.at_] at hsum ⊢
        omega

end Rank

section Stuck

theorem atRest_iff : s.AtRest ↔
    s.unanswered = 0 ∧ s.waiting = 0 ∧ s.ahead = 0 := by
  have hsum {γ : Type} (f : γ → ℕ) (cs : List γ) : (cs.map f).sum = 0 ↔ ∀ c ∈ cs, f c = 0 := by
    simp [List.sum_eq_zero_iff_forall_eq_nat]
  have hunanswered : s.unanswered = 0 ↔ ((∀ r ∈ s.requests, r.answered) ∧
      ∀ r ∈ s.rowRequests, r.answered) ∧ ∀ r ∈ s.taskRequests, r.2.isAnswered := by
    simp only [State.unanswered, Nat.add_eq_zero_iff, hsum, Dispatch.Request.rank_eq_zero,
      RowRequests.rank_eq_zero, SheetsSchedules.rank_eq_zero]
  have hwaiting : s.waiting = 0 ↔ (s.manualQueue.length ≤ s.manualTaken ∧
      s.sheetsQueue.length ≤ s.sheetsTaken) ∧ s.singleLinkQueue.length ≤ s.singles.length := by
    simp only [State.waiting, Nat.add_eq_zero_iff, Nat.sub_eq_zero_iff_le]
  have hsettled (p : ProcessOne) : p.pc.rank = 0 ↔ p.settled := by
    unfold ProcessOne.settled
    cases p.pc <;> simp [Pc.rank]
  have hahead : s.ahead = 0 ↔ (∀ c ∈ s.checks, c.over ∧ Check.settled c) ∧
      ∀ p ∈ s.singles, p.settled := by
    simp only [State.ahead, Nat.add_eq_zero_iff, hsum, checkRank_eq_zero, hsettled]
  rw [hunanswered, hwaiting, hahead]
  constructor
  · intro h
    exact ⟨⟨⟨h.requests, h.rowRequests⟩, h.taskRequests⟩,
      ⟨⟨h.manualQueue, h.sheetsQueue⟩, h.singleLinkQueue⟩, h.checks, h.singles⟩
  · rintro ⟨⟨⟨hr, hrow⟩, htask⟩, ⟨⟨hmanual, hsheets⟩, hsingle⟩, hchecks, hsingles⟩
    exact ⟨hr, hrow, htask, hmanual, hsheets, hsingle, hchecks, hsingles⟩

theorem State.AtRest.stuck (h : s.AtRest) (hsound : Sound s) (hl : l.comes = false)
    (hbeats : l.beats = false) : step clock s l = none := by
  obtain ⟨hunanswered, hwaiting, hahead⟩ := atRest_iff.mp h
  have hunread : s.unread = 0 := by
    rw [State.unread, List.sum_eq_zero_iff_forall_eq_nat]
    intro n hn
    obtain ⟨c, hc, rfl⟩ := List.mem_map.mp hn
    rw [unread_of_over (h.checks c hc).1, Bool.toNat_false]
  by_contra hne
  obtain ⟨s', hs⟩ := Option.ne_none_iff_exists'.mp hne
  have hlt := rank_lt_iff.mp ((rank_step hsound hl hs).2 hbeats)
  omega

theorem quiet_ready {l : Dispatch.Label newURL} (hallows : s.allows l)
    (hnow : s.world.clock ≤ l.now s.world.clock) (hdraws : s.draws (.dispatch l) = [])
    (h : ((s.toState.at_ (l.now s.world.clock)).move clock l).isSome) :
    (step clock s (.dispatch l)).isSome :=
  isSome_dispatch hallows hnow (fun _ hid => absurd (hdraws ▸ hid) List.not_mem_nil) h

theorem row_ready {i : ℕ} {r : RowRequests.Request newURL} {fresh : String}
    (hget : s.rowRequests[i]? = some r) (hfresh : fresh ∉ s.given) (hopen : ¬ r.answered) :
    (step clock s (.serveRow i fun _ => fresh)).isSome := by
  refine isSome_serveRow hget (fun id hid => ?_) (Option.isSome_iff_ne_none.mpr fun hnone =>
    hopen (RowRequests.move_eq_none.mp hnone))
  unfold RowRequests.Request.draws at hid
  split at hid
  · exact List.mem_singleton.mp hid ▸ hfresh
  · obtain ⟨n, -, rfl⟩ := List.mem_map.mp hid
    exact hfresh
  · exact absurd hid List.not_mem_nil

theorem task_ready {i : ℕ} {op : SheetsSchedules.Op} {r : SheetsSchedules.Request}
    {fresh : String} (hget : s.taskRequests[i]? = some (op, r)) (hfresh : fresh ∉ s.given)
    (hopen : ¬ r.isAnswered) :
    (step clock s (.serveTask i { cuid := fresh, now := s.world.clock })).isSome := by
  refine isSome_serveTask hget le_rfl (fun id hid => ?_) (Option.isSome_iff_ne_none.mpr fun hnone =>
    hopen (SheetsSchedules.move_eq_none.mp hnone))
  unfold taskDraws at hid
  split at hid
  · exact List.mem_singleton.mp hid ▸ hfresh
  · exact absurd hid List.not_mem_nil

theorem check_ready (clock : Sheets.LocalClock) {i : ℕ} {c : Check} {fresh : String}
    (hget : s.checks[i]? = some c) (hable : Able c) (hfresh : fresh ∉ s.given)
    (hopen : ¬ (c.over ∧ Check.settled c)) :
    ∃ a, Worker.advances a ∧ (step clock s (.dispatch (.work i a))).isSome := by
  have main (h : ∀ w t, (c.move newURL clock w (mainAct c t)).isSome) :
      ∃ a, Worker.advances a ∧ (step clock s (.dispatch (.work i a))).isSome := by
    let t : Sheets.SheetsTurn := { now := s.world.clock, cuid := fun _ => fresh }
    refine ⟨mainAct c t, ?_, step_main hget (fun w => h w t) le_rfl fun _ => hfresh⟩
    cases c <;> rfl
  have child (h : ∃ k, ∀ w t, (c.move newURL clock w (childAct c k t)).isSome) :
      ∃ a, Worker.advances a ∧ (step clock s (.dispatch (.work i a))).isSome := by
    obtain ⟨k, hk⟩ := h
    let t : Turn := { now := s.world.clock }
    refine ⟨childAct c k t, ?_, step_child hget (fun w => hk w t) le_rfl⟩
    cases c <;> rfl
  cases hover : c.over with
  | true => exact child (exists_child_ready newURL clock fun hsettled => hopen ⟨hover, hsettled⟩)
  | false =>
    cases Able.ready newURL clock hable hover with
    | inl h => exact main h
    | inr h => exact child h

theorem State.AtRest.of_stuck (hsound : Sound s)
    (h : ∀ l : Label newURL, l.comes = false → l.beats = false → step clock s l = none) :
    s.AtRest := by
  have stuck (l : Label newURL) (hl : l.comes = false) (hbeats : l.beats = false)
      (hsome : (step clock s l).isSome) : False := by
    rw [h l hl hbeats] at hsome
    cases hsome
  obtain ⟨fresh, hfresh⟩ := Infinite.exists_notMem_finset s.given.toFinset
  rw [List.mem_toFinset] at hfresh
  constructor
  · intro r hr
    obtain ⟨i, hi⟩ := List.mem_iff_getElem?.mp hr
    by_contra hopen
    refine stuck (.dispatch (.serve i s.world.clock)) rfl rfl (quiet_ready rfl le_rfl rfl ?_)
    rw [Dispatch.State.move, Option.isSome_map]
    refine Pool.isSome_step hi (Option.isSome_iff_ne_none.mpr fun hnone => hopen ?_)
    exact (Dispatch.Request.move_eq_none le_rfl).mp hnone
  · intro r hr
    obtain ⟨i, hi⟩ := List.mem_iff_getElem?.mp hr
    by_contra hopen
    exact stuck _ rfl rfl (row_ready hi hfresh hopen)
  · rintro ⟨op, r⟩ hr
    obtain ⟨i, hi⟩ := List.mem_iff_getElem?.mp hr
    by_contra hopen
    exact stuck _ rfl rfl (task_ready hi hfresh hopen)
  · by_contra hlt
    refine stuck (.dispatch .takeManual) rfl rfl (quiet_ready rfl le_rfl rfl ?_)
    simp [Dispatch.State.move, Dispatch.State.at_, List.getElem?_eq_getElem (not_le.mp hlt)]
  · by_contra hlt
    refine stuck (.dispatch .takeSheets) rfl rfl (quiet_ready rfl le_rfl rfl ?_)
    simp [Dispatch.State.move, Dispatch.State.at_, List.getElem?_eq_getElem (not_le.mp hlt)]
  · by_contra hlt
    refine stuck (.dispatch .takeSingle) rfl rfl (quiet_ready rfl le_rfl rfl ?_)
    simp [Dispatch.State.move, Dispatch.State.at_, List.getElem?_eq_getElem (not_le.mp hlt)]
  · intro c hc
    obtain ⟨i, hi⟩ := List.mem_iff_getElem?.mp hc
    by_contra hopen
    obtain ⟨a, hadvances, hsome⟩ := check_ready clock hi (hsound c hc).1 hfresh hopen
    exact stuck _ rfl (by simp [Label.beats, hadvances]) hsome
  · intro p hp
    obtain ⟨j, hj⟩ := List.mem_iff_getElem?.mp hp
    by_contra hopen
    refine stuck (.dispatch (.check j { now := s.world.clock })) rfl rfl
      (quiet_ready rfl le_rfl rfl ?_)
    rw [Dispatch.State.move, Option.isSome_map]
    exact Pool.isSome_step hj (processOne_ready (Bool.eq_false_iff.mpr hopen) _ _)

end Stuck

theorem ranks_backend : Ranks (step clock)
    (fun s => ∃ before, exec (step clock) (.start db locks time) before = some s)
    (fun l : Label newURL => l.comes = false) (fun l => l.beats = false) State.rank where
  keeps := fun ⟨before, hr⟩ _ hs => ⟨before ++ [_], exec_concat.mpr ⟨_, hr, hs⟩⟩
  le := fun ⟨_, hr⟩ hl hs => (rank_step (sound_of_exec hr) hl hs).1
  lt := fun ⟨_, hr⟩ hl hbeats hs => (rank_step (sound_of_exec hr) hl hs).2 hbeats

/-- Once nothing more comes in, the backend comes to rest: whatever the others answer and in whatever
order it goes on, all but finitely many of the steps from any state are heartbeats, and it can take no
other step exactly when every request is answered and every job is over. -/
theorem comes_to_rest (hr : exec (step clock) (.start db locks time) before = some s)
    (labels : ℕ → Label newURL) (hl : ∀ n, (labels n).comes = false) :
    (∃ N, ∀ n, N ≤ n → (exec (step clock) s ((List.range (n + 1)).map labels)).isSome →
      (labels n).beats) ∧
    ((∀ l : Label newURL, l.comes = false → l.beats = false → step clock s l = none) ↔ s.AtRest) := by
  have hsound := sound_of_exec hr
  refine ⟨?_, State.AtRest.of_stuck hsound, fun h l hl hbeats => h.stuck hsound hl hbeats⟩
  obtain ⟨N, hN⟩ := ranks_backend.eventually_idle ⟨before, hr⟩ labels hl
  exact ⟨N, fun n hn hsome => by simpa using hN n hn hsome⟩

section Examples

def beating (n : ℕ) : Label Crawler.exampleURL :=
  if n < 4 then .dispatch (.work 0 (.manual (.main { now := 100001, token := "t" })))
  else .dispatch (.work 0 (.manual (.beat { now := 100002 })))

/-- From where the worker takes the bulk check it can go on like that, or be worked off. -/
theorem comes_to_rest_sample : ∃ s s', run begun (swept.take 6) = some s ∧
    (run s ((List.range 8).map beating)).isSome ∧
    (∃ N, ∀ n, N ≤ n → (run s ((List.range (n + 1)).map beating)).isSome → (beating n).beats) ∧
    run s (swept.drop 6) = some s' ∧
    ∀ l : Label Crawler.exampleURL, l.comes = false → l.beats = false →
      step Sheets.exampleClock s' l = none := by
  obtain ⟨s, hrun, hbeat, hrest⟩ := exists_of_any
    (P := fun s : State _ => (run s ((List.range 8).map beating)).isSome ∧
      (run s (swept.drop 6)).any fun s => s.unanswered = 0 ∧ s.waiting = 0 ∧ s.ahead = 0)
    (s := run begun (swept.take 6)) (by decide +kernel)
  obtain ⟨s', hrun', hranks⟩ := exists_of_any
    (P := fun s : State _ => s.unanswered = 0 ∧ s.waiting = 0 ∧ s.ahead = 0) hrest
  have hcomes : ∀ n, (beating n).comes = false := fun n => by
    unfold beating
    split <;> rfl
  obtain ⟨hidle, -⟩ := comes_to_rest hrun beating hcomes
  obtain ⟨-, hstuck⟩ := comes_to_rest (exec_append.mpr ⟨s, hrun, hrun'⟩) beating hcomes
  exact ⟨s, s', hrun, hbeat, hidle, hrun', hstuck.mpr (atRest_iff.mpr hranks)⟩

end Examples

end LinkBulker.Backend
