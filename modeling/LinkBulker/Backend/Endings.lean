import LinkBulker.Backend.Jobs
import LinkBulker.Worker.Ready

/-! The bulk jobs come to an end, in every run of the backend. -/

namespace LinkBulker.Backend

open Foundations Db Shared SingleLink Worker
open ProjectLock (Check)

variable {newURL : UrlParser} {clock : Sheets.LocalClock} {db : Database}
  {locks : String → LockManager.Key} {time : ℤ} {labels : List (Label newURL)} {s s' : State newURL}
  {i k : ℕ} {c : Check}

def Label.advances (i : ℕ) : Label newURL → Bool
  | .dispatch (.work j a) => j = i && Worker.advances a
  | _ => false

structure Spends (n : ℕ) (c : Check) : Prop where
  spent : n + checkRank c ≤ checkBudget c
  able : Able c
  sweeps : CheckSweeps c

theorem Spends.manual (job : ManualCheckJobData) : Spends 0 (.manual { job }) := by
  refine ⟨?_, .inl rfl, .start job⟩
  rw [Nat.zero_add]
  exact le_refl _

theorem Spends.find (sheetsTaskId : SheetsTaskId) : Spends 0 (.sheets (.find sheetsTaskId)) :=
  ⟨le_refl _, trivial, trivial⟩

theorem Spends.step {n : ℕ} {c' : Check} {a : ProjectLock.Act} {w w' : World} (h : Spends n c)
    (hs : ProjectLock.Steps newURL clock w c a w' c') :
    Spends (n + (Worker.advances a).toNat) c' := by
  have hspent := h.spent
  have hrank := checkRank_step h.able h.sweeps hs
  exact ⟨by omega, h.able.step hs, h.sweeps.step hs⟩

structure Spending (labels : List (Label newURL)) (s : State newURL) : Prop where
  jobs : ∀ i c, s.checks[i]? = some c → Spends (labels.countP (Label.advances i)) c
  later : ∀ i, s.checks.length ≤ i → labels.countP (Label.advances i) = 0

theorem Spending.start : Spending [] (State.start db locks time : State newURL) :=
  ⟨fun _ _ hc => absurd hc nofun, fun _ _ => rfl⟩

theorem countP_advances {l : Label newURL} (i : ℕ) :
    (labels ++ [l]).countP (Label.advances i) =
      labels.countP (Label.advances i) + (Label.advances i l).toNat := by
  rw [List.countP_append, List.countP_singleton, Bool.toNat, Bool.cond_eq_ite]

theorem Spending.idle {l : Label newURL} (h : Spending labels s) (hchecks : s'.checks = s.checks)
    (hl : ∀ i, l.advances i = false) : Spending (labels ++ [l]) s' := by
  refine ⟨fun i c hc => ?_, fun i hi => ?_⟩ <;> rw [countP_advances, hl]
  · exact h.jobs i c (hchecks ▸ hc)
  · exact h.later i (hchecks ▸ hi)

theorem Spending.taken {l : Label newURL} (h : Spending labels s) (hc : Spends 0 c)
    (hchecks : s'.checks = s.checks ++ [c]) (hl : ∀ i, l.advances i = false) :
    Spending (labels ++ [l]) s' := by
  refine ⟨fun i d hd => ?_, fun i hi => ?_⟩ <;> rw [countP_advances, hl]
  · rw [hchecks, List.getElem?_append] at hd
    split at hd
    · exact h.jobs i d hd
    · rename_i hi
      rw [List.getElem?_singleton] at hd
      split at hd
      · cases hd
        rw [h.later i (not_lt.mp hi)]
        exact hc
      · cases hd
  · rw [hchecks, List.length_append] at hi
    exact h.later i (by omega)

theorem Spending.worked {j : ℕ} {c' : Check} {a : ProjectLock.Act} {w w' : World}
    (h : Spending labels s) (hget : s.checks[j]? = some c)
    (hs : ProjectLock.Steps newURL clock w c a w' c') (hchecks : s'.checks = s.checks.set j c') :
    Spending (labels ++ [.dispatch (.work j a)]) s' := by
  have hmine : (Label.dispatch (.work j a) : Label newURL).advances j = Worker.advances a := by
    simp [Label.advances]
  have hother (i : ℕ) (hij : j ≠ i) :
      (Label.dispatch (.work j a) : Label newURL).advances i = false := by
    simp [Label.advances, hij]
  refine ⟨fun i d hd => ?_, fun i hi => ?_⟩ <;> rw [countP_advances]
  · rw [hchecks, List.getElem?_set] at hd
    split at hd
    · rename_i hij
      obtain rfl := hij
      rw [if_pos (List.getElem?_eq_some_iff.mp hget).1] at hd
      cases hd
      rw [hmine]
      exact (h.jobs j c hget).step hs
    · rename_i hij
      rw [hother i hij]
      exact h.jobs i d hd
  · rw [hchecks, List.length_set] at hi
    have hj := (List.getElem?_eq_some_iff.mp hget).1
    rw [hother i (by omega)]
    exact h.later i hi

theorem Label.advances_of_ne {l : Label newURL} (h : ∀ i a, l ≠ .dispatch (.work i a)) (i : ℕ) :
    l.advances i = false := by
  unfold Label.advances
  split
  · exact absurd rfl (h _ _)
  · rfl

theorem Spending.step {l : Label newURL} (h : Spending labels s) (hs : step clock s l = some s') :
    Spending (labels ++ [l]) s' := by
  obtain ⟨-, -, hdoes⟩ := step_eq_some hs
  cases hdoes.moved with
  | idle hl hlocks hchecks => exact h.idle hchecks (Label.advances_of_ne hl)
  | taken hl hlocks hc hchecks =>
    refine h.taken ?_ hchecks (Label.advances_of_ne hl)
    obtain ⟨q, -, rfl⟩ | ⟨sheetsTaskId, rfl⟩ := hc
    · exact .manual q.data
    · exact .find sheetsTaskId
  | worked hl hget hm hchecks =>
    rw [hl]
    exact h.worked hget (ProjectLock.steps_of_move hm) hchecks

theorem step_work {a : ProjectLock.Act} (hget : s.checks[i]? = some c)
    (hready : ∀ w : World, (c.move newURL clock w a).isSome) (hnow : s.world.clock ≤ a.turn.now)
    (hdraws : ∀ id ∈ checkDraws c a, id ∉ s.given) :
    (step clock s (.dispatch (.work i a))).isSome := by
  have hdrawn : s.draws (.dispatch (.work i a)) = checkDraws c a := by
    simp [State.draws, hget]
  refine isSome_dispatch rfl hnow (hdrawn ▸ hdraws) ?_
  rw [Dispatch.State.move, Option.isSome_map]
  exact Pool.isSome_step hget (hready _)

theorem step_main {t : Sheets.SheetsTurn} (hget : s.checks[i]? = some c)
    (hready : ∀ w : World, (c.move newURL clock w (mainAct c t)).isSome)
    (hnow : s.world.clock ≤ t.now) (hfresh : ∀ n, t.cuid n ∉ s.given) :
    (step clock s (.dispatch (.work i (mainAct c t)))).isSome := by
  refine step_work hget hready ?_ fun id hid => ?_
  · cases c with
    | manual h | sheets call => exact hnow
  · cases c with
    | manual h => exact absurd hid List.not_mem_nil
    | sheets call =>
      cases call with
      | find _ | missing => exact absurd hid List.not_mem_nil
      | body r =>
        simp only [mainAct, checkDraws] at hid
        split at hid
        · obtain ⟨n, -, rfl⟩ := List.mem_map.mp hid
          exact hfresh n
        · exact absurd hid List.not_mem_nil

theorem step_child {k : ℕ} {t : Turn} (hget : s.checks[i]? = some c)
    (hready : ∀ w : World, (c.move newURL clock w (childAct c k t)).isSome)
    (hnow : s.world.clock ≤ t.now) :
    (step clock s (.dispatch (.work i (childAct c k t)))).isSome := by
  refine step_work hget hready ?_ fun id hid => ?_
  · cases c with
    | manual h | sheets call => exact hnow
  · cases c with
    | manual h => exact absurd hid List.not_mem_nil
    | sheets call =>
      cases call with
      | find _ | missing | body r => exact absurd hid List.not_mem_nil

/-- Every bulk job ends: in every run it and its `processOne` calls take at most ten steps for each
link of a manual job and twelve for each of a sheet, besides a few of its own, and until it is over
one of them can take the next, whatever the environment answers. -/
theorem jobs_end (hr : exec (Backend.step clock) (.start db locks time) labels = some s)
    (hc : s.checks[i]? = some c) :
    labels.countP (Label.advances i) ≤ checkBudget c ∧ (c.over = false →
      (∀ t : Sheets.SheetsTurn, s.world.clock ≤ t.now → (∀ n, t.cuid n ∉ s.given) →
        (step clock s (.dispatch (.work i (mainAct c t)))).isSome) ∨
      ∃ k, ∀ t : Turn, s.world.clock ≤ t.now →
        (step clock s (.dispatch (.work i (childAct c k t)))).isSome) := by
  have hspends := (exec_history Spending.start
    (fun _ _ _ _ h hs => Spending.step h hs) hr).jobs i c hc
  refine ⟨?_, fun hopen => ?_⟩
  · have hspent := hspends.spent
    omega
  cases Able.ready newURL clock hspends.able hopen with
  | inl hmain => exact .inl fun t hnow hfresh => step_main hc (fun w => hmain w t) hnow hfresh
  | inr hchild =>
    obtain ⟨k, hk⟩ := hchild
    exact .inr ⟨k, fun t hnow => step_child hc (fun w => hk w t) hnow⟩

section Examples

/-- The job of the first user's link: twenty steps at most, of which it has taken nineteen. -/
theorem jobs_end_sample : ∃ s c, run begun swept = some s ∧ s.checks[0]? = some c ∧
    swept.countP (Label.advances 0) ≤ checkBudget c ∧ checkBudget c = 20 ∧
    swept.countP (Label.advances 0) = 19 := by
  obtain ⟨s, hrun, hend⟩ := exists_of_any
    (P := fun s : State _ => ∃ c ∈ s.checks[0]?, checkBudget c = 20)
    (s := run begun swept) (by decide +kernel)
  obtain ⟨c, hc, hbudget⟩ := hend
  exact ⟨s, c, hrun, hc, (jobs_end hrun hc).1, hbudget, by decide +kernel⟩

end Examples

end LinkBulker.Backend
