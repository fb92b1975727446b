import LinkBulker.Backend.Jobs
import LinkBulker.Worker.LockDeadlines
import LinkBulker.Worker.ProjectLockEffect

/-! Who keeps the projects locked, in every run of the backend. -/

namespace LinkBulker.Backend

open Foundations Db Shared SingleLink Worker
open ManualCheck (PROJECT_LOCK_TTL_MS)
open ProjectLock (Check Kind lockKey_inj)

variable {newURL : UrlParser} {clock : Sheets.LocalClock} {db : Database} {time now : ℤ}
  {labels : List (Label newURL)} {s s' : State newURL} {kind : Kind} {p : ProjectId} {i : ℕ}
  {c : Check}

def State.runs (s : State newURL) (i : ℕ) (kind : Kind) (p : ProjectId) : Prop :=
  ∃ c v, s.checks[i]? = some c ∧ c.view = some v ∧ v.kind = kind ∧ v.projectId = p

def Kept (labels : List (Label newURL)) (s : State newURL) (kind : Kind) (p : ProjectId)
    (deadline : ℤ) : Prop :=
  ∃ i a, .dispatch (.work i a) ∈ labels ∧ s.runs i kind p ∧
    deadline ≤ a.turn.now + PROJECT_LOCK_TTL_MS

structure Leased (labels : List (Label newURL)) (s : State newURL) : Prop where
  timed : ∀ c ∈ s.checks, c.Timed
  kept : ∀ kind p e, s.world.locks (kind.lockKey p) = some e → Kept labels s kind p e.deadline

theorem Leased.start : Leased [] (State.start db (fun _ => none) time : State newURL) :=
  ⟨fun _ hc => absurd hc List.not_mem_nil, fun _ _ _ he => by cases he⟩

theorem Kept.later {deadline : ℤ} {l : Label newURL} (h : Kept labels s kind p deadline)
    (hruns : ∀ i, s.runs i kind p → s'.runs i kind p) :
    Kept (labels ++ [l]) s' kind p deadline := by
  obtain ⟨i, a, hmem, hi, hle⟩ := h
  exact ⟨i, a, List.mem_append_left _ hmem, hruns i hi, hle⟩

theorem Leased.step {l : Label newURL} (h : Leased labels s)
    (hs : Backend.step clock s l = some s') : Leased (labels ++ [l]) s' := by
  obtain ⟨-, -, hdoes⟩ := step_eq_some hs
  cases hdoes.moved with
  | idle hl hlocks hchecks =>
    refine ⟨hchecks ▸ h.timed, fun kind p e he => ?_⟩
    refine (h.kept kind p e (hlocks ▸ he)).later fun i hi => ?_
    rwa [State.runs, hchecks]
  | taken hl hlocks hc hchecks =>
    refine ⟨fun c' hc' => ?_, fun kind p e he => ?_⟩
    · rw [hchecks] at hc'
      obtain hc' | hc' := List.mem_append.mp hc'
      · exact h.timed c' hc'
      · rw [List.mem_singleton.mp hc']
        obtain ⟨q, -, rfl⟩ | ⟨sheetsTaskId, rfl⟩ := hc
        · exact Check.timed_manual.mpr fun _ hlock => by cases hlock
        · exact fun _ hv => by cases hv
    · refine (h.kept kind p e (hlocks ▸ he)).later fun i ⟨c', v, hget, hview⟩ => ?_
      refine ⟨c', v, ?_, hview⟩
      rw [hchecks]
      exact List.getElem?_append_left (List.getElem?_eq_some_iff.mp hget).1 ▸ hget
  | @worked j a c c' hl hget hm hchecks =>
    have htimed := h.timed c (List.mem_of_getElem? hget)
    have htimed' := htimed.step (ProjectLock.steps_of_move hm)
    have hruns {i : ℕ} {kind : Kind} {p : ProjectId} (hi : s.runs i kind p) :
        s'.runs i kind p := by
      obtain ⟨d, v, hd, hview, hkind, hproject⟩ := hi
      by_cases hij : j = i
      · subst hij
        obtain rfl := Option.some.inj (hget.symm.trans hd)
        obtain ⟨hnone, -, -⟩ | ⟨v₀, v', hview₀, hview', -, hwalk⟩ := ProjectLock.Check.lockStep hm
        · rw [hnone] at hview
          cases hview
        · obtain rfl := Option.some.inj (hview₀.symm.trans hview)
          obtain ⟨hkind', hproject'⟩ := hwalk.same
          refine ⟨c', v', ?_, hview', hkind'.trans hkind, hproject'.trans hproject⟩
          rw [hchecks]
          exact Pool.getElem?_set_self hget
      · refine ⟨d, v, ?_, hview, hkind, hproject⟩
        rw [hchecks, List.getElem?_set_ne hij]
        exact hd
    refine ⟨hchecks ▸ Pool.forall_set h.timed htimed', fun kind p e he => ?_⟩
    obtain ⟨-, hworld, -⟩ | ⟨v, v', hview, hview', hlock, hwalk⟩ := ProjectLock.Check.lockStep hm
    · refine (h.kept kind p e ?_).later fun i => hruns
      rw [hworld] at he
      exact he
    · obtain hold | ⟨hkey, hdeadline⟩ :=
        hlock.deadline (htimed v hview) (htimed' v' hview') he
      · exact (h.kept kind p e hold).later fun i => hruns
      · obtain ⟨rfl, rfl⟩ := lockKey_inj hkey
        refine ⟨j, a, List.mem_append_right _ (List.mem_singleton.mpr hl.symm), ?_, hdeadline.le⟩
        exact hruns ⟨c, v, hget, hview, rfl, rfl⟩

/-- A project is never locked for nothing: as long as a lock of it is seen, a job for it has done
something in the last thirty minutes.  So a worker that dies, or a release that fails, keeps nobody
out for longer than that. -/
theorem locks_are_kept_alive
    (hr : exec (Backend.step clock) (.start db (fun _ => none) time) labels = some s)
    (hlocked : LockManager.isLocked (s.world.locks (kind.lockKey p)) now) :
    ∃ i a, .dispatch (.work i a) ∈ labels ∧ s.runs i kind p ∧
      now ≤ a.turn.now + PROJECT_LOCK_TTL_MS := by
  have hleased := exec_history Leased.start (fun _ _ _ _ h hs => Leased.step h hs) hr
  obtain ⟨token, htoken⟩ := Option.isSome_iff_exists.mp hlocked
  obtain ⟨d, hkey, hle⟩ := Slot.read_eq_some.mp htoken
  obtain ⟨i, a, hmem, hi, hdeadline⟩ := hleased.kept kind p _ hkey
  exact ⟨i, a, hmem, hi, hle.trans hdeadline⟩

section Examples

def held : List (Label Crawler.exampleURL) :=
  swept.take 7 ++ [.dispatch (.work 0 (.manual (.beat { now := 200000 })))]

theorem locks_are_kept_alive_sample : ∃ s, run begun held = some s ∧
    LockManager.isLocked (s.world.locks (REDIS_KEYS.projectManualLock "p")) 1900000 ∧
    ∃ i a, .dispatch (.work i a) ∈ held ∧ s.runs i .manual "p" ∧
      1900000 ≤ a.turn.now + PROJECT_LOCK_TTL_MS := by
  obtain ⟨s, hs, hlocked⟩ := exists_of_any (P := fun s : State _ =>
      LockManager.isLocked (s.world.locks (REDIS_KEYS.projectManualLock "p")) 1900000)
    (s := run begun held) (by decide +kernel)
  exact ⟨s, hs, hlocked, locks_are_kept_alive hs hlocked⟩

end Examples

end LinkBulker.Backend
