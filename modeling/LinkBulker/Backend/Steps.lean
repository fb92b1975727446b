import LinkBulker.Backend.System
import LinkBulker.Worker.DispatchLaws

/-! What a step of the backend can be. -/

namespace LinkBulker.Backend

open Foundations Db Shared SingleLink Worker
open ProjectLock (Check)

variable {newURL : UrlParser} {clock : Sheets.LocalClock} {s s' : State newURL} {l : Label newURL}

inductive Does (clock : Sheets.LocalClock) (s : State newURL) : Label newURL → State newURL → Prop
  | dispatch {l : Dispatch.Label newURL} {d : Dispatch.State} (hallows : s.allows l)
    (hd : Dispatch.Does clock (s.toState.at_ (l.now s.world.clock)) l d) :
    Does clock s (.dispatch l)
      { s with toState := d, given := s.given ++ s.draws (.dispatch l) }
  | row {userId : UserId} {op : RowRequests.Op newURL} :
    Does clock s (.row userId op)
      { s with rowRequests := s.rowRequests ++ [⟨userId, op.start⟩], given := s.given ++ [] }
  | serveRow {i : ℕ} {cuid : ℕ → String} {r r' : RowRequests.Request newURL} {db : Database}
    (hget : s.rowRequests[i]? = some r) (hm : r.move s.world.db cuid = some (db, r')) :
    Does clock s (.serveRow i cuid) { s with
      world := { s.world with db }
      rowRequests := s.rowRequests.set i r'
      given := s.given ++ s.draws (.serveRow i cuid) }
  | task {op : SheetsSchedules.Op} :
    Does clock s (.task op)
      { s with taskRequests := s.taskRequests ++ [(op, op.start)], given := s.given ++ [] }
  | serveTask {i : ℕ} {t : SheetsSchedules.Turn} {op : SheetsSchedules.Op}
    {r r' : SheetsSchedules.Request} {store : SheetsSchedules.Store}
    (hget : s.taskRequests[i]? = some (op, r))
    (hm : r.move ⟨s.world.db, s.schedulers⟩ t = some (store, r')) :
    Does clock s (.serveTask i t) { s with
      world := { s.world with db := store.db, clock := t.now }
      schedulers := store.schedulers
      taskRequests := s.taskRequests.set i (op, r')
      given := s.given ++ s.draws (.serveTask i t) }

theorem step_eq_some (hs : step clock s l = some s') :
    s.world.clock ≤ l.now s.world.clock ∧ (∀ id ∈ s.draws l, id ∉ s.given) ∧
      Does clock s l s' := by
  unfold step at hs
  split at hs
  · rename_i hok
    obtain ⟨t, hmove, rfl⟩ := Option.map_eq_some_iff.mp hs
    refine ⟨hok.1, hok.2, ?_⟩
    cases l with
    | dispatch l =>
      simp only [State.move] at hmove
      split at hmove
      · rename_i hallows
        obtain ⟨d, hd, rfl⟩ := Option.map_eq_some_iff.mp hmove
        exact .dispatch hallows (Dispatch.move_eq_some hd)
      · cases hmove
    | row userId op =>
      cases hmove
      exact .row
    | task op =>
      cases hmove
      exact .task
    | serveRow i cuid =>
      simp only [State.move, Option.map_eq_some_iff, Prod.exists] at hmove
      obtain ⟨db, requests, hstep, rfl⟩ := hmove
      obtain ⟨r, r', hget, hm, rfl⟩ := Pool.step_eq_some.mp hstep
      exact .serveRow hget hm
    | serveTask i t =>
      simp only [State.move, Option.map_eq_some_iff, Prod.exists] at hmove
      obtain ⟨store, requests, hstep, rfl⟩ := hmove
      obtain ⟨⟨op, r⟩, p, hget, hm, rfl⟩ := Pool.step_eq_some.mp hstep
      simp only [moveTask, Option.map_eq_some_iff, Prod.mk.injEq] at hm
      obtain ⟨⟨store', r'⟩, hm, rfl, rfl⟩ := hm
      exact .serveTask hget hm
  · cases hs

theorem step_given (hs : step clock s l = some s') :
    (∀ id ∈ s.draws l, id ∉ s.given) ∧ s'.given = s.given ++ s.draws l := by
  obtain ⟨-, hfresh, hdoes⟩ := step_eq_some hs
  refine ⟨hfresh, ?_⟩
  cases hdoes <;> rfl

theorem isSome_dispatch {l : Dispatch.Label newURL} (hallows : s.allows l)
    (hnow : s.world.clock ≤ l.now s.world.clock)
    (hdraws : ∀ id ∈ s.draws (.dispatch l), id ∉ s.given)
    (h : ((s.toState.at_ (l.now s.world.clock)).move clock l).isSome) :
    (step clock s (.dispatch l)).isSome := by
  rw [step, if_pos ⟨hnow, hdraws⟩, Option.isSome_map, State.move, if_pos hallows, Option.isSome_map]
  exact h

theorem isSome_serveRow {i : ℕ} {cuid : ℕ → String} {r : RowRequests.Request newURL}
    (hget : s.rowRequests[i]? = some r) (hdraws : ∀ id ∈ r.draws cuid, id ∉ s.given)
    (h : (r.move s.world.db cuid).isSome) : (step clock s (.serveRow i cuid)).isSome := by
  have hdrawn : s.draws (.serveRow i cuid) = r.draws cuid := by simp [State.draws, hget]
  rw [step, hdrawn, if_pos ⟨le_rfl, hdraws⟩, Option.isSome_map, State.move, Option.isSome_map]
  exact Pool.isSome_step hget h

theorem isSome_serveTask {i : ℕ} {t : SheetsSchedules.Turn} {op : SheetsSchedules.Op}
    {r : SheetsSchedules.Request} (hget : s.taskRequests[i]? = some (op, r))
    (hnow : s.world.clock ≤ t.now) (hdraws : ∀ id ∈ taskDraws r t.cuid, id ∉ s.given)
    (h : (r.move ⟨s.world.db, s.schedulers⟩ t).isSome) :
    (step clock s (.serveTask i t)).isSome := by
  have hdrawn : s.draws (.serveTask i t) = taskDraws r t.cuid := by simp [State.draws, hget]
  rw [step, hdrawn, if_pos ⟨hnow, hdraws⟩, Option.isSome_map, State.move, Option.isSome_map]
  refine Pool.isSome_step hget ?_
  rw [moveTask, Option.isSome_map]
  exact h

inductive Moved (clock : Sheets.LocalClock) (s : State newURL) (l : Label newURL)
    (s' : State newURL) : Prop
  | idle (hl : ∀ i a, l ≠ .dispatch (.work i a)) (hlocks : s'.world.locks = s.world.locks)
    (hchecks : s'.checks = s.checks)
  | taken {c : Check} (hl : ∀ i a, l ≠ .dispatch (.work i a))
    (hlocks : s'.world.locks = s.world.locks)
    (hc : (∃ q ∈ s.manualQueue, c = .manual { job := q.data }) ∨
      ∃ sheetsTaskId, c = .sheets (.find sheetsTaskId))
    (hchecks : s'.checks = s.checks ++ [c])
  | worked {i : ℕ} {a : ProjectLock.Act} {c c' : Check} (hl : l = .dispatch (.work i a))
    (hget : s.checks[i]? = some c)
    (hm : c.move newURL clock { s.world with clock := a.turn.now } a = some (s'.world, c'))
    (hchecks : s'.checks = s.checks.set i c')

theorem Does.moved (h : Does clock s l s') : Moved clock s l s' := by
  cases h with
  | row | serveRow hget hm | task | serveTask hget hm =>
    exact .idle (fun _ _ hl => by cases hl) rfl rfl
  | dispatch hallows hd =>
    cases hd with
    | tookManual hq =>
      exact .taken (fun _ _ hl => by cases hl) rfl (.inl ⟨_, List.mem_of_getElem? hq, rfl⟩) rfl
    | tookSheets hjob => exact .taken (fun _ _ hl => by cases hl) rfl (.inr ⟨_, rfl⟩) rfl
    | worked hget hm => exact .worked rfl hget hm rfl
    | checked hget hm =>
      obtain ⟨-, hmoves⟩ := SingleLink.move_eq_some hm
      exact .idle (fun _ _ hl => by cases hl) hmoves.frame.locks rfl
    | asked | bulk hget hm | recheck hget hm | run hget hm | created | refused | deleted
    | scheduled | tookSingle => exact .idle (fun _ _ hl => by cases hl) rfl rfl

end LinkBulker.Backend
