import LinkBulker.Backend.Parties
import LinkBulker.Backend.Steps

/-! For whom everything in the backend is done: each request, job, call and scheduler goes back to a
request that has come in, and keeps rows of the user who made it alone. -/

namespace LinkBulker.Backend

open Foundations Db Shared LinkRepository SingleLink Worker
open ProjectLock (Act Check)

variable {newURL : UrlParser} {clock : Sheets.LocalClock} {asked asked' : Label newURL → Prop}
  {s s' : State newURL} {u : UserId} {drawn : List String}

def Present (asked : Label newURL → Prop) (u : UserId) : Prop := ∃ l, asked l ∧ l.user = some u

def Scheduled (requests : List (SheetsSchedules.Op × SheetsSchedules.Request)) (u : UserId)
    (taskId : SheetsTaskId) : Prop :=
  ∃ r ∈ requests, opUser r.1 = u ∧ Schedules r.1 r.2 taskId

def RunsFor (asked : Label newURL → Prop)
    (requests : List (SheetsSchedules.Op × SheetsSchedules.Request)) (u : UserId)
    (taskId : SheetsTaskId) : Prop :=
  asked (.dispatch (.ask (.runNow u taskId))) ∨ Scheduled requests u taskId

def askOf : Dispatch.Request → Dispatch.Ask
  | .startManualCheck r => .startManualCheck r.userId r.projectId
  | .recheckOne r => .recheckOne r.userId r.linkId
  | .runNow r => .runNow r.userId r.taskId

def requestRefs : Dispatch.Request → List Ref
  | .startManualCheck r => bulkRefs r
  | .recheckOne r => recheckRefs r
  | .runNow r => runRefs r

def ownRequest : Dispatch.Request → Prop
  | .recheckOne r => ownJob r
  | .startManualCheck _ | .runNow _ => True

def checkFor (asked : Label newURL → Prop)
    (requests : List (SheetsSchedules.Op × SheetsSchedules.Request)) (u : UserId) : Check → Prop
  | .manual h => asked (.dispatch (.ask (.startManualCheck u h.job.projectId)))
  | .sheets (.find taskId) => RunsFor asked requests u taskId
  | .sheets (.body r) => RunsFor asked requests u r.task.id
  | .sheets .missing => Present asked u

def State.Holds (s : State newURL) (u : UserId) (refs : List Ref) : Prop :=
  Backend.Holds u s.given s.world.db refs

structure Guarded (asked : Label newURL → Prop) (s : State newURL) : Prop where
  tidy : Tidy s.given s.world.db
  requests : ∀ r ∈ s.requests, asked (.dispatch (.ask (askOf r))) ∧ ownRequest r ∧
    s.Holds (askUser (askOf r)) (requestRefs r)
  manualQueue : ∀ q ∈ s.manualQueue, ∃ u,
    asked (.dispatch (.ask (.startManualCheck u q.data.projectId))) ∧ s.Holds u (jobRefs q.data)
  sheetsQueue : ∀ job ∈ s.sheetsQueue, ∃ u,
    RunsFor asked s.taskRequests u job.sheetsTaskId ∧ s.Holds u [.task job.sheetsTaskId]
  singleLinkQueue : ∀ job ∈ s.singleLinkQueue, ∃ u,
    asked (.dispatch (.ask (.recheckOne u job.linkId))) ∧ s.Holds u [.link job.linkId]
  checks : ∀ c ∈ s.checks, ∃ u, checkFor asked s.taskRequests u c ∧ s.Holds u (checkRefs c)
  singles : ∀ c ∈ s.singles, ∃ u,
    asked (.dispatch (.ask (.recheckOne u c.linkId))) ∧ s.Holds u [.link c.linkId]
  schedulers : ∀ j ∈ s.schedulers.rows, ∃ u,
    Scheduled s.taskRequests u j.data.sheetsTaskId ∧ s.Holds u [.task j.data.sheetsTaskId]
  rowRequests : ∀ r ∈ s.rowRequests,
    (∃ op, asked (.row r.userId op)) ∧ s.Holds r.userId (rowRefs r.pc)
  taskRequests : ∀ r ∈ s.taskRequests,
    asked (.task r.1) ∧ askedBy r.1 r.2 ∧ s.Holds (opUser r.1) (taskRefs r.2)

theorem Guarded.start {db : Database} {locks : String → LockManager.Key} {time : ℤ}
    (hc : db.Consistent) (hs : ∀ l ∈ db.links.rows, Sourced l) :
    Guarded asked ((State.start db locks time : State newURL)) where
  tidy := ⟨hc, hs, List.Subset.refl _⟩
  requests _ h := absurd h List.not_mem_nil
  manualQueue _ h := absurd h List.not_mem_nil
  sheetsQueue _ h := absurd h List.not_mem_nil
  singleLinkQueue _ h := absurd h List.not_mem_nil
  checks _ h := absurd h List.not_mem_nil
  singles _ h := absurd h List.not_mem_nil
  schedulers _ h := absurd h List.not_mem_nil
  rowRequests _ h := absurd h List.not_mem_nil
  taskRequests _ h := absurd h List.not_mem_nil

section Later

variable {requests requests' : List (SheetsSchedules.Op × SheetsSchedules.Request)}
  {taskId : SheetsTaskId}

theorem Scheduled.append (h : Scheduled requests u taskId)
    (r : SheetsSchedules.Op × SheetsSchedules.Request) : Scheduled (requests ++ [r]) u taskId := by
  obtain ⟨q, hq, hs⟩ := h
  exact ⟨q, List.mem_append_left _ hq, hs⟩

theorem Scheduled.set {i : ℕ} {op : SheetsSchedules.Op} {r r' : SheetsSchedules.Request}
    {store store' : SheetsSchedules.Store} {t : SheetsSchedules.Turn}
    (h : Scheduled requests u taskId) (hget : requests[i]? = some (op, r))
    (hm : r.move store t = some (store', r')) : Scheduled (requests.set i (op, r')) u taskId := by
  obtain ⟨q, hq, hu, hs⟩ := h
  obtain rfl | hq := Pool.mem_set_of_mem hget hq
  · cases hs <;> cases hm
  · exact ⟨q, hq, hu, hs⟩

variable (hsub : ∀ l, asked l → asked' l)

include hsub

theorem Present.later (h : Present asked u) : Present asked' u := by
  obtain ⟨l, hl, hu⟩ := h
  exact ⟨l, hsub l hl, hu⟩

variable (hscheduled : ∀ u taskId, Scheduled requests u taskId → Scheduled requests' u taskId)

include hscheduled

theorem RunsFor.later (h : RunsFor asked requests u taskId) : RunsFor asked' requests' u taskId :=
  h.imp (hsub _) (hscheduled u taskId)

theorem checkFor.later {c : Check} (h : checkFor asked requests u c) :
    checkFor asked' requests' u c := by
  cases c with
  | manual h' => exact hsub _ h
  | sheets c =>
    cases c with
    | find taskId => exact RunsFor.later hsub hscheduled h
    | body r => exact RunsFor.later hsub hscheduled h
    | missing => exact Present.later hsub h

end Later

theorem Guarded.settings {schedulers : Table SheetsSchedules.JobScheduler.id}
    {requests : List (SheetsSchedules.Op × SheetsSchedules.Request)} (h : Guarded asked s)
    (hscheduled : ∀ u taskId, Scheduled s.taskRequests u taskId → Scheduled requests u taskId)
    (hschedulers : ∀ j ∈ schedulers.rows, j ∈ s.schedulers.rows ∨ ∃ u,
      Scheduled requests u j.data.sheetsTaskId ∧ s.Holds u [.task j.data.sheetsTaskId])
    (hrequests : ∀ r ∈ requests,
      asked (.task r.1) ∧ askedBy r.1 r.2 ∧ s.Holds (opUser r.1) (taskRefs r.2)) :
    Guarded asked { s with schedulers, taskRequests := requests } := by
  have same : ∀ l, asked l → asked l := fun _ hl => hl
  refine ⟨h.tidy, h.requests, h.manualQueue, fun job hjob => ?_, h.singleLinkQueue, fun c hc => ?_,
    h.singles, fun j hj => ?_, h.rowRequests, hrequests⟩
  · obtain ⟨u, hask, hh⟩ := h.sheetsQueue job hjob
    exact ⟨u, hask.later same hscheduled, hh⟩
  · obtain ⟨u, hask, hh⟩ := h.checks c hc
    exact ⟨u, hask.later same hscheduled, hh⟩
  · obtain hold | hnew := hschedulers j hj
    · obtain ⟨u, hset, hh⟩ := h.schedulers j hold
      exact ⟨u, hscheduled u _ hset, hh⟩
    · exact hnew

section Carry

variable (hsub : ∀ l, asked l → asked' l)

include hsub

theorem Guarded.carry (h : Guarded asked s) (hfresh : ∀ id ∈ drawn, id ∉ s.given) {v : UserId}
    {w : World} (hw : Within v drawn s.world.db w.db) :
    Guarded asked' { s with world := w, given := s.given ++ drawn } := by
  have holds {u : UserId} {refs : List Ref} (hh : s.Holds u refs) :
      Holds u (s.given ++ drawn) w.db refs := hh.within hfresh hw h.tidy
  have same : ∀ u taskId, Scheduled s.taskRequests u taskId → Scheduled s.taskRequests u taskId :=
    fun _ _ hset => hset
  refine ⟨hw.tidy h.tidy, fun r hr => ?_, fun q hq => ?_, fun job hjob => ?_, fun job hjob => ?_,
    fun c hc => ?_, fun c hc => ?_, fun j hj => ?_, fun r hr => ?_, fun r hr => ?_⟩
  · obtain ⟨hask, hown, hh⟩ := h.requests r hr
    exact ⟨hsub _ hask, hown, holds hh⟩
  · obtain ⟨u, hask, hh⟩ := h.manualQueue q hq
    exact ⟨u, hsub _ hask, holds hh⟩
  · obtain ⟨u, hask, hh⟩ := h.sheetsQueue job hjob
    exact ⟨u, hask.later hsub same, holds hh⟩
  · obtain ⟨u, hask, hh⟩ := h.singleLinkQueue job hjob
    exact ⟨u, hsub _ hask, holds hh⟩
  · obtain ⟨u, hask, hh⟩ := h.checks c hc
    exact ⟨u, hask.later hsub same, holds hh⟩
  · obtain ⟨u, hask, hh⟩ := h.singles c hc
    exact ⟨u, hsub _ hask, holds hh⟩
  · obtain ⟨u, hset, hh⟩ := h.schedulers j hj
    exact ⟨u, hset, holds hh⟩
  · obtain ⟨⟨op, hop⟩, hh⟩ := h.rowRequests r hr
    exact ⟨⟨op, hsub _ hop⟩, holds hh⟩
  · obtain ⟨hop, hby, hh⟩ := h.taskRequests r hr
    exact ⟨hsub _ hop, hby, holds hh⟩

end Carry

section Steps

variable {l : Label newURL}

def Made (asked : Label newURL → Prop) (drawn : List String) (db db' : Database) : Prop :=
  ∃ u, Within u drawn db db' ∧ (Present asked u ∨ db' = db)

theorem Made.quiet {given : List String} {db : Database} (ht : Tidy given db) :
    Made asked drawn db db :=
  ⟨"", .refl ht, .inr rfl⟩

theorem Scheduled.present {taskId : SheetsTaskId} (h : Scheduled s.taskRequests u taskId)
    (hg : Guarded asked s) : Present asked u := by
  obtain ⟨r, hr, rfl, -⟩ := h
  exact ⟨_, (hg.taskRequests r hr).1, rfl⟩

theorem RunsFor.present {taskId : SheetsTaskId} (h : RunsFor asked s.taskRequests u taskId)
    (hg : Guarded asked s) : Present asked u := by
  obtain h | hset := h
  · exact ⟨_, h, rfl⟩
  · exact hset.present hg

theorem checkFor.present {c : Check} (h : checkFor asked s.taskRequests u c)
    (hg : Guarded asked s) : Present asked u := by
  cases c with
  | manual h' => exact ⟨_, h, rfl⟩
  | sheets c =>
    cases c with
    | find taskId => exact RunsFor.present h hg
    | body r => exact RunsFor.present h hg
    | missing => exact h

theorem checkFor.step {c c' : Check} {a : Act} {w w' : World}
    (h : checkFor asked s.taskRequests u c) (hg : Guarded asked s)
    (hs : ProjectLock.Steps newURL clock w c a w' c') : checkFor asked s.taskRequests u c' := by
  cases hs with
  | manual hs =>
    rw [checkFor, hs.job]
    exact h
  | manualChild hm | manualBeat hlock hw | sheetsChild hm | sheetsBeat hlock hw => exact h
  | missing => exact RunsFor.present h hg
  | found hfind =>
    obtain ⟨-, rfl⟩ := Table.find?_eq_some.mp hfind
    exact h
  | sheets hs =>
    rw [checkFor, hs.task]
    exact h

theorem askOf_request (a : Dispatch.Ask) :
    askOf a.request = a ∧ ownRequest a.request ∧ requestRefs a.request = [] := by
  cases a <;> exact ⟨rfl, trivial, rfl⟩

variable (hsub : ∀ l, asked l → asked' l)

include hsub

theorem Guarded.dispatch {l : Dispatch.Label newURL} {now : ℤ} {d : Dispatch.State}
    (h : Guarded asked s) (hnew : asked' (.dispatch l)) (hallows : s.allows l)
    (hfresh : ∀ id ∈ s.draws (.dispatch l), id ∉ s.given)
    (hd : Dispatch.Does clock (s.toState.at_ now) l d) :
    Guarded asked' { s with toState := d, given := s.given ++ s.draws (.dispatch l) } ∧
      Made asked' (s.draws (.dispatch l)) s.world.db d.world.db := by
  have hcarry {v : UserId} {w : World}
      (hw : Within v (s.draws (.dispatch l)) s.world.db w.db) :
      Guarded asked' { s with world := w, given := s.given ++ s.draws (.dispatch l) } :=
    h.carry hsub hfresh hw
  have same : ∀ u taskId, Scheduled s.taskRequests u taskId → Scheduled s.taskRequests u taskId :=
    fun _ _ hset => hset
  have hquiet : Guarded asked' { s with
      world := { s.world with clock := now }, given := s.given ++ s.draws (.dispatch l) } :=
    hcarry (v := "") (.refl h.tidy)
  have hholds {u : UserId} {refs : List Ref} (hh : s.Holds u refs) :
      Holds u (s.given ++ s.draws (.dispatch l)) s.world.db refs :=
    hh.within hfresh (v := "") (.refl h.tidy) h.tidy
  cases hd with
  | @asked a =>
    obtain ⟨hask, hown, hrefs⟩ := askOf_request a
    refine ⟨{ hquiet with requests := fun r hr => ?_ }, .quiet h.tidy⟩
    obtain hr | hr := List.mem_append.mp hr
    · exact hquiet.requests r hr
    · rw [List.mem_singleton.mp hr, hask, hrefs]
      exact ⟨hnew, hown, .nil⟩
  | @bulk i _ r r' queue hget hm =>
    obtain ⟨hask, -, hh⟩ := h.requests _ (List.mem_of_getElem? hget)
    obtain ⟨huser, hproject, hrefs, hqueue⟩ := acts_bulk h.tidy hh hm
    have hask' : askOf (.startManualCheck r') = askOf (.startManualCheck r) := by
      rw [askOf, askOf, huser, hproject]
    refine ⟨{ hquiet with requests := Pool.forall_set hquiet.requests ?_, manualQueue := ?_ },
      .quiet h.tidy⟩
    · rw [hask']
      exact ⟨hsub _ hask, trivial, hholds hrefs⟩
    · obtain rfl | ⟨linkIds, rfl, hjob⟩ := hqueue
      · exact hquiet.manualQueue
      · intro q hq
        obtain hq | hq := List.mem_append.mp hq
        · exact hquiet.manualQueue q hq
        · rw [List.mem_singleton.mp hq]
          exact ⟨r.userId, hsub _ hask, hholds hjob⟩
  | @recheck i _ r r' server hget hm =>
    obtain ⟨hask, hown, hh⟩ := h.requests _ (List.mem_of_getElem? hget)
    obtain ⟨huser, hlink, hown', hacts, hqueue⟩ :=
      acts_recheck (s := ⟨s.world.db, now, s.singleLinkQueue, []⟩) h.tidy hfresh hown hh hm
    have hask' : askOf (.recheckOne r') = askOf (.recheckOne r) := by
      rw [askOf, askOf, huser, hlink]
    have hcarried := hcarry (w := { s.world with db := server.db, clock := now }) hacts.within
    refine ⟨{ hcarried with
      requests := Pool.forall_set hcarried.requests ?_, singleLinkQueue := ?_ },
      ⟨r.userId, hacts.within, .inl ⟨_, hsub _ hask, rfl⟩⟩⟩
    · rw [hask']
      exact ⟨hsub _ hask, hown', hacts.holds⟩
    · obtain hq | ⟨job, hq, hid, hmem⟩ := hqueue
      · dsimp only
        rw [hq]
        exact hcarried.singleLinkQueue
      · intro j hj
        dsimp only at hj
        rw [hq] at hj
        obtain hj | hj := List.mem_append.mp hj
        · exact hcarried.singleLinkQueue j hj
        · rw [List.mem_singleton.mp hj, hid]
          exact ⟨r.userId, hsub _ hask,
            (Holds.singleton (hh _ hmem)).within hfresh hacts.within h.tidy⟩
  | @run i _ r r' queue hget hm =>
    obtain ⟨hask, -, hh⟩ := h.requests _ (List.mem_of_getElem? hget)
    obtain ⟨huser, htask, hrefs, hqueue⟩ := acts_run h.tidy hh hm
    have hask' : askOf (.runNow r') = askOf (.runNow r) := by rw [askOf, askOf, huser, htask]
    refine ⟨{ hquiet with requests := Pool.forall_set hquiet.requests ?_, sheetsQueue := ?_ },
      .quiet h.tidy⟩
    · rw [hask']
      exact ⟨hsub _ hask, trivial, hholds hrefs⟩
    · obtain rfl | ⟨rfl, hmem⟩ := hqueue
      · exact hquiet.sheetsQueue
      · intro job hjob
        obtain hjob | hjob := List.mem_append.mp hjob
        · exact hquiet.sheetsQueue job hjob
        · rw [List.mem_singleton.mp hjob]
          exact ⟨r.userId, .inl (hsub _ hask), hholds (.singleton (hh _ hmem))⟩
  | created hdb => cases hallows
  | refused => cases hallows
  | deleted => cases hallows
  | @scheduled taskId =>
    obtain ⟨j, hj, hdata⟩ := List.any_eq_true.mp hallows
    obtain ⟨u, hset, hh⟩ := h.schedulers j hj
    rw [of_decide_eq_true hdata] at hset hh
    refine ⟨{ hquiet with sheetsQueue := fun job hjob => ?_ }, .quiet h.tidy⟩
    obtain hjob | hjob := List.mem_append.mp hjob
    · exact hquiet.sheetsQueue job hjob
    · rw [List.mem_singleton.mp hjob]
      exact ⟨u, .inr hset, hholds hh⟩
  | @tookManual q hq =>
    obtain ⟨u, hask, hh⟩ := h.manualQueue q (List.mem_of_getElem? hq)
    refine ⟨{ hquiet with checks := fun c hc => ?_ }, .quiet h.tidy⟩
    obtain hc | hc := List.mem_append.mp hc
    · exact hquiet.checks c hc
    · rw [List.mem_singleton.mp hc]
      have hlinks := holds_map.mp (holds_cons.mp hh).2
      exact ⟨u, hsub _ hask, hholds (holds_append.mpr ⟨hh, .fresh hlinks⟩)⟩
  | @tookSheets job hjob =>
    obtain ⟨u, hask, hh⟩ := h.sheetsQueue job (List.mem_of_getElem? hjob)
    refine ⟨{ hquiet with checks := fun c hc => ?_ }, .quiet h.tidy⟩
    obtain hc | hc := List.mem_append.mp hc
    · exact hquiet.checks c hc
    · rw [List.mem_singleton.mp hc]
      exact ⟨u, hask.later hsub same, hholds hh⟩
  | @tookSingle job hjob =>
    obtain ⟨u, hask, hh⟩ := h.singleLinkQueue job (List.mem_of_getElem? hjob)
    refine ⟨{ hquiet with singles := fun c hc => ?_ }, .quiet h.tidy⟩
    obtain hc | hc := List.mem_append.mp hc
    · exact hquiet.singles c hc
    · rw [List.mem_singleton.mp hc]
      exact ⟨u, hsub _ hask, hholds hh⟩
  | @worked i a c c' world hget hm =>
    obtain ⟨u, hask, hh⟩ := h.checks c (List.mem_of_getElem? hget)
    have hsteps := ProjectLock.steps_of_move hm
    have hdraws : s.draws (.dispatch (.work i a)) = checkDraws c a := by
      have hget' : s.checks[i]? = some c := hget
      rw [State.draws, hget', Option.map_some, Option.getD_some]
    rw [hdraws] at hfresh hcarry ⊢
    have hacts := acts_check (w := (s.at_ now).world) h.tidy hfresh hh hsteps
    have hcarried := hcarry hacts.within
    refine ⟨{ hcarried with checks := Pool.forall_set hcarried.checks ?_ },
      ⟨u, hacts.within, .inl ((hask.present h).later hsub)⟩⟩
    exact ⟨u, (hask.step h hsteps).later hsub same, hacts.holds⟩
  | @checked j t c c' world hget hm =>
    obtain ⟨u, hask, hh⟩ := h.singles c (List.mem_of_getElem? hget)
    have hlink := hh _ (List.mem_singleton.mpr rfl)
    obtain ⟨hid, hacts⟩ := acts_call (w := (s.at_ now).world) h.tidy hfresh hlink hm
    have hcarried := hcarry hacts.within
    refine ⟨{ hcarried with singles := Pool.forall_set hcarried.singles ?_ },
      ⟨u, hacts.within, .inl ⟨_, hsub _ hask, rfl⟩⟩⟩
    exact ⟨u, hid.symm ▸ hsub _ hask, hacts.holds⟩

theorem Guarded.serveRow {i : ℕ} {cuid : ℕ → String} {r r' : RowRequests.Request newURL}
    {db : Database} (h : Guarded asked s) (hfresh : ∀ id ∈ s.draws (.serveRow i cuid), id ∉ s.given)
    (hget : s.rowRequests[i]? = some r) (hm : r.move s.world.db cuid = some (db, r')) :
    Guarded asked' { s with
      world := { s.world with db }
      rowRequests := s.rowRequests.set i r'
      given := s.given ++ s.draws (.serveRow i cuid) } ∧
      Made asked' (s.draws (.serveRow i cuid)) s.world.db db := by
  have hdraws : s.draws (.serveRow i cuid) = r.draws cuid := by
    rw [State.draws, hget, Option.map_some, Option.getD_some]
  rw [hdraws] at hfresh ⊢
  obtain ⟨⟨op, hop⟩, hh⟩ := h.rowRequests r (List.mem_of_getElem? hget)
  obtain ⟨huser, hacts⟩ := acts_row h.tidy hfresh hh hm
  have hcarried := h.carry hsub (w := { s.world with db }) hfresh hacts.within
  refine ⟨{ hcarried with rowRequests := Pool.forall_set hcarried.rowRequests ?_ },
    ⟨r.userId, hacts.within, .inl ⟨_, hsub _ hop, rfl⟩⟩⟩
  rw [huser]
  exact ⟨⟨op, hsub _ hop⟩, hacts.holds⟩

theorem Guarded.serveTask {i : ℕ} {t : SheetsSchedules.Turn} {op : SheetsSchedules.Op}
    {r r' : SheetsSchedules.Request} {store : SheetsSchedules.Store} (h : Guarded asked s)
    (hfresh : ∀ id ∈ s.draws (.serveTask i t), id ∉ s.given)
    (hget : s.taskRequests[i]? = some (op, r))
    (hm : r.move ⟨s.world.db, s.schedulers⟩ t = some (store, r')) :
    Guarded asked' { s with
      world := { s.world with db := store.db, clock := t.now }
      schedulers := store.schedulers
      taskRequests := s.taskRequests.set i (op, r')
      given := s.given ++ s.draws (.serveTask i t) } ∧
      Made asked' (s.draws (.serveTask i t)) s.world.db store.db := by
  have hdraws : s.draws (.serveTask i t) = taskDraws r t.cuid := by
    rw [State.draws, hget, Option.map_some, Option.getD_some]
  rw [hdraws] at hfresh ⊢
  obtain ⟨hop, hby, hh⟩ := h.taskRequests _ (List.mem_of_getElem? hget)
  obtain ⟨hby', hacts, hschedulers⟩ :=
    acts_task (s := ⟨s.world.db, s.schedulers⟩) h.tidy hfresh hby hh hm
  have hcarried := h.carry hsub (w := { s.world with db := store.db, clock := t.now }) hfresh
    hacts.within
  refine ⟨hcarried.settings (fun u taskId hset => hset.set hget hm) (fun j hj => ?_)
    (Pool.forall_set hcarried.taskRequests ⟨hsub _ hop, hby', hacts.holds⟩),
    ⟨opUser op, hacts.within, .inl ⟨_, hsub _ hop, rfl⟩⟩⟩
  obtain hold | ⟨hmem, hset⟩ := hschedulers j hj
  · exact .inl hold
  · refine .inr ⟨opUser op, ⟨(op, r'), Pool.mem_set_self hget, rfl, hset⟩, ?_⟩
    exact (Holds.singleton (hh _ hmem)).within hfresh hacts.within h.tidy

/-- Any step: whoever takes it acts for a user whose request has come in, and stays within the rows
of that user. -/
theorem Guarded.step (h : Guarded asked s) (hnew : asked' l) (hs : step clock s l = some s') :
    Guarded asked' s' ∧ Made asked' (s.draws l) s.world.db s'.world.db := by
  obtain ⟨-, hfresh, hdoes⟩ := step_eq_some hs
  cases hdoes with
  | dispatch hallows hd => exact h.dispatch hsub hnew hallows hfresh hd
  | @row userId op =>
    have hquiet := h.carry hsub (v := "") hfresh (.refl h.tidy)
    refine ⟨{ hquiet with rowRequests := fun r hr => ?_ }, .quiet h.tidy⟩
    obtain hr | hr := List.mem_append.mp hr
    · exact hquiet.rowRequests r hr
    · rw [List.mem_singleton.mp hr]
      refine ⟨⟨op, hnew⟩, ?_⟩
      cases op <;> exact .nil
  | serveRow hget hm => exact h.serveRow hsub hfresh hget hm
  | @task op =>
    have hquiet := h.carry hsub (v := "") hfresh (.refl h.tidy)
    refine ⟨hquiet.settings (fun u taskId hset => hset.append _) (fun _ hj => .inl hj)
      fun r hr => ?_, .quiet h.tidy⟩
    obtain hr | hr := List.mem_append.mp hr
    · exact hquiet.taskRequests r hr
    · rw [List.mem_singleton.mp hr]
      refine ⟨hnew, ?_⟩
      cases op <;> exact ⟨rfl, .nil⟩
  | serveTask hget hm => exact h.serveTask hsub hfresh hget hm

end Steps

end LinkBulker.Backend
