import LinkBulker.Api.SheetsSchedulesLaws
import LinkBulker.Backend.Guarded
import LinkBulker.Worker.BulkQueueLaws

/-! What holds in every run of the whole backend: the rows fit together, what is written once stays,
what is deleted stays deleted, and everything that happens to a user's rows was asked for by the
user. -/

namespace LinkBulker.Backend

open Foundations Db Shared SingleLink Worker Services

variable {newURL : UrlParser} {clock : Sheets.LocalClock} {db : Database}
  {locks : String → LockManager.Key} {time : ℤ} {labels before middle after : List (Label newURL)}
  {s s₁ s₂ s₃ : State newURL}

theorem guarded_of_exec (hc : db.Consistent) (hs : ∀ l ∈ db.links.rows, Sourced l)
    (hr : exec (step clock) (.start db locks time) labels = some s) : Guarded (· ∈ labels) s := by
  refine exec_history (P := fun as s => Guarded (· ∈ as) s) (Guarded.start hc hs) ?_ hr
  intro as s l s' h hstep
  have hlast : l ∈ as ++ [l] := List.mem_append_right as (List.mem_singleton.mpr rfl)
  exact (h.step (fun _ => List.mem_append_left [l]) hlast hstep).1

section Examples

def twoUsers : Database where
  projects := ⟨[exampleProject, { id := "q", userId := "v", name := "Second" }], by decide⟩
  links := Dispatch.oneLink.links
  sheetsTasks := .empty

theorem twoUsers_consistent : twoUsers.Consistent := ⟨by decide, by decide, by decide⟩

theorem twoUsers_sourced : ∀ l ∈ twoUsers.links.rows, Sourced l := by
  intro l hl
  rw [List.mem_singleton.mp hl]
  exact ⟨nofun, nofun⟩

abbrev run (s : State Crawler.exampleURL) (labels : List (Label Crawler.exampleURL)) :
    Option (State Crawler.exampleURL) :=
  exec (step Sheets.exampleClock) s labels

def begun : State Crawler.exampleURL := .start twoUsers (fun _ => none) 0

def added : List (Label Crawler.exampleURL) :=
  [.row "v" (.createManualLinks "q" BulkQueue.exampleItems), .serveRow 0 fun _ => "b",
    .serveRow 0 fun _ => "b", .dispatch (.ask (.startManualCheck "v" "q")),
    .dispatch (.serve 0 1), .dispatch (.serve 0 2), .dispatch (.serve 0 3), .dispatch (.serve 0 4)]

def removed : List (Label Crawler.exampleURL) :=
  [.task (.removeProject "v" "q"), .serveTask 0 { now := 4 }, .serveTask 0 { now := 4 }]

def worked : List (Label Crawler.exampleURL) :=
  [.dispatch .takeManual, .dispatch (.work 0 (.manual (.main { now := 5, token := "t" }))),
    .dispatch (.work 0 (.manual (.main { now := 6 })))]

theorem exists_begun : ∃ s₁ s₂ s₃, run begun added = some s₁ ∧ run s₁ removed = some s₂ ∧
    run s₂ worked = some s₃ ∧ s₁.world.db.projects.rows.map Project.id = ["p", "q"] ∧
    s₂.world.db.projects.rows.map Project.id = ["p"] ∧ s₁.manualQueue.length = 1 := by
  obtain ⟨s₁, h₁, hp₁, hq, h₂⟩ := exists_of_any
    (P := fun s₁ => s₁.world.db.projects.rows.map Project.id = ["p", "q"] ∧
      s₁.manualQueue.length = 1 ∧ (run s₁ removed).any fun s₂ =>
        s₂.world.db.projects.rows.map Project.id = ["p"] ∧ (run s₂ worked).isSome)
    (s := run begun added) (by decide +kernel)
  obtain ⟨s₂, h₂, hp₂, h₃⟩ := exists_of_any
    (P := fun s₂ : State _ => s₂.world.db.projects.rows.map Project.id = ["p"] ∧
      (run s₂ worked).isSome) h₂
  obtain ⟨s₃, h₃⟩ := Option.isSome_iff_exists.mp h₃
  exact ⟨s₁, s₂, s₃, h₁, h₂, h₃, hp₁, hp₂, hq⟩

end Examples

/-- The foreign keys hold in every state, whatever is deleted under the workers' feet. -/
theorem integrity (hc : db.Consistent) (hs : ∀ l ∈ db.links.rows, Sourced l)
    (hr : exec (step clock) (.start db locks time) labels = some s) :
    s.world.db.Consistent ∧ ∀ l ∈ s.world.db.links.rows, Sourced l :=
  have h := guarded_of_exec hc hs hr
  ⟨h.tidy.consistent, h.tidy.sourced⟩

theorem integrity_sample : ∃ s, run begun added = some s ∧ s.world.db.Consistent := by
  obtain ⟨s, -, -, h, -⟩ := exists_begun
  exact ⟨s, h, (integrity twoUsers_consistent twoUsers_sourced h).1⟩

section Later

variable {asked : Label newURL → Prop}

theorem evolves_of_exec (h : Guarded asked s) (hr : exec (step clock) s labels = some s₁) :
    ∃ drawn, (∀ id ∈ drawn, id ∉ s.given) ∧ s₁.given = s.given ++ drawn ∧
      Evolves drawn s.world.db s₁.world.db := by
  induction labels generalizing s asked with
  | nil =>
    cases hr
    exact ⟨[], nofun, (List.append_nil _).symm, .refl _⟩
  | cons l labels ih =>
    obtain ⟨t, ht, hr⟩ := exec_cons.mp hr
    have hany : ∀ l, asked l → (fun _ => True) l := fun _ _ => trivial
    obtain ⟨hnext, u, hwithin, -⟩ := h.step hany trivial ht
    obtain ⟨hfresh, hgiven⟩ := step_given ht
    obtain ⟨drawn, hrest, hgiven', hevolves⟩ := ih hnext hr
    refine ⟨s.draws l ++ drawn, fun id hid => ?_, ?_, hwithin.evolves.trans hevolves⟩
    · obtain hid | hid := List.mem_append.mp hid
      · exact hfresh id hid
      · exact fun hmem => hrest id hid (hgiven ▸ List.mem_append_left _ hmem)
    · rw [hgiven', hgiven, List.append_assoc]

end Later

structure Same {ρ φ : Type} {key : ρ → String} (fixed : ρ → φ) (t₁ t₂ t₃ : Table key) : Prop where
  row : ∀ r₁ ∈ t₁.rows, ∀ r₃ ∈ t₃.rows, key r₃ = key r₁ →
    fixed r₃ = fixed r₁ ∧ ∃ r₂ ∈ t₂.rows, key r₂ = key r₁ ∧ fixed r₂ = fixed r₁

theorem Same.of_grows {ρ φ : Type} {key : ρ → String} {fixed : ρ → φ} {t₁ t₂ t₃ : Table key}
    {given drawn drawn' : List String} (hgiven : ∀ r ∈ t₁.rows, key r ∈ given)
    (hfresh : ∀ id ∈ drawn, id ∉ given) (hfresh' : ∀ id ∈ drawn', id ∉ given ++ drawn)
    (h : Grows fixed drawn t₁ t₂) (h' : Grows fixed drawn' t₂ t₃) : Same fixed t₁ t₂ t₃ := by
  refine ⟨fun r₁ hr₁ r₃ hr₃ hkey => ?_⟩
  have hr₁given := hgiven r₁ hr₁
  obtain ⟨r₂, hr₂, hkey', hfixed'⟩ :=
    h'.old hfresh' hr₃ (List.mem_append_left _ (hkey ▸ hr₁given))
  obtain ⟨r, hr, hkey'', hfixed''⟩ := h.old hfresh hr₂ (hkey' ▸ hkey ▸ hr₁given)
  obtain rfl := t₁.eq_of_key_eq hr hr₁ (hkey''.trans (hkey'.trans hkey))
  exact ⟨hfixed'.symm.trans hfixed''.symm, r₂, hr₂, hkey'.trans hkey, hfixed''.symm⟩

/-- The owner of a project, the project of a task, and of a link where it belongs, where it comes
from and what it is to check never change, and no row comes back once it is gone. -/
theorem written_once (hc : db.Consistent) (hs : ∀ l ∈ db.links.rows, Sourced l)
    (h₁ : exec (step clock) (.start db locks time) before = some s₁)
    (h₂ : exec (step clock) s₁ middle = some s₂) (h₃ : exec (step clock) s₂ after = some s₃) :
    Same Project.userId s₁.world.db.projects s₂.world.db.projects s₃.world.db.projects ∧
      Same Link.input s₁.world.db.links s₂.world.db.links s₃.world.db.links ∧
      Same SheetsTask.projectId s₁.world.db.sheetsTasks s₂.world.db.sheetsTasks
        s₃.world.db.sheetsTasks := by
  have hguarded := guarded_of_exec hc hs h₁
  obtain ⟨drawn, hfresh, hgiven, hevolves⟩ := evolves_of_exec hguarded h₂
  have hguarded₂ := guarded_of_exec hc hs (exec_append.mpr ⟨s₁, h₁, h₂⟩)
  obtain ⟨drawn', hfresh', -, hevolves'⟩ := evolves_of_exec hguarded₂ h₃
  rw [hgiven] at hfresh'
  have htidy := hguarded.tidy
  exact ⟨.of_grows (fun _ hp => htidy.project_given hp) hfresh hfresh' hevolves.projects
      hevolves'.projects,
    .of_grows (fun _ hl => htidy.link_given hl) hfresh hfresh' hevolves.links hevolves'.links,
    .of_grows (fun _ ht => htidy.task_given ht) hfresh hfresh' hevolves.tasks hevolves'.tasks⟩

theorem written_once_sample : ∃ s₁ s₂ s₃, run begun added = some s₁ ∧ run s₁ removed = some s₂ ∧
    run s₂ worked = some s₃ ∧
    Same Link.input s₁.world.db.links s₂.world.db.links s₃.world.db.links := by
  obtain ⟨s₁, s₂, s₃, h₁, h₂, h₃, -⟩ := exists_begun
  exact ⟨s₁, s₂, s₃, h₁, h₂, h₃, (written_once twoUsers_consistent twoUsers_sourced h₁ h₂ h₃).2.1⟩

/-- A deleted project is gone for good, with its tasks and its links, whatever is still under way
for them. -/
theorem deleted_project_stays_gone {p : Project} (hc : db.Consistent)
    (hs : ∀ l ∈ db.links.rows, Sourced l)
    (h₁ : exec (step clock) (.start db locks time) before = some s₁)
    (h₂ : exec (step clock) s₁ middle = some s₂) (h₃ : exec (step clock) s₂ after = some s₃)
    (hp : p ∈ s₁.world.db.projects.rows) (hgone : s₂.world.db.projects.find? p.id = none) :
    s₃.world.db.projects.find? p.id = none ∧
      (∀ task ∈ s₃.world.db.sheetsTasks.rows, task.projectId ≠ p.id) ∧
      ∀ l ∈ s₃.world.db.links.rows, l.projectId ≠ p.id := by
  have hguarded₂ := guarded_of_exec hc hs (exec_append.mpr ⟨s₁, h₁, h₂⟩)
  have hguarded₃ := guarded_of_exec hc hs
    (exec_append.mpr ⟨s₂, exec_append.mpr ⟨s₁, h₁, h₂⟩, h₃⟩)
  obtain ⟨drawn, -, hgiven, -⟩ := evolves_of_exec (guarded_of_exec hc hs h₁) h₂
  obtain ⟨drawn', hfresh', -, hevolves'⟩ := evolves_of_exec hguarded₂ h₃
  have hknown : p.id ∈ s₂.given := by
    rw [hgiven]
    exact List.mem_append_left _ ((guarded_of_exec hc hs h₁).tidy.project_given hp)
  have hnone : ∀ p' ∈ s₃.world.db.projects.rows, p'.id ≠ p.id :=
    ((Knows.of_gone hknown (Table.find?_eq_none.mp hgone)).grows hevolves'.projects hfresh'
      (List.Subset.refl _)).row
  have hconsistent := hguarded₃.tidy.consistent
  refine ⟨Table.find?_eq_none.mpr hnone, fun task htask hid => ?_, fun l hl hid => ?_⟩
  · obtain ⟨p', hp', hid'⟩ := hconsistent.taskProject task htask
    exact hnone p' hp' (hid'.trans hid)
  · obtain ⟨p', hp', hid'⟩ := hconsistent.linkProject l hl
    exact hnone p' hp' (hid'.trans hid)

theorem deleted_project_stays_gone_sample : ∃ s₁ s₂ s₃, run begun added = some s₁ ∧
    run s₁ removed = some s₂ ∧ run s₂ worked = some s₃ ∧
    s₁.world.db.projects.rows.map Project.id = ["p", "q"] ∧
    ∀ l ∈ s₃.world.db.links.rows, l.projectId ≠ "q" := by
  obtain ⟨s₁, s₂, s₃, h₁, h₂, h₃, hp₁, hp₂, -⟩ := exists_begun
  have hq : "q" ∈ s₁.world.db.projects.rows.map Project.id := by
    rw [hp₁]
    decide
  obtain ⟨p, hp, hid⟩ := List.mem_map.mp hq
  have hgone : s₂.world.db.projects.find? p.id = none := by
    rw [hid, Table.find?_eq_none]
    intro p' hp' hid'
    have hmem : "q" ∈ s₂.world.db.projects.rows.map Project.id := hid' ▸ List.mem_map_of_mem hp'
    rw [hp₂] at hmem
    exact absurd hmem (by decide)
  have h := deleted_project_stays_gone twoUsers_consistent twoUsers_sourced h₁ h₂ h₃ hp hgone
  exact ⟨s₁, s₂, s₃, h₁, h₂, h₃, hp₁, hid ▸ h.2.2⟩

/-- A step that writes anything writes rows of one user, who has made a request, and leaves the rows
of everybody else. -/
theorem rows_of_others_stay {l : Label newURL} {s' : State newURL} (hc : db.Consistent)
    (hs : ∀ l ∈ db.links.rows, Sourced l)
    (hr : exec (step clock) (.start db locks time) labels = some s)
    (hstep : step clock s l = some s') :
    s'.world.db = s.world.db ∨ ∃ u, (∃ l' ∈ labels ++ [l], l'.user = some u) ∧
      foreign u s'.world.db = foreign u s.world.db := by
  have hguarded := guarded_of_exec hc hs hr
  have hlast : l ∈ labels ++ [l] := List.mem_append_right labels (List.mem_singleton.mpr rfl)
  obtain ⟨-, u, hwithin, hpresent | hsame⟩ :=
    hguarded.step (fun _ => List.mem_append_left [l]) hlast hstep
  · exact .inr ⟨u, hpresent, hwithin.others _ (bne_self_eq_false u)⟩
  · exact .inl hsame

theorem rows_of_others_stay_sample : ∃ s s', run begun (added.take 2) = some s ∧
    step Sheets.exampleClock s (.serveRow 0 fun _ => "b") = some s' ∧
    s'.world.db.links.rows.map Link.id = ["a", "b"] ∧
    (s'.world.db = s.world.db ∨ ∃ u, (∃ l ∈ added.take 2 ++ [.serveRow 0 fun _ => "b"],
      l.user = some u) ∧ foreign u s'.world.db = foreign u s.world.db) := by
  obtain ⟨s, hs, hnext⟩ := exists_of_any
    (P := fun s => (step Sheets.exampleClock s (.serveRow 0 fun _ => "b")).any fun s' =>
      s'.world.db.links.rows.map Link.id = ["a", "b"])
    (s := run begun (added.take 2)) (by decide +kernel)
  obtain ⟨s', hs', hids⟩ := exists_of_any
    (P := fun s' : State _ => s'.world.db.links.rows.map Link.id = ["a", "b"]) hnext
  exact ⟨s, s', hs, hs', hids, rows_of_others_stay twoUsers_consistent twoUsers_sourced hs hs'⟩

/-- A user who asks for nothing has the same rows at every later time, in any interleaving of what
the others ask for and of what the workers do. -/
theorem absent_user_keeps_rows {v : UserId} (hc : db.Consistent)
    (hs : ∀ l ∈ db.links.rows, Sourced l)
    (hr : exec (step clock) (.start db locks time) labels = some s)
    (habsent : ∀ l ∈ labels, l.user ≠ some v) : own v s.world.db = own v db := by
  refine (exec_history
    (P := fun as s => Guarded (· ∈ as) s ∧ ((∀ l ∈ as, l.user ≠ some v) →
      own v s.world.db = own v db)) ⟨Guarded.start hc hs, fun _ => rfl⟩ ?_ hr).2 habsent
  intro as s l s' ⟨hguarded, hsame⟩ hstep
  have hlast : l ∈ as ++ [l] := List.mem_append_right as (List.mem_singleton.mpr rfl)
  obtain ⟨hguarded', u, hwithin, hpresent⟩ :=
    hguarded.step (fun _ => List.mem_append_left [l]) hlast hstep
  refine ⟨hguarded', fun hno => ?_⟩
  rw [← hsame fun l' hl' => hno l' (List.mem_append_left _ hl')]
  obtain ⟨l', hl', hu⟩ | hdb := hpresent
  · have hne : (u == v) = false := by
      rw [beq_eq_false_iff_ne]
      rintro rfl
      exact hno l' hl' hu
    exact hwithin.others (· == v) hne
  · rw [hdb]

theorem absent_user_keeps_rows_sample : ∃ s, run begun added = some s ∧
    own "u" s.world.db = own "u" twoUsers := by
  obtain ⟨s, -, -, h, -⟩ := exists_begun
  exact ⟨s, h, absent_user_keeps_rows twoUsers_consistent twoUsers_sourced h (by decide)⟩

/-- Every job goes back to a request: a bulk check and a recheck to the one that asked for it, a run
of a sheets task to one that asked for it or to one that created or updated the task with a schedule;
and what it works on belongs to whoever asked. -/
theorem jobs_were_asked_for (hc : db.Consistent) (hs : ∀ l ∈ db.links.rows, Sourced l)
    (hr : exec (step clock) (.start db locks time) labels = some s) :
    (∀ q ∈ s.manualQueue, ∃ u,
      .dispatch (.ask (.startManualCheck u q.data.projectId)) ∈ labels ∧
        (∀ p ∈ s.world.db.projects.rows, p.id = q.data.projectId → p.userId = u) ∧
        ∀ l ∈ s.world.db.links.rows, l.id ∈ q.data.linkIds → s.world.db.owns u l.projectId) ∧
    (∀ job ∈ s.singleLinkQueue, ∃ u, .dispatch (.ask (.recheckOne u job.linkId)) ∈ labels ∧
        ∀ l ∈ s.world.db.links.rows, l.id = job.linkId → s.world.db.owns u l.projectId) ∧
    ∀ job ∈ s.sheetsQueue, ∃ u,
      (.dispatch (.ask (.runNow u job.sheetsTaskId)) ∈ labels ∨
        ∃ r ∈ s.taskRequests, .task r.1 ∈ labels ∧ opUser r.1 = u ∧
          Schedules r.1 r.2 job.sheetsTaskId) ∧
        ∀ task ∈ s.world.db.sheetsTasks.rows, task.id = job.sheetsTaskId →
          s.world.db.owns u task.projectId := by
  have h := guarded_of_exec hc hs hr
  refine ⟨fun q hq => ?_, fun job hjob => ?_, fun job hjob => ?_⟩
  · obtain ⟨u, hask, hh⟩ := h.manualQueue q hq
    obtain ⟨hproject, hlinks⟩ := holds_cons.mp hh
    exact ⟨u, hask, hproject.row, fun l hl hid => (holds_map.mp hlinks _ hid).row l hl rfl⟩
  · obtain ⟨u, hask, hh⟩ := h.singleLinkQueue job hjob
    exact ⟨u, hask, (hh _ (List.mem_singleton.mpr rfl)).row⟩
  · obtain ⟨u, hask, hh⟩ := h.sheetsQueue job hjob
    refine ⟨u, hask.imp_right fun ⟨r, hr, hset⟩ => ?_, (hh _ (List.mem_singleton.mpr rfl)).row⟩
    exact ⟨r, hr, (h.taskRequests r hr).1, hset⟩

def scheduled : List (Label Crawler.exampleURL) :=
  [.task (.create "v" "q" SheetsSchedules.scheduledInput), .serveTask 0 { now := 5 },
    .serveTask 0 { cuid := "t", now := 6 }, .serveTask 0 { now := 7 }, .dispatch (.schedule "t")]

theorem jobs_were_asked_for_sample : ∃ s, run begun (added ++ scheduled) = some s ∧
    s.manualQueue.length = 1 ∧ s.sheetsQueue = [⟨"t", some true⟩] ∧
    (∀ q ∈ s.manualQueue, ∃ u,
      .dispatch (.ask (.startManualCheck u q.data.projectId)) ∈ added ++ scheduled) ∧
    ∃ u, (.dispatch (.ask (.runNow u "t")) ∈ added ++ scheduled ∨ ∃ r ∈ s.taskRequests,
      .task r.1 ∈ added ++ scheduled ∧ opUser r.1 = u ∧ Schedules r.1 r.2 "t") := by
  obtain ⟨s, h, hmanual, hsheets⟩ := exists_of_any
    (P := fun s => s.manualQueue.length = 1 ∧ s.sheetsQueue = [⟨"t", some true⟩])
    (s := run begun (added ++ scheduled)) (by decide +kernel)
  obtain ⟨hq, -, hjob⟩ := jobs_were_asked_for twoUsers_consistent twoUsers_sourced h
  refine ⟨s, h, hmanual, hsheets, fun q hmem => ?_, ?_⟩
  · obtain ⟨u, hask, -⟩ := hq q hmem
    exact ⟨u, hask⟩
  · obtain ⟨u, hask, -⟩ := hjob ⟨"t", some true⟩ (hsheets ▸ List.mem_singleton.mpr rfl)
    exact ⟨u, hask⟩

end LinkBulker.Backend
