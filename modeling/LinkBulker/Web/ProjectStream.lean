import LinkBulker.Shared.Jobs
import LinkBulker.Web.Status

/-! `apps/web/src/hooks/useProjectStream.ts`: what the events of a project's channel do to the
query cache of its page. -/

namespace LinkBulker.Web

open Db Shared

structure LinksListResponse where
  items : List LinkRow
  total : ℕ
  page : ℕ
  limit : ℕ
  deriving DecidableEq

/-- The fields of `ProjectDetail` the stream writes or keeps beside them. -/
structure ProjectDetail where
  id : ProjectId
  manualChecking : Bool
  sheetsChecking : Bool
  deriving DecidableEq

/-- The fields of `SheetsTaskRow` the stream reads or writes. -/
structure SheetsTaskRow where
  id : SheetsTaskId
  status : SheetsTaskStatus
  isChecking : Bool
  lastRunAt : Option ℤ
  lastRunStatus : Option String
  deriving DecidableEq

inductive QueryKey
  | links
  | project
  | stats
  | sheetsTasks
  deriving DecidableEq

/-- The cached queries of one project, `none` before the first fetch, with the state of the hook
and the queries marked for a refetch. -/
structure Client where
  links : Option (List LinksListResponse)
  project : Option ProjectDetail
  sheetsTasks : Option (List SheetsTaskRow)
  progress : Option ProgressCounts
  sheetsProgress : SheetsTaskId → Option ProgressCounts
  invalidated : List QueryKey

def Client.invalidateQueries (c : Client) (keys : List QueryKey) : Client :=
  { c with invalidated := c.invalidated ++ keys }

def patchLink (event : LinkUpdated) (l : LinkRow) : LinkRow :=
  if l.id ≠ event.linkId then l
  else { l with
    status := event.status
    linkFound := event.linkFound
    occurrencesCount := event.occurrencesCount
    donorStatusCode := event.donorStatusCode
    error := event.error
    lastCheckedAt := event.lastCheckedAt }

def applyEvent (c : Client) : ProgressEvent → Client
  | .link_updated event =>
    { c with links := c.links.map fun pages =>
        pages.map fun page => { page with items := page.items.map (patchLink event) } }
  | .progress _ counts => { c with progress := some counts }
  | .lock_changed _ manualChecking =>
    let c := { c with project := c.project.map fun p => { p with manualChecking } }
    if manualChecking then c else c.invalidateQueries [.links, .project, .stats]
  | .done _ total found errors => { c with progress := some ⟨total, total, found, errors⟩ }
  | .sheets_task_updated sheetsTaskId _ status lastRunAt lastRunStatus =>
    let c := { c with sheetsTasks := c.sheetsTasks.map fun tasks => tasks.map fun t =>
      if t.id = sheetsTaskId then
        { t with
          status
          isChecking := status == .RUNNING
          lastRunAt := lastRunAt.or t.lastRunAt
          lastRunStatus := lastRunStatus.or t.lastRunStatus }
      else t }
    if status = .COMPLETED ∨ status = .FAILED then
      { c with sheetsProgress := fun id => if id = sheetsTaskId then none else c.sheetsProgress id }
        |>.invalidateQueries [.links, .sheetsTasks, .stats]
    else c
  | .sheets_task_progress sheetsTaskId _ counts =>
    { c with sheetsProgress := fun id =>
        if id = sheetsTaskId then some counts else c.sheetsProgress id }

def Client.rows (c : Client) : List LinkRow := (c.links.getD []).flatMap (·.items)

def patchRow (l : LinkRow) : ProgressEvent → LinkRow
  | .link_updated event => patchLink event l
  | _ => l

theorem foldl_patchRow_id (events : List ProgressEvent) (l : LinkRow) :
    (events.foldl patchRow l).id = l.id := by
  induction events generalizing l with
  | nil => rfl
  | cons event events ih =>
    rw [List.foldl_cons, ih]
    cases event with
    | link_updated event =>
      simp only [patchRow, patchLink]
      split <;> rfl
    | _ => rfl

theorem rows_applyEvent (c : Client) (event : ProgressEvent) :
    (applyEvent c event).rows = c.rows.map fun l => patchRow l event := by
  cases event with
  | link_updated event =>
    cases hl : c.links with
    | none => simp [Client.rows, applyEvent, hl]
    | some pages => simp [Client.rows, applyEvent, hl, patchRow, List.flatMap_map, List.map_flatMap]
  | progress projectId counts => simp [Client.rows, applyEvent, patchRow]
  | lock_changed projectId manualChecking =>
    cases manualChecking <;> simp [Client.rows, applyEvent, patchRow, Client.invalidateQueries]
  | done projectId total found errors => simp [Client.rows, applyEvent, patchRow]
  | sheets_task_updated sheetsTaskId projectId status lastRunAt lastRunStatus =>
    cases status <;> simp [Client.rows, applyEvent, patchRow, Client.invalidateQueries]
  | sheets_task_progress sheetsTaskId projectId counts =>
    simp [Client.rows, applyEvent, patchRow]

theorem rows_foldl_applyEvent (c : Client) (events : List ProgressEvent) :
    (events.foldl applyEvent c).rows = c.rows.map fun l => events.foldl patchRow l := by
  induction events generalizing c with
  | nil => simp
  | cons event events ih => simp [ih, rows_applyEvent, Function.comp_def]

end LinkBulker.Web
