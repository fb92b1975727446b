import LinkBulker.Api.LinksList
import LinkBulker.Foundations.Run
import LinkBulker.Web.ProjectStream

/-! `apps/web/src/app/projects/[id]/page.tsx` and `components/LinksTable.tsx`: the endless list of a
project's manual links, beside the database its requests go to.  The user is the owner. -/

namespace LinkBulker.Web

open Foundations Db Shared LinksService

def PAGE_SIZE : ℕ := 100

def getNextPageParam (lastPage : LinksListResponse) (allPages : List LinksListResponse) : Option ℕ :=
  let loaded := allPages.foldl (fun acc p => acc + p.items.length) 0
  if loaded < lastPage.total then some (allPages.length + 1) else none

def nextPageParam (pages : List LinksListResponse) : Option ℕ :=
  match pages.getLast? with
  | none => some 1
  | some lastPage => getNextPageParam lastPage pages

/-- `apiClient.listLinks(id, { source: 'manual', page, limit: PAGE_SIZE })`. -/
def listLinks (db : Database) (userId : UserId) (projectId : ProjectId) (page : ℕ) :
    Except String LinksListResponse :=
  if page_pos : 1 ≤ page then
    let query : ListLinksQuery := { source := some .manual, page, limit := PAGE_SIZE, page_pos }
    (list db (matching db projectId query) userId projectId query).map fun r =>
      ⟨r.items.map linkRow, r.total, r.page, r.limit⟩
  else .error "Validation failed"

/-- The cache of `useInfiniteQuery` beside the database, no page before the first fetch. -/
structure LinksPage where
  db : Database
  pages : List LinksListResponse

def LinksPage.linkRows (s : LinksPage) : List LinkRow := s.pages.flatMap (·.items)

def removeFromPage (linkId : LinkId) (p : LinksListResponse) : LinksListResponse :=
  { p with items := p.items.filter fun l => l.id ≠ linkId, total := max 0 (p.total - 1) }

inductive LinksAction
  | fetchNextPage
  | remove (linkId : LinkId)
  deriving DecidableEq

/-- A row is removed with the button it is displayed with; a failed request leaves the cache as it
is. -/
def LinksPage.step (userId : UserId) (projectId : ProjectId) (s : LinksPage) :
    LinksAction → Option LinksPage
  | .fetchNextPage =>
    match nextPageParam s.pages with
    | none => some s
    | some page =>
      match listLinks s.db userId projectId page with
      | .error _ => some s
      | .ok response => some { s with pages := s.pages ++ [response] }
  | .remove linkId =>
    if ∃ l ∈ s.linkRows, l.id = linkId then
      match deleteOne s.db userId linkId with
      | .error _ => some s
      | .ok db => some { db, pages := s.pages.map (removeFromPage linkId) }
    else none

def manualLinks (db : Database) (projectId : ProjectId) : List Link :=
  db.links.rows.filter fun l => l.projectId == projectId && l.source == .MANUAL

def LinksPage.ended (s : LinksPage) : Prop := nextPageParam s.pages = none

structure LinksPage.ShowsAll (projectId : ProjectId) (s : LinksPage) : Prop where
  rows : s.linkRows = (manualLinks s.db projectId).map linkRow
  once : (s.linkRows.map LinkRow.id).Nodup

structure LinksPage.Scrolls (userId : UserId) (projectId : ProjectId) (s : LinksPage) : Prop where
  all : s.ended → s.ShowsAll projectId
  ends : ∃ n s', exec (LinksPage.step userId projectId) s (List.replicate n .fetchNextPage) = some s' ∧
    s'.ended ∧ s'.ShowsAll projectId

def RemovesAtEnd (projectId : ProjectId) (s : LinksPage) : LinksAction → Prop
  | .fetchNextPage => True
  | .remove _ => (manualLinks s.db projectId).length ≤ s.pages.length * PAGE_SIZE

instance RemovesAtEnd.decidable (projectId : ProjectId) (s : LinksPage) :
    ∀ a, Decidable (RemovesAtEnd projectId s a)
  | .fetchNextPage => .isTrue trivial
  | .remove _ => inferInstanceAs (Decidable (_ ≤ _))

end LinkBulker.Web
