import LinkBulker.Api.ManualLinks
import LinkBulker.Foundations.Paging

/-! `LinksService.list`: one page of a project's links.  The query asks for `createdAt` order only,
so every request may see the ties in an order of its own. -/

namespace LinkBulker.LinksService

open Foundations Db Shared

inductive SourceFilter
  | manual
  | sheets
  deriving DecidableEq

def SourceFilter.toUpperCase : SourceFilter → LinkSource
  | .manual => .MANUAL
  | .sheets => .SHEETS

structure ListLinksQuery where
  source : Option SourceFilter := none
  status : Option LinkStatus := none
  page : ℕ := 1
  limit : ℕ := 100
  page_pos : 1 ≤ page := by decide
  limit_pos : 1 ≤ limit := by decide
  limit_le : limit ≤ LIMITS.MAX_MANUAL_URLS_PER_TASK := by decide

namespace ListLinksQuery

def nextPage (query : ListLinksQuery) (n : ℕ) : ListLinksQuery :=
  { query with page := n + 1, page_pos := n.succ_pos }

def accepts (query : ListLinksQuery) (projectId : ProjectId) (l : Link) : Bool :=
  l.projectId == projectId && query.source.all (fun s => l.source == s.toUpperCase) &&
    query.status.all fun s => l.status == s

end ListLinksQuery

def matching (db : Database) (projectId : ProjectId) (query : ListLinksQuery) : List Link :=
  db.links.rows.filter (query.accepts projectId)

structure ListResult where
  items : List Link
  total : ℕ
  page : ℕ
  limit : ℕ
  deriving DecidableEq

def list (db : Database) (ordered : List Link) (userId : UserId) (projectId : ProjectId)
    (query : ListLinksQuery) : Except String ListResult :=
  match assertProject db userId projectId with
  | .error message => .error message
  | .ok () =>
    let items := Foundations.page ordered ((query.page - 1) * query.limit) query.limit
    .ok ⟨items, db.links.rows.countP (query.accepts projectId), query.page, query.limit⟩

def itemsOf : Except String ListResult → List Link
  | .ok result => result.items
  | .error _ => []

def pageCount (total limit : ℕ) : ℕ := (total + limit - 1) / limit

/-- The items of the pages from the first to the last, `ordered n` being what the database makes of
the query for the page after the first `n`. -/
def allItems (db : Database) (ordered : ℕ → List Link) (userId : UserId) (projectId : ProjectId)
    (query : ListLinksQuery) : List Link :=
  (List.range (pageCount (matching db projectId query).length query.limit)).flatMap fun n =>
    itemsOf (list db (ordered n) userId projectId (query.nextPage n))

theorem length_le_pageCount_mul {total limit : ℕ} (h : 0 < limit) :
    total ≤ pageCount total limit * limit := by
  have hdiv := Nat.lt_mul_div_succ (total + limit - 1) h
  rw [pageCount, Nat.mul_comm]
  rw [Nat.mul_add, Nat.mul_one] at hdiv
  omega

variable {db : Database} {p : Project}

theorem assertProject_of_mem (hp : p ∈ db.projects.rows) :
    assertProject db p.userId p.id = .ok () := by
  unfold assertProject
  rw [if_pos (List.any_eq_true.mpr ⟨p, hp, by simp⟩)]

theorem allItems_eq (hp : p ∈ db.projects.rows) (ordered : ℕ → List Link) (query : ListLinksQuery) :
    allItems db ordered p.userId p.id query =
      pages ordered query.limit (pageCount (matching db p.id query).length query.limit) := by
  simp [allItems, pages, list, assertProject_of_mem hp, itemsOf,
    ListLinksQuery.nextPage]

theorem nodup_matching (projectId : ProjectId) (query : ListLinksQuery) :
    (matching db projectId query).Nodup :=
  (List.Nodup.of_map Link.id db.links.nodup).filter _

variable (createdAt : Link → ℤ)

/-- The pages are a partition of the links exactly when no page ends between two links that were
created in the same millisecond. -/
theorem list_pages_partition (hp : p ∈ db.projects.rows) (query : ListLinksQuery) :
    (∀ ordered : ℕ → List Link, (∀ n, Sorts createdAt (matching db p.id query) (ordered n)) →
      ∀ l ∈ matching db p.id query, (allItems db ordered p.userId p.id query).count l = 1) ↔
      ∀ n, ¬ CutsTie createdAt (matching db p.id query) (n * query.limit) := by
  have hlen : (matching db p.id query).length ≤ _ := length_le_pageCount_mul query.limit_pos
  simp only [allItems_eq hp]
  constructor
  · intro hall n hcut
    obtain ⟨ordered, hsorts, l, hl, htwice⟩ := exists_pages_twice hcut hlen
    have hone := hall ordered hsorts l hl
    omega
  · intro hcut ordered hsorts l hl
    have hperm := pages_perm (k := pageCount (matching db p.id query).length query.limit) hsorts
      (hsorts 0) hcut
    rw [List.take_of_length_le ((hsorts 0).perm.length_eq ▸ hlen)] at hperm
    rw [(hperm.trans (hsorts 0).perm).count_eq]
    exact List.count_eq_one_of_mem (nodup_matching p.id query) hl

def bulkInserted : Table Link.id :=
  ⟨[manualRow "p" (fun _ => "a") ⟨"https://d", "x", "x"⟩ 0,
    manualRow "p" (fun _ => "b") ⟨"https://d", "y", "y"⟩ 1], by decide⟩

def bulkDatabase : Database := exampleDatabase bulkInserted .empty

theorem list_pages_partition_sample :
    (allItems bulkDatabase (fun _ => bulkInserted.rows) "u" "p" { limit := 1 }).count
      (bulkInserted.rows.head (by decide)) = 1 := by
  have hp : exampleProject ∈ bulkDatabase.projects.rows := by decide
  refine (list_pages_partition (fun l => if l.id = "a" then 0 else 1) hp { limit := 1 }).mpr ?_
    (fun _ => bulkInserted.rows) (fun _ => ⟨.refl _, by decide⟩) _ (by decide)
  rintro n ⟨r, hr, hlt, hle⟩
  have hrows : r ∈ bulkInserted.rows := hr
  simp only [bulkInserted, List.mem_cons, List.not_mem_nil, or_false] at hrows
  obtain rfl | rfl := hrows
  · have hlow : 0 < n * 1 := hlt
    have hhigh : n * 1 < 1 := hle
    omega
  · have hlow : 1 < n * 1 := hlt
    have hhigh : n * 1 < 2 := hle
    omega

/-- Both links were created at 0 and the second query lists them the other way round, so the one
link is on both pages. -/
theorem tied_links_repeat : ¬ ∀ (db : Database) (p : Project), p ∈ db.projects.rows →
    ∀ (createdAt : Link → ℤ) (query : ListLinksQuery) (ordered : ℕ → List Link),
      (∀ n, Sorts createdAt (matching db p.id query) (ordered n)) →
        ∀ l ∈ matching db p.id query, (allItems db ordered p.userId p.id query).count l = 1 := by
  intro hall
  have hsorts : ∀ n, Sorts (fun _ : Link => (0 : ℤ)) bulkInserted.rows
      (if n = 0 then bulkInserted.rows else bulkInserted.rows.reverse) := by
    intro n
    split
    · exact ⟨.refl _, by decide⟩
    · exact ⟨List.reverse_perm _, by decide⟩
  have hone := hall bulkDatabase exampleProject (by decide) (fun _ => 0) { limit := 1 }
    (fun n => if n = 0 then bulkInserted.rows else bulkInserted.rows.reverse) hsorts
    (bulkInserted.rows.head (by decide)) (by decide)
  exact absurd hone (by decide)

end LinkBulker.LinksService
