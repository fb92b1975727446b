import LinkBulker.Api.LinksService
import LinkBulker.Shared.Url

/-! `LinksService.createManualLinks`: one request inserts a whole list of links.  `cuid` gives the
ids of the new rows in their order. -/

namespace LinkBulker.LinksService

open Foundations Db Shared

structure ManualLinkItem where
  donorUrl : String
  acceptor : String
  deriving DecidableEq

def ManualLinkItem.valid (newURL : UrlParser) (item : ManualLinkItem) : Bool :=
  isValidDonorUrl newURL item.donorUrl && 1 ≤ utf16Length item.acceptor &&
    utf16Length item.acceptor ≤ 2048

structure CreateManualLinksInput (newURL : UrlParser) where
  items : List ManualLinkItem
  items_valid : items.all (·.valid newURL)
  min : 1 ≤ items.length
  max : items.length ≤ LIMITS.MAX_MANUAL_URLS_PER_TASK

structure ManualLinkRecord where
  donorUrl : String
  acceptorRaw : String
  acceptorHost : String
  deriving DecidableEq

structure InvalidItem where
  index : ℕ
  message : String
  deriving DecidableEq

inductive CreateManualLinksError
  | message (message : String)
  | invalidAcceptors (message : String) (errors : List InvalidItem)
  deriving DecidableEq

def normalizeItems (newURL : UrlParser) (items : List ManualLinkItem) :
    List ManualLinkRecord × List InvalidItem :=
  items.zipIdx.foldl (fun (records, errors) (item, idx) =>
    match extractAcceptorHost newURL item.acceptor with
    | .ok host => (records ++ [⟨item.donorUrl, item.acceptor, host⟩], errors)
    | .error message => (records, errors ++ [⟨idx, message⟩])) ([], [])

def manualRow (projectId : ProjectId) (cuid : ℕ → LinkId) (r : ManualLinkRecord) (idx : ℕ) : Link where
  id := cuid idx
  projectId
  sheetsTaskId := none
  source := .MANUAL
  donorUrl := r.donorUrl
  acceptorRaw := r.acceptorRaw
  acceptorHost := r.acceptorHost

def createManualLinks (newURL : UrlParser) (cuid : ℕ → LinkId) (db : Database) (userId : UserId)
    (projectId : ProjectId) (dto : CreateManualLinksInput newURL) :
    Except CreateManualLinksError Database :=
  match assertProject db userId projectId with
  | .error message => .error (.message message)
  | .ok () =>
    if dto.items.length > LIMITS.MAX_MANUAL_URLS_PER_TASK then
      .error (.message "Cannot add more than 1000 links per request")
    else match normalizeItems newURL dto.items with
      | (_, e :: errors) =>
        .error (.invalidAcceptors "Some items have invalid acceptors" (e :: errors))
      | (records, []) =>
        match db.links.insertMany (records.zipIdx.map fun (r, idx) => manualRow projectId cuid r idx) with
        | none => .error (.message "Unique constraint failed on the fields: (id)")
        | some links => .ok { db with links }

theorem createManualLinks_eq_ok {newURL : UrlParser} {cuid : ℕ → LinkId} {db db' : Database}
    {userId : UserId} {projectId : ProjectId} {dto : CreateManualLinksInput newURL}
    (h : createManualLinks newURL cuid db userId projectId dto = .ok db') :
    ∃ links : Table Link.id, db' = { db with links } ∧
      ∃ records, normalizeItems newURL dto.items = (records, []) ∧ links.rows = db.links.rows ++
        records.zipIdx.map fun (r, idx) => manualRow projectId cuid r idx := by
  unfold createManualLinks at h
  split at h
  · cases h
  · split at h
    · cases h
    · split at h
      · cases h
      · rename_i records hrecords
        split at h
        · cases h
        · rename_i links hlinks
          cases h
          exact ⟨links, rfl, records, hrecords, Table.insertMany_eq_some.mp hlinks⟩

def ManualLinkItem.record (newURL : UrlParser) (item : ManualLinkItem) : Option ManualLinkRecord :=
  match extractAcceptorHost newURL item.acceptor with
  | .ok host => some ⟨item.donorUrl, item.acceptor, host⟩
  | .error _ => none

def ManualLinkItem.invalid (newURL : UrlParser) (item : ManualLinkItem) (idx : ℕ) :
    Option InvalidItem :=
  match extractAcceptorHost newURL item.acceptor with
  | .ok _ => none
  | .error message => some ⟨idx, message⟩

theorem normalizeItems_eq (newURL : UrlParser) (items : List ManualLinkItem) :
    normalizeItems newURL items = (items.zipIdx.filterMap fun p => p.1.record newURL,
      items.zipIdx.filterMap fun p => p.1.invalid newURL p.2) := by
  have hfold (indexed : List (ManualLinkItem × ℕ)) (records : List ManualLinkRecord)
      (errors : List InvalidItem) :
      indexed.foldl (fun (records, errors) (item, idx) =>
        match extractAcceptorHost newURL item.acceptor with
        | .ok host => (records ++ [⟨item.donorUrl, item.acceptor, host⟩], errors)
        | .error message => (records, errors ++ [⟨idx, message⟩])) (records, errors) =
      (records ++ indexed.filterMap fun p => p.1.record newURL,
        errors ++ indexed.filterMap fun p => p.1.invalid newURL p.2) := by
    induction indexed generalizing records errors with
    | nil => simp
    | cons p indexed ih =>
      obtain ⟨item, idx⟩ := p
      cases hhost : extractAcceptorHost newURL item.acceptor with
      | ok host =>
        have hrecord : item.record newURL = some ⟨item.donorUrl, item.acceptor, host⟩ := by
          rw [ManualLinkItem.record, hhost]
        have hinvalid : item.invalid newURL idx = none := by rw [ManualLinkItem.invalid, hhost]
        simp only [List.foldl_cons, hhost, ih, List.filterMap_cons, hrecord, hinvalid,
          List.append_assoc, List.singleton_append]
      | error message =>
        have hrecord : item.record newURL = none := by rw [ManualLinkItem.record, hhost]
        have hinvalid : item.invalid newURL idx = some ⟨idx, message⟩ := by
          rw [ManualLinkItem.invalid, hhost]
        simp only [List.foldl_cons, hhost, ih, List.filterMap_cons, hrecord, hinvalid,
          List.append_assoc, List.singleton_append]
  exact hfold items.zipIdx [] []

theorem mem_createManualLinks {newURL : UrlParser} {cuid : ℕ → LinkId} {db db' : Database}
    {userId : UserId} {projectId : ProjectId} {dto : CreateManualLinksInput newURL}
    (h : createManualLinks newURL cuid db userId projectId dto = .ok db') {l : Link}
    (hl : l ∈ db'.links.rows) (hnew : l ∉ db.links.rows) :
    ∃ item ∈ dto.items, l.donorUrl = item.donorUrl ∧ l.acceptorRaw = item.acceptor ∧
      extractAcceptorHost newURL item.acceptor = .ok l.acceptorHost := by
  obtain ⟨links, rfl, records, hrecords, hrows⟩ := createManualLinks_eq_ok h
  rw [hrows] at hl
  obtain ⟨⟨r, idx⟩, hr, rfl⟩ := List.mem_map.mp ((List.mem_append.mp hl).resolve_left hnew)
  rw [normalizeItems_eq, Prod.mk.injEq] at hrecords
  have hmem : r ∈ records := List.fst_mem_of_mem_zipIdx hr
  rw [← hrecords.1] at hmem
  obtain ⟨⟨item, i⟩, hitem, hrecord⟩ := List.mem_filterMap.mp hmem
  refine ⟨item, List.fst_mem_of_mem_zipIdx hitem, ?_⟩
  simp only [ManualLinkItem.record] at hrecord
  split at hrecord
  · rename_i host hhost
    cases hrecord
    exact ⟨rfl, rfl, hhost⟩
  · cases hrecord

end LinkBulker.LinksService
