import LinkBulker.Api.ManualLinks
import LinkBulker.Worker.Crawler
import LinkBulker.Worker.SheetsRows

/-! `apps/web/src/lib/parse-csv.ts`, and what the layers after it make of a row that one layer has
passed. -/

namespace LinkBulker.Web

open Foundations Db Shared Crawler LinksService

variable {newURL : UrlParser}

structure ParsedRow where
  rowIndex : ℕ
  donorUrl : String
  acceptor : String
  errors : List String
  deriving DecidableEq

def validateRow (newURL : UrlParser) (rowIndex : ℕ) (rawDonor rawAcceptor : String) : ParsedRow :=
  let donorUrl := trim rawDonor
  let acceptor := trim rawAcceptor
  let donorErrors :=
    if donorUrl = "" then ["donorUrl is empty"]
    else if isValidDonorUrl newURL donorUrl then []
    else ["donorUrl must be a valid http(s) URL"]
  let acceptorErrors :=
    if acceptor = "" then ["acceptor is empty"]
    else match extractAcceptorHost newURL acceptor with
      | .ok _ => []
      | .error message => ["acceptor invalid: " ++ message]
  ⟨rowIndex, donorUrl, acceptor, donorErrors ++ acceptorErrors⟩

structure ParseResult where
  rows : List ParsedRow
  validCount : ℕ
  invalidCount : ℕ
  deriving DecidableEq

/-- `data` are the records that the CSV library has read. -/
def parseLinksCsv (newURL : UrlParser) (data : List (List String)) (hasHeader : Bool) :
    ParseResult :=
  let start := if hasHeader then 1 else 0
  let rows := (data.drop start).mapIdx fun idx cols =>
    validateRow newURL (idx + start + 1) (cols[0]?.getD "") (cols[1]?.getD "")
  let validCount := (rows.filter fun r => r.errors.length = 0).length
  ⟨rows, validCount, rows.length - validCount⟩

def rowsToPayload (rows : List ParsedRow) : List ManualLinkItem :=
  (rows.filter fun r => r.errors.length = 0).map fun r => ⟨r.donorUrl, r.acceptor⟩

def payload (newURL : UrlParser) (raw : List (ℕ × String × String)) : List ManualLinkItem :=
  rowsToPayload (raw.map fun (rowIndex, rawDonor, rawAcceptor) =>
    validateRow newURL rowIndex rawDonor rawAcceptor)

def Accepted (newURL : UrlParser) (items : List ManualLinkItem) : Prop :=
  ∃ dto : CreateManualLinksInput newURL, dto.items = items ∧ (normalizeItems newURL items).2 = []

def Crawls (newURL : UrlParser) (donorUrl acceptorRaw : String) : Prop :=
  ∀ run durationMs, crawlAndAnalyze newURL donorUrl acceptorRaw run durationMs =
    run.result durationMs

def HostNamed (newURL : UrlParser) (donorUrl : String) : Prop :=
  ∀ u ∈ newURL donorUrl, normalizeHost u.hostname ≠ ""

instance (newURL : UrlParser) (donorUrl : String) : Decidable (HostNamed newURL donorUrl) :=
  inferInstanceAs (Decidable (∀ u ∈ newURL donorUrl, normalizeHost u.hostname ≠ ""))

theorem validateRow_errors {rowIndex : ℕ} {rawDonor rawAcceptor : String} :
    (validateRow newURL rowIndex rawDonor rawAcceptor).errors = [] ↔
      isValidDonorUrl newURL (trim rawDonor) ∧ trim rawDonor ≠ "" ∧ trim rawAcceptor ≠ "" ∧
        ∃ host, extractAcceptorHost newURL (trim rawAcceptor) = .ok host := by
  simp only [validateRow, List.append_eq_nil_iff]
  by_cases hdonor : trim rawDonor = ""
  · simp [hdonor]
  · by_cases hvalid : isValidDonorUrl newURL (trim rawDonor)
    · by_cases hacceptor : trim rawAcceptor = ""
      · simp [hacceptor]
      · cases extractAcceptorHost newURL (trim rawAcceptor) <;> simp [hdonor, hvalid, hacceptor]
    · simp [hdonor, hvalid]

theorem mem_payload {raw : List (ℕ × String × String)} {item : ManualLinkItem}
    (h : item ∈ payload newURL raw) :
    isValidDonorUrl newURL item.donorUrl ∧ item.acceptor ≠ "" ∧
      ∃ host, extractAcceptorHost newURL item.acceptor = .ok host := by
  obtain ⟨r, hr, rfl⟩ := List.mem_map.mp h
  obtain ⟨hr, herrors⟩ := List.mem_filter.mp hr
  obtain ⟨⟨rowIndex, rawDonor, rawAcceptor⟩, -, rfl⟩ := List.mem_map.mp hr
  have hnil := List.length_eq_zero_iff.mp (of_decide_eq_true herrors)
  obtain ⟨hvalid, -, hacceptor, hhost⟩ := validateRow_errors.mp hnil
  exact ⟨hvalid, hacceptor, hhost⟩

theorem utf16Length_pos {s : String} (h : s ≠ "") : 1 ≤ utf16Length s := by
  have hne : s.toList ≠ [] := fun e => h (String.toList_eq_nil_iff.mp e)
  obtain ⟨c, cs, hcs⟩ := List.exists_cons_of_ne_nil hne
  rw [utf16Length, hcs, List.map_cons, List.sum_cons, utf16Units]
  split <;> omega

theorem normalizeItems_errors {items : List ManualLinkItem}
    (h : ∀ item ∈ items, ∃ host, extractAcceptorHost newURL item.acceptor = .ok host) :
    (normalizeItems newURL items).2 = [] := by
  rw [normalizeItems_eq]
  refine List.filterMap_eq_nil_iff.mpr fun ⟨item, idx⟩ hitem => ?_
  obtain ⟨host, hhost⟩ := h item (List.fst_mem_of_mem_zipIdx hitem)
  rw [ManualLinkItem.invalid, hhost]

theorem accepted_payload_iff {raw : List (ℕ × String × String)}
    (hmin : 1 ≤ (payload newURL raw).length)
    (hmax : (payload newURL raw).length ≤ LIMITS.MAX_MANUAL_URLS_PER_TASK) :
    Accepted newURL (payload newURL raw) ↔
      ∀ item ∈ payload newURL raw, utf16Length item.acceptor ≤ 2048 := by
  constructor
  · rintro ⟨dto, hitems, -⟩ item hitem
    have hvalid := List.all_eq_true.mp dto.items_valid item (hitems ▸ hitem)
    simp only [ManualLinkItem.valid, Bool.and_eq_true, decide_eq_true_eq] at hvalid
    exact hvalid.2
  · intro hshort
    have hall : (payload newURL raw).all (·.valid newURL) := by
      refine List.all_eq_true.mpr fun item hitem => ?_
      obtain ⟨hvalid, hne, -⟩ := mem_payload hitem
      simp only [ManualLinkItem.valid, Bool.and_eq_true, decide_eq_true_eq]
      exact ⟨⟨hvalid, utf16Length_pos hne⟩, hshort item hitem⟩
    exact ⟨⟨payload newURL raw, hall, hmin, hmax⟩, rfl,
      normalizeItems_errors fun item hitem => (mem_payload hitem).2.2⟩

theorem crawls_iff {donorUrl acceptorRaw host : String} (hdonor : isValidDonorUrl newURL donorUrl)
    (hacceptor : extractAcceptorHost newURL acceptorRaw = .ok host) :
    Crawls newURL donorUrl acceptorRaw ↔ HostNamed newURL donorUrl := by
  cases hu : newURL donorUrl with
  | none =>
    rw [isValidDonorUrl, hu] at hdonor
    cases hdonor
  | some u =>
    have hhost : safeHost newURL donorUrl = some (normalizeHost u.hostname) := by
      rw [safeHost, hu, Option.map_some]
    have hnamed : HostNamed newURL donorUrl ↔ normalizeHost u.hostname ≠ "" := by
      simp [HostNamed, hu]
    rw [hnamed]
    constructor
    · intro hcrawls hempty
      have hresult := hcrawls foundRun 0
      simp only [crawlAndAnalyze, Crawler.validate, hacceptor, hhost, if_pos hempty] at hresult
      exact absurd (congrArg CrawlAndAnalyzeResult.ok hresult) Bool.false_ne_true
    · intro hne run durationMs
      simp only [crawlAndAnalyze, Crawler.validate, hacceptor, hhost, if_neg hne]

theorem crawls_created_iff {cuid : ℕ → LinkId} {db db' : Database} {userId : UserId}
    {projectId : ProjectId} {dto : CreateManualLinksInput newURL}
    (h : createManualLinks newURL cuid db userId projectId dto = .ok db') {l : Link}
    (hl : l ∈ db'.links.rows) (hnew : l ∉ db.links.rows) :
    Crawls newURL l.donorUrl l.acceptorRaw ↔ HostNamed newURL l.donorUrl := by
  obtain ⟨item, hitem, hdonor, hacceptor, hhost⟩ := mem_createManualLinks h hl hnew
  have hvalid := List.all_eq_true.mp dto.items_valid item hitem
  simp only [ManualLinkItem.valid, Bool.and_eq_true] at hvalid
  rw [hdonor, hacceptor]
  exact crawls_iff hvalid.1.1 hhost

theorem normalizeRow_eq_nil {row : Sheets.SheetRow}
    (h : (Sheets.normalizeRow newURL row).errors = []) :
    isValidDonorUrl newURL (Sheets.normalizeRow newURL row).donorUrl ∧
      ∃ host, extractAcceptorHost newURL (Sheets.normalizeRow newURL row).acceptor = .ok host := by
  rw [Sheets.normalizeRow_donorUrl, Sheets.normalizeRow_acceptor]
  have hdonor (errors : List String) (hnil : (if trim row.donorUrl = "" then ["donor empty"]
      else if isValidDonorUrl newURL (trim row.donorUrl) then []
      else ["donor not a valid URL"]) ++ errors = []) :
      isValidDonorUrl newURL (trim row.donorUrl) := by
    by_contra hinvalid
    by_cases hempty : trim row.donorUrl = "" <;> simp [hempty, hinvalid] at hnil
  simp only [Sheets.normalizeRow] at h
  split at h
  · simp at h
  · split at h
    · rename_i host hhost
      exact ⟨hdonor [] (by simpa using h), host, hhost⟩
    · simp at h

/-- What a layer passes the next one accepts, but for two things: the schema bounds the acceptor,
which the form does not, and the crawler turns away a donor whose host is nothing but `www.`. -/
theorem validation_layers (newURL : UrlParser) (raw : List (ℕ × String × String))
    (hmin : 1 ≤ (payload newURL raw).length)
    (hmax : (payload newURL raw).length ≤ LIMITS.MAX_MANUAL_URLS_PER_TASK) :
    (Accepted newURL (payload newURL raw) ↔
      ∀ item ∈ payload newURL raw, utf16Length item.acceptor ≤ 2048) ∧
    (∀ cuid db db' userId projectId dto,
      createManualLinks newURL cuid db userId projectId dto = .ok db' →
        ∀ l ∈ db'.links.rows, l ∉ db.links.rows →
          (Crawls newURL l.donorUrl l.acceptorRaw ↔ HostNamed newURL l.donorUrl)) ∧
    ∀ row, (Sheets.normalizeRow newURL row).errors = [] →
      (Crawls newURL (Sheets.normalizeRow newURL row).donorUrl
          (Sheets.normalizeRow newURL row).acceptor ↔
        HostNamed newURL (Sheets.normalizeRow newURL row).donorUrl) := by
  refine ⟨accepted_payload_iff hmin hmax, fun _ _ _ _ _ _ h _ hl hnew => crawls_created_iff h hl hnew,
    fun row hrow => ?_⟩
  obtain ⟨hvalid, host, hhost⟩ := normalizeRow_eq_nil hrow
  exact crawls_iff hvalid hhost

theorem validation_layers_sample :
    Accepted exampleURL (payload exampleURL [(1, " https://donor.example/post ", "acceptor.example")]) ∧
    Crawls exampleURL "https://donor.example/post" "acceptor.example" := by
  have hlayers := validation_layers exampleURL [(1, " https://donor.example/post ", "acceptor.example")]
    (by decide +kernel) (by decide +kernel)
  exact ⟨hlayers.1.mpr (by decide +kernel),
    (hlayers.2.2 ⟨2, "https://donor.example/post", "acceptor.example"⟩ (by decide +kernel)).mpr
      (by decide +kernel)⟩

def acceptorPage : List Char :=
  ['h', 't', 't', 'p', 's', ':', '/', '/', 'a', '.', 'e', 'x', 'a', 'm', 'p', 'l', 'e', '/']

def longAcceptor (n : ℕ) : String := String.ofList (acceptorPage ++ List.replicate n 'a')

def sitesURL : UrlParser := fun s =>
  if acceptorPage.isPrefixOf s.toList then some ⟨"https:", "a.example"⟩
  else if s = "http://www./" then some ⟨"http:", "www."⟩
  else exampleURL s

theorem trim_longAcceptor (n : ℕ) : trim (longAcceptor (n + 1)) = longAcceptor (n + 1) := by
  have hends : acceptorPage ++ List.replicate (n + 1) 'a' =
      'h' :: (acceptorPage.tail ++ List.replicate n 'a') ++ ['a'] := by
    rw [List.replicate_succ', ← List.append_assoc]
    rfl
  unfold trim longAcceptor
  rw [String.toList_ofList, hends, trimChars_of_ends (by decide) (by decide)]

theorem lt_length_longAcceptor (n : ℕ) : n < utf16Length (longAcceptor n) := by
  have hsite : 0 < (acceptorPage.map utf16Units).sum := by decide
  have hone : utf16Units 'a' = 1 := rfl
  unfold utf16Length longAcceptor
  rw [String.toList_ofList, List.map_append, List.sum_append, List.map_replicate,
    List.sum_replicate_nat, hone]
  omega

theorem sitesURL_longAcceptor (n : ℕ) :
    sitesURL (longAcceptor n) = some ⟨"https:", "a.example"⟩ := by
  have hprefix : acceptorPage.isPrefixOf (longAcceptor n).toList := by
    rw [longAcceptor, String.toList_ofList, List.isPrefixOf_iff_prefix]
    exact List.prefix_append ..
  rw [sitesURL, if_pos hprefix]

theorem payload_longAcceptor (n : ℕ) :
    payload sitesURL [(1, "https://donor.example/post", longAcceptor (n + 1))] =
      [⟨"https://donor.example/post", longAcceptor (n + 1)⟩] := by
  have htrim := trim_longAcceptor n
  have hlong : longAcceptor (n + 1) ≠ "" := by
    intro hempty
    have hlt := lt_length_longAcceptor (n + 1)
    rw [hempty] at hlt
    exact absurd hlt (by simp [utf16Length])
  have hdonor : trim "https://donor.example/post" = "https://donor.example/post" := by decide +kernel
  have herrors : (validateRow sitesURL 1 "https://donor.example/post"
      (longAcceptor (n + 1))).errors = [] := by
    refine validateRow_errors.mpr ⟨by decide +kernel, by decide +kernel, by rwa [htrim], ?_⟩
    have hhost : hostOfCandidate sitesURL (longAcceptor (n + 1)) = some "a.example" := by
      rw [hostOfCandidate, sitesURL_longAcceptor]
      decide +kernel
    refine ⟨"a.example", ?_⟩
    simp only [extractAcceptorHost, htrim, if_neg hlong, List.findSome?_cons, hhost]
  have hrow : validateRow sitesURL 1 "https://donor.example/post" (longAcceptor (n + 1)) =
      ⟨1, "https://donor.example/post", longAcceptor (n + 1), []⟩ := by
    rw [← herrors]
    simp only [validateRow, htrim, hdonor]
  simp [payload, rowsToPayload, hrow]

/-- The form passes an acceptor that the schema refuses, and the sheet a donor that the crawler
calls invalid. -/
theorem layers_disagree :
    (¬ ∀ (newURL : UrlParser) (raw : List (ℕ × String × String)),
      1 ≤ (payload newURL raw).length →
        (payload newURL raw).length ≤ LIMITS.MAX_MANUAL_URLS_PER_TASK →
          Accepted newURL (payload newURL raw)) ∧
    ¬ ∀ (newURL : UrlParser) (row : Sheets.SheetRow), (Sheets.normalizeRow newURL row).errors = [] →
      Crawls newURL (Sheets.normalizeRow newURL row).donorUrl
        (Sheets.normalizeRow newURL row).acceptor := by
  constructor
  · intro hall
    have haccepted := hall sitesURL [(1, "https://donor.example/post", longAcceptor (2047 + 1))]
    rw [payload_longAcceptor] at haccepted
    obtain ⟨dto, hitems, -⟩ := haccepted (by simp) (by simp [LIMITS.MAX_MANUAL_URLS_PER_TASK])
    have hvalid := dto.items_valid
    rw [hitems, List.all_cons, Bool.and_eq_true] at hvalid
    have hshort := (Bool.and_eq_true_iff.mp hvalid.1).2
    exact absurd (of_decide_eq_true hshort) (Nat.not_le.mpr (lt_length_longAcceptor (2047 + 1)))
  · intro hall
    have hcrawls := hall sitesURL ⟨2, "http://www./", "https://a.example/"⟩ (by decide +kernel)
      foundRun 0
    exact absurd (congrArg CrawlAndAnalyzeResult.ok hcrawls) (by decide +kernel)

end LinkBulker.Web
