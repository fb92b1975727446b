import LinkBulker.Web.LinksPage

/-! The endless list of links: what a fetch and a removal do to the rows displayed, and what that
leaves to scroll to. -/

namespace LinkBulker.Web

open Foundations Db Shared LinksService

theorem foldl_length_items (pages : List LinksListResponse) (n : ℕ) :
    pages.foldl (fun acc p => acc + p.items.length) n = n + (pages.flatMap (·.items)).length := by
  induction pages generalizing n with
  | nil => simp
  | cons p pages ih => simp [ih, Nat.add_assoc]

theorem getNextPageParam_eq {lastPage : LinksListResponse} {allPages : List LinksListResponse} :
    getNextPageParam lastPage allPages =
      if (allPages.flatMap (·.items)).length < lastPage.total then some (allPages.length + 1)
      else none := by
  simp [getNextPageParam, foldl_length_items]

theorem nextPageParam_eq_some {pages : List LinksListResponse} {n : ℕ}
    (h : nextPageParam pages = some n) : n = pages.length + 1 := by
  unfold nextPageParam at h
  split at h
  · rename_i hnone
    cases h
    simp [List.getLast?_eq_none_iff.mp hnone]
  · rw [getNextPageParam_eq] at h
    split at h
    · exact (Option.some.inj h).symm
    · cases h

theorem linkRows_removeFromPage (pages : List LinksListResponse) (linkId : LinkId) :
    (pages.map (removeFromPage linkId)).flatMap (·.items) =
      (pages.flatMap (·.items)).filter fun l => l.id ≠ linkId := by
  simp [List.flatMap_map, removeFromPage, List.filter_flatMap]

theorem matching_manual (db : Database) (projectId : ProjectId) (query : ListLinksQuery)
    (hsource : query.source = some .manual) (hstatus : query.status = none) :
    matching db projectId query = manualLinks db projectId := by
  have haccepts : query.accepts projectId =
      fun l => l.projectId == projectId && l.source == .MANUAL := by
    funext l
    simp [ListLinksQuery.accepts, hsource, hstatus, SourceFilter.toUpperCase]
  rw [matching, haccepts, manualLinks]

theorem listLinks_succ {db : Database} {p : Project} (hp : p ∈ db.projects.rows) (n : ℕ) :
    ∃ r, listLinks db p.userId p.id (n + 1) = .ok r ∧
      r.items = (page (manualLinks db p.id) (n * PAGE_SIZE) PAGE_SIZE).map linkRow ∧
      r.total = (manualLinks db p.id).length := by
  unfold listLinks
  rw [dif_pos (Nat.le_add_left 1 n)]
  simp only [list, assertProject_of_mem hp]
  refine ⟨_, rfl, ?_, ?_⟩
  · rw [matching_manual _ _ _ rfl rfl]
    rfl
  · refine Eq.trans ?_ (congrArg List.length (matching_manual db p.id
      { source := some .manual, page := n + 1, limit := PAGE_SIZE, page_pos := n.succ_pos } rfl rfl))
    exact List.countP_eq_length_filter

theorem deleteOne_of_mem {db : Database} {p : Project} (hp : p ∈ db.projects.rows) {l : Link}
    (hl : l ∈ manualLinks db p.id) :
    deleteOne db p.userId l.id = .ok { db with links := db.links.delete l.id } := by
  obtain ⟨hmem, hproject⟩ : l ∈ db.links.rows ∧ l.projectId = p.id := by
    have := List.mem_filter.mp hl
    exact ⟨this.1, by simpa using (Bool.and_eq_true_iff.mp this.2).1⟩
  have hfind : db.links.find? l.id = some l := Table.find?_eq_some.mpr ⟨hmem, rfl⟩
  have hfind' : db.projects.find? p.id = some p := Table.find?_eq_some.mpr ⟨hp, rfl⟩
  simp [deleteOne, hfind, hproject, hfind']

theorem manualLinks_delete (db : Database) (projectId : ProjectId) (linkId : LinkId) :
    manualLinks { db with links := db.links.delete linkId } projectId =
      (manualLinks db projectId).filter fun l => l.id ≠ linkId := by
  simp [manualLinks, Table.delete, Table.deleteWhere, Table.keepWhere, List.filter_filter,
    Bool.and_comm]

section Steps

variable {p : Project} {s s' : LinksPage}

structure Tracked (p : Project) (s : LinksPage) : Prop where
  owned : p ∈ s.db.projects.rows
  totals : ∀ page ∈ s.pages, page.total = (manualLinks s.db p.id).length
  rows : s.linkRows.Sublist
    (((manualLinks s.db p.id).take (s.pages.length * PAGE_SIZE)).map linkRow)

def LinksPage.Full (p : Project) (s : LinksPage) : Prop :=
  min (s.pages.length * PAGE_SIZE) (manualLinks s.db p.id).length ≤ s.linkRows.length

theorem nodup_manualLinks (db : Database) (projectId : ProjectId) :
    ((manualLinks db projectId).map Link.id).Nodup :=
  db.links.nodup.sublist (List.filter_sublist.map Link.id)

theorem Tracked.nodup (h : Tracked p s) : (s.linkRows.map LinkRow.id).Nodup := by
  refine List.Nodup.sublist (h.rows.map LinkRow.id) ?_
  rw [List.map_map]
  exact (nodup_manualLinks s.db p.id).sublist ((List.take_sublist ..).map Link.id)

theorem Tracked.length_le (h : Tracked p s) :
    s.linkRows.length ≤ min (s.pages.length * PAGE_SIZE) (manualLinks s.db p.id).length := by
  simpa using h.rows.length_le

theorem Tracked.ended_iff (h : Tracked p s) :
    s.ended ↔ s.pages ≠ [] ∧ (manualLinks s.db p.id).length ≤ s.linkRows.length := by
  unfold LinksPage.ended nextPageParam
  cases hlast : s.pages.getLast? with
  | none => simp [List.getLast?_eq_none_iff.mp hlast]
  | some lastPage =>
    have hmem := List.mem_of_getLast? hlast
    simp only [getNextPageParam_eq, h.totals lastPage hmem, ite_eq_right_iff, reduceCtorEq,
      imp_false, Nat.not_lt, LinksPage.linkRows]
    exact ⟨fun hle => ⟨List.ne_nil_of_mem hmem, hle⟩, fun hle => hle.2⟩

theorem Tracked.showsAll (h : Tracked p s) (hend : s.ended) : s.ShowsAll p.id where
  once := h.nodup
  rows := by
    have hall := (h.ended_iff.mp hend).2
    refine (h.rows.trans ((List.take_sublist ..).map linkRow)).eq_of_length_le ?_
    rwa [List.length_map]

theorem step_fetchNextPage (h : Tracked p s) :
    (s.ended ∧ LinksPage.step p.userId p.id s .fetchNextPage = some s) ∨
      ∃ r : LinksListResponse, LinksPage.step p.userId p.id s .fetchNextPage =
          some { s with pages := s.pages ++ [r] } ∧
        r.items = (page (manualLinks s.db p.id) (s.pages.length * PAGE_SIZE) PAGE_SIZE).map linkRow ∧
        r.total = (manualLinks s.db p.id).length := by
  cases hnext : nextPageParam s.pages with
  | none => exact .inl ⟨hnext, by simp [LinksPage.step, hnext]⟩
  | some n =>
    obtain rfl := nextPageParam_eq_some hnext
    obtain ⟨r, hr, hitems, htotal⟩ := listLinks_succ h.owned s.pages.length
    exact .inr ⟨r, by simp [LinksPage.step, hnext, hr], hitems, htotal⟩

theorem step_remove (h : Tracked p s) {linkId : LinkId}
    (hs : LinksPage.step p.userId p.id s (.remove linkId) = some s') :
    s' = ⟨{ s.db with links := s.db.links.delete linkId },
        s.pages.map (removeFromPage linkId)⟩ ∧
      (∃ l ∈ s.linkRows, l.id = linkId) ∧ ∃ l ∈ manualLinks s.db p.id, l.id = linkId := by
  simp only [LinksPage.step] at hs
  split at hs
  · rename_i hrow
    obtain ⟨row, hmem, rfl⟩ := hrow
    obtain ⟨l, hl, rfl⟩ := List.mem_map.mp (h.rows.subset hmem)
    have hl := List.mem_of_mem_take hl
    have hdelete : deleteOne s.db p.userId (linkRow l).id = _ := deleteOne_of_mem h.owned hl
    rw [hdelete] at hs
    exact ⟨(Option.some.inj hs).symm, ⟨_, hmem, rfl⟩, l, hl, rfl⟩
  · cases hs

theorem exists_step_remove {row : LinkRow} (hrow : row ∈ s.linkRows) :
    ∃ s', LinksPage.step p.userId p.id s (.remove row.id) = some s' := by
  simp only [LinksPage.step]
  rw [if_pos ⟨row, hrow, rfl⟩]
  split
  · exact ⟨_, rfl⟩
  · exact ⟨_, rfl⟩

theorem tracked_fetch (h : Tracked p s) {r : LinksListResponse}
    (hitems : r.items =
      (page (manualLinks s.db p.id) (s.pages.length * PAGE_SIZE) PAGE_SIZE).map linkRow)
    (htotal : r.total = (manualLinks s.db p.id).length) :
    Tracked p { s with pages := s.pages ++ [r] } ∧
      (LinksPage.Full p { s with pages := s.pages ++ [r] } ↔ s.Full p) := by
  have hrows : LinksPage.linkRows { s with pages := s.pages ++ [r] } = s.linkRows ++ r.items := by
    simp [LinksPage.linkRows]
  have hlen : (s.pages ++ [r]).length * PAGE_SIZE = s.pages.length * PAGE_SIZE + PAGE_SIZE := by
    rw [List.length_append, List.length_singleton, Nat.succ_mul]
  have hle := h.length_le
  refine ⟨⟨h.owned, fun page hpage => ?_, ?_⟩, ?_⟩
  · obtain hpage | hpage := List.mem_append.mp hpage
    · exact h.totals page hpage
    · rw [List.mem_singleton.mp hpage, htotal]
  · rw [hrows, hlen, ← take_append_page, List.map_append, hitems]
    exact h.rows.append (List.Sublist.refl _)
  · simp only [LinksPage.Full]
    rw [hrows, hlen, List.length_append, hitems, List.length_map, page, List.length_take,
      List.length_drop]
    omega

theorem tracked_remove (h : Tracked p s) {linkId : LinkId} (hrow : ∃ l ∈ s.linkRows, l.id = linkId)
    (hlink : ∃ l ∈ manualLinks s.db p.id, l.id = linkId)
    (hs : s' = ⟨{ s.db with links := s.db.links.delete linkId },
      s.pages.map (removeFromPage linkId)⟩) :
    Tracked p s' ∧
      (s'.Full p ↔ s.Full p ∧ (manualLinks s.db p.id).length ≤ s.pages.length * PAGE_SIZE) := by
  subst hs
  have hlinks := manualLinks_delete s.db p.id linkId
  have hone := length_filter_key_ne (nodup_manualLinks s.db p.id) hlink
  have hone' := length_filter_key_ne h.nodup hrow
  have hle := h.length_le
  refine ⟨⟨h.owned, fun page hpage => ?_, ?_⟩, ?_⟩
  · obtain ⟨before, hbefore, rfl⟩ := List.mem_map.mp hpage
    rw [hlinks]
    simp only [removeFromPage, h.totals before hbefore]
    omega
  · rw [LinksPage.linkRows, linkRows_removeFromPage, hlinks, List.length_map]
    have hkept := h.rows.filter fun l => decide (l.id ≠ linkId)
    rw [List.filter_map] at hkept
    exact hkept.trans ((take_filter_isPrefix _ _ _).sublist.map linkRow)
  · unfold LinksPage.Full
    rw [LinksPage.linkRows, linkRows_removeFromPage, hlinks, List.length_map]
    unfold LinksPage.linkRows at hone' hle ⊢
    omega

/-- The rows displayed stay the first pages of the server as long as nothing is removed while links
are left to load, and never become so again. -/
theorem tracked_step (h : Tracked p s) {a : LinksAction}
    (hs : LinksPage.step p.userId p.id s a = some s') :
    Tracked p s' ∧ (s'.Full p ↔ s.Full p ∧ RemovesAtEnd p.id s a) := by
  cases a with
  | fetchNextPage =>
    obtain ⟨-, heq⟩ | ⟨r, heq, hitems, htotal⟩ := step_fetchNextPage h
    · obtain rfl := Option.some.inj (heq.symm.trans hs)
      simp [h, RemovesAtEnd]
    · obtain rfl := Option.some.inj (heq.symm.trans hs)
      simpa [RemovesAtEnd] using tracked_fetch h hitems htotal
  | remove linkId =>
    obtain ⟨rfl, hrow, hlink⟩ := step_remove h hs
    exact tracked_remove h hrow hlink rfl

theorem Tracked.start {db : Database} (hp : p ∈ db.projects.rows) :
    Tracked p ⟨db, []⟩ where
  owned := hp
  totals _ hpage := by cases hpage
  rows := List.nil_sublist _

theorem Tracked.ended_of_full (h : Tracked p s) (hfull : s.Full p)
    (hpages : (manualLinks s.db p.id).length < s.pages.length) : s.ended := by
  refine h.ended_iff.mpr ⟨fun hnil => by simp [hnil] at hpages, ?_⟩
  have hreach : s.pages.length ≤ s.pages.length * PAGE_SIZE := Nat.le_mul_of_pos_right _ (by decide)
  unfold LinksPage.Full at hfull
  omega

theorem Tracked.ends_of_full (h : Tracked p s) (hfull : s.Full p) {n : ℕ}
    (hn : (manualLinks s.db p.id).length < s.pages.length + n) :
    ∃ m s', exec (LinksPage.step p.userId p.id) s (List.replicate m .fetchNextPage) = some s' ∧
      s'.ended ∧ s'.ShowsAll p.id := by
  induction n generalizing s with
  | zero =>
    have hend := h.ended_of_full hfull hn
    exact ⟨0, s, rfl, hend, h.showsAll hend⟩
  | succ n ih =>
    obtain ⟨hend, -⟩ | ⟨r, heq, hitems, htotal⟩ := step_fetchNextPage h
    · exact ⟨0, s, rfl, hend, h.showsAll hend⟩
    · obtain ⟨htracked, hiff⟩ := tracked_fetch h hitems htotal
      have hmore : (manualLinks s.db p.id).length < (s.pages ++ [r]).length + n := by
        rw [List.length_append, List.length_singleton]
        omega
      obtain ⟨m, s', hexec, hend⟩ := ih htracked (hiff.mpr hfull) hmore
      exact ⟨m + 1, s', exec_cons.mpr ⟨_, heq, hexec⟩, hend⟩

theorem Tracked.not_ended (h : Tracked p s) (hfull : ¬ s.Full p) {m : ℕ}
    (hexec : exec (LinksPage.step p.userId p.id) s (List.replicate m .fetchNextPage) = some s') :
    ¬ s'.ended := by
  have hfetches : Meets (LinksPage.step p.userId p.id) (fun _ a => a = .fetchNextPage) s
      (List.replicate m .fetchNextPage) :=
    Meets.of_forall (fun a ha => List.eq_of_mem_replicate ha) s
  have hkeep : Tracked p s' ∧ ¬ s'.Full p := by
    refine exec_invariant_of_meets (I := fun t => Tracked p t ∧ ¬ t.Full p) ?_ ⟨h, hfull⟩ hfetches
      hexec
    rintro t a t' ⟨ht, hfull⟩ rfl hstep
    obtain ⟨ht', hiff⟩ := tracked_step ht hstep
    exact ⟨ht', fun hf => hfull (hiff.mp hf).1⟩
  intro hend
  have hall := (hkeep.1.ended_iff.mp hend).2
  unfold LinksPage.Full at hkeep
  omega

theorem Tracked.scrolls_iff (h : Tracked p s) : s.Scrolls p.userId p.id ↔ s.Full p := by
  constructor
  · intro hs
    by_contra hfull
    obtain ⟨m, s', hexec, hend, -⟩ := hs.ends
    exact h.not_ended hfull hexec hend
  · intro hfull
    have hn : (manualLinks s.db p.id).length <
        s.pages.length + ((manualLinks s.db p.id).length + 1) := by omega
    exact ⟨h.showsAll, h.ends_of_full hfull hn⟩

theorem tracked_run {db : Database} (hp : p ∈ db.projects.rows) {as : List LinksAction}
    (hr : exec (LinksPage.step p.userId p.id) ⟨db, []⟩ as = some s) :
    Tracked p s ∧ (s.Full p ↔ Meets (LinksPage.step p.userId p.id) (RemovesAtEnd p.id) ⟨db, []⟩ as) := by
  induction as using List.reverseRecOn generalizing s with
  | nil =>
    cases hr
    exact ⟨Tracked.start hp, by simp [LinksPage.Full, Meets]⟩
  | append_singleton as a ih =>
    obtain ⟨t, ht, ha⟩ := exec_concat.mp hr
    obtain ⟨htracked, hfull⟩ := ih ht
    obtain ⟨htracked', hfull'⟩ := tracked_step htracked ha
    refine ⟨htracked', ?_⟩
    rw [hfull', hfull, Meets.concat]
    simp [ht]

end Steps

/-- Every state of a run shows all links where its list ends, and can be scrolled there, exactly
when the run removes links only from lists that are loaded to the last link. -/
theorem endless_scroll {db : Database} {p : Project} (hp : p ∈ db.projects.rows)
    (as : List LinksAction) (s : LinksPage)
    (hr : exec (LinksPage.step p.userId p.id) ⟨db, []⟩ as = some s) :
    s.Scrolls p.userId p.id ↔
      Meets (LinksPage.step p.userId p.id) (RemovesAtEnd p.id) ⟨db, []⟩ as := by
  obtain ⟨htracked, hfull⟩ := tracked_run hp hr
  exact htracked.scrolls_iff.trans hfull

theorem endless_scroll_sample :
    ∃ s, exec (LinksPage.step "u" "p") ⟨bulkDatabase, []⟩ [.fetchNextPage, .remove "a"] = some s ∧
      s.Scrolls "u" "p" :=
  ⟨_, rfl, (@endless_scroll bulkDatabase exampleProject (by decide)
    [.fetchNextPage, .remove "a"] _ rfl).mpr (by decide)⟩

def unaryId (n : ℕ) : LinkId := String.ofList (List.replicate n 'a')

theorem unaryId_injective : Function.Injective unaryId := by
  intro m n h
  have hlen := congrArg List.length (String.ofList_injective h)
  simpa using hlen

def unaryLinks (n : ℕ) : Table Link.id where
  rows := (List.range n).map (manualRow "p" unaryId ⟨"https://d", "x", "x"⟩)
  nodup := by
    rw [List.map_map]
    exact List.nodup_range.map unaryId_injective

def unaryDatabase (n : ℕ) : Database := exampleDatabase (unaryLinks n) .empty

theorem length_manualLinks_unary (n : ℕ) : (manualLinks (unaryDatabase n) "p").length = n := by
  have hall : manualLinks (unaryDatabase n) "p" = (unaryLinks n).rows := by
    refine List.filter_eq_self.mpr fun l hl => ?_
    obtain ⟨i, -, rfl⟩ := List.mem_map.mp hl
    rfl
  simp [hall, unaryLinks]

/-- Of 101 links the first page is loaded and one of its rows is removed: the row that moves up to
the first page is never loaded, and the list never ends. -/
theorem removal_hides_link : ¬ ∀ (db : Database) (p : Project), p ∈ db.projects.rows →
    ∀ (as : List LinksAction) (s : LinksPage),
      exec (LinksPage.step p.userId p.id) ⟨db, []⟩ as = some s → s.Scrolls p.userId p.id := by
  intro hall
  have hp : exampleProject ∈ (unaryDatabase 101).projects.rows := by decide
  have hstart := Tracked.start hp
  have hlinks : (manualLinks (unaryDatabase 101) exampleProject.id).length = 101 :=
    length_manualLinks_unary 101
  obtain ⟨hend, -⟩ | ⟨r, hfetch, hitems, htotal⟩ := step_fetchNextPage hstart
  · exact absurd rfl (hstart.ended_iff.mp hend).1
  · obtain ⟨hloaded, hfull⟩ := tracked_fetch hstart hitems htotal
    have hrows := hfull.mpr (by simp [LinksPage.Full])
    simp only [LinksPage.Full, hlinks, List.nil_append, List.length_singleton] at hrows
    obtain ⟨row, hrow⟩ := List.exists_mem_of_length_pos (Nat.lt_of_lt_of_le (by decide) hrows)
    obtain ⟨s', hremove⟩ := exists_step_remove (p := exampleProject) hrow
    have hscrolls := hall _ _ hp [.fetchNextPage, .remove row.id] s'
      (exec_cons.mpr ⟨_, hfetch, exec_cons.mpr ⟨_, hremove, rfl⟩⟩)
    obtain ⟨hremoved, hfull'⟩ := tracked_step hloaded hremove
    have hlate := (hfull'.mp (hremoved.scrolls_iff.mp hscrolls)).2
    simp only [RemovesAtEnd, hlinks, List.nil_append, List.length_singleton] at hlate
    exact absurd hlate (by decide)

end LinkBulker.Web
