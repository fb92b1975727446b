import LinkBulker.Worker.Alike
import LinkBulker.Worker.ManualCheck

/-! Calls of `processOne` and of `ManualCheckProcessor.handle` that run side by side over databases
that are alike: while their checks have the same facts, they publish the same. -/

namespace LinkBulker.SingleLink

open Foundations Db Shared Crawler LinkRepository

structure World.Alike (w w' : World) : Prop where
  db : w.db.Alike w'.db
  locks : w.locks = w'.locks
  clock : w.clock = w'.clock
  published : w.published = w'.published

@[mk_iff]
structure Turn.Alike (t t' : Turn) : Prop where
  now : t.now = t'.now
  rejects : t.rejects = t'.rejects
  lost : t.lost = t'.lost
  token : t.token = t'.token

instance (t t' : Turn) : Decidable (t.Alike t') := decidable_of_iff' _ (Turn.alike_iff t t')

inductive Pc.Alike : Pc → Pc → Prop
  | findById : Alike .findById .findById
  | markStatus {link link' : Link} (h : link.Alike link') :
    Alike (.markStatus link) (.markStatus link')
  | publishChecking {link link' : Link} (h : link.Alike link') :
    Alike (.publishChecking link) (.publishChecking link')
  | crawl {link link' : Link} (h : link.Alike link') : Alike (.crawl link) (.crawl link')
  | saveResult {link link' : Link} {result result' : CrawlAndAnalyzeResult} {now : ℤ}
    (h : link.Alike link') (hfacts : result.facts = result'.facts) :
    Alike (.saveResult link result now) (.saveResult link' result' now)
  | publishSaved {link link' saved saved' : Link} (h : link.Alike link')
    (hsaved : saved.SameCheck saved') :
    Alike (.publishSaved link saved) (.publishSaved link' saved')
  | resolved : Alike .resolved .resolved
  | rejected : Alike .rejected .rejected

theorem Pc.Alike.rejected_iff {pc pc' : Pc} (h : pc.Alike pc') :
    pc = .rejected ↔ pc' = .rejected := by
  cases h <;> simp

theorem Pc.Alike.resolved_iff {pc pc' : Pc} (h : pc.Alike pc') :
    pc = .resolved ↔ pc' = .resolved := by
  cases h <;> simp

structure ProcessOne.Alike (p p' : ProcessOne) : Prop where
  linkId : p.linkId = p'.linkId
  pc : p.pc.Alike p'.pc

def ProcessOne.crawling (p : ProcessOne) : Option Link :=
  match p.pc with
  | .crawl link => some link
  | _ => none

def resultOf (newURL : UrlParser) (link : Link) (t : Turn) : CrawlAndAnalyzeResult :=
  crawlAndAnalyze newURL link.donorUrl link.acceptorRaw t.run t.durationMs

def ProcessOne.SameFacts (newURL : UrlParser) (p p' : ProcessOne) (t t' : Turn) : Prop :=
  ∀ link ∈ p.crawling, ∀ link' ∈ p'.crawling,
    (resultOf newURL link t).facts = (resultOf newURL link' t').facts

variable {newURL : UrlParser} {w w' : World} {p p' : ProcessOne} {t t' : Turn}

theorem World.Alike.withDb (hw : w.Alike w') {db db' : Database} (hdb : db.Alike db') :
    World.Alike { w with db } { w' with db := db' } :=
  { hw with db := hdb }

theorem World.Alike.withLocks (hw : w.Alike w') (locks : String → LockManager.Key) :
    World.Alike { w with locks } { w' with locks } :=
  { hw with locks := rfl }

theorem World.Alike.publishNow (hw : w.Alike w') (ht : t.Alike t') (event : ProgressEvent) :
    (w.publishNow t event).Alike (w'.publishNow t' event) := by
  simp only [World.publishNow, ← ht.lost]
  split
  · exact hw
  · exact { hw with published := congrArg (· ++ [event]) hw.published }

theorem checkingEvent_alike {link link' : Link} (h : link.Alike link') (linkId : LinkId) :
    checkingEvent linkId link = checkingEvent linkId link' := by
  unfold checkingEvent
  rw [h.projectId]

theorem savedEvent_alike {link link' saved saved' : Link} (h : link.Alike link')
    (hsaved : saved.SameCheck saved') (linkId : LinkId) :
    savedEvent linkId link saved = savedEvent linkId link' saved' := by
  unfold savedEvent
  rw [h.projectId, hsaved.status, hsaved.linkFound, hsaved.occurrencesCount,
    hsaved.donorStatusCode, hsaved.error, hsaved.lastCheckedAt]

theorem ProcessOne.move_alike (hw : w.Alike w') (hp : p.Alike p') (ht : t.Alike t')
    (hfacts : p.SameFacts newURL p' t t') :
    Option.Rel (Pool.Both World.Alike ProcessOne.Alike) (p.move newURL w t)
      (p'.move newURL w' t') := by
  obtain ⟨linkId, pc⟩ := p
  obtain ⟨linkId', pc'⟩ := p'
  obtain ⟨rfl, hpc⟩ := hp
  cases hpc with
  | findById =>
    simp only [move, ← ht.rejects]
    refine rel_ite (fun _ => .some ⟨hw, rfl, .rejected⟩) fun _ => ?_
    obtain ⟨hl, hl'⟩ | ⟨link, link', hl, hl', h⟩ := rel_cases (findById_alike hw.db linkId)
    · rw [hl, hl']
      exact .some ⟨hw, rfl, .resolved⟩
    · rw [hl, hl']
      exact .some ⟨hw, rfl, .markStatus h⟩
  | markStatus h =>
    simp only [move, ← ht.rejects]
    refine rel_ite (fun _ => .some ⟨hw, rfl, .rejected⟩) fun _ => ?_
    obtain ⟨hdb, hdb'⟩ | ⟨db, db', hdb, hdb', hd⟩ :=
      rel_cases (markStatus_alike hw.db linkId .CHECKING)
    · rw [hdb, hdb']
      exact .some ⟨hw, rfl, .rejected⟩
    · rw [hdb, hdb']
      exact .some ⟨hw.withDb hd, rfl, .publishChecking h⟩
  | publishChecking h =>
    simp only [move, checkingEvent_alike h]
    exact .some ⟨hw.publishNow ht _, rfl, .crawl h⟩
  | @crawl link link' h =>
    simp only [move, ← ht.now]
    exact .some ⟨{ hw with }, rfl, .saveResult h (hfacts link rfl link' rfl)⟩
  | saveResult h hresult =>
    simp only [move, ← ht.rejects]
    refine rel_ite (fun _ => .some ⟨hw, rfl, .rejected⟩) fun _ => ?_
    obtain ⟨hdb, hdb'⟩ | ⟨r, r', hdb, hdb', hsaved, hd⟩ :=
      rel_cases (saveResult_alike hw.db rfl (congrArg Facts.ok hresult)
        (congrArg Facts.linkFound hresult) (saveResultData_sameCheck hresult))
    · rw [hdb, hdb']
      exact .some ⟨hw, rfl, .rejected⟩
    · rw [hdb, hdb']
      exact .some ⟨{ hw with db := hd }, rfl, .publishSaved h hsaved⟩
  | publishSaved h hsaved =>
    simp only [move, savedEvent_alike h hsaved]
    exact .some ⟨hw.publishNow ht _, rfl, .resolved⟩
  | resolved => exact .none
  | rejected => exact .none

end LinkBulker.SingleLink

namespace LinkBulker.Worker

open Foundations Db Shared SingleLink

variable {newURL : UrlParser} {w w' : World} {b b' : Batch} {t t' : Turn}

structure Batch.Alike (b b' : Batch) : Prop where
  ids : b.ids = b'.ids
  calls : List.Forall₂ ProcessOne.Alike b.calls b'.calls

theorem Batch.Alike.start (h : b.Alike b') (n i : ℕ) : (b.start n i).Alike (b'.start n i) := by
  refine ⟨h.ids, ?_⟩
  simp only [Batch.start, ← h.ids]
  refine List.rel_append h.calls (List.forall₂_same.mpr fun c hc => ?_)
  obtain ⟨id, -, rfl⟩ := List.mem_map.mp hc
  exact ⟨rfl, .findById⟩

theorem Batch.Alike.all (h : b.Alike b') (i : ℕ) : b.all i = b'.all i := by
  have hcalls := List.forall₂_drop i h.calls
  unfold Batch.all
  rw [any_of_forall₂ hcalls fun c c' hc => decide_eq_decide.mpr hc.pc.rejected_iff,
    all_of_forall₂ hcalls fun c c' hc => decide_eq_decide.mpr hc.pc.resolved_iff]

def Batch.SameFacts (newURL : UrlParser) (b b' : Batch) (k : ℕ) (t t' : Turn) : Prop :=
  ∀ p ∈ b.calls[k]?, ∀ p' ∈ b'.calls[k]?, p.SameFacts newURL p' t t'

theorem Batch.move_alike (hw : w.Alike w') (hb : b.Alike b') {k : ℕ} (ht : t.Alike t')
    (hfacts : b.SameFacts newURL b' k t t') :
    Option.Rel (Pool.Both World.Alike Batch.Alike) (b.move newURL w k t)
      (b'.move newURL w' k t') := by
  have hstep := Pool.step_related hb.calls fun p p' hp hp' hR =>
    p.move_alike hw hR ht (hfacts p hp p' hp')
  refine rel_map hstep ?_
  rintro ⟨w₁, calls⟩ ⟨w₁', calls'⟩ ⟨hw, hcalls⟩
  exact ⟨hw, hb.ids, hcalls⟩

end LinkBulker.Worker

namespace LinkBulker.ManualCheck

open Foundations Db Shared LinkRepository SingleLink Worker

structure Handle.Alike (h h' : Handle) : Prop where
  job : h.job = h'.job
  pc : h.pc = h'.pc
  lock : h.lock = h'.lock
  heartbeat : h.heartbeat = h'.heartbeat
  batch : h.batch.Alike h'.batch

variable {newURL : UrlParser} {w w' : World} {h h' : Handle} {t t' : Turn}

theorem Handle.Alike.loop (hh : h.Alike h') (i : ℕ) : (h.loop i).Alike (h'.loop i) := by
  obtain ⟨job, pc, lock, heartbeat, batch, threw⟩ := h
  obtain ⟨_, _, _, _, batch', threw'⟩ := h'
  obtain ⟨rfl, rfl, rfl, rfl, hb⟩ := hh
  simp only [Handle.loop]
  split
  · exact ⟨rfl, rfl, rfl, rfl, hb.start _ _⟩
  · exact ⟨rfl, rfl, rfl, rfl, hb⟩

theorem Handle.main_alike (hw : w.Alike w') (hh : h.Alike h') (ht : t.Alike t') :
    Option.Rel (Pool.Both World.Alike Handle.Alike) (h.main w t) (h'.main w' t') := by
  have hloop := hh.loop
  obtain ⟨job, pc, lock, heartbeat, batch, threw⟩ := h
  obtain ⟨_, _, _, _, batch', threw'⟩ := h'
  obtain ⟨rfl, rfl, rfl, rfl, hb⟩ := hh
  have step {w₁ w₁' : World} (hw : w₁.Alike w₁') (pc : Pc) (lock : Option LockManager.Lock)
      (heartbeat threw₁ threw₁' : Bool) :
      Option.Rel (Pool.Both World.Alike Handle.Alike)
        (some (w₁, ⟨job, pc, lock, heartbeat, batch, threw₁⟩))
        (some (w₁', ⟨job, pc, lock, heartbeat, batch', threw₁'⟩)) :=
    .some ⟨hw, rfl, rfl, rfl, rfl, hb⟩
  cases pc with
  | acquire =>
    simp only [main, lockKey, ← ht.rejects, ← hw.locks, ← ht.now, ← ht.token]
    refine rel_ite (fun _ => step hw ..) fun _ => ?_
    cases LockManager.acquire (w.locks (REDIS_KEYS.projectManualLock job.projectId)) t.now
        ⟨t.token, PROJECT_LOCK_TTL_MS⟩ with
    | mk lock key =>
      cases lock with
      | none => exact step hw ..
      | some lock => exact .some ⟨{ hw with locks := rfl }, rfl, rfl, rfl, rfl, hb⟩
  | setFlag =>
    simp only [main, ← ht.rejects]
    refine rel_ite (fun _ => step hw ..) fun _ => ?_
    obtain ⟨hdb, hdb'⟩ | ⟨db, db', hdb, hdb', hd⟩ :=
      rel_cases (setProjectManualChecking_alike hw.db job.projectId true)
    · rw [hdb, hdb']
      exact step hw ..
    · rw [hdb, hdb']
      exact step (hw.withDb hd) ..
  | publishLocked | publishDone final | publishUnlocked => exact step (hw.publishNow ht _) ..
  | markQueued =>
    simp only [main, ← ht.rejects]
    refine rel_ite (fun _ => step hw ..) fun _ => ?_
    exact .some ⟨hw.withDb (markManyStatus_alike hw.db _ _), hloop 0⟩
  | awaitAll i =>
    simp only [main, ← hb.all i]
    cases batch.all i with
    | none => exact .none
    | some ok => cases ok <;> exact step hw ..
  | counts i | finalCounts =>
    simp only [main, ← ht.rejects, ← getProgressCounts_alike hw.db]
    exact rel_ite (fun _ => step hw ..) fun _ => step hw ..
  | publishProgress i counts => exact step (hw.publishNow ht _) ..
  | updateProgress i =>
    simp only [main, ← ht.rejects]
    exact rel_ite (fun _ => step hw ..) fun _ => .some ⟨hw, hloop _⟩
  | clearFlag =>
    simp only [main, ← ht.rejects]
    refine rel_ite (fun _ => step hw ..) fun _ => ?_
    obtain ⟨hdb, hdb'⟩ | ⟨db, db', hdb, hdb', hd⟩ :=
      rel_cases (setProjectManualChecking_alike hw.db job.projectId false)
    · rw [hdb, hdb']
      exact step hw ..
    · rw [hdb, hdb']
      exact step (hw.withDb hd) ..
  | release =>
    cases lock with
    | none => exact .none
    | some lock =>
      simp only [main, lockKey, ← ht.rejects, ← hw.locks, ← ht.now]
      exact rel_ite (fun _ => step hw ..) fun _ => step (hw.withLocks _) ..
  | ended | skipped => exact .none

theorem Handle.beat_alike (hw : w.Alike w') (hh : h.Alike h') (ht : t.Alike t') :
    Option.Rel (Pool.Both World.Alike Handle.Alike) (h.beat w t) (h'.beat w' t') := by
  obtain ⟨job, pc, lock, heartbeat, batch, threw⟩ := h
  obtain ⟨_, _, _, _, batch', threw'⟩ := h'
  obtain ⟨rfl, rfl, rfl, rfl, hb⟩ := hh
  cases heartbeat with
  | false => exact .none
  | true =>
    cases lock with
    | none => exact .none
    | some lock =>
      simp only [beat, lockKey, ← ht.rejects, ← hw.locks, ← ht.now]
      exact rel_ite (fun _ => .some ⟨hw, rfl, rfl, rfl, rfl, hb⟩)
        fun _ => .some ⟨hw.withLocks _, rfl, rfl, rfl, rfl, hb⟩

theorem Handle.child_alike (hw : w.Alike w') (hh : h.Alike h') {k : ℕ} (ht : t.Alike t')
    (hfacts : h.batch.SameFacts newURL h'.batch k t t') :
    Option.Rel (Pool.Both World.Alike Handle.Alike) (h.move newURL w (.child k t))
      (h'.move newURL w' (.child k t')) := by
  refine rel_map (Batch.move_alike hw hh.batch ht hfacts) ?_
  rintro ⟨w₁, b⟩ ⟨w₁', b'⟩ ⟨hw, hb⟩
  exact ⟨hw, { hh with batch := hb }⟩

end LinkBulker.ManualCheck
