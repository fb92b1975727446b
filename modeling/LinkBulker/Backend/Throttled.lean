import LinkBulker.Backend.Losses
import LinkBulker.Foundations.Thinned
import LinkBulker.Web.ProjectStream
import LinkBulker.Worker.ProgressPublisher
import LinkBulker.Worker.ProjectChannel

/-! The backend with the throttle of its worker processes: how far apart the `progress` events of a
project come, and that a page shows what it would show without the throttle. -/

namespace LinkBulker.Backend

open Foundations Db Shared SingleLink Worker Web
open ProjectLock (Act Check)
open ProjectChannel (channel projectIdOf)

variable {newURL : UrlParser}

/-- A `progress` event as it comes to `publish` of a process: for which project and when, whether
it goes out, and, beside the event, whether Redis then fails. -/
abbrev Offer := Throttle.Offer (ℕ × ProjectId) ℤ (ProgressEvent × Bool)

structure Throttled (newURL : UrlParser) extends backend : State newURL where
  publishers : ℕ → ProgressPublisher := fun _ => {}
  offers : List Offer := []

namespace Throttled

def start (db : Database) (locks : String → LockManager.Key) (clock : ℤ) : Throttled newURL where
  backend := .start db locks clock

def checkPublishes : Check → Act → Option ProgressEvent
  | .manual h, .manual (.main _) =>
    match h.pc with
    | .publishProgress .. => h.mainTold
    | _ => none
  | .sheets (.body r), .sheets (.main t) =>
    match r.pc with
    | .publishProgress .. => r.mainTold t.now
    | _ => none
  | _, _ => none

def publishes (s : Throttled newURL) : Label newURL → Option (ℕ × ProgressEvent)
  | .dispatch (.work i a) => ((s.checks[i]?).bind fun c => checkPublishes c a).map (i, ·)
  | _ => none

def offered (process : ℕ) (now : ℤ) (event : ProgressEvent) (passed lost : Bool) : List Offer :=
  match event with
  | .progress projectId _ => [⟨(process, projectId), now, (event, lost), passed⟩]
  | _ => []

/-- The `i`-th bulk job runs in the process `replica i`.  An event that is held back is one whose
publish does nothing. -/
def step (replica : ℕ → ℕ) (clock : Sheets.LocalClock) (s : Throttled newURL) (l : Label newURL) :
    Option (Throttled newURL) :=
  match s.publishes l with
  | none => (Backend.step clock s.backend l).map fun s' => { s with backend := s' }
  | some (i, event) =>
    let now := l.now s.world.clock
    let r := (s.publishers (replica i)).publish now event
    (Backend.step clock s.backend (if r.2 then l else l.losing true)).map fun s' => { s with
      backend := s'
      publishers := Function.update s.publishers (replica i) r.1
      offers := s.offers ++ offered (replica i) now event r.2 l.lost }

variable {clock : Sheets.LocalClock} {replica : ℕ → ℕ} {db : Database}
  {locks : String → LockManager.Key} {time : ℤ} {l : Label newURL} {labels : List (Label newURL)}
  {s s' : Throttled newURL} {event : ProgressEvent} {c : Check} {a : Act} {i : ℕ}

theorem told_of_checkPublishes (h : checkPublishes c a = some event) : c.told a = some event := by
  cases c with
  | manual h' =>
    cases a with
    | manual a =>
      cases a with
      | main t =>
        simp only [checkPublishes] at h
        split at h
        · exact h
        · cases h
      | child k t | beat t => cases h
    | sheets a => cases h
  | sheets c =>
    cases c with
    | body r =>
      cases a with
      | manual a => cases h
      | sheets a =>
        cases a with
        | main t =>
          simp only [checkPublishes] at h
          split at h
          · exact h
          · cases h
        | child k t | beat t => cases h
    | find sheetsTaskId | missing => cases h

theorem told_of_publishes (h : s.publishes l = some (i, event)) : s.told l = some event := by
  cases l with
  | dispatch l =>
    cases l with
    | work j a =>
      obtain ⟨e, he, hpair⟩ := Option.map_eq_some_iff.mp h
      cases hpair
      obtain ⟨c, hc, he⟩ := Option.bind_eq_some_iff.mp he
      exact Option.bind_eq_some_iff.mpr ⟨c, hc, told_of_checkPublishes he⟩
    | _ => cases h
  | _ => cases h

theorem processOne_told {p : ProcessOne} (h : p.told = some event) : isProgress event = false := by
  unfold ProcessOne.told at h
  split at h <;> cases h <;> rfl

theorem batch_told {b : Batch} {k : ℕ} (h : b.told k = some event) : isProgress event = false := by
  obtain ⟨p, -, hp⟩ := Option.bind_eq_some_iff.mp h
  exact processOne_told hp

theorem checkPublishes_of_told (h : c.told a = some event) (hprogress : isProgress event) :
    checkPublishes c a = some event := by
  cases c with
  | manual h' =>
    cases a with
    | manual a =>
      cases a with
      | main t =>
        have h : h'.mainTold = some event := h
        simp only [checkPublishes]
        cases hpc : h'.pc with
        | publishProgress i counts => exact h
        | publishLocked | publishDone final | publishUnlocked =>
          rw [ManualCheck.Handle.mainTold, hpc] at h
          cases h
          cases hprogress
        | _ =>
          rw [ManualCheck.Handle.mainTold, hpc] at h
          cases h
      | child k t =>
        rw [batch_told h] at hprogress
        cases hprogress
      | beat t => cases h
    | sheets a => cases h
  | sheets c =>
    cases c with
    | body r =>
      cases a with
      | manual a => cases h
      | sheets a =>
        cases a with
        | main t =>
          have h : r.mainTold t.now = some event := h
          unfold Sheets.Run.mainTold at h
          split at h <;> cases h <;> cases hprogress
        | child k t =>
          rw [batch_told h] at hprogress
          cases hprogress
        | beat t => cases h
    | find sheetsTaskId | missing => cases a <;> cases h

theorem publishes_of_told (h : s.told l = some event) (hprogress : isProgress event) :
    ∃ i, s.publishes l = some (i, event) := by
  cases l with
  | dispatch l =>
    cases l with
    | work i a =>
      obtain ⟨c, hc, htold⟩ := Option.bind_eq_some_iff.mp h
      refine ⟨i, Option.map_eq_some_iff.mpr ⟨event, ?_, rfl⟩⟩
      exact Option.bind_eq_some_iff.mpr ⟨c, hc, checkPublishes_of_told htold hprogress⟩
    | check j t =>
      obtain ⟨p, -, htold⟩ := Option.bind_eq_some_iff.mp h
      rw [processOne_told htold] at hprogress
      cases hprogress
    | _ => cases h
  | _ => cases h

theorem step_eq_some (hs : step replica clock s l = some s') :
    (s.publishes l = none ∧ Backend.step clock s.backend l = some s'.backend ∧
      s'.publishers = s.publishers ∧ s'.offers = s.offers) ∨
    ∃ i event, s.publishes l = some (i, event) ∧
      let r := (s.publishers (replica i)).publish (l.now s.world.clock) event
      Backend.step clock s.backend (if r.2 then l else l.losing true) = some s'.backend ∧
        s'.publishers = Function.update s.publishers (replica i) r.1 ∧
        s'.offers = s.offers ++ offered (replica i) (l.now s.world.clock) event r.2 l.lost := by
  unfold step at hs
  split at hs
  · rename_i hnone
    obtain ⟨t, ht, rfl⟩ := Option.map_eq_some_iff.mp hs
    exact .inl ⟨hnone, ht, rfl, rfl⟩
  · rename_i i event hsome
    obtain ⟨t, ht, rfl⟩ := Option.map_eq_some_iff.mp hs
    exact .inr ⟨i, event, hsome, ht, rfl, rfl⟩

def memory (s : Throttled newURL) (key : ℕ × ProjectId) : Option ℤ :=
  (s.publishers key.1).progressThrottle key.2

def sent (o : Offer) : Bool := o.passed && !o.value.2

structure Recorded (s : Throttled newURL) : Prop where
  remembers : Throttle.Remembers LIMITS.SSE_THROTTLE_MS 0 s.memory s.offers
  sent : s.world.published.filter isProgress = (s.offers.filter sent).map fun o => o.value.1

theorem Recorded.start : Recorded (start db locks time : Throttled newURL) := ⟨.start, rfl⟩

theorem memory_publish (j : ℕ) (projectId : ProjectId) (counts : ProgressCounts) (now : ℤ) :
    let r := (s.publishers j).publish now (.progress projectId counts)
    Throttle.gate LIMITS.SSE_THROTTLE_MS 0 s.memory (j, projectId) now =
      (fun key => (Function.update s.publishers j r.1 key.1).progressThrottle key.2, r.2) := by
  rw [publish_progress]
  refine (Throttle.gate_prod (fun j => (s.publishers j).progressThrottle) j projectId now).trans ?_
  dsimp only
  congr 1
  funext ⟨k, q⟩
  by_cases hk : k = j
  · rw [hk, Function.update_self, Function.update_self]
  · rw [Function.update_of_ne hk, Function.update_of_ne hk]

theorem published_of_publishes {t : State newURL} (h : s.publishes l = some (i, event)) (passed : Bool)
    (ht : Backend.step clock s.backend (if passed then l else l.losing true) = some t) :
    t.world.published = s.world.published ++ if passed && !l.lost then [event] else [] := by
  have htold := told_of_publishes h
  cases passed with
  | false =>
    rw [step_published ht, if_neg Bool.false_ne_true, lost_losing (by rw [htold]; rfl), if_pos rfl]
    rfl
  | true =>
    rw [step_published ht, if_pos rfl, htold]
    cases l.lost <;> rfl

theorem Recorded.step (h : Recorded s) (hs : Throttled.step replica clock s l = some s') :
    Recorded s' := by
  obtain ⟨hnone, ht, hpublishers, hoffers⟩ | ⟨i, event, hsome, ht, hpublishers, hoffers⟩ :=
    step_eq_some hs
  · have hmemory : s'.memory = s.memory := by
      unfold memory
      rw [hpublishers]
    have hquiet : (if l.lost then [] else (s.told l).toList).filter isProgress = [] := by
      rw [List.filter_eq_nil_iff]
      intro e he hprogress
      split at he
      · cases he
      · obtain ⟨i, hi⟩ := publishes_of_told (Option.mem_toList.mp he) hprogress
        rw [hnone] at hi
        cases hi
    refine ⟨?_, ?_⟩
    · rw [hoffers, hmemory]
      exact h.remembers
    · rw [hoffers, step_published ht, List.filter_append, hquiet, List.append_nil, h.sent]
  · have hpublished := published_of_publishes hsome _ ht
    by_cases hprogress : isProgress event
    · cases event with
      | progress projectId counts =>
        have hgate := memory_publish (s := s) (replica i) projectId counts (l.now s.world.clock)
        have hmemory : s'.memory = (Throttle.gate LIMITS.SSE_THROTTLE_MS 0 s.memory
            (replica i, projectId) (l.now s.world.clock)).1 := by
          rw [hgate]
          unfold memory
          rw [hpublishers]
        refine ⟨?_, ?_⟩
        · rw [hmemory, hoffers]
          have hnext := h.remembers.gate (replica i, projectId) (l.now s.world.clock)
            (ProgressEvent.progress projectId counts, l.lost)
          rw [hgate] at hnext ⊢
          exact hnext
        · rw [hpublished, hoffers, List.filter_append, List.filter_append, List.map_append, h.sent]
          congr 1
          generalize ((s.publishers (replica i)).publish _ _).2 = passed
          cases passed <;> cases l.lost <;> rfl
      | _ => cases hprogress
    · have hpublish : (s.publishers (replica i)).publish (l.now s.world.clock) event =
          (s.publishers (replica i), true) := publish_other (Bool.eq_false_iff.mpr hprogress)
      have hmemory : s'.memory = s.memory := by
        unfold memory
        rw [hpublishers, hpublish, Function.update_eq_self]
      have hnone : offered (replica i) (l.now s.world.clock) event true l.lost = [] := by
        cases event with
        | progress projectId counts => exact absurd rfl hprogress
        | _ => rfl
      have hquiet : (if !l.lost then [event] else []).filter isProgress = [] := by
        cases l.lost with
        | true => rfl
        | false => simp [hprogress]
      rw [hpublish] at hpublished hoffers
      rw [hnone, List.append_nil] at hoffers
      refine ⟨?_, ?_⟩
      · rw [hmemory, hoffers]
        exact h.remembers
      · rw [hpublished, Bool.true_and, List.filter_append, hquiet, List.append_nil, hoffers, h.sent]

theorem recorded_of_exec
    (hr : exec (Throttled.step replica clock) (start db locks time) labels = some s) : Recorded s :=
  exec_invariant (fun _ _ _ h hs => Recorded.step h hs) Recorded.start hr

/-- Of the `progress` events that come to the publisher of a process, those of one project that go
out lie at least 500 ms apart, those held back come less than 500 ms after the last one that went out,
and the ones on the channels are just those that went out and that Redis took. -/
theorem progress_events_throttled
    (hr : exec (Throttled.step replica clock) (start db locks time) labels = some s) :
    (∀ key, (Throttle.times key s.offers).Pairwise fun t t' => t + 500 ≤ t') ∧
    (∀ before o after, s.offers = before ++ o :: after → o.passed = false →
      o.time < Throttle.last 0 o.key before + 500) ∧
    s.world.published.filter isProgress = (s.offers.filter sent).map fun o => o.value.1 := by
  have h := recorded_of_exec hr
  refine ⟨fun key => h.remembers.ruled.spaced (by decide) key, fun before o after hoffers ho => ?_,
    h.sent⟩
  exact h.remembers.ruled.dropped hoffers ho

section Examples

def failedCheck (i : ℕ) (now : ℤ) : List (Label Crawler.exampleURL) :=
  .dispatch (.ask (.startManualCheck "u" "p")) :: (Dispatch.serves i 4 now).map .dispatch ++
    .dispatch .takeManual :: (List.replicate 4 (.dispatch (.work i (.manual (.main
      { now, token := "t" }))))) ++
    List.replicate 6 (.dispatch (.work i (.manual (.child 0 { now })))) ++
    List.replicate 9 (.dispatch (.work i (.manual (.main { now }))))

def failedTwice : List (Label Crawler.exampleURL) := failedCheck 0 100000 ++ failedCheck 1 100400

abbrev run (labels : List (Label Crawler.exampleURL)) : Option (Throttled Crawler.exampleURL) :=
  exec (Throttled.step (fun _ => 0) Sheets.exampleClock) (start twoUsers (fun _ => none) 0) labels

theorem progress_events_throttled_sample : ∃ s, run failedTwice = some s ∧
    s.offers.map Throttle.Offer.passed = [true, false] ∧
    (s.world.published.filter isProgress).length = 1 ∧
    (Throttle.times (0, "p") s.offers).Pairwise fun t t' => t + 500 ≤ t' := by
  obtain ⟨s, hs, hpassed, hlen⟩ := exists_of_any
    (P := fun s : Throttled _ => s.offers.map Throttle.Offer.passed = [true, false] ∧
      (s.world.published.filter isProgress).length = 1)
    (s := run failedTwice) (by decide +kernel)
  exact ⟨s, hs, hpassed, hlen, (progress_events_throttled hs).1 (0, "p")⟩

end Examples

/-- Beside a run of the backend that holds nothing back, the same rows and queues, and of the events
on the channels only some `progress` is missing. -/
theorem exists_unthrottled
    (hr : exec (Throttled.step replica clock) (start db locks time) labels = some s) :
    ∃ s₀, exec (Backend.step clock) (.start db locks time) labels = some s₀ ∧
      s₀ = s.backend.say s₀.world.published ∧
      Thinned (fun e => isProgress e) s.world.published s₀.world.published := by
  refine exec_history (P := fun labels s => ∃ s₀,
    exec (Backend.step clock) (.start db locks time) labels = some s₀ ∧
      s₀ = s.backend.say s₀.world.published ∧
      Thinned (fun e => isProgress e) s.world.published s₀.world.published) ?_ ?_ hr
  · exact ⟨_, rfl, rfl, .nil⟩
  · intro as s a s' ⟨s₀, hr₀, hsame, hthinned⟩ hs
    obtain ⟨hnone, ht, -, -⟩ | ⟨i, event, hsome, ht, -, -⟩ := step_eq_some hs
    · have hstep := step_say clock s.backend a s₀.world.published a.lost
      rw [Label.losing_lost, ht, Option.map_some, ← hsame] at hstep
      refine ⟨_, exec_concat.mpr ⟨s₀, hr₀, hstep⟩, rfl, ?_⟩
      rw [step_published ht]
      exact hthinned.append (.refl _)
    · have hpublished := published_of_publishes hsome _ ht
      have hheld (hheld : ((s.publishers (replica i)).publish (a.now s.world.clock) event).2 = false) :
          isProgress event := by
        by_contra hother
        rw [publish_other (Bool.eq_false_iff.mpr hother)] at hheld
        cases hheld
      generalize ((s.publishers (replica i)).publish (a.now s.world.clock) event).2 = passed at *
      have hstep := step_say clock s.backend (if passed then a else a.losing true)
        s₀.world.published a.lost
      have hlosing : (if passed then a else a.losing true).losing a.lost = a := by
        cases passed with
        | true => exact a.losing_lost
        | false => exact (a.losing_losing true a.lost).trans a.losing_lost
      have htold : s.told (if passed then a else a.losing true) = some event := by
        cases passed with
        | true => exact told_of_publishes hsome
        | false => exact (told_losing ..).trans (told_of_publishes hsome)
      rw [hlosing, ht, htold, Option.map_some, ← hsame] at hstep
      refine ⟨_, exec_concat.mpr ⟨s₀, hr₀, hstep⟩, rfl, ?_⟩
      rw [hpublished]
      refine hthinned.append ?_
      cases passed with
      | true => cases a.lost <;> exact .refl _
      | false =>
        cases a.lost with
        | true => exact .nil
        | false => exact .drop (hheld rfl) .nil

section Pages

def besides (c : Client) : Client := { c with progress := none }

theorem besides_progress (c : Client) (e : ProgressEvent) (h : isProgress e) :
    besides (applyEvent c e) = besides c := by
  cases e with
  | progress projectId counts => rfl
  | _ => cases h

theorem besides_applyEvent (c c' : Client) (e : ProgressEvent) (h : besides c = besides c') :
    besides (applyEvent c e) = besides (applyEvent c' e) := by
  obtain ⟨links, project, sheetsTasks, progress, sheetsProgress, invalidated⟩ := c
  obtain ⟨links', project', sheetsTasks', progress', sheetsProgress', invalidated'⟩ := c'
  simp only [besides, Client.mk.injEq, true_and] at h
  obtain ⟨rfl, rfl, rfl, rfl, rfl⟩ := h
  cases e with
  | lock_changed projectId manualChecking => cases manualChecking <;> rfl
  | sheets_task_updated sheetsTaskId projectId status lastRunAt lastRunStatus => cases status <;> rfl
  | _ => rfl

theorem page_eq_of_done {c : Client} {xs before after : List ProgressEvent} {projectId : ProjectId}
    {total found errors : ℕ}
    (h : Thinned (fun e => isProgress e) xs (before ++ .done projectId total found errors :: after))
    (hafter : ∀ e ∈ after, isProgress e = false) :
    xs.foldl applyEvent c =
      (before ++ .done projectId total found errors :: after).foldl applyEvent c := by
  obtain ⟨before', after', rfl, hbefore, hrest⟩ := h.split (by simp [isProgress])
  obtain rfl := hrest.eq_of_forall fun e he => by simp [hafter e he]
  rw [List.foldl_append, List.foldl_append, List.foldl_cons, List.foldl_cons]
  congr 1
  have hsame := hbefore.foldl_eq (fun c e he => besides_progress c e he) besides_applyEvent
    (rfl : besides c = besides c)
  exact congrArg (fun c : Client => { c with progress := some ⟨total, total, found, errors⟩ }) hsame

/-- The same run without the throttle ends with the same rows, queues and answers, and a page that has
followed its project shows the same but for the progress bar of the manual check; after the `done` of
a check, up to the first `progress` of the next one, that is the same, too. -/
theorem throttle_keeps_pages
    (hr : exec (Throttled.step replica clock) (start db locks time) labels = some s) :
    ∃ s₀, exec (Backend.step clock) (.start db locks time) labels = some s₀ ∧
      s₀.say [] = s.backend.say [] ∧
      ∀ (projectId : ProjectId) (c : Client),
        besides ((channel s.world projectId).foldl applyEvent c) =
          besides ((channel s₀.world projectId).foldl applyEvent c) ∧
        ∀ before total found errors after,
          channel s₀.world projectId = before ++ .done projectId total found errors :: after →
            (∀ e ∈ after, isProgress e = false) →
              (channel s.world projectId).foldl applyEvent c =
                (channel s₀.world projectId).foldl applyEvent c := by
  obtain ⟨s₀, hr₀, hsame, hthinned⟩ := exists_unthrottled hr
  refine ⟨s₀, hr₀, by rw [hsame]; rfl, fun projectId c => ?_⟩
  have hchannel := hthinned.filter fun e => projectIdOf e = projectId
  refine ⟨hchannel.foldl_eq (fun c e he => besides_progress c e he) besides_applyEvent rfl, ?_⟩
  intro before total found errors after hsplit hafter
  rw [hsplit]
  have hthin : Thinned (fun e => isProgress e) (channel s.world projectId)
      (channel s₀.world projectId) := hchannel
  exact page_eq_of_done (hsplit ▸ hthin) hafter

theorem throttle_keeps_pages_sample : ∃ s s₀, run failedTwice = some s ∧
    Backend.run begun failedTwice = some s₀ ∧
    (channel s.world "p").length + 1 = (channel s₀.world "p").length ∧
    ∀ c : Client, besides ((channel s.world "p").foldl applyEvent c) =
      besides ((channel s₀.world "p").foldl applyEvent c) := by
  obtain ⟨s, hs, hlen⟩ := exists_of_any (P := fun s : Throttled _ => (channel s.world "p").length = 11)
    (s := run failedTwice) (by decide +kernel)
  obtain ⟨s₀, hs₀, hlen₀⟩ := exists_of_any (P := fun s : State _ => (channel s.world "p").length = 12)
    (s := Backend.run begun failedTwice) (by decide +kernel)
  obtain ⟨s₁, hs₁, -, hpages⟩ := throttle_keeps_pages hs
  obtain rfl := Option.some.inj (hs₀.symm.trans hs₁)
  exact ⟨s, s₀, hs, hs₀, by rw [hlen, hlen₀], fun c => (hpages "p" c).1⟩

end Pages

end Throttled

end LinkBulker.Backend
