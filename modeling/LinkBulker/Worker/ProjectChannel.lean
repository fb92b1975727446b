import LinkBulker.Foundations.TwoRuns
import LinkBulker.Worker.CheckHistory
import LinkBulker.Worker.SheetsAlike
import LinkBulker.Worker.SheetsTaskLaws

/-! Everything that publishes on the channels of the projects, and with it what
`apps/api/src/modules/stream/stream.controller.ts` sends on to any signed-in user. -/

namespace LinkBulker.ProjectChannel

open Foundations Db Shared Crawler SingleLink Worker
open Sheets (LocalClock SheetsTurn Run)
open ManualCheck (Handle)

inductive Job
  | singleLink (linkId : LinkId)
  | manualCheck (job : ManualCheckJobData)
  | sheetsRun (sheetsTaskId : SheetsTaskId)
  deriving DecidableEq

inductive Publisher
  | processOne (p : ProcessOne)
  | manualCheck (h : Handle)
  | sheets (c : Sheets.Call)

def Job.start : Job → Publisher
  | .singleLink linkId => .processOne ⟨linkId, .findById⟩
  | .manualCheck job => .manualCheck { job }
  | .sheetsRun sheetsTaskId => .sheets (.find sheetsTaskId)

inductive Mover
  | main
  | child (k : ℕ)
  | beat
  deriving DecidableEq

structure Answers extends SheetsTurn where
  crawl : CrawlAnswers := .noSlot

def Publisher.call (c : Publisher) (m : Mover) : Option ProcessOne :=
  match c, m with
  | .processOne p, .main => some p
  | .manualCheck h, .child k => h.batch.calls[k]?
  | .sheets (.body r), .child k => r.batch.calls[k]?
  | _, _ => none

def Publisher.crawling (c : Publisher) (m : Mover) : Option Link :=
  (c.call m).bind ProcessOne.crawling

def Publisher.running (c : Publisher) (m : Mover) : Option Run :=
  match c, m with
  | .sheets (.body r), .main => some r
  | _, _ => none

def Answers.turn (newURL : UrlParser) (a : Answers) : Option Link → Turn
  | none => a.toTurn
  | some link =>
    { a.toTurn with run := a.crawl.run (donorHost newURL link.donorUrl) link.donorUrl }

def Publisher.move (newURL : UrlParser) (clock : LocalClock) (w : World) (c : Publisher)
    (x : Mover × Answers) : Option (World × Publisher) :=
  let t := x.2.turn newURL (c.crawling x.1)
  match c, x.1 with
  | .processOne p, .main => (p.move newURL w t).map fun r => (r.1, .processOne r.2)
  | .manualCheck h, .main => (h.move newURL w (.main t)).map fun r => (r.1, .manualCheck r.2)
  | .manualCheck h, .child k =>
    (h.move newURL w (.child k t)).map fun r => (r.1, .manualCheck r.2)
  | .manualCheck h, .beat => (h.move newURL w (.beat t)).map fun r => (r.1, .manualCheck r.2)
  | .sheets c, .main =>
    (c.move newURL clock w (.main x.2.toSheetsTurn)).map fun r => (r.1, .sheets r.2)
  | .sheets c, .child k => (c.move newURL clock w (.child k t)).map fun r => (r.1, .sheets r.2)
  | .sheets c, .beat => (c.move newURL clock w (.beat t)).map fun r => (r.1, .sheets r.2)
  | _, _ => none

abbrev State := World × List Publisher

def start (db : Database) (locks : String → LockManager.Key) (clock : ℤ) : State :=
  ({ db, locks, clock }, [])

inductive Label
  | take (job : Job)
  | move (i : ℕ) (m : Mover) (a : Answers)
  | elsewhere (db : Database)

def step (newURL : UrlParser) (clock : LocalClock) (s : State) : Label → Option State
  | .take job => some (s.1, s.2 ++ [job.start])
  | .move i m a =>
    if s.1.clock ≤ a.now then
      Pool.act (Publisher.move newURL clock) ({ s.1 with clock := a.now }, s.2) (i, m, a)
    else none
  | .elsewhere db => some ({ s.1 with db }, s.2)

def projectIdOf : ProgressEvent → ProjectId
  | .link_updated event => event.projectId
  | .progress projectId _ | .lock_changed projectId _ | .done projectId .. => projectId
  | .sheets_task_updated _ projectId .. | .sheets_task_progress _ projectId _ => projectId

def channel (w : World) (projectId : ProjectId) : List ProgressEvent :=
  w.published.filter fun event => projectIdOf event = projectId

/-- A step of two jobs that are the same but for the texts: the environment answers alike, a check
has the same success facts or the same kind of failure, and so has a step of a sheets run. -/
@[mk_iff]
structure Publisher.SameOutcome (newURL : UrlParser) (c c' : Publisher) (m : Mover)
    (a a' : Answers) : Prop where
  turn : a.toTurn.Alike a'.toTurn
  crawl : ∀ link ∈ c.crawling m, ∀ link' ∈ c'.crawling m,
    outcome newURL link.donorUrl link.acceptorRaw a.crawl =
      outcome newURL link'.donorUrl link'.acceptorRaw a'.crawl
  run : ∀ r ∈ c.running m, ∀ r' ∈ c'.running m,
    r.SameOutcome newURL r' a.toSheetsTurn a'.toSheetsTurn

@[mk_iff]
structure Publisher.SameQuotes (newURL : UrlParser) (c c' : Publisher) (m : Mover)
    (a a' : Answers) : Prop where
  crawl : ∀ link ∈ c.crawling m, ∀ link' ∈ c'.crawling m,
    (outcome newURL link.donorUrl link.acceptorRaw a.crawl).quoted newURL link.donorUrl
        link.acceptorRaw =
      (outcome newURL link'.donorUrl link'.acceptorRaw a'.crawl).quoted newURL link'.donorUrl
        link'.acceptorRaw
  run : ∀ r ∈ c.running m, ∀ r' ∈ c'.running m, r.SameQuote r' a.toSheetsTurn

def SameOutcome (newURL : UrlParser) (s : State × State) : Label × Label → Prop
  | (.take job, .take job') => job = job'
  | (.move i m a, .move i' m' a') => i = i' ∧ m = m' ∧
    ∀ c ∈ s.1.2[i]?, ∀ c' ∈ s.2.2[i]?, c.SameOutcome newURL c' m a a'
  | (.elsewhere db, .elsewhere db') => db.Alike db'
  | _ => False

def SameQuotes (newURL : UrlParser) (s : State × State) : Label × Label → Prop
  | (.move i m a, .move _ _ a') =>
    ∀ c ∈ s.1.2[i]?, ∀ c' ∈ s.2.2[i]?, c.SameQuotes newURL c' m a a'
  | _ => True

instance (newURL : UrlParser) (c c' : Publisher) (m : Mover) (a a' : Answers) :
    Decidable (c.SameOutcome newURL c' m a a') :=
  decidable_of_iff' _ (Publisher.sameOutcome_iff newURL c c' m a a')

instance (newURL : UrlParser) (c c' : Publisher) (m : Mover) (a a' : Answers) :
    Decidable (c.SameQuotes newURL c' m a a') :=
  decidable_of_iff' _ (Publisher.sameQuotes_iff newURL c c' m a a')

instance (newURL : UrlParser) (s : State × State) :
    (l : Label × Label) → Decidable (SameOutcome newURL s l)
  | (.take job, .take job') => inferInstanceAs (Decidable (job = job'))
  | (.move i m a, .move i' m' a') => inferInstanceAs (Decidable (i = i' ∧ m = m' ∧
    ∀ c ∈ s.1.2[i]?, ∀ c' ∈ s.2.2[i]?, c.SameOutcome newURL c' m a a'))
  | (.elsewhere db, .elsewhere db') => inferInstanceAs (Decidable (db.Alike db'))
  | (.take _, .move ..) | (.take _, .elsewhere _) | (.move .., .take _) | (.move .., .elsewhere _)
  | (.elsewhere _, .take _) | (.elsewhere _, .move ..) => .isFalse id

instance (newURL : UrlParser) (s : State × State) :
    (l : Label × Label) → Decidable (SameQuotes newURL s l)
  | (.move i m a, .move _ _ a') => inferInstanceAs (Decidable
    (∀ c ∈ s.1.2[i]?, ∀ c' ∈ s.2.2[i]?, c.SameQuotes newURL c' m a a'))
  | (.take _, _) | (.elsewhere _, _) | (.move .., .take _) | (.move .., .elsewhere _) =>
    .isTrue trivial

inductive Publisher.Alike : Publisher → Publisher → Prop
  | processOne {p p' : ProcessOne} (h : p.Alike p') : Alike (.processOne p) (.processOne p')
  | manualCheck {h h' : Handle} (hh : h.Alike h') : Alike (.manualCheck h) (.manualCheck h')
  | find (sheetsTaskId : SheetsTaskId) :
    Alike (.sheets (.find sheetsTaskId)) (.sheets (.find sheetsTaskId))
  | body {r r' : Run} (hr : r.Alike r') : Alike (.sheets (.body r)) (.sheets (.body r'))
  | missing : Alike (.sheets .missing) (.sheets .missing)

def State.Alike (s s' : State) : Prop := Pool.Both World.Alike (List.Forall₂ Publisher.Alike) s s'

variable {newURL : UrlParser} {clock : LocalClock} {w w' : World} {c c' : Publisher} {m : Mover}
  {a a' : Answers} {s s' s₁ s₁' : State}

theorem turn_alike (h : a.toTurn.Alike a'.toTurn) (o o' : Option Link) :
    (a.turn newURL o).Alike (a'.turn newURL o') := by
  cases o <;> cases o' <;> exact ⟨h.now, h.rejects, h.lost, h.token⟩

theorem sameFacts (hsame : c.SameOutcome newURL c' m a a') (hquotes : c.SameQuotes newURL c' m a a')
    {p p' : ProcessOne} (hp : c.call m = some p) (hp' : c'.call m = some p') :
    p.SameFacts newURL p' (a.turn newURL (c.crawling m)) (a'.turn newURL (c'.crawling m)) := by
  intro link hlink link' hlink'
  have hc : c.crawling m = some link := by rw [Publisher.crawling, hp]; exact hlink
  have hc' : c'.crawling m = some link' := by rw [Publisher.crawling, hp']; exact hlink'
  have houtcome := hsame.crawl link hc link' hc'
  have hquote := hquotes.crawl link hc link' hc'
  rw [houtcome] at hquote
  rw [hc, hc']
  simp only [resultOf, Answers.turn]
  rw [facts_crawlAndAnalyze, facts_crawlAndAnalyze, houtcome]
  exact (Outcome.facts_inj _).mpr hquote

theorem find_alike (hw : w.Alike w') {t t' : SheetsTurn} (ht : t.toTurn.Alike t'.toTurn)
    (id : SheetsTaskId) :
    Option.Rel (Pool.Both World.Alike fun c c' => Publisher.Alike (.sheets c) (.sheets c'))
      ((Sheets.Call.find id).move newURL clock w (.main t))
      ((Sheets.Call.find id).move newURL clock w' (.main t')) := by
  simp only [Sheets.Call.move, ← ht.rejects]
  refine rel_ite (fun _ => .some ⟨hw, .missing⟩) fun _ => ?_
  obtain ⟨h, h'⟩ | ⟨task, task', h, h', htask⟩ :=
    rel_cases (LinkRepository.findSheetsTaskById_alike hw.db id) <;> rw [h, h']
  · exact .some ⟨hw, .missing⟩
  · exact .some ⟨hw, .body ⟨htask, .same _, rfl, rfl, rfl, .nil, .nil, fun _ => rfl, rfl, .nil⟩⟩

theorem body_alike {r r' : Run} {x x' : Sheets.Act}
    (h : Option.Rel (Pool.Both World.Alike Run.Alike) (r.move newURL clock w x)
      (r'.move newURL clock w' x')) :
    Option.Rel (Pool.Both World.Alike fun c c' => Publisher.Alike (.sheets c) (.sheets c'))
      ((Sheets.Call.body r).move newURL clock w x)
      ((Sheets.Call.body r').move newURL clock w' x') :=
  rel_map h fun _ _ ⟨hw, hr⟩ => ⟨hw, .body hr⟩

theorem sheets_alike {o o' : Option (World × Sheets.Call)}
    (h : Option.Rel (Pool.Both World.Alike fun c c' => Publisher.Alike (.sheets c) (.sheets c'))
      o o') :
    Option.Rel (Pool.Both World.Alike Publisher.Alike) (o.map fun r => (r.1, .sheets r.2))
      (o'.map fun r => (r.1, .sheets r.2)) :=
  rel_map h fun _ _ h => h

theorem manualCheck_alike {o o' : Option (World × Handle)}
    (h : Option.Rel (Pool.Both World.Alike Handle.Alike) o o') :
    Option.Rel (Pool.Both World.Alike Publisher.Alike) (o.map fun r => (r.1, .manualCheck r.2))
      (o'.map fun r => (r.1, .manualCheck r.2)) :=
  rel_map h fun _ _ ⟨hw, hh⟩ => ⟨hw, .manualCheck hh⟩

theorem Publisher.move_alike (hw : w.Alike w') (hc : c.Alike c')
    (hsame : c.SameOutcome newURL c' m a a') (hquotes : c.SameQuotes newURL c' m a a') :
    Option.Rel (Pool.Both World.Alike Publisher.Alike) (c.move newURL clock w (m, a))
      (c'.move newURL clock w' (m, a')) := by
  have ht : (a.turn newURL (c.crawling m)).Alike (a'.turn newURL (c'.crawling m)) :=
    turn_alike hsame.turn _ _
  have hfacts {p p' : ProcessOne} (hp : c.call m = some p) (hp' : c'.call m = some p') :
      p.SameFacts newURL p' (a.turn newURL (c.crawling m)) (a'.turn newURL (c'.crawling m)) :=
    sameFacts hsame hquotes hp hp'
  cases hc with
  | @processOne p p' hp =>
    cases m with
    | main =>
      exact rel_map (p.move_alike hw hp ht (hfacts rfl rfl)) fun _ _ ⟨hw, hp⟩ => ⟨hw, .processOne hp⟩
    | child k | beat => exact .none
  | @manualCheck h h' hh =>
    cases m with
    | main => exact manualCheck_alike (h.main_alike hw hh ht)
    | child k =>
      exact manualCheck_alike (Handle.child_alike hw hh ht fun p hp p' hp' => hfacts hp hp')
    | beat => exact manualCheck_alike (h.beat_alike hw hh ht)
  | find id =>
    cases m with
    | main => exact sheets_alike (find_alike hw hsame.turn id)
    | child k | beat => exact .none
  | @body r r' hr =>
    cases m with
    | main =>
      exact sheets_alike (body_alike
        (r.main_alike hw hr (hsame.run r rfl r' rfl) (hquotes.run r rfl r' rfl)))
    | child k =>
      exact sheets_alike (body_alike
        (Run.child_alike hw hr ht fun p hp p' hp' => hfacts hp hp'))
    | beat => exact sheets_alike (body_alike (r.beat_alike hw hr ht))
  | missing => cases m <;> exact .none

theorem State.Alike.step {l l' : Label} (h : State.Alike s s')
    (hsame : SameOutcome newURL (s, s') (l, l')) (hquotes : SameQuotes newURL (s, s') (l, l')) :
    Option.Rel State.Alike (ProjectChannel.step newURL clock s l)
      (ProjectChannel.step newURL clock s' l') := by
  obtain ⟨hw, hcs⟩ := h
  cases l with
  | take job =>
    cases l' with
    | take job' =>
      obtain rfl : job = job' := hsame
      refine .some ⟨hw, List.rel_append hcs (.cons ?_ .nil)⟩
      cases job with
      | singleLink id => exact .processOne ⟨rfl, .findById⟩
      | manualCheck job => exact .manualCheck ⟨rfl, rfl, rfl, rfl, rfl, .nil⟩
      | sheetsRun id => exact .find id
    | move i m a | elsewhere db => exact hsame.elim
  | move i m a =>
    cases l' with
    | move i' m' a' =>
      obtain ⟨rfl, rfl, hsame⟩ := hsame
      obtain ⟨hc, hc'⟩ | ⟨c, c', hc, hc', hR⟩ := rel_cases (rel_getElem? hcs i)
      · simp only [ProjectChannel.step, Pool.act, Pool.step, hc, hc', ite_self]
        exact .none
      · have hnow := (hsame c hc c' hc').turn.now
        simp only [ProjectChannel.step, ← hw.clock, ← hnow]
        refine rel_ite (fun _ => ?_) fun _ => .none
        have hw₁ : World.Alike { s.1 with clock := a.now } { s'.1 with clock := a.now } :=
          { hw with clock := rfl }
        exact Pool.step_related hcs fun d d' hd hd' hR =>
          Publisher.move_alike hw₁ hR (hsame d hd d' hd') (hquotes d hd d' hd')
    | take job | elsewhere db => exact hsame.elim
  | elsewhere db =>
    cases l' with
    | elsewhere db' => exact .some ⟨hw.withDb hsame, hcs⟩
    | take job | move i m a => exact hsame.elim

/-- Of databases and answers that differ in texts alone, any jobs in any order, while no failure
quotes one of these texts: the streams of a project get the same events. -/
theorem channel_eq {db db' : Database} {locks : String → LockManager.Key} {time : ℤ}
    {labels : List (Label × Label)} (hdb : db.Alike db')
    (hr : exec (step newURL clock) (start db locks time) (labels.map Prod.fst) = some s)
    (hr' : exec (step newURL clock) (start db' locks time) (labels.map Prod.snd) = some s')
    (hsame : Meets (product (step newURL clock) (step newURL clock)) (SameOutcome newURL)
      (start db locks time, start db' locks time) labels)
    (hquotes : Meets (product (step newURL clock) (step newURL clock)) (SameQuotes newURL)
      (start db locks time, start db' locks time) labels) (projectId : ProjectId) :
    channel s.1 projectId = channel s'.1 projectId := by
  have hstart : State.Alike (start db locks time) (start db' locks time) :=
    ⟨⟨hdb, rfl, rfl, rfl⟩, .nil⟩
  have hstep : ∀ σ l σ', State.Alike σ.1 σ.2 → SameOutcome newURL σ l ∧ SameQuotes newURL σ l →
      product (step newURL clock) (step newURL clock) σ l = some σ' → State.Alike σ'.1 σ'.2 := by
    rintro ⟨σ, τ⟩ ⟨l, l'⟩ ⟨σ', τ'⟩ h ⟨hsame, hquotes⟩ hs
    obtain ⟨hs, hs'⟩ := product_eq_some.mp hs
    have hrel : Option.Rel State.Alike (step newURL clock σ l) (step newURL clock τ l') :=
      h.step hsame hquotes
    rw [hs, hs'] at hrel
    cases hrel with | some h => exact h
  have hboth : exec (product (step newURL clock) (step newURL clock))
      (start db locks time, start db' locks time) labels = some (s, s') :=
    exec_product.mpr ⟨hr, hr'⟩
  have hlast : State.Alike s s' :=
    exec_invariant_of_meets (I := fun σ => State.Alike σ.1 σ.2) hstep hstart (hsame.and hquotes)
      hboth
  rw [channel, hlast.1.published]
  rfl

def donorDatabase (donorUrl : String) : Database :=
  exampleDatabase ⟨[{ exampleLink "l" with donorUrl }], by simp⟩ .empty

def donorStart (donorUrl : String) : State := start (donorDatabase donorUrl) (fun _ => none) 0

def checkLabels (crawl : CrawlAnswers) : List Label :=
  [.take (.singleLink "l"), .move 0 .main {}, .move 0 .main {}, .move 0 .main {},
    .move 0 .main { crawl, now := 1000 }, .move 0 .main { now := 1000 },
    .move 0 .main { now := 1000 }]

def twice (labels : List Label) : List (Label × Label) := labels.map fun l => (l, l)

def paymentRequired : CrawlAnswers :=
  .scraped (.threw "Payment Required") (.threw "Payment Required") (.error "")

def failedEvent (donorUrl : String) : LinkUpdated where
  linkId := "l"
  projectId := "p"
  status := .ERROR
  linkFound := none
  occurrencesCount := 0
  donorStatusCode := none
  error := some ("Firecrawl scrape failed for " ++ donorUrl ++ ": Payment Required")
  lastCheckedAt := some 1000

/-- Two links that differ in their donor URL alone, and a provider that fails alike on both. -/
theorem failed_scrape_names_page :
    ∃ s s', (donorDatabase "https://donor.example/post").Alike
        (donorDatabase "https://acceptor.example") ∧
      exec (step exampleURL Sheets.exampleClock) (donorStart "https://donor.example/post")
        (checkLabels paymentRequired) = some s ∧
      exec (step exampleURL Sheets.exampleClock) (donorStart "https://acceptor.example")
        (checkLabels paymentRequired) = some s' ∧
      Meets (product (step exampleURL Sheets.exampleClock) (step exampleURL Sheets.exampleClock))
        (SameOutcome exampleURL)
        (donorStart "https://donor.example/post", donorStart "https://acceptor.example")
        (twice (checkLabels paymentRequired)) ∧
      .link_updated (failedEvent "https://donor.example/post") ∈ channel s.1 "p" ∧
      .link_updated (failedEvent "https://acceptor.example") ∈ channel s'.1 "p" ∧
      channel s.1 "p" ≠ channel s'.1 "p" := by
  obtain ⟨s, hs, hevents⟩ := exists_of_any
    (P := fun s => channel s.1 "p" =
      [.link_updated (checkingEvent "l" (exampleLink "l")),
        .link_updated (failedEvent "https://donor.example/post")])
    (s := exec (step exampleURL Sheets.exampleClock) (donorStart "https://donor.example/post")
      (checkLabels paymentRequired)) (by decide +kernel)
  obtain ⟨s', hs', hevents'⟩ := exists_of_any
    (P := fun s => channel s.1 "p" =
      [.link_updated (checkingEvent "l" (exampleLink "l")),
        .link_updated (failedEvent "https://acceptor.example")])
    (s := exec (step exampleURL Sheets.exampleClock) (donorStart "https://acceptor.example")
      (checkLabels paymentRequired)) (by decide +kernel)
  refine ⟨s, s', by decide +kernel, hs, hs', by decide +kernel, ?_⟩
  rw [hevents, hevents']
  decide +kernel

def pageFound : CrawlAnswers :=
  .scraped (.answered (some { data := { rawHtml := some "<a href=" } })) (.answered none)
    (.ok ⟨none, none, true, none, true, [exampleOccurrence]⟩)

theorem channel_eq_sample :
    ∃ s s', exec (step exampleURL Sheets.exampleClock) (donorStart "https://donor.example/post")
        (checkLabels pageFound) = some s ∧
      exec (step exampleURL Sheets.exampleClock) (donorStart "https://acceptor.example")
        (checkLabels pageFound) = some s' ∧
      (channel s.1 "p").length = 2 ∧ channel s.1 "p" = channel s'.1 "p" := by
  obtain ⟨s, hs, hlen⟩ := exists_of_any (P := fun s => (channel s.1 "p").length = 2)
    (s := exec (step exampleURL Sheets.exampleClock) (donorStart "https://donor.example/post")
      (checkLabels pageFound)) (by decide +kernel)
  obtain ⟨s', hs', -⟩ := exists_of_any (P := fun _ => True)
    (s := exec (step exampleURL Sheets.exampleClock) (donorStart "https://acceptor.example")
      (checkLabels pageFound)) (by decide +kernel)
  have hrun : exec (step exampleURL Sheets.exampleClock) (donorStart "https://donor.example/post")
      ((twice (checkLabels pageFound)).map Prod.fst) = some s := hs
  have hrun' : exec (step exampleURL Sheets.exampleClock) (donorStart "https://acceptor.example")
      ((twice (checkLabels pageFound)).map Prod.snd) = some s' := hs'
  exact ⟨s, s', hs, hs', hlen, channel_eq (by decide +kernel) hrun hrun' (by decide +kernel)
    (by decide +kernel) "p"⟩

end LinkBulker.ProjectChannel
