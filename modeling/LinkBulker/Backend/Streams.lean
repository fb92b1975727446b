import LinkBulker.Backend.Throttled
import LinkBulker.Foundations.PubSub

/-! `apps/api/src/modules/stream/stream.controller.ts` beside the backend: what the streams of the
browsers get of the events on the channels. -/

namespace LinkBulker.Backend

open Foundations Db Shared SingleLink Worker Web
open ProjectChannel (channel projectIdOf)

namespace Streams

variable {newURL : UrlParser} {clock : Sheets.LocalClock} {replica : ℕ → ℕ} {db : Database}
  {locks : String → LockManager.Key} {time : ℤ}

/-- A stream is its subscription to a channel: `listen` is what `subscribe` comes to, also when the
client of the stream has reconnected, and `sent` is what `onMessage` has passed to the browser. -/
abbrev Stream := PubSub.Subscriber String ProgressEvent

inductive SseEvent
  | connected (projectId : ProjectId)
  | data (event : ProgressEvent)

def events (c : Stream) (projectId : ProjectId) : List SseEvent :=
  .connected projectId :: c.sent.map .data

def channelOf (event : ProgressEvent) : String := REDIS_KEYS.projectChannel (projectIdOf event)

def opened (projectId : ProjectId) : PubSub.Label String (Label newURL) :=
  .connect (REDIS_KEYS.projectChannel projectId)

def step (replica : ℕ → ℕ) (clock : Sheets.LocalClock) (s : Throttled newURL × List Stream)
    (l : PubSub.Label String (Label newURL)) : Option (Throttled newURL × List Stream) :=
  PubSub.step (Throttled.step replica clock) (fun s => s.world.published) channelOf s l

theorem projectChannel_injective : Function.Injective REDIS_KEYS.projectChannel := by
  intro p q h
  exact (String.append_right_inj "channel:project:").mp h

theorem published_grows (s : Throttled newURL) (l : Label newURL) (s' : Throttled newURL)
    (hs : Throttled.step replica clock s l = some s') :
    ∃ new, s'.world.published = s.world.published ++ new := by
  obtain ⟨-, ht, -, -⟩ | ⟨i, event, -, ht, -, -⟩ := Throttled.step_eq_some hs
  · exact ⟨_, step_published ht⟩
  · exact ⟨_, step_published ht⟩

theorem under_channelOf (s : Throttled newURL) (projectId : ProjectId) :
    PubSub.under channelOf (REDIS_KEYS.projectChannel projectId) s.world.published =
      channel s.world projectId := by
  refine List.filter_congr fun e _ => ?_
  exact decide_eq_decide.mpr projectChannel_injective.eq_iff

/-- In every run the events that a browser is sent are events of its project, in order and none twice.
If its connection to Redis has held they are one stretch, with the rest on its way as long as it
listens.  Of two such browsers that are up to date one has seen the last events of the other. -/
theorem streams_follow_channels {labels : List (PubSub.Label String (Label newURL))}
    {s : Throttled newURL × List Stream} (projectId : ProjectId)
    (hr : exec (step replica clock) (Throttled.start db locks time, []) labels = some s) :
    (∀ c ∈ s.2, c.topic = REDIS_KEYS.projectChannel projectId →
      ∃ passed, events c projectId = .connected projectId :: passed.map .data ∧
        passed.Sublist (channel s.1.world projectId) ∧
        (c.held → ∃ before after,
          channel s.1.world projectId = before ++ (passed ++ c.inbox) ++ after ∧
            (c.phase = .listening → after = []))) ∧
    ∀ c ∈ s.2, ∀ c' ∈ s.2, c.topic = REDIS_KEYS.projectChannel projectId → c'.topic = c.topic →
      c.held → c'.held → c.phase = .listening → c'.phase = .listening → c.inbox = [] →
        c'.inbox = [] → c.sent <:+ c'.sent ∨ c'.sent <:+ c.sent := by
  have h := PubSub.follows_of_exec published_grows hr
  refine ⟨fun c hc htopic => ?_, fun c hc c' hc' htopic htopic' hheld hheld' hlisten hlisten' hinbox
    hinbox' => ?_⟩
  · obtain ⟨hsublist, hstretch, -, -⟩ := h c hc
    rw [htopic, under_channelOf] at hsublist hstretch
    exact ⟨c.sent, rfl, (List.sublist_append_left ..).trans hsublist, hstretch⟩
  · exact (h c hc).suffix_or_suffix (h c' hc') htopic'.symm hheld hheld' hlisten hlisten' hinbox
      hinbox'

def watched : List (PubSub.Label String (Label Crawler.exampleURL)) :=
  [opened "p", .listen 0, opened "p", .listen 1] ++
    (Throttled.failedCheck 0 100000).map .base ++ List.replicate 5 (.handOn 1) ++ [.lose 1] ++
    [opened "p", .listen 2] ++ (Throttled.failedCheck 1 101000).map .base ++ [.listen 1] ++
    List.replicate 12 (.handOn 0) ++ List.replicate 6 (.handOn 2)

def upToDate (projectId : ProjectId) (n : ℕ) (c : Stream) : Bool :=
  c.topic = REDIS_KEYS.projectChannel projectId && c.held && c.phase = .listening &&
    c.inbox = [] && c.sent.length = n

theorem streams_follow_channels_sample : ∃ s, ∃ c ∈ s.2, ∃ c' ∈ s.2, ∃ d ∈ s.2,
    exec (step (fun _ => 0) Sheets.exampleClock) (Throttled.start twoUsers (fun _ => none) 0, [])
      watched = some s ∧ c.sent.length = 12 ∧ c'.sent.length = 6 ∧ c'.sent <:+ c.sent ∧
      d.held = false ∧ d.sent.length = 5 ∧ d.sent.Sublist (channel s.1.world "p") := by
  obtain ⟨s, hs, hlong, hshort, hlost⟩ := exists_of_any
    (P := fun s : Throttled _ × List Stream => s.2.any (upToDate "p" 12) ∧
      s.2.any (upToDate "p" 6) ∧ s.2.any fun d => d.topic = REDIS_KEYS.projectChannel "p" &&
        !d.held && d.sent.length = 5)
    (s := exec (step (fun _ => 0) Sheets.exampleClock)
      (Throttled.start twoUsers (fun _ => none) 0, []) watched) (by decide +kernel)
  obtain ⟨c, hc, hup⟩ := List.any_eq_true.mp hlong
  obtain ⟨c', hc', hup'⟩ := List.any_eq_true.mp hshort
  obtain ⟨d, hd, hdown⟩ := List.any_eq_true.mp hlost
  simp only [upToDate, Bool.and_eq_true, decide_eq_true_eq] at hup hup'
  simp only [Bool.and_eq_true, decide_eq_true_eq, Bool.not_eq_true'] at hdown
  obtain ⟨⟨⟨⟨htopic, hheld⟩, hlisten⟩, hinbox⟩, hlen⟩ := hup
  obtain ⟨⟨⟨⟨htopic', hheld'⟩, hlisten'⟩, hinbox'⟩, hlen'⟩ := hup'
  obtain ⟨⟨htopicd, hheldd⟩, hlend⟩ := hdown
  obtain ⟨hstreams, hpairs⟩ := streams_follow_channels "p" hs
  obtain ⟨passed, hevents, hsublist, -⟩ := hstreams d hd htopicd
  obtain rfl : passed = d.sent := by
    have hdata := (List.cons.inj hevents).2
    exact (List.map_injective_iff.mpr (fun _ _ h => SseEvent.data.inj h) hdata).symm
  refine ⟨s, c, hc, c', hc', d, hd, hs, hlen, hlen', ?_, hheldd, hlend, hsublist⟩
  obtain h | h := hpairs c' hc' c hc htopic' (htopic.trans htopic'.symm) hheld' hheld hlisten'
    hlisten hinbox' hinbox
  · exact h
  · have hle := h.length_le
    omega

end Streams

end LinkBulker.Backend
