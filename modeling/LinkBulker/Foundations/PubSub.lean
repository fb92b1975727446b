import LinkBulker.Foundations.Run

/-! Publish and subscribe over a system that keeps a log.  A subscriber hears what is logged under its
topic, in order, while it listens, and hands it on one by one.  Its connection can be lost: what is
logged until it listens again does not reach it. -/

universe u v w x

namespace Foundations.PubSub

inductive Phase
  | connecting
  | listening
  | closed
  deriving DecidableEq

structure Subscriber (κ : Type u) (β : Type v) where
  topic : κ
  phase : Phase := .connecting
  held : Bool := true
  inbox : List β := []
  sent : List β := []

inductive Label (κ : Type u) (α : Type w)
  | base (a : α)
  | connect (topic : κ)
  | listen (i : ℕ)
  | handOn (i : ℕ)
  | lose (i : ℕ)
  | close (i : ℕ)

variable {κ : Type u} {β : Type v} {α : Type w} {σ : Type x} [DecidableEq κ]

def under (topicOf : β → κ) (topic : κ) (log : List β) : List β :=
  log.filter fun b => topicOf b = topic

def Subscriber.hear (topicOf : β → κ) (new : List β) (c : Subscriber κ β) : Subscriber κ β :=
  if c.phase = .listening then { c with inbox := c.inbox ++ under topicOf c.topic new } else c

def Subscriber.listen (c : Subscriber κ β) : Option (Subscriber κ β) :=
  if c.phase = .connecting then some { c with phase := .listening } else none

def Subscriber.handOn (c : Subscriber κ β) : Option (Subscriber κ β) :=
  match c.inbox with
  | [] => none
  | b :: rest => some { c with inbox := rest, sent := c.sent ++ [b] }

/-- The connection is lost, with what is on its way. -/
def Subscriber.lose (c : Subscriber κ β) : Option (Subscriber κ β) :=
  if c.phase = .listening then some { c with phase := .connecting, held := false, inbox := [] }
  else none

def Subscriber.close (c : Subscriber κ β) : Subscriber κ β := { c with phase := .closed, inbox := [] }

def turn (f : Subscriber κ β → Option (Subscriber κ β)) (cs : List (Subscriber κ β)) (i : ℕ) :
    Option (List (Subscriber κ β)) :=
  (cs[i]?).bind fun c => (f c).map fun c' => cs.set i c'

def step (base : σ → α → Option σ) (log : σ → List β) (topicOf : β → κ)
    (s : σ × List (Subscriber κ β)) : Label κ α → Option (σ × List (Subscriber κ β))
  | .base a => (base s.1 a).map fun t =>
    (t, s.2.map (Subscriber.hear topicOf ((log t).drop (log s.1).length)))
  | .connect topic => some (s.1, s.2 ++ [{ topic }])
  | .listen i => (turn Subscriber.listen s.2 i).map fun cs => (s.1, cs)
  | .handOn i => (turn Subscriber.handOn s.2 i).map fun cs => (s.1, cs)
  | .lose i => (turn Subscriber.lose s.2 i).map fun cs => (s.1, cs)
  | .close i => (turn (fun c => some c.close) s.2 i).map fun cs => (s.1, cs)

variable {base : σ → α → Option σ} {log : σ → List β} {topicOf : β → κ}
  {s s' : σ × List (Subscriber κ β)} {c c' : Subscriber κ β} {cs cs' : List (Subscriber κ β)}
  {bs new : List β} {i : ℕ}

structure Follows (topicOf : β → κ) (log : List β) (c : Subscriber κ β) : Prop where
  sublist : (c.sent ++ c.inbox).Sublist (under topicOf c.topic log)
  stretch : c.held → ∃ before after,
    under topicOf c.topic log = before ++ (c.sent ++ c.inbox) ++ after ∧
      (c.phase = .listening → after = [])
  idle : c.phase ≠ .listening → c.inbox = []
  early : c.phase = .connecting → c.held → c.sent = []

theorem Follows.connect (topic : κ) : Follows topicOf bs ({ topic } : Subscriber κ β) where
  sublist := List.nil_sublist _
  stretch _ := ⟨under topicOf topic bs, [], by simp, nofun⟩
  idle _ := rfl
  early _ _ := rfl

theorem Follows.hear (h : Follows topicOf bs c) :
    Follows topicOf (bs ++ new) (c.hear topicOf new) := by
  have happend : under topicOf c.topic (bs ++ new) =
      under topicOf c.topic bs ++ under topicOf c.topic new := List.filter_append ..
  unfold Subscriber.hear
  split
  · rename_i hlisten
    refine ⟨?_, fun hheld => ?_, fun hne => absurd hlisten hne, fun hconnect => ?_⟩
    · dsimp only
      rw [happend, ← List.append_assoc]
      exact h.sublist.append (List.Sublist.refl _)
    · obtain ⟨before, after, hstretch, hend⟩ := h.stretch hheld
      refine ⟨before, [], ?_, fun _ => rfl⟩
      dsimp only
      rw [happend, hstretch, hend hlisten]
      simp
    · rw [hconnect] at hlisten
      cases hlisten
  · rename_i hdeaf
    refine ⟨?_, fun hheld => ?_, h.idle, h.early⟩
    · rw [happend]
      exact h.sublist.trans (List.sublist_append_left ..)
    · obtain ⟨before, after, hstretch, -⟩ := h.stretch hheld
      refine ⟨before, after ++ under topicOf c.topic new, ?_, fun h => absurd h hdeaf⟩
      rw [happend, hstretch, List.append_assoc]

theorem Follows.listen (h : Follows topicOf bs c) (hc : c.listen = some c') :
    Follows topicOf bs c' := by
  unfold Subscriber.listen at hc
  split at hc
  · rename_i hconnect
    cases hc
    have hidle : c.inbox = [] := h.idle (by rw [hconnect]; nofun)
    refine ⟨h.sublist, fun hheld => ?_, fun _ => hidle, nofun⟩
    refine ⟨under topicOf c.topic bs, [], ?_, fun _ => rfl⟩
    simp [h.early hconnect hheld, hidle]
  · cases hc

theorem Follows.handOn (h : Follows topicOf bs c) (hc : c.handOn = some c') :
    Follows topicOf bs c' := by
  unfold Subscriber.handOn at hc
  split at hc
  · cases hc
  · rename_i b rest hinbox
    cases hc
    have hsame : c.sent ++ c.inbox = c.sent ++ [b] ++ rest := by rw [hinbox]; simp
    have hlisten : c.phase = .listening := by
      by_contra hne
      rw [h.idle hne] at hinbox
      cases hinbox
    refine ⟨hsame ▸ h.sublist, hsame ▸ h.stretch, fun hne => absurd hlisten hne, fun hconnect => ?_⟩
    rw [hlisten] at hconnect
    cases hconnect

theorem Follows.drop (h : Follows topicOf bs c) :
    (c.sent ++ []).Sublist (under topicOf c.topic bs) ∧ (c.held → ∃ before after,
      under topicOf c.topic bs = before ++ (c.sent ++ []) ++ after) := by
  refine ⟨?_, fun hheld => ?_⟩
  · rw [List.append_nil]
    exact (List.sublist_append_left c.sent c.inbox).trans h.sublist
  · obtain ⟨before, after, hstretch, -⟩ := h.stretch hheld
    exact ⟨before, c.inbox ++ after, by simp [hstretch]⟩

theorem Follows.lose (h : Follows topicOf bs c) (hc : c.lose = some c') :
    Follows topicOf bs c' := by
  unfold Subscriber.lose at hc
  split at hc <;> cases hc
  exact ⟨h.drop.1, nofun, fun _ => rfl, nofun⟩

theorem Follows.close (h : Follows topicOf bs c) : Follows topicOf bs c.close := by
  refine ⟨h.drop.1, fun hheld => ?_, fun _ => rfl, nofun⟩
  obtain ⟨before, after, hstretch⟩ := h.drop.2 hheld
  exact ⟨before, after, hstretch, nofun⟩

omit [DecidableEq κ] in
theorem turn_forall {f : Subscriber κ β → Option (Subscriber κ β)} {P : Subscriber κ β → Prop}
    (hf : ∀ c c', P c → f c = some c' → P c') (h : ∀ c ∈ cs, P c) (ht : turn f cs i = some cs') :
    ∀ c ∈ cs', P c := by
  obtain ⟨c, hc, ht⟩ := Option.bind_eq_some_iff.mp ht
  obtain ⟨c', hc', rfl⟩ := Option.map_eq_some_iff.mp ht
  intro d hd
  obtain hd | rfl := List.mem_or_eq_of_mem_set hd
  · exact h d hd
  · exact hf c d (h c (List.mem_of_getElem? hc)) hc'

theorem step_follows (hlog : ∀ s a s', base s a = some s' → ∃ new, log s' = log s ++ new)
    {l : Label κ α} (h : ∀ c ∈ s.2, Follows topicOf (log s.1) c)
    (hs : step base log topicOf s l = some s') : ∀ c ∈ s'.2, Follows topicOf (log s'.1) c := by
  cases l with
  | base a =>
    obtain ⟨t, ht, rfl⟩ := Option.map_eq_some_iff.mp hs
    obtain ⟨new, hnew⟩ := hlog _ _ _ ht
    intro c' hc'
    obtain ⟨c, hc, rfl⟩ := List.mem_map.mp hc'
    dsimp only
    rw [hnew, List.drop_left]
    exact (h c hc).hear
  | connect topic =>
    cases hs
    intro c hc
    obtain hc | hc := List.mem_append.mp hc
    · exact h c hc
    · rw [List.mem_singleton.mp hc]
      exact .connect topic
  | listen i =>
    obtain ⟨cs, hcs, rfl⟩ := Option.map_eq_some_iff.mp hs
    exact turn_forall (fun _ _ h hc => h.listen hc) h hcs
  | handOn i =>
    obtain ⟨cs, hcs, rfl⟩ := Option.map_eq_some_iff.mp hs
    exact turn_forall (fun _ _ h hc => h.handOn hc) h hcs
  | lose i =>
    obtain ⟨cs, hcs, rfl⟩ := Option.map_eq_some_iff.mp hs
    exact turn_forall (fun _ _ h hc => h.lose hc) h hcs
  | close i =>
    obtain ⟨cs, hcs, rfl⟩ := Option.map_eq_some_iff.mp hs
    refine turn_forall (fun c c' h hc => ?_) h hcs
    cases hc
    exact h.close

/-- In every run each subscriber follows its topic. -/
theorem follows_of_exec (hlog : ∀ s a s', base s a = some s' → ∃ new, log s' = log s ++ new)
    {s₀ : σ} {labels : List (Label κ α)}
    (hr : exec (step base log topicOf) (s₀, []) labels = some s) :
    ∀ c ∈ s.2, Follows topicOf (log s.1) c :=
  exec_invariant (I := fun s => ∀ c ∈ s.2, Follows topicOf (log s.1) c)
    (fun _ _ _ h hs => step_follows hlog h hs) (fun _ hc => absurd hc List.not_mem_nil) hr

/-- Of two that have listened to one topic ever since and have handed on all they heard, one has joined
earlier. -/
theorem Follows.suffix_or_suffix (h : Follows topicOf bs c) (h' : Follows topicOf bs c')
    (htopic : c.topic = c'.topic) (hheld : c.held) (hheld' : c'.held)
    (hlisten : c.phase = .listening) (hlisten' : c'.phase = .listening)
    (hinbox : c.inbox = []) (hinbox' : c'.inbox = []) : c.sent <:+ c'.sent ∨ c'.sent <:+ c.sent := by
  obtain ⟨before, after, hstretch, hend⟩ := h.stretch hheld
  obtain ⟨before', after', hstretch', hend'⟩ := h'.stretch hheld'
  rw [hinbox, hend hlisten, List.append_nil, List.append_nil] at hstretch
  rw [hinbox', hend' hlisten', List.append_nil, List.append_nil, ← htopic] at hstretch'
  exact List.suffix_or_suffix_of_suffix ⟨before, hstretch.symm⟩ ⟨before', hstretch'.symm⟩

end Foundations.PubSub
