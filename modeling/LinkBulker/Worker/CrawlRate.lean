import Mathlib.Algebra.Order.Ring.Rat
import LinkBulker.Foundations.Run
import LinkBulker.Worker.CrawlCap

/-! How many scrapes of one donor host start in a stretch of time. -/

namespace LinkBulker.Crawler

open Foundations Db Shared

variable {newURL : UrlParser} {o : CrawlerConfig} {w w' : Cluster} {c c' : Call}
  {calls calls' calls₀ : List Call} {a : ℕ × CrawlTurn} {as : List (ℕ × CrawlTurn)}

def Call.consumesAt (c : Call) (t : CrawlTurn) : Option ℤ :=
  match c.pc with
  | .consumeSent _ now => if t.rejects then none else some now
  | _ => none

def Call.startsScrape (c : Call) (t : CrawlTurn) : Bool :=
  match c.pc with
  | .acquireAnswered _ _ _ ok => ok && !t.rejects && !t.breakerOpen
  | _ => false

/-- The scripts on a bucket run in the order of the times they carry, and one that finds the key
expired finds it so long unused that it would be full.  A scrape starts no closer to an earlier one
of its host than their tokens were asked for. -/
def Spaced (o : CrawlerConfig) (s : Cluster × List Call) (a : ℕ × CrawlTurn) : Prop :=
  ∀ c ∈ s.2[a.1]?,
    (∀ now ∈ c.consumesAt a.2, ∀ e ∈ s.1.buckets c.host, e.value.ts ≤ now ∧
      (e.deadline < a.2.now →
        o.rateLimiter.capacity ≤ o.rateLimiter.ratePerSec * ((now - e.value.ts) / 1000))) ∧
    (c.startsScrape a.2 → ∀ x ∈ s.1.scrapes, x.host = c.host →
      |c.grant.2 - x.stamp| ≤ |a.2.now - x.start|)

instance (o : CrawlerConfig) (s : Cluster × List Call) (a : ℕ × CrawlTurn) :
    Decidable (Spaced o s a) :=
  inferInstanceAs (Decidable (∀ c ∈ s.2[a.1]?,
    (∀ now ∈ c.consumesAt a.2, ∀ e ∈ s.1.buckets c.host, e.value.ts ≤ now ∧
      (e.deadline < a.2.now →
        o.rateLimiter.capacity ≤ o.rateLimiter.ratePerSec * ((now - e.value.ts) / 1000))) ∧
    (c.startsScrape a.2 → ∀ x ∈ s.1.scrapes, x.host = c.host →
      |c.grant.2 - x.stamp| ≤ |a.2.now - x.start|)))

def Cluster.startedIn (w : Cluster) (host : String) (s t : ℤ) : List Scrape :=
  w.scrapes.filter fun x => x.host = host ∧ s ≤ x.start ∧ x.start ≤ t

def Scrape.ticket (x : Scrape) : String × ℕ × ℤ := (x.host, x.grant, x.stamp)

def tickets (w : Cluster) (calls : List Call) : List (String × ℕ × ℤ) :=
  w.scrapes.map Scrape.ticket ++ calls.filterMap Call.ticket

def grantTime (w : Cluster) (host : String) (i : ℕ) : ℚ := ((w.grants host)[i]?.getD 0 : ℤ) / 1000

structure Paced (o : CrawlerConfig) (w : Cluster) (calls : List Call) : Prop where
  valid : ∀ k ∈ tickets w calls, (w.grants k.1)[k.2.1]? = some k.2.2
  nodup : ((tickets w calls).map fun k => (k.1, k.2.1)).Nodup
  unused : ∀ host, w.buckets host = none → w.grants host = []
  fair : ∀ host, ∀ e ∈ w.buckets host, Bucket.Fair o.rateLimiter.capacity o.rateLimiter.ratePerSec
    (w.grants host).length (grantTime w host) e.value.bucket
  apart : ∀ x ∈ w.scrapes, ∀ y ∈ w.scrapes, x.host = y.host →
    |x.stamp - y.stamp| ≤ |x.start - y.start|

theorem Paced.data (hcap : 0 ≤ o.rateLimiter.capacity) (h : Paced o w calls) {host : String}
    {T now : ℤ}
    (hspaced : ∀ e ∈ w.buckets host, e.value.ts ≤ now ∧ (e.deadline < T →
      o.rateLimiter.capacity ≤ o.rateLimiter.ratePerSec * ((now - e.value.ts) / 1000))) :
    Bucket.Fair o.rateLimiter.capacity o.rateLimiter.ratePerSec (w.grants host).length
        (grantTime w host)
        (DomainRateLimiter.Key.data (w.buckets host) T now o.rateLimiter.capacity).bucket ∧
      (DomainRateLimiter.Key.data (w.buckets host) T now o.rateLimiter.capacity).bucket.ts ≤
        now / 1000 := by
  unfold DomainRateLimiter.Key.data
  cases he : w.buckets host with
  | none =>
    rw [h.unused host he]
    exact ⟨.full hcap, le_rfl⟩
  | some e =>
    have hfair := h.fair host e he
    obtain ⟨hts, hfull⟩ := hspaced e he
    simp only [Slot.read, Option.bind_some]
    split
    · rename_i hexp
      refine ⟨hfair.reset hcap ?_, le_rfl⟩
      have hgap := hfull hexp
      rwa [sub_div] at hgap
    · refine ⟨hfair, ?_⟩
      simp only [DomainRateLimiter.Fields.bucket, Option.getD_some]
      have hts' : (e.value.ts : ℚ) ≤ now := Int.cast_le.mpr hts
      linarith

theorem tickets_perm {i : ℕ} (hget : calls[i]? = some c) (hc : c.ticket = none)
    {k : String × ℕ × ℤ} (hc' : c'.ticket = some k) (hw : w'.scrapes = w.scrapes) :
    (tickets w' (calls.set i c')).Perm (k :: tickets w calls) := by
  unfold tickets
  rw [hw]
  exact ((Pool.filterMap_set_perm hget hc hc').append_left _).trans List.perm_middle

theorem tickets_sublist {i : ℕ} (hget : calls[i]? = some c)
    (hc : c'.ticket = none ∨ c'.ticket = c.ticket) (hw : w'.scrapes = w.scrapes) :
    (tickets w' (calls.set i c')).Sublist (tickets w calls) := by
  unfold tickets
  rw [hw]
  exact (Pool.filterMap_set_sublist hget hc).append_left _

theorem tickets_scrape {i : ℕ} (hget : calls[i]? = some c) {x : Scrape}
    (hc : c.ticket = some x.ticket) (hc' : c'.ticket = none)
    (hw : w'.scrapes = w.scrapes ++ [x]) :
    (tickets w' (calls.set i c')).Perm (tickets w calls) := by
  obtain ⟨rest, hperm, hset⟩ := Pool.exists_rest hget
  have hold := hperm.filterMap Call.ticket
  have hnew := (hset c').filterMap Call.ticket
  rw [List.filterMap_cons, hc] at hold
  rw [List.filterMap_cons, hc'] at hnew
  unfold tickets
  rw [hw, List.map_append, List.append_assoc]
  exact ((hnew.cons x.ticket).trans hold.symm).append_left _

theorem Paced.keep (h : Paced o w calls) {i : ℕ} (hget : calls[i]? = some c)
    (hbuckets : w'.buckets = w.buckets) (hgrants : w'.grants = w.grants)
    (hscrapes : w'.scrapes = w.scrapes) (hticket : c'.ticket = none ∨ c'.ticket = c.ticket) :
    Paced o w' (calls.set i c') := by
  have hsub := tickets_sublist hget hticket hscrapes
  refine ⟨fun k hk => ?_, h.nodup.sublist (hsub.map _), ?_, ?_, ?_⟩
  · rw [hgrants]
    exact h.valid k (hsub.subset hk)
  · rw [hbuckets, hgrants]
    exact h.unused
  · unfold grantTime
    rw [hbuckets, hgrants]
    exact h.fair
  · rw [hscrapes]
    exact h.apart

theorem grantTime_snoc {host : String} {now : ℤ} (hw : w'.grants host = w.grants host ++ [now]) :
    ∀ i < (w.grants host).length + 1,
      Function.update (grantTime w host) (w.grants host).length (now / 1000) i =
        grantTime w' host i := by
  intro i hi
  rw [grantTime, hw]
  rcases Nat.lt_succ_iff_lt_or_eq.mp hi with hi | rfl
  · rw [Function.update_of_ne hi.ne, List.getElem?_append_left hi]
    rfl
  · rw [Function.update_self, List.getElem?_append_right le_rfl, Nat.sub_self]
    rfl

theorem Paced.fill (h : Paced o w calls) {host : String} {e' : Expiring DomainRateLimiter.Fields}
    (hbuckets : w'.buckets = Function.update w.buckets host (some e'))
    (hgrants : ∀ other, other ≠ host → w'.grants other = w.grants other)
    (hfair : Bucket.Fair o.rateLimiter.capacity o.rateLimiter.ratePerSec (w'.grants host).length
      (grantTime w' host) e'.value.bucket) :
    (∀ host, w'.buckets host = none → w'.grants host = []) ∧
      ∀ host, ∀ e ∈ w'.buckets host, Bucket.Fair o.rateLimiter.capacity o.rateLimiter.ratePerSec
        (w'.grants host).length (grantTime w' host) e.value.bucket := by
  rw [hbuckets]
  constructor
  · intro other hnone
    by_cases hhost : other = host
    · rw [hhost, Function.update_self] at hnone
      cases hnone
    · rw [Function.update_of_ne hhost] at hnone
      rw [hgrants other hhost]
      exact h.unused other hnone
  · intro other e he
    by_cases hhost : other = host
    · subst hhost
      rw [Function.update_self] at he
      cases he
      exact hfair
    · rw [Function.update_of_ne hhost] at he
      unfold grantTime
      rw [hgrants other hhost]
      exact h.fair other e he

section Consume

variable {T now wait : ℤ} {key : DomainRateLimiter.Key} {i : ℕ}

theorem Paced.consumed (hcap : 0 ≤ o.rateLimiter.capacity) (hrate : 0 < o.rateLimiter.ratePerSec)
    (httl : 0 < o.rateLimiter.ttlMs) (h : Paced o w calls) (hget : calls[i]? = some c)
    (hlua : DomainRateLimiter.CONSUME_LUA (w.buckets c.host) T o.rateLimiter.capacity
      o.rateLimiter.ratePerSec now o.rateLimiter.ttlMs = (wait, key))
    (hok : wait ≤ 0)
    (hspaced : ∀ e ∈ w.buckets c.host, e.value.ts ≤ now ∧ (e.deadline < T →
      o.rateLimiter.capacity ≤ o.rateLimiter.ratePerSec * ((now - e.value.ts) / 1000)))
    (hc : c.ticket = none)
    (hc' : c'.ticket = some (c.host, (w.grants c.host).length, now))
    (hbuckets : w'.buckets = Function.update w.buckets c.host key)
    (hgrants : w'.grants = Function.update w.grants c.host (w.grants c.host ++ [now]))
    (hscrapes : w'.scrapes = w.scrapes) :
    Paced o w' (calls.set i c') := by
  have hperm := tickets_perm hget hc hc' hscrapes
  obtain ⟨hkey, hserve⟩ := DomainRateLimiter.CONSUME_LUA_spec hrate httl hlua
  obtain ⟨hfair, hts⟩ := h.data hcap hspaced
  have hfair := hfair.serve hcap hrate.le hts
  rw [if_pos (hserve.mp hok), ← DomainRateLimiter.bucket_stored] at hfair
  have hhere : w'.grants c.host = w.grants c.host ++ [now] := by
    rw [hgrants, Function.update_self]
  have hother : ∀ other, other ≠ c.host → w'.grants other = w.grants other := fun other hne => by
    rw [hgrants, Function.update_of_ne hne]
  have hlen : (w'.grants c.host).length = (w.grants c.host).length + 1 := by
    rw [hhere, List.length_append, List.length_singleton]
  have hlt : ∀ k ∈ tickets w calls, k.2.1 < (w.grants k.1).length := fun k hk =>
    (List.getElem?_eq_some_iff.mp (h.valid k hk)).1
  obtain ⟨hunused, hfairs⟩ := h.fill (hkey ▸ hbuckets) hother
    (hlen ▸ hfair.congr (grantTime_snoc hhere))
  refine ⟨fun k hk => ?_, ?_, hunused, hfairs, by rw [hscrapes]; exact h.apart⟩
  · rcases List.mem_cons.mp (hperm.mem_iff.mp hk) with rfl | hk
    · simp [hhere]
    · by_cases hhost : k.1 = c.host
      · rw [hhost, hhere, List.getElem?_append_left (hhost ▸ hlt k hk), ← hhost]
        exact h.valid k hk
      · rw [hother k.1 hhost]
        exact h.valid k hk
  · rw [(hperm.map _).nodup_iff, List.map_cons, List.nodup_cons]
    refine ⟨fun hk => ?_, h.nodup⟩
    obtain ⟨k, hk, he⟩ := List.mem_map.mp hk
    obtain ⟨hhost, hn⟩ := Prod.mk.inj he
    have hlt := hlt k hk
    rw [hhost, hn] at hlt
    exact lt_irrefl _ hlt

theorem Paced.refused (hcap : 0 ≤ o.rateLimiter.capacity) (hrate : 0 < o.rateLimiter.ratePerSec)
    (httl : 0 < o.rateLimiter.ttlMs) (h : Paced o w calls) (hget : calls[i]? = some c)
    (hlua : DomainRateLimiter.CONSUME_LUA (w.buckets c.host) T o.rateLimiter.capacity
      o.rateLimiter.ratePerSec now o.rateLimiter.ttlMs = (wait, key))
    (hno : ¬ wait ≤ 0)
    (hspaced : ∀ e ∈ w.buckets c.host, e.value.ts ≤ now ∧ (e.deadline < T →
      o.rateLimiter.capacity ≤ o.rateLimiter.ratePerSec * ((now - e.value.ts) / 1000)))
    (hc' : c'.ticket = none) (hbuckets : w'.buckets = Function.update w.buckets c.host key)
    (hgrants : w'.grants = w.grants) (hscrapes : w'.scrapes = w.scrapes) :
    Paced o w' (calls.set i c') := by
  have hsub := tickets_sublist hget (.inl hc') hscrapes
  obtain ⟨hkey, hserve⟩ := DomainRateLimiter.CONSUME_LUA_spec hrate httl hlua
  obtain ⟨hfair, hts⟩ := h.data hcap hspaced
  have hfair := hfair.serve hcap hrate.le hts
  rw [if_neg fun hs => hno (hserve.mpr hs), ← DomainRateLimiter.bucket_stored] at hfair
  have hsame : ∀ other, w'.grants other = w.grants other := fun other => by rw [hgrants]
  have htime : grantTime w' c.host = grantTime w c.host := by
    unfold grantTime
    rw [hsame]
  obtain ⟨hunused, hfairs⟩ := h.fill (hkey ▸ hbuckets) (fun other _ => hsame other)
    (by rw [hsame, htime]; exact hfair)
  refine ⟨fun k hk => ?_, h.nodup.sublist (hsub.map _), hunused, hfairs,
    by rw [hscrapes]; exact h.apart⟩
  rw [hsame]
  exact h.valid k (hsub.subset hk)

end Consume

theorem Paced.scrape (h : Paced o w calls) {i : ℕ} (hget : calls[i]? = some c) {x : Scrape}
    (hapart : ∀ y ∈ w.scrapes, y.host = x.host → |x.stamp - y.stamp| ≤ |x.start - y.start|)
    (hc : c.ticket = some x.ticket) (hc' : c'.ticket = none) (hbuckets : w'.buckets = w.buckets)
    (hgrants : w'.grants = w.grants) (hscrapes : w'.scrapes = w.scrapes ++ [x]) :
    Paced o w' (calls.set i c') := by
  have hperm := tickets_scrape hget hc hc' hscrapes
  refine ⟨fun k hk => ?_, ?_, by rw [hbuckets, hgrants]; exact h.unused, ?_, ?_⟩
  · rw [hgrants]
    exact h.valid k (hperm.mem_iff.mp hk)
  · rw [(hperm.map _).nodup_iff]
    exact h.nodup
  · unfold grantTime
    rw [hbuckets, hgrants]
    exact h.fair
  · rw [hscrapes]
    intro y hy z hz hhost
    rcases List.mem_append.mp hy with hold | hnew <;> rcases List.mem_append.mp hz with hold' | hnew'
    · exact h.apart y hold z hold' hhost
    · obtain rfl := List.mem_singleton.mp hnew'
      rw [abs_sub_comm, abs_sub_comm y.start]
      exact hapart y hold hhost
    · obtain rfl := List.mem_singleton.mp hnew
      exact hapart z hold' hhost.symm
    · rw [List.mem_singleton.mp hnew, List.mem_singleton.mp hnew', sub_self, sub_self]

theorem Paced.step (hcap : 0 ≤ o.rateLimiter.capacity) (hrate : 0 < o.rateLimiter.ratePerSec)
    (httl : 0 < o.rateLimiter.ttlMs) (h : Paced o w calls) (hspaced : Spaced o (w, calls) a)
    (hs : Crawler.step newURL o (w, calls) a = some (w', calls')) : Paced o w' calls' := by
  obtain ⟨c, c', -, hget, hstep, rfl⟩ := step_eq_some hs
  obtain ⟨hconsume, hstart⟩ := hspaced c hget
  cases hstep with
  | quiet htoken hlease hticket => exact h.keep hget rfl rfl rfl hticket
  | consumed hpc hr hlua hok hc' =>
    subst hc'
    refine h.consumed hcap hrate httl hget hlua hok (hconsume _ ?_) ?_ ?_ rfl rfl rfl
    · simp [Call.consumesAt, hpc, hr]
    · rw [Call.ticket, hpc]
    · simp [Call.ticket, hok]
  | refused hpc hr hlua hno =>
    refine h.refused hcap hrate httl hget hlua hno (hconsume _ ?_) ?_ rfl rfl rfl
    · simp [Call.consumesAt, hpc, hr]
    · simp [Call.ticket, Call.at_, hno]
  | drawn hpc hfresh => exact h.keep hget rfl rfl rfl (.inr (by simp [Call.ticket, Call.at_, hpc]))
  | acquired hpc hr hlua =>
    exact h.keep hget rfl rfl rfl (.inr (by simp [Call.ticket, Call.at_, hpc]))
  | scrape hpc hr hbreaker =>
    refine h.scrape hget (hstart ?_) ?_ rfl rfl rfl rfl
    · simp [Call.startsScrape, hpc, hr, hbreaker]
    · rw [Call.ticket, hpc]
      rfl
  | released hpc => exact h.keep hget rfl rfl rfl (.inl rfl)

section Window

variable {host : String} {s t : ℤ} {x y : Scrape}

theorem mem_startedIn :
    x ∈ w.startedIn host s t ↔ x ∈ w.scrapes ∧ x.host = host ∧ s ≤ x.start ∧ x.start ≤ t := by
  simp [Cluster.startedIn]

theorem Paced.grant (h : Paced o w calls) (hx : x ∈ w.startedIn host s t) :
    (w.grants host)[x.grant]? = some x.stamp := by
  obtain ⟨hold, rfl, -⟩ := mem_startedIn.mp hx
  exact h.valid x.ticket (List.mem_append_left _ (List.mem_map_of_mem hold))

theorem Paced.nodup_grant (h : Paced o w calls) :
    ((w.startedIn host s t).map Scrape.grant).Nodup := by
  have hscrapes : (w.scrapes.map fun x => (x.host, x.grant)).Nodup := by
    have hnodup := h.nodup
    rw [tickets, List.map_append, List.map_map] at hnodup
    exact hnodup.of_append_left
  have hin : ((w.startedIn host s t).map fun x => (x.host, x.grant)).Nodup :=
    hscrapes.sublist (List.filter_sublist.map _)
  have hhost : (w.startedIn host s t).map (fun x => (x.host, x.grant)) =
      ((w.startedIn host s t).map Scrape.grant).map fun n => (host, n) := by
    rw [List.map_map]
    refine List.map_congr_left fun x hx => ?_
    rw [← (mem_startedIn.mp hx).2.1]
    rfl
  rw [hhost] at hin
  exact hin.of_map _

/-- What the buckets and the spacing of the scrapes come to in any window. -/
theorem Paced.window (hcap : 0 ≤ o.rateLimiter.capacity) (hrate : 0 < o.rateLimiter.ratePerSec)
    (h : Paced o w calls) (hst : s ≤ t) :
    ((w.startedIn host s t).length : ℚ) ≤
      o.rateLimiter.capacity + o.rateLimiter.ratePerSec * ((t - s) / 1000) := by
  have hst' : (s : ℚ) / 1000 ≤ t / 1000 :=
    div_le_div_of_nonneg_right (Int.cast_le.mpr hst) (by norm_num)
  cases hb : w.buckets host with
  | none =>
    have hnil : w.startedIn host s t = [] := by
      refine List.eq_nil_iff_forall_not_mem.mpr fun x hx => ?_
      have hgrant := h.grant hx
      rw [h.unused host hb] at hgrant
      cases hgrant
    rw [hnil, sub_div]
    exact add_nonneg hcap (mul_nonneg hrate.le (sub_nonneg.mpr hst'))
  | some e =>
    have htime : ∀ x ∈ w.startedIn host s t, grantTime w host x.grant = x.stamp / 1000 := by
      intro x hx
      rw [grantTime, h.grant hx]
      rfl
    have hlen : (w.startedIn host s t).length =
        ((w.startedIn host s t).map fun x => (x.grant, (x.start / 1000 : ℚ))).length :=
      (List.length_map ..).symm
    rw [hlen, sub_div]
    refine (h.fair host e hb).window hcap hrate.le ?_ ?_ ?_ hst' ?_
    · rw [List.map_map]
      exact h.nodup_grant
    · rw [List.forall_mem_map]
      exact fun x hx => (List.getElem?_eq_some_iff.mp (h.grant hx)).1
    · simp only [List.forall_mem_map]
      intro x hx y hy
      rw [htime x hx, htime y hy, ← sub_div, ← sub_div, abs_div, abs_div]
      refine div_le_div_of_nonneg_right ?_ (abs_nonneg _)
      obtain ⟨hx, hhost, -⟩ := mem_startedIn.mp hx
      obtain ⟨hy, hhost', -⟩ := mem_startedIn.mp hy
      exact_mod_cast h.apart x hx y hy (hhost.trans hhost'.symm)
    · rw [List.forall_mem_map]
      intro x hx
      obtain ⟨-, -, hs, ht⟩ := mem_startedIn.mp hx
      exact ⟨div_le_div_of_nonneg_right (Int.cast_le.mpr hs) (by norm_num),
        div_le_div_of_nonneg_right (Int.cast_le.mpr ht) (by norm_num)⟩

end Window

/-- As long as the wait for a slot brings no two scrapes of a host closer together than their
tokens, any window of any run sees no more scrapes of a host start than its bucket allows. -/
theorem scrapes_le_rate (hcap : 0 ≤ o.rateLimiter.capacity) (hrate : 0 < o.rateLimiter.ratePerSec)
    (httl : 0 < o.rateLimiter.ttlMs) {clock : ℤ} {sem : Semaphore.Key}
    (hcalls : ∀ c ∈ calls₀, c.pc = .entry)
    (hspaced : Meets (step newURL o) (Spaced o) ({ clock, sem }, calls₀) as)
    (hr : exec (step newURL o) ({ clock, sem }, calls₀) as = some (w, calls))
    (host : String) {s t : ℤ} (hst : s ≤ t) :
    ((w.startedIn host s t).length : ℚ) ≤
      o.rateLimiter.capacity + o.rateLimiter.ratePerSec * ((t - s) / 1000) := by
  have h₀ : Paced o { clock, sem } calls₀ := by
    have htickets : tickets { clock, sem } calls₀ = [] :=
      filterMap_entry (f := Call.ticket) hcalls fun c hc => by rw [Call.ticket, hc]
    refine ⟨?_, ?_, fun _ _ => rfl, ?_, List.forall_mem_nil _⟩
    · rw [htickets]
      exact List.forall_mem_nil _
    · rw [htickets]
      exact List.nodup_nil
    · intro host e he
      cases he
  exact (exec_invariant_of_meets (I := fun s => Paced o s.1 s.2)
    (fun _ _ _ h hc hs => h.step hcap hrate httl hc hs) h₀ hspaced hr).window hcap hrate hst

def finishTurns (i : ℕ) (now : ℤ) : List (ℕ × CrawlTurn) :=
  [(i, { now, run := foundRun }), (i, { now })]

def retryTurns (i : ℕ) (now : ℤ) (token : Semaphore.Token) : List (ℕ × CrawlTurn) :=
  List.replicate 4 (i, { now, token })

def otherHostCall : Call where
  donorUrl := "https://acceptor.example"
  acceptorRaw := "acceptor.example"

/-- One slot, two tokens a second.  While a scrape of another host has the slot, three calls for one
host get their tokens at 0, 0 and 500 ms; then their scrapes start within 200 ms. -/
theorem waiting_calls_burst :
    ∃ w calls,
      exec (step exampleURL (forRoot 1 2))
        ({}, [otherHostCall, exampleCall, exampleCall, exampleCall])
        (scrapeTurns 0 0 "a" ++ scrapeTurns 1 0 "b" ++ scrapeTurns 2 0 "c" ++
          scrapeTurns 3 500 "d" ++ finishTurns 0 500 ++ retryTurns 1 500 "e" ++
          finishTurns 1 600 ++ retryTurns 2 600 "f" ++ finishTurns 2 700 ++
          retryTurns 3 700 "g") = some (w, calls) ∧
      (2 + 2 * ((700 - 500) / 1000) : ℚ) < (w.startedIn "donor.example" 500 700).length := by
  have h : (exec (step exampleURL (forRoot 1 2))
      ({}, [otherHostCall, exampleCall, exampleCall, exampleCall])
      (scrapeTurns 0 0 "a" ++ scrapeTurns 1 0 "b" ++ scrapeTurns 2 0 "c" ++
        scrapeTurns 3 500 "d" ++ finishTurns 0 500 ++ retryTurns 1 500 "e" ++
        finishTurns 1 600 ++ retryTurns 2 600 "f" ++ finishTurns 2 700 ++
        retryTurns 3 700 "g")).map (fun s => (s.1.startedIn "donor.example" 500 700).length) =
      some 3 := by decide +kernel
  obtain ⟨⟨w, calls⟩, hr, hlen⟩ := Option.map_eq_some_iff.mp h
  refine ⟨w, calls, hr, ?_⟩
  rw [hlen]
  norm_num

def spacedTurns : List (ℕ × CrawlTurn) :=
  scrapeTurns 0 0 "a" ++ scrapeTurns 1 0 "b" ++ scrapeTurns 2 0 "c" ++ scrapeTurns 3 500 "d" ++
    finishTurns 0 500 ++ retryTurns 1 500 "e" ++ finishTurns 1 600 ++ retryTurns 2 600 "f" ++
    finishTurns 2 1100 ++ retryTurns 3 1100 "g"

theorem scrapes_le_rate_sample :
    ∃ w calls,
      exec (step exampleURL (forRoot 1 2))
        ({}, [otherHostCall, exampleCall, exampleCall, exampleCall]) spacedTurns =
          some (w, calls) ∧
      (w.startedIn "donor.example" 500 1100).length = 3 ∧
      ((w.startedIn "donor.example" 500 1100).length : ℚ) ≤
        (forRoot 1 2).rateLimiter.capacity +
          (forRoot 1 2).rateLimiter.ratePerSec * (((1100 : ℤ) - (500 : ℤ)) / 1000) := by
  have h : (exec (step exampleURL (forRoot 1 2))
      ({}, [otherHostCall, exampleCall, exampleCall, exampleCall]) spacedTurns).map
        (fun s => (s.1.startedIn "donor.example" 500 1100).length) = some 3 := by decide +kernel
  obtain ⟨⟨w, calls⟩, hr, hlen⟩ := Option.map_eq_some_iff.mp h
  exact ⟨w, calls, hr, hlen, scrapes_le_rate (by decide) (by decide) (by decide) (by decide)
    (by decide +kernel) hr "donor.example" (by decide)⟩

end LinkBulker.Crawler
