import LinkBulker.Worker.CrawlPoolLaws
import LinkBulker.WorkerCore.SemaphoreLaws

/-! How many scrapes are in flight over the whole cluster. -/

namespace LinkBulker.Crawler

open Foundations Db Shared

variable {newURL : UrlParser} {o : CrawlerConfig} {w w' w₀ : Cluster} {calls calls' calls₀ : List Call}
  {a : ℕ × CrawlTurn} {as : List (ℕ × CrawlTurn)}

/-- When an acquire runs, every call between its grant and the end of its scrape was granted less
than `ttl` before the time the acquire carries, and the key has not expired under it. -/
def Leased (o : CrawlerConfig) (s : Cluster × List Call) (a : ℕ × CrawlTurn) : Prop :=
  ∀ c ∈ s.2[a.1]?, ∀ now ∈ c.asksAt, a.2.rejects = false → ∀ d ∈ s.2, ∀ x ∈ d.lease,
    now - x.2 < o.semaphore.ttlMs ∧ (s.1.sem.read a.2.now).isSome

instance (o : CrawlerConfig) (s : Cluster × List Call) (a : ℕ × CrawlTurn) :
    Decidable (Leased o s a) :=
  inferInstanceAs (Decidable (∀ c ∈ s.2[a.1]?, ∀ now ∈ c.asksAt, a.2.rejects = false →
    ∀ d ∈ s.2, ∀ x ∈ d.lease,
      now - x.2 < o.semaphore.ttlMs ∧ (s.1.sem.read a.2.now).isSome))

structure Held (o : CrawlerConfig) (w : Cluster) (calls : List Call) : Prop where
  issued : ∀ k ∈ calls.filterMap Call.token, k ∈ w.issued
  nodup : (calls.filterMap Call.token).Nodup
  kept : w.sem = none ∨ ∀ x ∈ calls.filterMap Call.lease, x ∈ w.sem.stored.rows
  bound : (calls.filterMap Call.lease).length ≤ o.semaphore.limit

theorem lease_token (c : Call) : c.lease.map Prod.fst = none ∨ c.lease.map Prod.fst = c.token := by
  unfold Call.lease Call.token
  split <;> simp_all

theorem leases_sublist (calls : List Call) :
    ((calls.filterMap Call.lease).map Prod.fst).Sublist (calls.filterMap Call.token) := by
  rw [List.map_filterMap]
  exact Pool.filterMap_sublist lease_token

theorem members_of_read {key : Semaphore.Key} {now : ℤ} (h : (key.read now).isSome) :
    key.members now = key.stored ∧
      ∀ f, Semaphore.Key.stored (key.modify now f) = f key.stored := by
  obtain ⟨z, hz⟩ := Option.isSome_iff_exists.mp h
  obtain ⟨d, rfl, hd⟩ := Slot.read_eq_some.mp hz
  refine ⟨by rw [Semaphore.Key.members, hz]; rfl, fun f => ?_⟩
  rw [Slot.modify_of_le f hd]
  rfl

theorem Held.fst_ne (h : Held o w calls) {i : ℕ} {c : Call} (hget : calls[i]? = some c)
    {k : Semaphore.Token} (htoken : c.token = some k) (hlease : c.lease = none) :
    ∀ x ∈ calls.filterMap Call.lease, x.1 ≠ k := by
  obtain ⟨rest, hperm, -⟩ := Pool.exists_rest hget
  have hnodup := ((hperm.filterMap Call.token).nodup_iff).mp h.nodup
  rw [List.filterMap_cons, htoken] at hnodup
  rintro x hx rfl
  have hx' := (hperm.filterMap Call.lease).mem_iff.mp hx
  rw [List.filterMap_cons, hlease] at hx'
  exact (List.nodup_cons.mp hnodup).1 ((leases_sublist rest).subset (List.mem_map_of_mem hx'))

theorem Held.keep (h : Held o w calls) {i : ℕ} {c c' : Call} (hget : calls[i]? = some c)
    (hsem : w'.sem = w.sem) (hissued : w'.issued = w.issued)
    (htoken : c'.token = none ∨ c'.token = c.token)
    (hlease : c'.lease = none ∨ c'.lease = c.lease) : Held o w' (calls.set i c') := by
  have htok := Pool.filterMap_set_sublist hget htoken
  have hlea := Pool.filterMap_set_sublist hget hlease
  refine ⟨fun k hk => ?_, h.nodup.sublist htok, ?_, hlea.length_le.trans h.bound⟩
  · rw [hissued]
    exact h.issued k (htok.subset hk)
  · rw [hsem]
    exact h.kept.imp_right fun hk x hx => hk x (hlea.subset hx)

theorem Held.draw (h : Held o w calls) {i : ℕ} {c c' : Call} (hget : calls[i]? = some c)
    {k : Semaphore.Token} (hfresh : k ∉ w.issued) (hc : c.token = none) (hc' : c'.token = some k)
    (hlease : c'.lease = none) :
    Held o { w with issued := k :: w.issued } (calls.set i c') := by
  have hperm := Pool.filterMap_set_perm hget hc hc'
  have hlea : ((calls.set i c').filterMap Call.lease).Sublist (calls.filterMap Call.lease) :=
    Pool.filterMap_set_sublist hget (.inl hlease)
  refine ⟨fun j hj => ?_, ?_, h.kept.imp_right fun hk x hx => hk x (hlea.subset hx),
    hlea.length_le.trans h.bound⟩
  · rcases List.mem_cons.mp (hperm.mem_iff.mp hj) with rfl | hj
    · exact List.mem_cons_self
    · exact List.mem_cons_of_mem _ (h.issued j hj)
  · rw [hperm.nodup_iff, List.nodup_cons]
    exact ⟨fun hk => hfresh (h.issued k hk), h.nodup⟩

theorem Held.acquire (h : Held o w calls) {i : ℕ} {c c' : Call} (hget : calls[i]? = some c)
    {T now : ℤ} {k : Semaphore.Token} {n : ℕ} {key : Semaphore.Key}
    (hyoung : ∀ x ∈ calls.filterMap Call.lease,
      now - x.2 < o.semaphore.ttlMs ∧ (w.sem.read T).isSome)
    (hlua : Semaphore.ACQUIRE_LUA w.sem T now o.semaphore.ttlMs o.semaphore.limit k = (n, key))
    (htoken : c.token = some k) (hlease : c.lease = none) (htoken' : c'.token = some k)
    (hlease' : c'.lease = if n == 1 then some (k, now) else none) :
    Held o { w with sem := key } (calls.set i c') := by
  have htok := Pool.filterMap_set_sublist hget (.inr (htoken'.trans htoken.symm))
  have hmem : ∀ x ∈ calls.filterMap Call.lease,
      x ∈ (w.sem.pruned T now o.semaphore.ttlMs).rows := by
    intro x hx
    obtain ⟨hlt, hread⟩ := hyoung x hx
    rw [Semaphore.Key.pruned, (members_of_read hread).1, Semaphore.mem_zremrangebyscore]
    rcases h.kept with hnone | hkept
    · rw [hnone] at hread
      cases hread
    · exact ⟨hkept x hx, by omega⟩
  rw [Semaphore.ACQUIRE_LUA_eq] at hlua
  split at hlua
  · rename_i hlt
    obtain ⟨rfl, rfl⟩ := Prod.mk.inj hlua
    have hperm := Pool.filterMap_set_perm hget hlease (hlease'.trans (if_pos rfl))
    refine ⟨fun j hj => h.issued j (htok.subset hj), h.nodup.sublist htok, ?_, ?_⟩
    · by_cases httl : o.semaphore.ttlMs ≤ 0
      · exact .inl (if_pos httl)
      · refine .inr fun x hx => ?_
        rw [Semaphore.stored_write, if_neg httl, Semaphore.mem_zadd]
        rcases List.mem_cons.mp (hperm.mem_iff.mp hx) with rfl | hx
        · exact .inl rfl
        · exact .inr ⟨hmem x hx, h.fst_ne hget htoken hlease x hx⟩
    · have hnodup : (calls.filterMap Call.lease).Nodup :=
        List.Nodup.of_map _ (h.nodup.sublist (leases_sublist calls))
      have hle := (List.subperm_of_subset hnodup hmem).length_le
      rw [hperm.length_eq, List.length_cons]
      exact Nat.succ_le_of_lt (hle.trans_lt hlt)
  · obtain ⟨rfl, rfl⟩ := Prod.mk.inj hlua
    have hlea : ((calls.set i c').filterMap Call.lease).Sublist (calls.filterMap Call.lease) :=
      Pool.filterMap_set_sublist hget (.inl (hlease'.trans (if_neg Bool.false_ne_true)))
    refine ⟨fun j hj => h.issued j (htok.subset hj), h.nodup.sublist htok, .inr fun x hx => ?_,
      hlea.length_le.trans h.bound⟩
    have hx := hlea.subset hx
    have hread := (hyoung x hx).2
    rw [(members_of_read hread).2, ← (members_of_read hread).1]
    exact hmem x hx

theorem Held.release (h : Held o w calls) {i : ℕ} {c c' : Call} (hget : calls[i]? = some c)
    {T : ℤ} {k : Semaphore.Token} (htoken : c.token = some k) (hlease : c.lease = none)
    (htoken' : c'.token = none) (hlease' : c'.lease = none) :
    Held o { w with sem := (Semaphore.RELEASE_LUA w.sem T k).2 } (calls.set i c') := by
  have htok := Pool.filterMap_set_sublist hget (Or.inl htoken')
  have hlea := Pool.filterMap_set_sublist hget (Or.inl hlease')
  refine ⟨fun j hj => h.issued j (htok.subset hj), h.nodup.sublist htok, ?_,
    hlea.length_le.trans h.bound⟩
  have hne := h.fst_ne hget htoken hlease
  simp only [Semaphore.RELEASE_LUA]
  split
  · cases hread : w.sem.read T with
    | none =>
      refine .inl ?_
      cases hsem : w.sem with
      | none => rfl
      | some e =>
        rw [hsem] at hread
        simp only [Slot.read, Option.bind_some] at hread
        simp only [Slot.modify, Option.bind_some]
        split at hread
        · rename_i hlt
          exact if_pos hlt
        · cases hread
    | some z =>
      have hsome : (w.sem.read T).isSome := by rw [hread]; rfl
      refine .inr fun x hx => ?_
      rw [(members_of_read hsome).2, Semaphore.mem_zrem]
      rcases h.kept with hnone | hkept
      · rw [hnone] at hread
        cases hread
      · exact ⟨hkept x (hlea.subset hx), hne x (hlea.subset hx)⟩
  · exact h.kept.imp_right fun hk x hx => hk x (hlea.subset hx)

theorem Held.step (h : Held o w calls) (hleased : Leased o (w, calls) a)
    (hs : step newURL o (w, calls) a = some (w', calls')) : Held o w' calls' := by
  obtain ⟨c, c', hclock, hget, hstep, rfl⟩ := step_eq_some hs
  have h : Held o { w with clock := a.2.now } calls := ⟨h.issued, h.nodup, h.kept, h.bound⟩
  cases hstep with
  | quiet htoken hlease hticket => exact h.keep hget rfl rfl htoken hlease
  | consumed hpc hr hlua hok hc' =>
    subst hc'
    exact h.keep hget rfl rfl (.inl rfl) (.inl rfl)
  | refused hpc hr hlua hno => exact h.keep hget rfl rfl (.inl rfl) (.inl rfl)
  | drawn hpc hfresh => exact h.draw hget hfresh (by rw [Call.token, hpc]) rfl rfl
  | acquired hpc hr hlua =>
    rename_i deadline now token n key
    refine h.acquire hget ?_ hlua (by rw [Call.token, hpc]) (by rw [Call.lease, hpc]) rfl ?_
    · intro x hx
      obtain ⟨d, hd, hx⟩ := List.mem_filterMap.mp hx
      exact hleased c hget now (by rw [Call.asksAt, hpc]; rfl) hr d hd x hx
    · cases hn : n == 1 <;> simp [Call.lease, Call.at_]
  | scrape hpc hr hbreaker =>
    refine h.keep hget rfl rfl (.inr ?_) (.inr ?_)
    · rw [Call.token, Call.token, hpc]
      rfl
    · rw [Call.lease, Call.lease, hpc]
      rfl
  | released hpc =>
    exact h.release hget (by rw [Call.token, hpc]) (by rw [Call.lease, hpc]) rfl rfl

/-- As long as no call outlives its lease, every state of every run has at most `limit` scrapes in
flight. -/
theorem scrapes_le_limit (hcalls : ∀ c ∈ calls₀, c.pc = .entry)
    (hleased : Meets (step newURL o) (Leased o) (w₀, calls₀) as)
    (hr : exec (step newURL o) (w₀, calls₀) as = some (w, calls)) :
    calls.countP Call.scraping ≤ o.semaphore.limit := by
  have htoken := filterMap_entry (f := Call.token) hcalls fun c hc => by rw [Call.token, hc]
  have hlease := filterMap_entry (f := Call.lease) hcalls fun c hc => by rw [Call.lease, hc]
  have h₀ : Held o w₀ calls₀ := by
    refine ⟨?_, ?_, .inr ?_, ?_⟩
    · rw [htoken]; exact List.forall_mem_nil _
    · rw [htoken]; exact List.nodup_nil
    · rw [hlease]; exact List.forall_mem_nil _
    · rw [hlease]; exact Nat.zero_le _
  have h := exec_invariant_of_meets (I := fun s => Held o s.1 s.2)
    (fun _ _ _ h hc hs => h.step hc hs) h₀ hleased hr
  refine le_trans ?_ h.bound
  rw [List.length_filterMap_eq_countP]
  refine List.countP_mono_left fun c _ hc => ?_
  unfold Call.scraping at hc
  split at hc
  · rename_i hpc
    rw [Call.lease, hpc]
    rfl
  · cases hc

def exampleCall : Call where
  donorUrl := "https://donor.example/post"
  acceptorRaw := "acceptor.example"

def scrapeTurns (i : ℕ) (now : ℤ) (token : Semaphore.Token) : List (ℕ × CrawlTurn) :=
  List.replicate 7 (i, { now, token })

/-- One slot.  The first scrape takes 90 s, as long as its lease, and a second one joins it. -/
theorem slow_scrape_overbooks :
    ∃ w calls,
      exec (step exampleURL (forRoot 1 2)) ({}, [exampleCall, exampleCall])
        (scrapeTurns 0 0 "a" ++ scrapeTurns 1 90000 "b") = some (w, calls) ∧
      calls.countP Call.scraping = 2 := by
  have h : (exec (step exampleURL (forRoot 1 2)) ({}, [exampleCall, exampleCall])
      (scrapeTurns 0 0 "a" ++ scrapeTurns 1 90000 "b")).map (fun s => s.2.countP Call.scraping) =
        some 2 := by decide +kernel
  obtain ⟨⟨w, calls⟩, hr, hcount⟩ := Option.map_eq_some_iff.mp h
  exact ⟨w, calls, hr, hcount⟩

theorem scrapes_le_limit_sample :
    ∃ w calls,
      exec (step exampleURL (forRoot 1 2)) ({}, [exampleCall, exampleCall])
        (scrapeTurns 0 0 "a" ++ [(0, { now := 50, run := foundRun }), (0, { now := 60 })] ++
          scrapeTurns 1 100 "b") = some (w, calls) ∧
      calls.countP Call.scraping ≤ 1 := by
  have h : (exec (step exampleURL (forRoot 1 2)) ({}, [exampleCall, exampleCall])
      (scrapeTurns 0 0 "a" ++ [(0, { now := 50, run := foundRun }), (0, { now := 60 })] ++
        scrapeTurns 1 100 "b")).isSome := by decide +kernel
  obtain ⟨⟨w, calls⟩, hr⟩ := Option.isSome_iff_exists.mp h
  exact ⟨w, calls, hr, scrapes_le_limit (by decide) (by decide +kernel) hr⟩

end LinkBulker.Crawler
