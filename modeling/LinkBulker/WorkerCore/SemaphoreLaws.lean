import LinkBulker.WorkerCore.Semaphore

namespace LinkBulker.Semaphore

open Foundations

variable {o : SemaphoreOptions} {es : List Event} {s : Session}

theorem zadd_of_mem {z : SortedSet} {score : ℤ} {token : Token} (h : ∃ e ∈ z.rows, e.1 = token) :
    z.zadd score token = z.updateWhere (fun e => e.1 = token) (fun e => (e.1, score)) fun _ => rfl := by
  unfold SortedSet.zadd
  cases hi : z.insertMany [(token, score)] with
  | none => rfl
  | some z' =>
    obtain ⟨e, he, rfl⟩ := h
    have hn := z'.nodup
    rw [Table.insertMany_eq_some.mp hi] at hn
    simp only [List.map_append, List.map_cons, List.map_nil, List.nodup_append, List.mem_singleton,
      List.mem_map] at hn
    exact absurd rfl (hn.2.2 e.1 ⟨e, he, rfl⟩ e.1 rfl)

theorem rows_zadd_of_not_mem {z : SortedSet} {score : ℤ} {token : Token}
    (h : ∀ e ∈ z.rows, e.1 ≠ token) : (z.zadd score token).rows = z.rows ++ [(token, score)] := by
  have hn : ((z.rows ++ [(token, score)]).map Prod.fst).Nodup := by
    rw [List.map_append, List.nodup_append]
    refine ⟨z.nodup, by simp, ?_⟩
    simp only [List.mem_map, List.map_cons, List.map_nil, List.mem_singleton]
    rintro _ ⟨e, he, rfl⟩ _ rfl
    exact h e he
  have hins : z.insertMany [(token, score)] = some ⟨_, hn⟩ := Table.insertMany_eq_some.mpr rfl
  rw [SortedSet.zadd, hins]

theorem mem_zadd {z : SortedSet} {score : ℤ} {token : Token} {e : Token × ℤ} :
    e ∈ (z.zadd score token).rows ↔ e = (token, score) ∨ e ∈ z.rows ∧ e.1 ≠ token := by
  by_cases h : ∃ e ∈ z.rows, e.1 = token
  · rw [zadd_of_mem h, Table.mem_updateWhere]
    obtain ⟨e₀, he₀, rfl⟩ := h
    constructor
    · rintro ⟨e₁, he₁, rfl⟩
      split
      · rename_i hk
        exact .inl (Prod.ext (by simpa using hk) rfl)
      · rename_i hk
        exact .inr ⟨he₁, by simpa using hk⟩
    · rintro (rfl | ⟨he, hne⟩)
      · exact ⟨e₀, he₀, by simp⟩
      · exact ⟨e, he, by simp [hne]⟩
  · have h' : ∀ e ∈ z.rows, e.1 ≠ token := fun e he hk => h ⟨e, he, hk⟩
    rw [rows_zadd_of_not_mem h']
    simp only [List.mem_append, List.mem_singleton]
    constructor
    · rintro (he | rfl)
      · exact .inr ⟨he, h' e he⟩
      · exact .inl rfl
    · rintro (rfl | ⟨he, -⟩)
      · exact .inr rfl
      · exact .inl he

theorem zcard_zadd_of_mem {z : SortedSet} {score : ℤ} {token : Token}
    (h : ∃ e ∈ z.rows, e.1 = token) : (z.zadd score token).zcard = z.zcard := by
  simp [zadd_of_mem h, SortedSet.zcard, Table.updateWhere, Table.mapRows]

theorem zcard_zadd_of_not_mem {z : SortedSet} {score : ℤ} {token : Token}
    (h : ∀ e ∈ z.rows, e.1 ≠ token) : (z.zadd score token).zcard = z.zcard + 1 := by
  simp [rows_zadd_of_not_mem h, SortedSet.zcard]

theorem mem_zremrangebyscore {z : SortedSet} {max : ℤ} {e : Token × ℤ} :
    e ∈ (z.zremrangebyscore max).rows ↔ e ∈ z.rows ∧ max < e.2 := by
  simp [SortedSet.zremrangebyscore]

theorem mem_zrem {z : SortedSet} {token : Token} {e : Token × ℤ} :
    e ∈ (z.zrem token).rows ↔ e ∈ z.rows ∧ e.1 ≠ token := by
  simp [SortedSet.zrem, Table.delete]

theorem zscore_eq_some {z : SortedSet} {token : Token} {r : ℤ} :
    z.zscore token = some r ↔ (token, r) ∈ z.rows := by
  simp only [SortedSet.zscore, Option.map_eq_some_iff, Table.find?_eq_some]
  constructor
  · rintro ⟨e, ⟨he, rfl⟩, rfl⟩
    exact he
  · intro h
    exact ⟨_, ⟨h, rfl⟩, rfl⟩

theorem zscore_eq_none {z : SortedSet} {token : Token} :
    z.zscore token = none ↔ ∀ e ∈ z.rows, e.1 ≠ token := by
  simp [SortedSet.zscore, Table.find?_eq_none]

def Key.stored (key : Key) : SortedSet := (key.map Expiring.value).getD Table.empty

def Key.pruned (key : Key) (redisNow now ttl : ℤ) : SortedSet :=
  (key.members redisNow).zremrangebyscore (now - ttl)

theorem stored_modify_subset {key : Key} {now : ℤ} {f : SortedSet → SortedSet}
    (hf : ∀ z : SortedSet, (f z).rows.Sublist z.rows) :
    (Key.stored (key.modify now f)).rows.Sublist key.stored.rows := by
  cases key with
  | none => exact List.Sublist.refl _
  | some e =>
    simp only [Slot.modify, Option.bind_some]
    split
    · exact List.nil_sublist _
    · exact hf e.value

theorem stored_write {z : SortedSet} {now ttl : ℤ} :
    Key.stored (Slot.write z now ttl) = if ttl ≤ 0 then Table.empty else z := by
  simp only [Slot.write, Key.stored]
  split <;> rfl

theorem members_sublist (key : Key) (now : ℤ) : (key.members now).rows.Sublist key.stored.rows := by
  cases key with
  | none => exact List.Sublist.refl _
  | some e =>
    simp only [Key.members, Key.stored, Slot.read, Option.bind_some]
    split
    · exact List.nil_sublist _
    · exact List.Sublist.refl _

theorem mem_members_of_le {key : Key} {now later : ℤ} (h : now ≤ later) {e : Token × ℤ}
    (he : e ∈ (key.members later).rows) : e ∈ (key.members now).rows := by
  unfold Key.members at he ⊢
  cases hr : key.read later with
  | none => simp [hr, Table.empty] at he
  | some z =>
    rw [Slot.read_mono h hr]
    simpa [hr] using he

theorem mem_members_of_pruned {key : Key} {redisNow now ttl : ℤ} {e : Token × ℤ}
    (he : e ∈ (key.pruned redisNow now ttl).rows) : e ∈ (key.members redisNow).rows :=
  (mem_zremrangebyscore.mp he).1

theorem mem_members_write {z : SortedSet} {now ttl t : ℤ} {e : Token × ℤ}
    (he : e ∈ (Key.members (Slot.write z now ttl) t).rows) : e ∈ z.rows := by
  have := (members_sublist _ _).subset he
  rw [stored_write] at this
  split at this
  · simp [Table.empty] at this
  · exact this

theorem members_modify {key : Key} {now : ℤ} {f : SortedSet → SortedSet}
    (hf : f Table.empty = Table.empty) :
    Key.members (key.modify now f) now = f (key.members now) := by
  simp only [Key.members, Slot.read_modify]
  cases key.read now with
  | none => exact hf.symm
  | some z => rfl

theorem ACQUIRE_LUA_eq (key : Key) (redisNow now ttl : ℤ) (limit : ℕ) (token : Token) :
    ACQUIRE_LUA key redisNow now ttl limit token =
      if (key.pruned redisNow now ttl).zcard < limit then
        (1, Slot.write ((key.pruned redisNow now ttl).zadd now token) redisNow ttl)
      else (0, key.modify redisNow fun z => z.zremrangebyscore (now - ttl)) := by
  have h : Key.members (key.modify redisNow fun z => z.zremrangebyscore (now - ttl)) redisNow =
      key.pruned redisNow now ttl := members_modify rfl
  simp only [ACQUIRE_LUA, h]

@[simp] theorem refreshedAt_concat (es : List Event) (e : Event) (token : Token) :
    refreshedAt (es ++ [e]) token = note token (refreshedAt es token) e := by
  simp [refreshedAt]

@[simp] theorem leases_concat (es : List Event) (e : Event) :
    leases (es ++ [e]) = leases es ++ if e.ok then e.op.issues else [] := by
  simp [leases]

theorem live_eq_true {now : ℤ} {token : Token} :
    live o es now token = true ↔ ∃ r, refreshedAt es token = some r ∧ now - r < o.ttlMs := by
  unfold live
  cases refreshedAt es token <;> simp

structure Inv (o : SemaphoreOptions) (es : List Event) (s : Session) : Prop where
  capped : s.key.stored.zcard ≤ o.limit
  scored : ∀ e ∈ (s.key.members s.clock).rows, refreshedAt es e.1 = some e.2
  kept : ∀ k r, refreshedAt es k = some r → s.clock - r < o.ttlMs →
    ∃ z d, s.key = some ⟨z, d⟩ ∧ (k, r) ∈ z.rows ∧ r + o.ttlMs ≤ d
  past : ∀ k r, refreshedAt es k = some r → r ≤ s.clock ∧ k ∈ leases es
  nodup : (leases es).Nodup
  issued : ∀ k ∈ leases es, k ∈ s.issued

theorem Inv.start (clock : ℤ) : Inv o [] (Session.start clock) where
  capped := by simp [Session.start, Key.stored, SortedSet.zcard, Table.empty]
  scored := by simp [Session.start, Key.members, Table.empty]
  kept := by simp [refreshedAt]
  past := by simp [refreshedAt]
  nodup := by simp [leases]
  issued := by simp [leases]

/-- At any later time the pruned set holds exactly the live leases. -/
theorem Inv.mem_pruned (h : Inv o es s) {t : ℤ} (ht : s.clock ≤ t) {k : Token} {r : ℤ} :
    (k, r) ∈ (s.key.pruned t t o.ttlMs).rows ↔ refreshedAt es k = some r ∧ t - r < o.ttlMs := by
  constructor
  · intro hm
    have hs := h.scored _ (mem_members_of_le ht (mem_members_of_pruned hm))
    rw [Key.pruned, mem_zremrangebyscore] at hm
    exact ⟨hs, by have := hm.2; simp only at this; omega⟩
  · rintro ⟨hr, hlt⟩
    obtain ⟨z, d, hk, hm, hd⟩ := h.kept k r hr (by omega)
    have hmem : s.key.members t = z := by
      have : s.key.read t = some z := Slot.read_eq_some.mpr ⟨d, hk, by omega⟩
      simp [Key.members, this]
    rw [Key.pruned, mem_zremrangebyscore, hmem]
    exact ⟨hm, by simp only; omega⟩

theorem Inv.zcard_pruned (h : Inv o es s) {t : ℤ} (ht : s.clock ≤ t) :
    (s.key.pruned t t o.ttlMs).zcard = liveCount o es t := by
  have hperm : ((s.key.pruned t t o.ttlMs).rows.map Prod.fst).Perm
      ((leases es).filter (live o es t)) := by
    rw [List.perm_ext_iff_of_nodup (s.key.pruned t t o.ttlMs).nodup (h.nodup.filter _)]
    intro k
    rw [List.mem_filter, live_eq_true, List.mem_map]
    constructor
    · rintro ⟨⟨k, r⟩, hm, rfl⟩
      obtain ⟨hr, hlt⟩ := (h.mem_pruned ht).mp hm
      exact ⟨(h.past k r hr).2, r, hr, hlt⟩
    · rintro ⟨-, r, hr, hlt⟩
      exact ⟨(k, r), (h.mem_pruned ht).mpr ⟨hr, hlt⟩, rfl⟩
  rw [liveCount, List.countP_eq_length_filter, ← hperm.length_eq, List.length_map]
  rfl

theorem Inv.mem_members (h : Inv o es s) {t : ℤ} (ht : s.clock ≤ t) {k : Token}
    (hl : live o es t k) : ∃ r, (s.key.members t).zscore k = some r := by
  obtain ⟨r, hr⟩ := live_eq_true.mp hl
  have hm := (h.mem_pruned ht).mpr hr
  rw [Key.pruned, mem_zremrangebyscore] at hm
  exact ⟨r, zscore_eq_some.mpr hm.1⟩

theorem Inv.refreshedAt_of_not_issued (h : Inv o es s) {k : Token} (hk : k ∉ s.issued) :
    refreshedAt es k = none := by
  cases hr : refreshedAt es k with
  | none => rfl
  | some r => exact absurd (h.issued k (h.past k r hr).2) hk

theorem Inv.refresh (h : Inv o es s) {e : Event} {k : Token} {z : SortedSet} {issued : List Token}
    (ht : s.clock ≤ e.time)
    (hz : ∀ x ∈ z.rows, x ∈ (s.key.members s.clock).rows)
    (hlive : ∀ k' r, refreshedAt es k' = some r → e.time - r < o.ttlMs → (k', r) ∈ z.rows)
    (hnote : ∀ k', note k' (refreshedAt es k') e =
      if k = k' then some e.time else refreshedAt es k')
    (hcard : (z.zadd e.time k).zcard ≤ o.limit)
    (hk : k ∈ leases (es ++ [e])) (hnodup : (leases (es ++ [e])).Nodup)
    (hissued : ∀ k' ∈ leases (es ++ [e]), k' ∈ issued) :
    Inv o (es ++ [e]) ⟨Slot.write (z.zadd e.time k) e.time o.ttlMs, e.time, issued⟩ where
  capped := by
    rw [stored_write]
    split
    · simp [SortedSet.zcard, Table.empty]
    · exact hcard
  scored := by
    intro x hx
    rw [refreshedAt_concat, hnote]
    rcases mem_zadd.mp (mem_members_write hx) with rfl | ⟨hx, hne⟩
    · simp
    · rw [if_neg (Ne.symm hne)]
      exact h.scored x (hz x hx)
  kept := by
    intro k' r hr hlt
    simp only [refreshedAt_concat, hnote] at hr
    simp only at hlt
    have hpos : 0 < o.ttlMs := by
      split at hr
      · cases hr; omega
      · have := (h.past k' r hr).1; omega
    refine ⟨z.zadd e.time k, e.time + o.ttlMs, if_neg (by omega), mem_zadd.mpr ?_, ?_⟩
    · split at hr
      · rename_i heq
        cases hr
        exact .inl (by rw [heq])
      · rename_i hne
        exact .inr ⟨hlive k' r hr hlt, Ne.symm hne⟩
    · split at hr
      · cases hr; omega
      · have := (h.past k' r hr).1; omega
  past := by
    intro k' r hr
    rw [refreshedAt_concat, hnote] at hr
    split at hr
    · rename_i heq
      cases hr
      exact ⟨le_rfl, heq ▸ hk⟩
    · have := h.past k' r hr
      exact ⟨by simp only; omega, by rw [leases_concat]; exact List.mem_append_left _ this.2⟩
  nodup := hnodup
  issued := hissued

theorem Inv.shrink (h : Inv o es s) {e : Event} {key : Key} {issued : List Token}
    (ht : s.clock ≤ e.time) (hkey : key.stored.rows.Sublist s.key.stored.rows)
    (hmem : ∀ x ∈ (key.members e.time).rows, x ∈ (s.key.members e.time).rows)
    (hnote : ∀ k', note k' (refreshedAt es k') e = refreshedAt es k' ∨
      note k' (refreshedAt es k') e = none ∧ ∀ x ∈ (key.members e.time).rows, x.1 ≠ k')
    (hkept : ∀ k' r, note k' (refreshedAt es k') e = some r → e.time - r < o.ttlMs →
      ∃ z d, key = some ⟨z, d⟩ ∧ (k', r) ∈ z.rows ∧ r + o.ttlMs ≤ d)
    (hleases : leases (es ++ [e]) = leases es) (hissued : ∀ k' ∈ s.issued, k' ∈ issued) :
    Inv o (es ++ [e]) ⟨key, e.time, issued⟩ where
  capped := Nat.le_trans hkey.length_le h.capped
  scored := by
    intro x hx
    rw [refreshedAt_concat]
    rcases hnote x.1 with hn | ⟨-, hn⟩
    · rw [hn]; exact h.scored x (mem_members_of_le ht (hmem x hx))
    · exact absurd rfl (hn x hx)
  kept := by
    intro k' r hr hlt
    rw [refreshedAt_concat] at hr
    exact hkept k' r hr hlt
  past := by
    intro k' r hr
    rw [refreshedAt_concat] at hr
    rcases hnote k' with hn | ⟨hn, -⟩
    · rw [hn] at hr
      have := h.past k' r hr
      exact ⟨by simp only; omega, hleases ▸ this.2⟩
    · simp [hn] at hr
  nodup := hleases ▸ h.nodup
  issued := fun k' hk' => hissued k' (h.issued k' (hleases ▸ hk'))

theorem Session.step_eq_some {e : Event} {s' : Session} :
    s.step o e = some s' ↔
      s.clock ≤ e.time ∧ (∀ token ∈ e.op.issues, token ∉ s.issued) ∧
        (serve o s.key e.time e.op).1 = e.ok ∧
        s' = ⟨(serve o s.key e.time e.op).2, e.time, e.op.issues ++ s.issued⟩ := by
  unfold Session.step
  split
  · rename_i h
    obtain ⟨h1, h2, h3⟩ := h
    rw [Option.some_inj]
    exact ⟨fun e => ⟨h1, h2, h3, e.symm⟩, fun e => e.2.2.2.symm⟩
  · rename_i h
    simp only [reduceCtorEq, false_iff]
    rintro ⟨h1, h2, h3, -⟩
    exact h ⟨h1, h2, h3⟩

theorem serve_tryAcquire (o : SemaphoreOptions) (key : Key) (t : ℤ) (k : Token) :
    serve o key t (.tryAcquire k) =
      if (key.pruned t t o.ttlMs).zcard < o.limit then
        (true, Slot.write ((key.pruned t t o.ttlMs).zadd t k) t o.ttlMs)
      else (false, key.modify t fun z => z.zremrangebyscore (t - o.ttlMs)) := by
  simp only [serve, ACQUIRE_LUA_eq]
  split <;> rfl

theorem serve_heartbeat_of_some {key : Key} {t r : ℤ} {k : Token}
    (h : (key.members t).zscore k = some r) :
    serve o key t (.heartbeat k) =
      (true, Slot.write ((key.members t).zadd t k) t o.ttlMs) := by
  simp [serve, HEARTBEAT_LUA, h]

theorem serve_heartbeat_of_none {key : Key} {t : ℤ} {k : Token}
    (h : (key.members t).zscore k = none) : serve o key t (.heartbeat k) = (false, key) := by
  simp [serve, HEARTBEAT_LUA, h]

theorem serve_release_of_some {key : Key} {t r : ℤ} {k : Token}
    (h : (key.members t).zscore k = some r) :
    serve o key t (.release k) = (true, key.modify t fun z => z.zrem k) := by
  simp [serve, RELEASE_LUA, h]

theorem serve_release_of_none {key : Key} {t : ℤ} {k : Token}
    (h : (key.members t).zscore k = none) : serve o key t (.release k) = (false, key) := by
  simp [serve, RELEASE_LUA, h]

theorem Inv.acquire (h : Inv o es s) {t : ℤ} {k : Token} (ht : s.clock ≤ t) (hk : k ∉ s.issued) :
    Inv o (es ++ [⟨t, .tryAcquire k, (serve o s.key t (.tryAcquire k)).1⟩])
      ⟨(serve o s.key t (.tryAcquire k)).2, t, k :: s.issued⟩ := by
  rw [serve_tryAcquire]
  have hnone := h.refreshedAt_of_not_issued hk
  have hnew : ∀ e ∈ (s.key.pruned t t o.ttlMs).rows, e.1 ≠ k := by
    rintro ⟨k', r⟩ he rfl
    rw [((h.mem_pruned ht).mp he).1] at hnone
    cases hnone
  split
  · rename_i hlt
    refine h.refresh (k := k) ht ?_ ?_ ?_ ?_ ?_ ?_ ?_
    · exact fun x hx => mem_members_of_le ht (mem_members_of_pruned hx)
    · exact fun k' r hr hl => (h.mem_pruned ht).mpr ⟨hr, hl⟩
    · simp [note]
    · rw [zcard_zadd_of_not_mem hnew]; exact hlt
    · simp [Op.issues]
    · rw [leases_concat, List.nodup_append]
      refine ⟨h.nodup, by simp [Op.issues], ?_⟩
      rintro k' hk' _ hk'' rfl
      have : k' = k := by simpa [Op.issues] using hk''
      exact hk (this ▸ h.issued k' hk')
    · intro k' hk'
      rcases List.mem_append.mp (leases_concat es _ ▸ hk') with hk' | hk'
      · exact List.mem_cons_of_mem _ (h.issued k' hk')
      · simpa [Op.issues] using Or.inl hk'
  · refine h.shrink ht ?_ ?_ ?_ ?_ ?_ ?_
    · exact stored_modify_subset (f := fun z => z.zremrangebyscore (t - o.ttlMs))
        fun z => List.filter_sublist
    · intro x hx
      rw [members_modify rfl] at hx
      exact (mem_zremrangebyscore.mp hx).1
    · intro k'
      exact .inl (by simp [note])
    · intro k' r hr hlt
      have hr : refreshedAt es k' = some r := by simpa [note] using hr
      obtain ⟨z, d, hkey, hm, hd⟩ := h.kept k' r hr (by simp only at hlt; omega)
      simp only at hlt
      refine ⟨z.zremrangebyscore (t - o.ttlMs), d, ?_, mem_zremrangebyscore.mpr ⟨hm, ?_⟩, hd⟩
      · rw [hkey]
        exact Slot.modify_of_le (fun z : SortedSet => z.zremrangebyscore (t - o.ttlMs)) (by omega)
      · omega
    · simp
    · exact fun k' hk' => List.mem_cons_of_mem _ hk'

theorem Inv.heartbeat (h : Inv o es s) {t : ℤ} {k : Token} (ht : s.clock ≤ t) :
    Inv o (es ++ [⟨t, .heartbeat k, (serve o s.key t (.heartbeat k)).1⟩])
      ⟨(serve o s.key t (.heartbeat k)).2, t, s.issued⟩ := by
  cases hz : (s.key.members t).zscore k with
  | some r =>
    rw [serve_heartbeat_of_some hz]
    have hm := zscore_eq_some.mp hz
    have hr : refreshedAt es k = some r := h.scored _ (mem_members_of_le ht hm)
    refine h.refresh (k := k) ht ?_ ?_ ?_ ?_ ?_ ?_ ?_
    · exact fun x hx => mem_members_of_le ht hx
    · exact fun k' r' hr' hl => mem_members_of_pruned ((h.mem_pruned ht).mpr ⟨hr', hl⟩)
    · simp [note]
    · rw [zcard_zadd_of_mem ⟨_, hm, rfl⟩]
      exact Nat.le_trans (members_sublist _ _).length_le h.capped
    · simpa [Op.issues] using (h.past k r hr).2
    · simpa [Op.issues] using h.nodup
    · simpa [Op.issues] using h.issued
  | none =>
    rw [serve_heartbeat_of_none hz]
    refine h.shrink ht (List.Sublist.refl _) (fun x hx => hx) ?_ ?_ ?_ fun k' hk' => hk'
    · exact fun k' => .inl (by simp [note])
    · intro k' r hr hlt
      exact h.kept k' r (by simpa [note] using hr) (by simp only at hlt; omega)
    · simp

theorem Inv.release (h : Inv o es s) {t : ℤ} {k : Token} (ht : s.clock ≤ t) :
    Inv o (es ++ [⟨t, .release k, (serve o s.key t (.release k)).1⟩])
      ⟨(serve o s.key t (.release k)).2, t, s.issued⟩ := by
  cases hz : (s.key.members t).zscore k with
  | some r =>
    rw [serve_release_of_some hz]
    have hmem : Key.members (s.key.modify t fun z => z.zrem k) t = (s.key.members t).zrem k :=
      members_modify rfl
    refine h.shrink ht ?_ ?_ ?_ ?_ ?_ fun k' hk' => hk'
    · exact stored_modify_subset (f := fun z => z.zrem k) fun z => List.filter_sublist
    · intro x hx
      rw [hmem] at hx
      exact (mem_zrem.mp hx).1
    · intro k'
      by_cases hk : k = k'
      · subst hk
        refine .inr ⟨by simp [note], ?_⟩
        intro x hx
        rw [hmem] at hx
        exact (mem_zrem.mp hx).2
      · exact .inl (by simp [note, hk])
    · intro k' r' hr hlt
      simp only at hlt
      have hne : k ≠ k' := by
        rintro rfl
        simp [note] at hr
      have hr : refreshedAt es k' = some r' := by simpa [note, hne] using hr
      obtain ⟨z, d, hkey, hm, hd⟩ := h.kept k' r' hr (by omega)
      refine ⟨z.zrem k, d, ?_, mem_zrem.mpr ⟨hm, Ne.symm hne⟩, hd⟩
      rw [hkey]
      exact Slot.modify_of_le (fun z : SortedSet => z.zrem k) (by omega)
    · simp [Op.issues]
  | none =>
    rw [serve_release_of_none hz]
    refine h.shrink ht (List.Sublist.refl _) (fun x hx => hx) ?_ ?_ ?_ fun k' hk' => hk'
    · intro k'
      by_cases hk : k = k'
      · subst hk
        exact .inr ⟨by simp [note], zscore_eq_none.mp hz⟩
      · exact .inl (by simp [note, hk])
    · intro k' r hr hlt
      have hne : k ≠ k' := by
        rintro rfl
        simp [note] at hr
      exact h.kept k' r (by simpa [note, hne] using hr) (by simp only at hlt; omega)
    · simp

theorem Inv.step (h : Inv o es s) {e : Event} {s' : Session} (hs : s.step o e = some s') :
    Inv o (es ++ [e]) s' := by
  obtain ⟨t, op, ok⟩ := e
  obtain ⟨ht, hfresh, hok, rfl⟩ := Session.step_eq_some.mp hs
  simp only at ht hfresh hok
  subst hok
  cases op with
  | tryAcquire k => exact h.acquire ht (hfresh k (List.mem_singleton_self k))
  | heartbeat k => exact h.heartbeat ht
  | release k => exact h.release ht

theorem Inv.exec {clock : ℤ} (hr : exec (Session.step o) (Session.start clock) es = some s) :
    Inv o es s :=
  exec_history (Inv.start clock) (fun _ _ _ _ h hs => h.step hs) hr

structure Exact (o : SemaphoreOptions) (es : List Event) (s : Session) : Prop where
  zcard_le : s.key.stored.zcard ≤ o.limit
  liveCount_le : ∀ now, s.clock ≤ now → liveCount o es now ≤ o.limit
  tryAcquire_iff : ∀ now token, s.clock ≤ now → token ∉ s.issued →
    ((serve o s.key now (.tryAcquire token)).1 = true ↔ liveCount o es now < o.limit)
  heartbeat_ok : ∀ now token, s.clock ≤ now → live o es now token →
    (serve o s.key now (.heartbeat token)).1 = true
  frame : ∀ e s' token, s.step o e = some s' → e.op = .heartbeat token ∨ e.op = .release token →
    ∀ other ≠ token, ∀ now, e.time ≤ now →
      live o (es ++ [e]) now other = live o es now other ∧
        ∀ r, (other, r) ∈ (s'.key.pruned now now o.ttlMs).rows ↔
          (other, r) ∈ (s.key.pruned now now o.ttlMs).rows

theorem note_of_ne {e : Event} {token other : Token} (hne : other ≠ token)
    (he : e.op = .heartbeat token ∨ e.op = .release token) (last : Option ℤ) :
    note other last e = last := by
  rcases he with he | he <;> simp [note, he, Ne.symm hne]

theorem semaphore_exact {clock : ℤ}
    (hr : exec (Session.step o) (Session.start clock) es = some s) : Exact o es s where
  zcard_le := (Inv.exec hr).capped
  liveCount_le := by
    intro now hnow
    rw [← (Inv.exec hr).zcard_pruned hnow]
    have hsub : (s.key.pruned now now o.ttlMs).rows.Sublist s.key.stored.rows :=
      List.filter_sublist.trans (members_sublist s.key now)
    exact Nat.le_trans hsub.length_le (Inv.exec hr).capped
  tryAcquire_iff := by
    intro now token hnow _
    rw [serve_tryAcquire, ← (Inv.exec hr).zcard_pruned hnow]
    split <;> simp_all
  heartbeat_ok := by
    intro now token hnow hl
    obtain ⟨r, hz⟩ := (Inv.exec hr).mem_members hnow hl
    rw [serve_heartbeat_of_some hz]
  frame := by
    intro e s' token hs he other hne now hnow
    have hn : refreshedAt (es ++ [e]) other = refreshedAt es other := by
      rw [refreshedAt_concat, note_of_ne hne he]
    have hs' := (Inv.exec hr).step hs
    obtain ⟨ht, -, -, rfl⟩ := Session.step_eq_some.mp hs
    refine ⟨by simp only [live, hn], fun r => ?_⟩
    rw [hs'.mem_pruned hnow, (Inv.exec hr).mem_pruned (Int.le_trans ht hnow), hn]

def reclaimed : List Event :=
  [⟨0, .tryAcquire "a", true⟩, ⟨6, .heartbeat "a", true⟩, ⟨15, .tryAcquire "b", false⟩,
    ⟨16, .tryAcquire "c", true⟩, ⟨17, .heartbeat "a", false⟩]

theorem semaphore_exact_reclaimed :
    ∃ s, exec (Session.step ⟨1, 10⟩) (Session.start 0) reclaimed = some s ∧
      Exact ⟨1, 10⟩ reclaimed s := by
  have hr : exec (Session.step ⟨1, 10⟩) (Session.start 0) reclaimed = some _ := rfl
  exact ⟨_, hr, semaphore_exact hr⟩

end LinkBulker.Semaphore
