import LinkBulker.Worker.Batch
import LinkBulker.Worker.SingleLinkLaws

namespace LinkBulker.Worker

open Foundations Db Shared LinkRepository SingleLink

def Gone (db : Database) (id : LinkId) : Prop := ∀ l ∈ db.links.rows, l.id ≠ id

instance (db : Database) (id : LinkId) : Decidable (Gone db id) :=
  inferInstanceAs (Decidable (∀ l ∈ db.links.rows, l.id ≠ id))

theorem gone_iff_of_inputs {db db' : Database} {id : LinkId}
    (h : db'.links.rows.map Link.input = db.links.rows.map Link.input) :
    Gone db' id ↔ Gone db id := by
  have ids : ∀ d : Database, Gone d id ↔ ∀ i ∈ d.links.rows.map Link.input, i.id ≠ id := by
    intro d
    simp only [Gone, List.mem_map, forall_exists_index, and_imp, forall_apply_eq_imp_iff₂]
    rfl
  rw [ids, ids, h]

namespace Batch

variable {newURL : UrlParser} {w w' : World} {b b' : Batch} {i k n : ℕ} {t : Turn}

theorem move_eq_some (h : b.move newURL w k t = some (w', b')) :
    ∃ c c', b.calls[k]? = some c ∧ c'.linkId = c.linkId ∧
      Moves newURL w c.linkId t c.pc w' c'.pc ∧ b' = { b with calls := b.calls.set k c' } := by
  simp only [move, Option.map_eq_some_iff, Prod.exists, Prod.mk.injEq] at h
  obtain ⟨w₁, calls, hs, rfl, rfl⟩ := h
  obtain ⟨c, c', hget, hmove, rfl⟩ := Pool.step_eq_some.mp hs
  obtain ⟨hlink, hm⟩ := SingleLink.move_eq_some hmove
  exact ⟨c, c', hget, hlink, hm, rfl⟩

theorem unstarted_set {calls : List ProcessOne} {c : ProcessOne} :
    unstarted { b with calls := calls.set k c } = unstarted { b with calls } := by
  simp [unstarted]

theorem rejected_of_all (h : b.all i = some false) : ∃ c ∈ b.calls, c.pc = .rejected := by
  unfold all at h
  split at h
  · rename_i hany
    obtain ⟨c, hc, hpc⟩ := List.any_eq_true.mp hany
    exact ⟨c, List.mem_of_mem_drop hc, by simpa using hpc⟩
  · split at h <;> cases h

theorem resolved_of_all (h : b.all i = some true) : ∀ c ∈ b.calls.drop i, c.pc = .resolved := by
  unfold all at h
  split at h
  · cases h
  · split at h
    · rename_i hall
      simpa using hall
    · cases h

@[simp] theorem start_ids : (b.start n i).ids = b.ids := rfl

theorem length_start (hi : b.calls.length = i) :
    (b.start n i).calls.length = min (i + n) (max i b.ids.length) := by
  simp only [start, List.length_append, List.length_map, List.length_take, List.length_drop, hi]
  omega

theorem mem_calls_start {c : ProcessOne} (h : c ∈ (b.start n i).calls) :
    c ∈ b.calls ∨ c.pc = .findById ∧ c.linkId ∈ b.ids := by
  rcases List.mem_append.mp h with h | h
  · exact .inl h
  · obtain ⟨id, hid, rfl⟩ := List.mem_map.mp h
    exact .inr ⟨rfl, List.mem_of_mem_drop (List.mem_of_mem_take hid)⟩

theorem unstarted_start (hi : b.calls.length = i) {id : LinkId} (h : id ∈ b.unstarted) :
    id ∈ (b.start n i).unstarted ∨ ⟨id, .findById⟩ ∈ (b.start n i).calls := by
  unfold unstarted at h
  rw [hi] at h
  rw [← List.take_append_drop n (b.ids.drop i), List.mem_append] at h
  rcases h with h | h
  · exact .inr (List.mem_append_right _ (List.mem_map_of_mem h))
  · refine .inl ?_
    have hle : (b.start n i).calls.length ≤ i + n := by
      simp only [start, List.length_append, List.length_map, List.length_take, hi]
      omega
    rw [List.drop_drop] at h
    unfold unstarted
    rw [show i + n = (b.start n i).calls.length + (i + n - (b.start n i).calls.length) by omega,
      ← List.drop_drop] at h
    exact List.mem_of_mem_drop h

theorem map_linkId_set {calls : List ProcessOne} {c c' : ProcessOne}
    (hget : calls[k]? = some c) (hlink : c'.linkId = c.linkId) :
    (calls.set k c').map ProcessOne.linkId = calls.map ProcessOne.linkId := by
  obtain ⟨hk, rfl⟩ := List.getElem?_eq_some_iff.mp hget
  have hk' : k < (calls.map ProcessOne.linkId).length := by rwa [List.length_map]
  rw [List.map_set, hlink]
  nth_rewrite 2 [← List.set_getElem_self hk']
  rw [List.getElem_map]

theorem mem_unstarted_of_start {id : LinkId} (h : id ∈ (b.start n i).unstarted) :
    id ∈ b.unstarted := by
  have hle : b.calls.length ≤ (b.start n i).calls.length := by simp [start]
  unfold unstarted at h ⊢
  rw [show (b.start n i).calls.length = b.calls.length +
    ((b.start n i).calls.length - b.calls.length) by omega, ← List.drop_drop] at h
  exact List.mem_of_mem_drop h

theorem settled_iff : b.settled ↔ ∀ c ∈ b.calls, c.settled := by simp [settled]

theorem settled_of_nil (h : b.calls = []) : b.settled := by simp [settled, h]

theorem settled_of_pc {c : ProcessOne} (h : c.pc = .resolved ∨ c.pc = .rejected) : c.settled := by
  unfold ProcessOne.settled
  rcases h with h | h <;> rw [h]

theorem unsettled_of_move (h : b.move newURL w k t = some (w', b')) :
    ∃ c, b.calls[k]? = some c ∧ c.settled = false := by
  obtain ⟨c, c', hget, -, hm, -⟩ := move_eq_some h
  refine ⟨c, hget, ?_⟩
  obtain ⟨hres, hrej⟩ := hm.unsettled
  unfold ProcessOne.settled
  split <;> first | rfl | contradiction

theorem le_of_move (hs : ∀ c ∈ b.calls.take i, c.settled) (h : b.move newURL w k t = some (w', b')) :
    i ≤ k := by
  obtain ⟨c, hget, hc⟩ := unsettled_of_move h
  by_contra hki
  have hmem : c ∈ b.calls.take i :=
    List.mem_of_getElem? (i := k) (by rw [List.getElem?_take, if_pos (not_le.mp hki), hget])
  rw [hs c hmem] at hc
  cases hc

theorem not_settled_of_move (h : b.move newURL w k t = some (w', b')) : b.settled = false := by
  obtain ⟨c, hget, hc⟩ := unsettled_of_move h
  by_contra hs
  rw [settled_iff.mp (by simpa using hs) c (List.mem_of_getElem? hget)] at hc
  cases hc

theorem rejected_of_move (hrej : ∃ c ∈ b.calls, c.pc = .rejected)
    (h : b.move newURL w k t = some (w', b')) : ∃ c ∈ b'.calls, c.pc = .rejected := by
  obtain ⟨d, hd, hpc⟩ := hrej
  obtain ⟨c, c', hget, -, hm, rfl⟩ := move_eq_some h
  rcases Pool.mem_set_of_mem hget hd with rfl | hd
  · exact absurd hpc hm.unsettled.2
  · exact ⟨d, hd, hpc⟩

theorem move_isSome_of_all (h : b.all i = none) (newURL : UrlParser) :
    ∃ k, ∀ w t, (b.move newURL w k t).isSome := by
  unfold all at h
  split at h
  · cases h
  · rename_i hany
    split at h
    · cases h
    · rename_i hall
      simp only [List.all_eq_true, decide_eq_true_eq, not_forall] at hall
      obtain ⟨c, hc, hresolved⟩ := hall
      have hrejected : c.pc ≠ .rejected := by
        intro hrejected
        exact hany (List.any_eq_true.mpr ⟨c, hc, decide_eq_true hrejected⟩)
      have hunsettled : c.settled = false := by
        unfold ProcessOne.settled
        split <;> first | rfl | contradiction
      obtain ⟨k, hk⟩ := List.mem_iff_getElem?.mp (List.mem_of_mem_drop hc)
      refine ⟨k, fun w t => ?_⟩
      simp only [move, Pool.step, hk, Option.isSome_map]
      exact SingleLink.move_isSome hunsettled w t

def left (b : Batch) : ℕ := (b.calls.map fun c => c.pc.left).sum

theorem left_lt_of_move (h : b.move newURL w k t = some (w', b')) : b'.left < b.left := by
  obtain ⟨c, c', hget, -, hm, rfl⟩ := move_eq_some h
  obtain ⟨rest, hcs, hset⟩ := Pool.exists_rest hget
  have hold := (hcs.map fun c => c.pc.left).sum_nat
  have hnew := ((hset c').map fun c => c.pc.left).sum_nat
  rw [List.map_cons, List.sum_cons] at hold hnew
  rw [left, left, hold, hnew]
  exact Nat.add_lt_add_right hm.left_lt _

structure Chunk (n : ℕ) (b : Batch) (i : ℕ) : Prop where
  length : b.calls.length = min (i + n) b.ids.length
  before : ∀ c ∈ b.calls.take i, c.settled

theorem Chunk.first (h : b.calls = []) : Chunk n (b.start n 0) 0 where
  length := by
    have hlen : b.calls.length = 0 := by rw [h]; rfl
    rw [length_start hlen, start_ids, Nat.zero_max]
  before := by simp

theorem Chunk.next (h : Chunk n b i) (hs : b.settled) : Chunk n (b.start n (i + n)) (i + n) where
  length := by
    rw [start, List.length_append, List.length_map, List.length_take, List.length_drop, h.length]
    dsimp only
    omega
  before := by
    intro c hc
    have hlen := h.length
    rw [start, List.take_append, List.mem_append] at hc
    rcases hc with hc | hc
    · exact settled_iff.mp hs c (List.mem_of_mem_take hc)
    · by_cases hle : i + n ≤ b.ids.length
      · rw [show i + n - b.calls.length = 0 by omega] at hc
        cases hc
      · rw [List.drop_of_length_le (by omega)] at hc
        simp at hc

theorem Chunk.settled (h : Chunk n b i) (hall : b.all i = some true) : b.settled := by
  rw [settled_iff]
  intro c hc
  rw [← List.take_append_drop i b.calls, List.mem_append] at hc
  rcases hc with hc | hc
  · exact h.before c hc
  · exact settled_of_pc (.inl (resolved_of_all hall c hc))

theorem Chunk.move (h : Chunk n b i) (hm : b.move newURL w k t = some (w', b')) : Chunk n b' i := by
  have hik := le_of_move h.before hm
  obtain ⟨c, c', -, -, -, rfl⟩ := move_eq_some hm
  refine ⟨(List.length_set ..).trans h.length, ?_⟩
  dsimp only
  rw [List.take_set_of_le hik]
  exact h.before

end Batch

end LinkBulker.Worker
