import LinkBulker.Worker.BulkCheck
import LinkBulker.Worker.BulkQueue

/-! One run of a bulk check among others: what it has answered for when it ends. -/

namespace LinkBulker.BulkQueue

open Foundations Db Shared Crawler LinkRepository SingleLink Worker
open ManualCheck (Handle Act Step INTERNAL_CONCURRENCY main_eq_some child_eq_some beat_eq_some
  gone_markManyStatus)

variable {newURL : UrlParser} {w w' : World} {h h' : Handle} {t : Turn} {a : Act}
  {since : ℕ} {ids : List LinkId} {id : LinkId}

section Later

structure Later (ids : List LinkId) (w w' : World) : Prop where
  stored : w.stored <+: w'.stored
  gone : ∀ id ∈ ids, Gone w.db id → Gone w'.db id

structure Keeps (w w' : World) : Prop where
  gone : ∀ id, Gone w'.db id ↔ Gone w.db id
  stored : w.stored <+: w'.stored
  clock : w'.clock = w.clock

theorem Keeps.later (hk : Keeps w w') : Later ids w w' := ⟨hk.stored, fun id _ => (hk.gone id).mpr⟩

theorem Later.subset {ids' : List LinkId} (hl : Later ids w w') (hsub : ∀ id ∈ ids', id ∈ ids) :
    Later ids' w w' :=
  ⟨hl.stored, fun id hid => hl.gone id (hsub id hid)⟩

theorem Later.of_clock (now : ℤ) : Later ids w { w with clock := now } :=
  ⟨List.prefix_refl _, fun _ _ => id⟩

theorem Keeps.publishNow (event : ProgressEvent) : Keeps w (w.publishNow t event) :=
  ⟨fun id => by rw [publishNow_db], ⟨[], by rw [publishNow_stored, List.append_nil]⟩,
    publishNow_clock event⟩

theorem Keeps.withDb {db : Database} (hgone : ∀ id, Gone db id ↔ Gone w.db id) :
    Keeps w { w with db } :=
  ⟨hgone, List.prefix_refl _, rfl⟩

theorem Keeps.withLocks (locks : String → LockManager.Key) (issued : List LockManager.Token) :
    Keeps w { w with locks, issued } :=
  ⟨fun _ => .rfl, List.prefix_refl _, rfl⟩

theorem Keeps.refl (w : World) : Keeps w w := ⟨fun _ => .rfl, List.prefix_refl _, rfl⟩

theorem StoredSince.mono (h : StoredSince w since id) (hw : w.stored <+: w'.stored) :
    StoredSince w' since id := by
  obtain ⟨saved, hs, hid⟩ := h
  obtain ⟨rest, hrest⟩ := hw
  refine ⟨saved, ?_, hid⟩
  rw [← hrest, List.drop_append]
  exact List.mem_append_left _ hs

theorem Moves.keeps {pc pc' : SingleLink.Pc} (hm : Moves newURL w id t pc w' pc') : Keeps w w' := by
  refine ⟨fun other => gone_iff_of_inputs hm.inputs, ?_, hm.frame.clock⟩
  cases hm with
  | checking | published => exact (Keeps.publishNow _).stored
  | saved hr hdb => exact List.prefix_append ..
  | _ => exact List.prefix_refl _

theorem Step.keeps (hs : Step w h t w' h') : Keeps w w' := by
  have flag {db : Database} {value : Bool}
      (hset : setProjectManualChecking w.db h.job.projectId value = some db) :
      Keeps w { w with db } :=
    .withDb fun id => by rw [Gone, Gone, (updateProject_keys hset).1]
  cases hs with
  | locked hpc hacq => exact .withLocks ..
  | raised hpc hset => exact flag hset
  | lowered hpc hset => exact flag hset
  | queued hpc => exact .withDb fun id => gone_markManyStatus
  | toldLocked | toldProgress | toldDone | toldUnlocked => exact .publishNow _
  | released hpc hlock => exact .withLocks ..
  | _ => exact .refl w

theorem move_keeps (hm : h.move newURL w a = some (w', h')) : Keeps w w' := by
  cases a with
  | main t => exact Step.keeps (main_eq_some hm)
  | child k t =>
    obtain ⟨b, hmove, -⟩ := child_eq_some hm
    obtain ⟨c, c', -, -, hmoves, -⟩ := Batch.move_eq_some hmove
    exact Moves.keeps hmoves
  | beat t =>
    obtain ⟨lock, -, -, -, hw⟩ := beat_eq_some hm
    rcases hw with rfl | rfl
    · exact .refl _
    · exact .withLocks ..

end Later

def pastSave (p : ProcessOne) : Bool :=
  match p.pc with
  | .publishSaved .. | .resolved => true
  | _ => false

def Settles (w : World) (since : ℕ) (id : LinkId) : Prop := Gone w.db id ∨ StoredSince w since id

theorem Settles.later (h : Settles w since id) (hid : id ∈ ids) (hw : Later ids w w') :
    Settles w' since id :=
  h.imp (hw.gone id hid) fun hs => hs.mono hw.stored

theorem Moves.settles {pc pc' : SingleLink.Pc} (hm : Moves newURL w id t pc w' pc') (hid : id ∈ ids)
    (hsince : since ≤ w.stored.length) (hpast : pastSave ⟨id, pc⟩ → Settles w since id)
    (hpast' : pastSave ⟨id, pc'⟩) : Settles w' since id := by
  cases hm with
  | missing hr hno => exact .inl hno
  | saved hr hdb =>
    rename_i result now _
    refine .inr ⟨⟨id, result, now⟩, ?_, rfl⟩
    rw [List.drop_append_of_le_length hsince]
    exact List.mem_append_right _ List.mem_cons_self
  | published => exact (hpast rfl).later hid (Keeps.publishNow _).later
  | _ => cases hpast'

section Handle

def closing : ManualCheck.Pc → Bool
  | .clearFlag | .publishUnlocked | .release | .ended => true
  | _ => false

def fails (h : Handle) : Bool := closing h.pc && h.threw

def waitedFor (h : Handle) : List ProcessOne :=
  match h.pc with
  | .awaitAll i => h.batch.calls.take i
  | _ => h.batch.calls

structure Answers (w : World) (since : ℕ) (h : Handle) : Prop where
  ids : h.batch.ids = h.job.linkIds
  stored : since ≤ w.stored.length
  unmarked : h.pc.unmarked → h.batch.calls = []
  chunk : ∀ i, h.pc.chunk = some i →
    h.batch.calls.length = min (i + INTERNAL_CONCURRENCY) h.job.linkIds.length
  covers : ∀ id ∈ h.job.linkIds, id ∈ h.batch.unstarted ∨ ∃ c ∈ h.batch.calls, c.linkId = id
  settles : ∀ c ∈ h.batch.calls, c.linkId ∈ h.job.linkIds ∧
    (pastSave c → Settles w since c.linkId)
  resolved : fails h = false → ∀ c ∈ waitedFor h, c.pc = .resolved
  left : fails h = false → h.pc.left → h.batch.unstarted = []

theorem Answers.start {job : ManualCheckJobData} (hsince : since ≤ w.stored.length) :
    Answers w since { job } where
  ids := rfl
  stored := hsince
  unmarked _ := rfl
  chunk := nofun
  covers _ hid := .inl hid
  settles _ hc := nomatch hc
  resolved _ _ hc := nomatch hc
  left _ hpc := nomatch hpc

theorem Answers.later (ha : Answers w since h) (hw : Later h.job.linkIds w w') :
    Answers w' since h where
  ids := ha.ids
  stored := ha.stored.trans hw.stored.length_le
  unmarked := ha.unmarked
  chunk := ha.chunk
  covers := ha.covers
  settles c hc := ⟨(ha.settles c hc).1, fun hp => ((ha.settles c hc).2 hp).later
    (ha.settles c hc).1 hw⟩
  resolved := ha.resolved
  left := ha.left

theorem Answers.pass (ha : Answers w since h) (hjob : h'.job = h.job) (hbatch : h'.batch = h.batch)
    (hun : h'.pc.unmarked → h.pc.unmarked) (hchunk : h'.pc.chunk = h.pc.chunk ∨ h'.pc.chunk = none)
    (hresolved : fails h' = false → ∀ c ∈ waitedFor h', c.pc = .resolved)
    (hleft : fails h' = false → h'.pc.left → h.batch.unstarted = []) : Answers w since h' where
  ids := by rw [hbatch, hjob]; exact ha.ids
  stored := ha.stored
  unmarked hpc := by rw [hbatch]; exact ha.unmarked (hun hpc)
  chunk := by
    rw [hjob, hbatch]
    rcases hchunk with he | he
    · rw [he]; exact ha.chunk
    · rw [he]; nofun
  covers := by rw [hjob, hbatch]; exact ha.covers
  settles := by rw [hjob, hbatch]; exact ha.settles
  resolved := hresolved
  left := by rw [hbatch]; exact hleft

theorem Answers.loop {i : ℕ} (ha : Answers w since h)
    (hresolved : ∀ c ∈ h.batch.calls, c.pc = .resolved)
    (hi : i < h.job.linkIds.length → h.batch.calls.length = i)
    (hend : h.job.linkIds.length ≤ i → h.batch.unstarted = []) : Answers w since (h.loop i) := by
  unfold Handle.loop
  split
  · rename_i hlt
    have hlen := hi hlt
    have hstart := Batch.length_start (n := INTERNAL_CONCURRENCY) hlen
    rw [ha.ids, Nat.max_eq_right hlt.le] at hstart
    refine ⟨ha.ids, ha.stored, fun hun => absurd hun Bool.false_ne_true, ?_, ?_, ?_, fun _ => ?_,
      fun _ hleft => absurd hleft Bool.false_ne_true⟩
    · intro j hj
      obtain rfl : i = j := by simpa [ManualCheck.Pc.chunk] using hj
      exact hstart
    · intro id hid
      rcases ha.covers id hid with hun | ⟨c, hc, hcid⟩
      · exact (Batch.unstarted_start hlen hun).imp_right fun hc => ⟨_, hc, rfl⟩
      · exact .inr ⟨c, List.mem_append_left _ hc, hcid⟩
    · intro c hc
      rcases Batch.mem_calls_start hc with hc | ⟨hpc, hid⟩
      · exact ha.settles c hc
      · refine ⟨ha.ids ▸ hid, fun hp => ?_⟩
        rw [pastSave, hpc] at hp
        cases hp
    · have hwaited : waitedFor { h with
          batch := h.batch.start INTERNAL_CONCURRENCY i, pc := .awaitAll i } = h.batch.calls := by
        simp [waitedFor, Batch.start, ← hlen]
      rw [hwaited]
      exact hresolved
  · rename_i hge
    exact ha.pass rfl rfl (fun hun => absurd hun Bool.false_ne_true) (.inr rfl) (fun _ => hresolved)
      fun _ _ => hend (not_lt.mp hge)

def awaitsAll : ManualCheck.Pc → Bool
  | .awaitAll _ => true
  | _ => false

structure Follows (pc pc' : ManualCheck.Pc) : Prop where
  closing : closing pc' = closing pc
  unmarked : (!pc'.unmarked || pc.unmarked) = true
  chunk : pc'.chunk = pc.chunk ∨ pc'.chunk = none
  left : (!pc'.left || pc.left) = true
  before : awaitsAll pc = false
  after : awaitsAll pc' = false

theorem waitedFor_eq (hpc : awaitsAll h.pc = false) : waitedFor h = h.batch.calls := by
  unfold waitedFor
  split
  · rename_i i hi
    rw [hi] at hpc
    cases hpc
  · rfl

theorem Answers.follows (ha : Answers w since h) {pc : ManualCheck.Pc} (hf : Follows h.pc pc) :
    Answers w since (h.at_ pc) := by
  have hfails : fails (h.at_ pc) = fails h := by
    unfold fails
    exact congrArg (· && h.threw) hf.closing
  have hun := hf.unmarked
  have hleft := hf.left
  rw [Bool.or_eq_true, Bool.not_eq_true'] at hun hleft
  refine ha.pass rfl rfl (fun hpc => ?_) hf.chunk (fun hno => ?_) fun hno hpc => ?_
  · exact hun.resolve_left (ne_false_of_eq_true hpc)
  · have hall := ha.resolved (hfails ▸ hno)
    rw [waitedFor_eq hf.before] at hall
    rw [waitedFor_eq hf.after]
    exact hall
  · exact ha.left (hfails ▸ hno) (hleft.resolve_left (ne_false_of_eq_true hpc))

theorem Answers.throws (ha : Answers w since h) : Answers w since (h.finally_ true) :=
  ha.pass rfl rfl (fun hun => absurd hun Bool.false_ne_true) (.inr rfl)
    (fun hno => absurd hno.symm Bool.false_ne_true) fun hno => absurd hno.symm Bool.false_ne_true

theorem Answers.main (ha : Answers w since h) (hs : Step w h t w' h') : Answers w since h' := by
  have resolved (hclosing : closing h.pc = false) (hawaits : awaitsAll h.pc = false) :
      ∀ c ∈ h.batch.calls, c.pc = .resolved := by
    rw [← waitedFor_eq hawaits]
    exact ha.resolved (by rw [fails, hclosing]; rfl)
  cases hs with
  | skip hpc | raised hpc hset | toldLocked hpc =>
    exact ha.follows (hpc ▸ ⟨rfl, rfl, .inl rfl, rfl, rfl, rfl⟩)
  | locked hpc hacq =>
    exact ha.pass rfl rfl (fun _ => by rw [hpc]; rfl) (.inr rfl)
      (fun _ => resolved (by rw [hpc]; rfl) (by rw [hpc]; rfl))
      fun _ hleft => absurd hleft Bool.false_ne_true
  | throws hpc hr => exact ha.throws
  | flagGone hpc hset => exact ha.throws
  | queued hpc =>
    have hcalls : h.batch.calls = [] := ha.unmarked (by rw [hpc]; rfl)
    refine ha.loop (resolved (by rw [hpc]; rfl) (by rw [hpc]; rfl)) (fun _ => by rw [hcalls]; rfl)
      fun hle => ?_
    rw [Batch.unstarted, ha.ids, hcalls]
    exact List.eq_nil_of_length_eq_zero (Nat.le_zero.mp hle)
  | rejected hpc hall => exact ha.throws
  | resolved hpc hall =>
    rename_i i
    have hbefore := ha.resolved (by rw [fails, hpc]; rfl)
    rw [waitedFor, hpc] at hbefore
    refine ha.pass rfl rfl (fun hun => absurd hun Bool.false_ne_true) (.inl (by rw [hpc]; rfl))
      (fun _ c hc => ?_) fun _ hleft => absurd hleft Bool.false_ne_true
    have hc : c ∈ h.batch.calls := hc
    rw [← List.take_append_drop i h.batch.calls, List.mem_append] at hc
    exact hc.elim (hbefore c) (Batch.resolved_of_all hall c)
  | counted hpc | toldProgress hpc => exact ha.follows (hpc ▸ ⟨rfl, rfl, .inl rfl, rfl, rfl, rfl⟩)
  | next hpc =>
    rename_i i
    have hlen := ha.chunk i (by rw [hpc]; rfl)
    refine ha.loop (resolved (by rw [hpc]; rfl) (by rw [hpc]; rfl)) (fun hlt => ?_) fun hle => ?_
    · rw [hlen, Nat.min_eq_left hlt.le]
    · rw [Batch.unstarted, hlen, Nat.min_eq_right hle, ha.ids, List.drop_length]
  | countedAll hpc => exact ha.follows (hpc ▸ ⟨rfl, rfl, .inr rfl, rfl, rfl, rfl⟩)
  | toldDone hpc =>
    exact ha.pass rfl rfl (fun hun => absurd hun Bool.false_ne_true) (.inr rfl)
      (fun _ => resolved (by rw [hpc]; rfl) (by rw [hpc]; rfl))
      fun _ _ => ha.left (by rw [fails, hpc]; rfl) (by rw [hpc]; rfl)
  | lowered hpc hset | lowerFailed hpc hset | toldUnlocked hpc | released hpc hlock
  | releaseFailed hpc hr => exact ha.follows (hpc ▸ ⟨rfl, rfl, .inl rfl, rfl, rfl, rfl⟩)

theorem waitedFor_of_move {k : ℕ} {b : Batch} (hall : ∀ c ∈ waitedFor h, c.pc = .resolved)
    (hmove : h.batch.move newURL w k t = some (w', b)) :
    waitedFor { h with batch := b } = waitedFor h := by
  have settled {c : ProcessOne} (hc : c ∈ waitedFor h) : c.settled :=
    Batch.settled_of_pc (.inl (hall c hc))
  unfold waitedFor at settled ⊢
  dsimp only
  split
  · rename_i i hpc
    rw [hpc] at settled
    have hik : i ≤ k := Batch.le_of_move (fun c hc => settled hc) hmove
    obtain ⟨c, c', -, -, -, rfl⟩ := Batch.move_eq_some hmove
    exact List.take_set_of_le hik
  · rename_i hpc
    have hset : h.batch.settled := Batch.settled_iff.mpr fun c hc => settled (by
      split
      · exact absurd ‹_› (hpc _)
      · exact hc)
    rw [Batch.not_settled_of_move hmove] at hset
    cases hset

theorem Answers.child {k : ℕ} {b : Batch} (ha : Answers w since h)
    (hmove : h.batch.move newURL w k t = some (w', b)) :
    Answers w' since { h with batch := b } := by
  have hwaited := fun hno => waitedFor_of_move (ha.resolved hno) hmove
  obtain ⟨c, c', hget, hlink, hm, rfl⟩ := Batch.move_eq_some hmove
  have hl := ha.later (Moves.keeps hm).later
  refine ⟨hl.ids, hl.stored, ?_, ?_, ?_, ?_, ?_, ?_⟩
  · intro hpc
    rw [ha.unmarked hpc] at hget
    cases hget
  · exact fun i hi => (List.length_set ..).trans (ha.chunk i hi)
  · intro id hid
    rw [Batch.unstarted_set]
    refine (ha.covers id hid).imp_right ?_
    rintro ⟨d, hd, rfl⟩
    rcases Pool.mem_set_of_mem hget hd with rfl | hd
    · exact ⟨c', Pool.mem_set_self hget, hlink⟩
    · exact ⟨d, hd, rfl⟩
  · intro d hd
    rcases List.mem_or_eq_of_mem_set hd with hd | rfl
    · exact hl.settles d hd
    · obtain ⟨hid, hpast⟩ := ha.settles c (List.mem_of_getElem? hget)
      rw [hlink]
      exact ⟨hid, Moves.settles hm hid ha.stored hpast⟩
  · intro hno
    rw [hwaited hno]
    exact ha.resolved hno
  · intro hno hpc
    rw [Batch.unstarted_set]
    exact ha.left hno hpc

theorem Answers.move (ha : Answers w since h) (hm : h.move newURL w a = some (w', h')) :
    Answers w' since h' := by
  cases a with
  | main t =>
    have hs := main_eq_some hm
    exact (ha.main hs).later (Step.keeps hs).later
  | child k t =>
    obtain ⟨b, hmove, rfl⟩ := child_eq_some hm
    exact ha.child hmove
  | beat t =>
    obtain ⟨lock, -, -, rfl, -⟩ := beat_eq_some hm
    exact ha.later (move_keeps hm).later

theorem Answers.settled (ha : Answers w since h) (hended : h.pc = .ended)
    (hthrew : h.threw = false) : ∀ id ∈ h.job.linkIds, Settles w since id := by
  have hno : fails h = false := by rw [fails, hthrew, Bool.and_false]
  have hall := ha.resolved hno
  rw [waitedFor, hended] at hall
  intro id hid
  rcases ha.covers id hid with hun | ⟨c, hc, rfl⟩
  · rw [ha.left hno (by rw [hended]; rfl)] at hun
    cases hun
  · exact (ha.settles c hc).2 (by rw [pastSave, hall c hc])

end Handle

end LinkBulker.BulkQueue
