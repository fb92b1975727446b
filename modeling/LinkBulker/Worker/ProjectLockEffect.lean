import LinkBulker.Foundations.Mirror
import LinkBulker.Worker.ProjectLockLaws
import LinkBulker.WorkerCore.LockManagerLaws

/-! What one step of a call does to the lock and the flag of its project, and where it leaves the
calls of `processOne` it has started. -/

namespace LinkBulker.ProjectLock

open Foundations Db Shared LinkRepository SingleLink Worker

variable {newURL : UrlParser} {main : Bool} {w w' : World} {v v' : View} {t : Turn} {kind : Kind}
  {p : ProjectId}

section Keys

variable {kind kind' : Kind} {p p' : ProjectId} {db db' : Database} {value : Bool}

theorem suffix_ne {a b : List Char} : a ++ ":manual".toList ≠ b ++ ":sheets".toList := by
  intro h
  have hlen : ":manual".toList.length = ":sheets".toList.length := by decide
  exact absurd (List.append_inj_right' h hlen) (by decide)

theorem toList_lockKey (kind : Kind) (p : ProjectId) :
    (kind.lockKey p).toList = "lock:project:".toList ++ p.toList ++
      match kind with
      | .manual => ":manual".toList
      | .sheets => ":sheets".toList := by
  cases kind with
  | manual =>
    delta Kind.lockKey REDIS_KEYS.projectManualLock
    dsimp only
    rw [String.toList_append, String.toList_append]
  | sheets =>
    delta Kind.lockKey REDIS_KEYS.projectSheetsLock
    dsimp only
    rw [String.toList_append, String.toList_append]

theorem lockKey_inj (h : kind.lockKey p = kind'.lockKey p') : kind = kind' ∧ p = p' := by
  have hl := congrArg String.toList h
  rw [toList_lockKey, toList_lockKey] at hl
  cases kind <;> cases kind' <;> dsimp only at hl
  · exact ⟨rfl, String.toList_inj.mp (List.append_cancel_left (List.append_cancel_right hl))⟩
  · exact absurd hl suffix_ne
  · exact absurd hl.symm suffix_ne
  · exact ⟨rfl, String.toList_inj.mp (List.append_cancel_left (List.append_cancel_right hl))⟩

def Kind.data : Kind → Bool → Project → Project
  | .manual => manualCheckingData
  | .sheets => sheetsCheckingData

theorem Kind.data_id (kind : Kind) (value : Bool) (r : Project) :
    (kind.data value r).id = r.id := by
  cases kind <;> rfl

theorem setFlag_eq_some (h : kind.setFlag db p value = some db') :
    (∃ r ∈ db.projects.rows, r.id = p) ∧ db' = { db with
      projects := db.projects.updateWhere (fun r => r.id = p) (kind.data value)
        (kind.data_id value) } := by
  cases kind <;> exact updateProject_eq_some.mp h

theorem flagUp_setFlag (h : kind.setFlag db p value = some db') :
    flagUp kind p db' = value := by
  obtain ⟨⟨r, hr, hid⟩, rfl⟩ := setFlag_eq_some h
  rw [flagUp, Table.find?_updateWhere, Table.find?_eq_some.mpr ⟨hr, hid⟩]
  cases kind <;> rfl

theorem flagUp_setFlag_of_ne (hne : ¬ (kind' = kind ∧ p' = p))
    (h : kind.setFlag db p value = some db') : flagUp kind' p' db' = flagUp kind' p' db := by
  obtain ⟨-, rfl⟩ := setFlag_eq_some h
  rw [flagUp, Table.find?_updateWhere_key, Option.any_map, flagUp]
  cases hfind : db.projects.find? p' with
  | none => rfl
  | some r =>
    simp only [Option.any_some]
    split
    · rename_i hid
      have hp : p' = p := (Table.find?_eq_some.mp hfind).2.symm.trans hid
      cases kind <;> cases kind' <;> first | rfl | exact absurd ⟨rfl, hp⟩ hne
    · rfl

theorem lockFree_of_update_ne {key : LockManager.Key} {now : ℤ}
    (hw : w'.locks = Function.update w.locks (kind.lockKey p) key) (hne : ¬ (kind' = kind ∧ p' = p)) :
    lockFree kind' p' w' now = lockFree kind' p' w now := by
  rw [lockFree, hw, Function.update_of_ne fun h => hne (lockKey_inj h), lockFree]

theorem lockFree_of_update {key : LockManager.Key} {now : ℤ}
    (hw : w'.locks = Function.update w.locks (kind.lockKey p) key) :
    lockFree kind p w' now = (key.read now).isNone := by
  rw [lockFree, hw, Function.update_self]

end Keys

def Stage.Stands (n : ℕ) (lock : Option LockManager.Lock) (b : Batch) : Stage → Prop
  | .away => lock = none ∧ b.calls = []
  | .entered | .preparing => b.calls = []
  | .awaiting i => b.Chunk n i
  | .between i => b.Chunk n i ∧ b.settled
  | .finishing => b.settled
  | .closing | .clearing => (∃ c ∈ b.calls, c.pc = .rejected) ∨ b.settled
  | .lowered | .released => True

structure View.Paced (v : View) : Prop where
  ttl : ∀ lock ∈ v.lock, 0 < lock.ttlMs
  stands : v.stage.Stands v.kind.concurrency v.lock v.batch

theorem View.Paced.fresh (kind : Kind) (p : ProjectId) (ids : List LinkId) :
    (View.fresh kind p ids).Paced :=
  ⟨nofun, rfl, rfl⟩

theorem View.Paced.settled_of_closes (h : v.Paced) (hfrom : v.stage.closes) :
    (∃ c ∈ v.batch.calls, c.pc = .rejected) ∨ v.batch.settled := by
  have hs := h.stands
  cases hstage : v.stage with
  | entered => rw [hstage] at hs; exact .inr (Batch.settled_of_nil hs)
  | preparing => rw [hstage] at hs; exact .inr (Batch.settled_of_nil hs)
  | between i => rw [hstage] at hs; exact .inr hs.2
  | finishing => rw [hstage] at hs; exact .inr hs
  | closing => rw [hstage] at hs; exact hs
  | _ => rw [hstage] at hfrom; cases hfrom

theorem View.Paced.check (h : v.Paced) {k : ℕ} {b : Batch}
    (hmove : v.batch.move newURL w k t = some (w', b)) :
    View.Paced { v with batch := b } := by
  refine ⟨h.ttl, ?_⟩
  have hs := h.stands
  have hun := Batch.not_settled_of_move hmove
  have hidle : ¬ v.batch.settled := by simp [hun]
  cases hstage : v.stage with
  | away => rw [hstage] at hs; exact absurd (Batch.settled_of_nil hs.2) hidle
  | entered => rw [hstage] at hs; exact absurd (Batch.settled_of_nil hs) hidle
  | preparing => rw [hstage] at hs; exact absurd (Batch.settled_of_nil hs) hidle
  | awaiting i => rw [hstage] at hs; exact hs.move hmove
  | between i => rw [hstage] at hs; exact absurd hs.2 hidle
  | finishing => rw [hstage] at hs; exact absurd hs hidle
  | closing =>
    rw [hstage] at hs
    exact .inl (Batch.rejected_of_move (hs.resolve_right hidle) hmove)
  | clearing =>
    rw [hstage] at hs
    exact .inl (Batch.rejected_of_move (hs.resolve_right hidle) hmove)
  | lowered => trivial
  | released => trivial

theorem Walk.paced (hs : Walk newURL main w v t w' v') (h : v.Paced) : v'.Paced := by
  have hst := h.stands
  cases hs with
  | skips hstage => exact h
  | locks hstage hacq =>
    rw [hstage] at hst
    obtain ⟨rfl, hpos, -, -⟩ := LockManager.acquire_eq_some hacq
    exact ⟨fun l hl => Option.some.inj hl ▸ hpos, hst.2⟩
  | stays hstage hw hv => exact hv ▸ h
  | raises hstage hset =>
    rw [hstage] at hst
    exact ⟨h.ttl, hst⟩
  | closes stage hfrom hto hw =>
    refine ⟨h.ttl, ?_⟩
    rcases hto with rfl | rfl <;> exact h.settled_of_closes hfrom
  | rejects stage hstage hto hall =>
    refine ⟨h.ttl, ?_⟩
    rcases hto with rfl | rfl <;> exact .inl (Batch.rejected_of_all hall)
  | enters b hstage hb hw =>
    rw [hstage] at hst
    exact ⟨h.ttl, Batch.Chunk.first (hb.elim (fun hb => hb.trans hst) id)⟩
  | resolves hstage hall =>
    rw [hstage] at hst
    exact ⟨h.ttl, hst, hst.settled hall⟩
  | nexts hstage hw =>
    rw [hstage] at hst
    exact ⟨h.ttl, hst.1.next hst.2⟩
  | leaves b hstage hb hw =>
    refine ⟨h.ttl, ?_⟩
    have hold : v.batch.settled := by
      rcases hstage with hstage | ⟨i, hstage⟩ <;> rw [hstage] at hst
      · exact Batch.settled_of_nil hst
      · exact hst.2
    rcases hb with hb | hb
    · exact Batch.settled_iff.mpr (hb ▸ Batch.settled_iff.mp hold)
    · exact Batch.settled_of_nil hb
  | lowers hmain hstage hset => exact ⟨h.ttl, trivial⟩
  | lowerFails hmain hstage hset => exact ⟨h.ttl, trivial⟩
  | frees hstage => exact ⟨h.ttl, trivial⟩
  | freeFails hstage => exact ⟨h.ttl, trivial⟩
  | checks hmain hmove => exact h.check hmove
  | beats hmain hlock hw => exact h

theorem Walk.same (hs : Walk newURL main w v t w' v') :
    v'.kind = v.kind ∧ v'.projectId = v.projectId := by
  cases hs with
  | stays hstage hw hv => rw [hv]; exact ⟨rfl, rfl⟩
  | _ => exact ⟨rfl, rfl⟩

theorem Still.of_frame (h : Frame w w') : Still w w' := ⟨h.projects, h.locks, h.clock⟩

theorem Still.lockFree (h : Still w w') : lockFree kind p w' w'.clock = lockFree kind p w w.clock := by
  rw [ProjectLock.lockFree, h.locks, h.clock, ProjectLock.lockFree]

theorem Still.flagUp (h : Still w w') : flagUp kind p w'.db = flagUp kind p w.db := by
  rw [ProjectLock.flagUp, h.projects, ProjectLock.flagUp]

theorem Walk.frame (hs : Walk newURL main w v t w' v')
    (hne : ¬ (kind = v.kind ∧ p = v.projectId)) :
    lockFree kind p w' w'.clock = lockFree kind p w w.clock ∧
      flagUp kind p w'.db = flagUp kind p w.db := by
  have still (hw : Still w w') : lockFree kind p w' w'.clock = lockFree kind p w w.clock ∧
      flagUp kind p w'.db = flagUp kind p w.db := ⟨hw.lockFree, hw.flagUp⟩
  cases hs with
  | skips hstage => exact ⟨rfl, rfl⟩
  | locks hstage hacq => exact ⟨lockFree_of_update_ne rfl hne, rfl⟩
  | stays hstage hw hv => exact still hw
  | raises hstage hset => exact ⟨rfl, flagUp_setFlag_of_ne hne hset⟩
  | closes stage hfrom hto hw => exact still hw
  | rejects stage hstage hto hall => exact ⟨rfl, rfl⟩
  | enters b hstage hb hw => exact still hw
  | resolves hstage hall => exact ⟨rfl, rfl⟩
  | nexts hstage hw => exact still hw
  | leaves b hstage hb hw => exact still hw
  | lowers hmain hstage hset => exact ⟨rfl, flagUp_setFlag_of_ne hne hset⟩
  | lowerFails hmain hstage hset => exact ⟨rfl, rfl⟩
  | frees hstage => exact ⟨lockFree_of_update_ne rfl hne, rfl⟩
  | freeFails hstage => exact ⟨rfl, rfl⟩
  | checks hmain hmove =>
    obtain ⟨c, c', -, -, hm, -⟩ := Batch.move_eq_some hmove
    exact still (.of_frame hm.frame)
  | beats hmain hlock hw =>
    rcases hw with rfl | rfl
    · exact ⟨rfl, rfl⟩
    · exact ⟨lockFree_of_update_ne rfl hne, rfl⟩

theorem phase_eq {s : Stage} (h : v.stage = s) : v.phase = s.phase v.batch := by
  rw [View.phase, h]

theorem View.Paced.closes (h : v.Paced) (hfrom : v.stage.closes) {stage : Stage}
    (hto : stage = .closing ∨ stage = .clearing) {free flag : Bool} :
    Mirror.Effect free flag v.phase free flag (View.phase { v with stage }) := by
  have hphase : View.phase { v with stage } = if v.batch.calls = [] then .closing else .raised := by
    rcases hto with rfl | rfl <;> rfl
  have hst := h.stands
  rw [hphase]
  cases hstage : v.stage with
  | entered =>
    rw [hstage] at hst
    have hcalls : v.batch.calls = [] := hst
    rw [if_pos hcalls, phase_eq hstage]
    exact .closes rfl
  | preparing =>
    rw [hstage] at hst
    have hcalls : v.batch.calls = [] := hst
    rw [if_pos hcalls, phase_eq hstage]
    exact .closes rfl
  | between i =>
    rw [phase_eq hstage]
    split
    · exact .closes rfl
    · exact .stays
  | finishing =>
    rw [phase_eq hstage]
    split
    · exact .closes rfl
    · exact .stays
  | closing =>
    rw [phase_eq hstage]
    exact .stays
  | _ => rw [hstage] at hfrom; cases hfrom

theorem inside_of_clearing (hstage : v.stage = .clearing) : v.phase.inside := by
  rw [phase_eq hstage, Stage.phase]
  split <;> rfl

theorem Walk.effect (hs : Walk newURL main w v t w' v') (h : v.Paced) (hclock : w.clock = t.now)
    (hclear : v.stage = .clearing → main →
      t.rejects = false ∧ (v.kind.setFlag w.db v.projectId false).isSome) :
    Mirror.Effect (lockFree v.kind v.projectId w w.clock) (flagUp v.kind v.projectId w.db) v.phase
      (lockFree v.kind v.projectId w' w'.clock) (flagUp v.kind v.projectId w'.db) v'.phase := by
  have still {q : Mirror.Phase} (hw : Still w w') (hq : v.phase = q) :
      Mirror.Effect (lockFree v.kind v.projectId w w.clock) (flagUp v.kind v.projectId w.db) v.phase
        (lockFree v.kind v.projectId w' w'.clock) (flagUp v.kind v.projectId w'.db) q := by
    rw [hw.lockFree, hw.flagUp, hq]
    exact .stays
  -- the key is written and nothing else the flag depends on
  have put {w' : World} {key : LockManager.Key} {q : Mirror.Phase}
      (hlocks : w'.locks = Function.update w.locks v.lockKey key) (htime : w'.clock = t.now)
      (hdb : w'.db = w.db)
      (he : Mirror.Effect (lockFree v.kind v.projectId w w.clock) (flagUp v.kind v.projectId w.db)
        v.phase (key.read t.now).isNone (flagUp v.kind v.projectId w.db) q) :
      Mirror.Effect (lockFree v.kind v.projectId w w.clock) (flagUp v.kind v.projectId w.db) v.phase
        (lockFree v.kind v.projectId w' w'.clock) (flagUp v.kind v.projectId w'.db) q := by
    rwa [htime, hdb, lockFree_of_update hlocks]
  cases hs with
  | skips hstage => exact .stays
  | locks hstage hacq =>
    obtain ⟨rfl, hpos, hread, rfl⟩ := LockManager.acquire_eq_some hacq
    have hfree : lockFree v.kind v.projectId w w.clock = true := by
      rw [lockFree, hclock]
      exact Option.isNone_iff_eq_none.mpr hread
    refine put rfl hclock rfl ?_
    rw [phase_eq hstage, Slot.read_eq_some.mpr ⟨_, rfl, Int.le_add_of_nonneg_right hpos.le⟩]
    exact .takes hfree
  | stays hstage hw hv => exact still hw (hv ▸ rfl)
  | raises hstage hset =>
    rw [phase_eq hstage, flagUp_setFlag hset]
    exact .raises
  | closes stage hfrom hto hw =>
    rw [hw.lockFree, hw.flagUp]
    exact h.closes hfrom hto
  | rejects stage hstage hto hall =>
    have hcalls : v.batch.calls ≠ [] := by
      obtain ⟨c, hc, -⟩ := Batch.rejected_of_all hall
      exact List.ne_nil_of_mem hc
    have hphase : View.phase { v with stage } = .raised := by
      rcases hto with rfl | rfl <;> exact if_neg hcalls
    rw [hphase]
    exact still (.refl w) (phase_eq hstage :)
  | enters b hstage hb hw => exact still hw (phase_eq hstage :)
  | resolves hstage hall => exact still (.refl w) (phase_eq hstage :)
  | nexts hstage hw => exact still hw (phase_eq hstage :)
  | leaves b hstage hb hw =>
    rcases hstage with hstage | ⟨i, hstage⟩ <;> exact still hw (phase_eq hstage :)
  | lowers hmain hstage hset =>
    rw [flagUp_setFlag hset]
    exact .lowers (inside_of_clearing hstage)
  | lowerFails hmain hstage hset =>
    obtain ⟨hr, hsome⟩ := hclear hstage hmain
    rcases hset with hset | hset
    · rw [hr] at hset
      cases hset
    · rw [hset] at hsome
      cases hsome
  | frees hstage =>
    rw [phase_eq hstage]
    exact .frees
  | freeFails hstage =>
    rw [phase_eq hstage]
    exact .frees
  | checks hmain hmove =>
    obtain ⟨c, c', hget, -, hm, rfl⟩ := Batch.move_eq_some hmove
    have hcalls : ∀ k, v.batch.calls.set k c' = [] ↔ v.batch.calls = [] := by
      intro k
      rw [← List.length_eq_zero_iff, List.length_set, List.length_eq_zero_iff]
    refine still (.of_frame hm.frame) ?_
    cases hstage : v.stage <;> simp only [View.phase, hstage, Stage.phase, hcalls]
  | beats hmain hlock hw =>
    rcases hw with rfl | rfl
    · exact .stays
    · refine put rfl hclock rfl ?_
      rw [LockManager.read_heartbeat (h.ttl _ hlock), lockFree, hclock]
      exact .stays

theorem Walk.lowered (hs : Walk newURL true w v t w' v') (hstage : v.stage = .clearing)
    (hr : t.rejects = false) (hset : (v.kind.setFlag w.db v.projectId false).isSome) :
    v'.batch = v.batch ∧ flagUp v.kind v.projectId w'.db = false := by
  cases hs with
  | skips hfrom => cases hstage.symm.trans hfrom
  | locks hfrom hacq => cases hstage.symm.trans hfrom
  | stays hbody hw hv => exact absurd hstage hbody.2
  | raises hfrom hset => cases hstage.symm.trans hfrom
  | closes stage hfrom hto hw => rw [hstage] at hfrom; cases hfrom
  | rejects stage hfrom hto hall => cases hstage.symm.trans hfrom
  | enters b hfrom hb hw => cases hstage.symm.trans hfrom
  | resolves hfrom hall => cases hstage.symm.trans hfrom
  | nexts hfrom hw => cases hstage.symm.trans hfrom
  | leaves b hfrom hb hw =>
    rcases hfrom with hfrom | ⟨i, hfrom⟩ <;> cases hstage.symm.trans hfrom
  | lowers hmain hfrom hset => exact ⟨rfl, flagUp_setFlag hset⟩
  | lowerFails hmain hfrom hfail =>
    rcases hfail with hfail | hfail
    · rw [hr] at hfail
      cases hfail
    · rw [hfail] at hset
      cases hset
  | frees hfrom => cases hstage.symm.trans hfrom
  | freeFails hfrom => cases hstage.symm.trans hfrom
  | checks hmain hmove => cases hmain
  | beats hmain hlock hw => cases hmain

def Stage.late : Stage → Bool
  | .lowered | .released => true
  | _ => false

theorem Walk.late (hs : Walk newURL main w v t w' v') (h : v.Paced)
    (hlate : v.stage.late → v.batch.settled)
    (hwaits : v.stage = .clearing → main → (∃ c ∈ v.batch.calls, c.pc = .rejected) →
      v.batch.settled) :
    v'.stage.late → v'.batch.settled := by
  have clear (hmain : main) (hstage : v.stage = .clearing) : v.batch.settled := by
    have hst := h.stands
    rw [hstage] at hst
    exact hst.elim (hwaits hstage hmain) id
  cases hs with
  | skips hstage => exact hlate
  | stays hstage hw hv => exact hv ▸ hlate
  | closes stage hfrom hto hw => rcases hto with rfl | rfl <;> nofun
  | rejects stage hstage hto hall => rcases hto with rfl | rfl <;> nofun
  | lowers hmain hstage hset => exact fun _ => clear hmain hstage
  | lowerFails hmain hstage hset => exact fun _ => clear hmain hstage
  | frees hstage => exact fun _ => hlate (by rw [hstage]; rfl)
  | freeFails hstage => exact fun _ => hlate (by rw [hstage]; rfl)
  | checks hmain hmove =>
    intro hl
    rw [Batch.not_settled_of_move hmove] at hlate
    cases hlate hl
  | beats hmain hlock hw => exact hlate
  | _ => nofun

theorem Walk.away (hs : Walk newURL main w v t w' v') (h : v.Paced) (haway : v'.stage = .away) :
    v.stage = .away ∧ w' = w := by
  have hst := h.stands
  cases hs with
  | skips hstage => exact ⟨haway, rfl⟩
  | stays hstage hw hv => exact absurd (hv ▸ haway) hstage.1
  | closes stage hfrom hto hw => rcases hto with rfl | rfl <;> cases haway
  | rejects stage hstage hto hall => rcases hto with rfl | rfl <;> cases haway
  | checks hmain hmove =>
    have haway' : v.stage = .away := haway
    rw [haway'] at hst
    have hun := Batch.not_settled_of_move hmove
    rw [Batch.settled_of_nil hst.2] at hun
    cases hun
  | beats hmain hlock hw =>
    rw [haway, hlock] at hst
    cases hst.1
  | _ => cases haway

theorem View.Paced.raised (h : v.Paced) (hlate : v.stage.late → v.batch.settled)
    (hproc : v.processes) : v.phase = .raised := by
  have hst := h.stands
  have hun (hw : v.stage.works = false) : ¬ v.batch.settled := by
    simpa [View.processes, hw] using hproc
  cases hstage : v.stage with
  | away =>
    rw [hstage] at hst hun
    exact absurd (Batch.settled_of_nil hst.2) (hun rfl)
  | entered =>
    rw [hstage] at hst hun
    exact absurd (Batch.settled_of_nil hst) (hun rfl)
  | preparing => exact phase_eq hstage
  | awaiting i => exact phase_eq hstage
  | between i => exact phase_eq hstage
  | finishing => exact phase_eq hstage
  | closing =>
    rw [hstage] at hun
    exact (phase_eq hstage).trans (if_neg fun hnil => hun rfl (Batch.settled_of_nil hnil))
  | clearing =>
    rw [hstage] at hun
    exact (phase_eq hstage).trans (if_neg fun hnil => hun rfl (Batch.settled_of_nil hnil))
  | lowered =>
    rw [hstage] at hlate hun
    exact absurd (hlate rfl) (hun rfl)
  | released =>
    rw [hstage] at hlate hun
    exact absurd (hlate rfl) (hun rfl)

theorem View.Paced.holds (h : v.Paced) (hlate : v.stage.late → v.batch.settled)
    (hun : ¬ v.batch.settled) : v.stage.holds := by
  have hst := h.stands
  cases hstage : v.stage with
  | away =>
    rw [hstage] at hst
    exact absurd (Batch.settled_of_nil hst.2) hun
  | released =>
    rw [hstage] at hlate
    exact absurd (hlate rfl) hun
  | _ => rfl

end LinkBulker.ProjectLock
