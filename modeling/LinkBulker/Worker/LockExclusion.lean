import LinkBulker.Foundations.Exclusion
import LinkBulker.Worker.ProjectMirror

/-! One call at a time is between the acquired lock of a project and the released one, and a lock
that is taken is in the hands of such a call. -/

namespace LinkBulker.ProjectLock

open Foundations Db Shared LinkRepository SingleLink Worker

variable {newURL : UrlParser} {clock : Sheets.LocalClock} {main : Bool} {w w' : World} {v v' : View}
  {t : Turn} {kind : Kind} {p : ProjectId} {s s' : Fleet} {a : ℕ × Act} {c c' : Check}

inductive LockStep (main : Bool) (w : World) (v : View) (t : Turn) : World → View → Prop
  | keeps {w' : World} {v' : View} (hlocks : w'.locks = w.locks)
    (hholds : v'.stage.holds = v.stage.holds) (hlock : v'.lock = v.lock) : LockStep main w v t w' v'
  | takes {w' : World} {v' : View} {ttl : ℤ} {lock : LockManager.Lock} {key : LockManager.Key}
    (hout : v.stage.holds = false)
    (hacq : LockManager.acquire (w.locks v.lockKey) t.now ⟨t.token, ttl⟩ = (some lock, key))
    (hlocks : w'.locks = Function.update w.locks v.lockKey key) (hholds : v'.stage.holds)
    (hlock : v'.lock = some lock) : LockStep main w v t w' v'
  | beats {w' : World} {lock : LockManager.Lock} (hlock : v.lock = some lock)
    (hlocks : w'.locks =
      Function.update w.locks v.lockKey (lock.heartbeat (w.locks v.lockKey) t.now).2) :
    LockStep main w v t w' v
  | frees {w' : World} {v' : View} {lock : LockManager.Lock} (hstage : v.stage = .lowered)
    (hlock : v.lock = some lock)
    (hlocks : w'.locks =
      Function.update w.locks v.lockKey (lock.release (w.locks v.lockKey) t.now).2)
    (hout : v'.stage.holds = false) : LockStep main w v t w' v'
  | fails {v' : View} (hmain : main) (hr : t.rejects) (hstage : v.stage = .lowered)
    (hout : v'.stage.holds = false) : LockStep main w v t w v'

section Manual

variable {h h' : ManualCheck.Handle}

theorem manual_keeps {pc : ManualCheck.Pc} (hpc : h.pc = pc) (hlocks : w'.locks = w.locks)
    (hholds : (manualStage h'.pc).holds = (manualStage pc).holds) (hlock : h'.lock = h.lock) :
    LockStep true w (manualView h) t w' (manualView h') :=
  .keeps hlocks (by rw [manualView, manualView, hholds, hpc]) hlock

theorem holds_of_manual_tries {pc : ManualCheck.Pc} (h : pc.tries) : (manualStage pc).holds := by
  cases pc <;> first | rfl | cases h

theorem manual_lockStep (hs : ManualCheck.Step w h t w' h') :
    LockStep true w (manualView h) t w' (manualView h') := by
  cases hs with
  | skip hpc => exact manual_keeps hpc rfl rfl rfl
  | locked hpc hacq => exact .takes (by rw [manualView, hpc]; rfl) hacq rfl rfl rfl
  | throws hpc hr => exact manual_keeps rfl rfl (holds_of_manual_tries hpc).symm rfl
  | flagGone hpc hset => exact manual_keeps hpc rfl rfl rfl
  | raised hpc hset => exact manual_keeps hpc rfl rfl rfl
  | queued hpc | next hpc =>
    unfold ManualCheck.Handle.loop
    split <;> exact manual_keeps hpc rfl rfl rfl
  | rejected hpc hall | resolved hpc hall => exact manual_keeps hpc rfl rfl rfl
  | counted hpc | countedAll hpc => exact manual_keeps hpc rfl rfl rfl
  | toldLocked hpc | toldProgress hpc | toldDone hpc | toldUnlocked hpc =>
    exact manual_keeps hpc (publishNow_locks _) rfl rfl
  | lowered hpc hset | lowerFailed hpc hset => exact manual_keeps hpc rfl rfl rfl
  | released hpc hlock => exact .frees (congrArg manualStage hpc) hlock rfl rfl
  | releaseFailed hpc hr => exact .fails rfl hr (congrArg manualStage hpc) rfl

end Manual

section Sheets

variable {r r' : Sheets.Run} {turn : Sheets.SheetsTurn}

theorem sheets_keeps {pc : Sheets.Pc} (hpc : r.pc = pc) (hlocks : w'.locks = w.locks)
    (hholds : (sheetsStage r'.pc).holds = (sheetsStage pc).holds) (hlock : r'.lock = r.lock) :
    LockStep true w (sheetsView r) t w' (sheetsView r') :=
  .keeps hlocks (by rw [sheetsView, sheetsView, hholds, hpc]) hlock

theorem holds_of_sheets_tries {pc : Sheets.Pc} (h : pc.tries) : (sheetsStage pc).holds := by
  cases pc <;> first | rfl | cases h

theorem sheets_lockStep (hs : Sheets.Step newURL clock w r turn w' r') :
    LockStep true w (sheetsView r) turn.toTurn w' (sheetsView r') := by
  cases hs with
  | skip hpc => exact sheets_keeps hpc rfl rfl rfl
  | locked hpc hacq => exact .takes (by rw [sheetsView, hpc]; rfl) hacq rfl rfl rfl
  | fails hpc reason => exact sheets_keeps rfl rfl (holds_of_sheets_tries hpc).symm rfl
  | pairedAll hpc hlink =>
    unfold Sheets.Run.loop
    split <;> exact sheets_keeps hpc rfl rfl rfl
  | toldProgress hpc =>
    unfold Sheets.Run.loop
    split <;> exact sheets_keeps hpc (publishNow_locks _) rfl rfl
  | wroteData hpc =>
    refine sheets_keeps hpc rfl ?_ rfl
    dsimp only
    split <;> rfl
  | toldRunning hpc | toldCompleted hpc | toldFailed hpc =>
    exact sheets_keeps hpc (publishNow_locks _) rfl rfl
  | released hpc hlock => exact .frees (congrArg sheetsStage hpc) hlock rfl rfl
  | releaseFailed hpc hr => exact .fails rfl hr (congrArg sheetsStage hpc) rfl
  | running hpc | raised hpc | titled hpc | read hpc | replaced hpc | fetched hpc
  | pairedValid hpc | pairedInvalid hpc | marked hpc | rejected hpc | resolved hpc | counted hpc
  | nothing hpc | planned hpc | wroteHeader hpc | wroteWidths hpc | widthsFailed hpc
  | countedAll hpc | completed hpc | refound hpc | failedSet hpc | failedUnset hpc
  | refoundFailed hpc | unfoundFailed hpc | lowered hpc | lowerFailed hpc =>
    exact sheets_keeps hpc rfl rfl rfl

end Sheets

theorem Walk.clock_eq (hs : Walk newURL main w v t w' v') : w'.clock = w.clock := by
  cases hs with
  | stays hstage hw hv => exact hw.clock
  | closes stage hfrom hto hw => exact hw.clock
  | enters b hstage hb hw => exact hw.clock
  | nexts hstage hw => exact hw.clock
  | leaves b hstage hb hw => exact hw.clock
  | checks hmain hmove =>
    obtain ⟨c, c', -, -, hm, -⟩ := Batch.move_eq_some hmove
    exact hm.frame.clock
  | beats hmain hlock hw => rcases hw with rfl | rfl <;> rfl
  | _ => rfl

theorem Check.lockStep {a : Act} (hm : c.move newURL clock w a = some (w', c')) :
    (c.view = none ∧ w' = w ∧ ∀ v ∈ c'.view, ∃ p, v = .fresh .sheets p []) ∨
      ∃ v v', c.view = some v ∧ c'.view = some v' ∧ LockStep a.main w v a.turn w' v' ∧
        Walk newURL a.main w v a.turn w' v' := by
  have child {v : View} {k : ℕ} {t : Turn} {b : Batch}
      (hmove : v.batch.move newURL w k t = some (w', b)) :
      LockStep false w v t w' { v with batch := b } := by
    obtain ⟨d, d', -, -, hmoves, -⟩ := Batch.move_eq_some hmove
    exact .keeps hmoves.frame.locks rfl rfl
  cases steps_of_move hm with
  | manual hs => exact .inr ⟨_, _, rfl, rfl, manual_lockStep hs, manual_step hs⟩
  | manualChild hb => exact .inr ⟨_, _, rfl, rfl, child hb, .checks rfl hb⟩
  | manualBeat hlock hw =>
    refine .inr ⟨_, _, rfl, rfl, ?_, .beats rfl hlock hw⟩
    rcases hw with rfl | rfl
    · exact .keeps rfl rfl rfl
    · exact .beats hlock rfl
  | missing => exact .inl ⟨rfl, rfl, nofun⟩
  | found hfind => exact .inl ⟨rfl, rfl, fun v hv => ⟨_, (Option.some.inj hv).symm⟩⟩
  | sheets hs => exact .inr ⟨_, _, rfl, rfl, sheets_lockStep hs, sheets_step hs⟩
  | sheetsChild hb => exact .inr ⟨_, _, rfl, rfl, child hb, .checks rfl hb⟩
  | sheetsBeat hlock hw =>
    refine .inr ⟨_, _, rfl, rfl, ?_, .beats rfl hlock hw⟩
    rcases hw with rfl | rfl
    · exact .keeps rfl rfl rfl
    · exact .beats hlock rfl

def Check.inside (kind : Kind) (p : ProjectId) (c : Check) : Bool :=
  (c.viewOf kind p).any fun v => v.stage.holds

theorem Check.inside_iff : c.inside kind p ↔ ∃ v ∈ c.viewOf kind p, v.stage.holds := by
  rw [Check.inside, Option.any_eq_true]
  rfl

theorem Check.inside_of_view (h : c.view = some v) :
    c.inside v.kind v.projectId = v.stage.holds := by
  rw [Check.inside, Option.mem_def.mp (mem_viewOf.mpr ⟨h, rfl, rfl⟩), Option.any_some]

theorem Check.inside_of_ne (h : c.view = some v) (hne : ¬ (kind = v.kind ∧ p = v.projectId)) :
    c.inside kind p = false := by
  rw [Bool.eq_false_iff]
  intro hin
  obtain ⟨u, hu, -⟩ := Check.inside_iff.mp hin
  obtain ⟨hview, rfl, rfl⟩ := mem_viewOf.mp hu
  obtain rfl := Option.some.inj (hview.symm.trans h)
  exact hne ⟨rfl, rfl⟩

theorem Check.inside_of_fresh (h : ∀ v ∈ c.view, ∃ p, v = .fresh .sheets p []) :
    c.inside kind p = false := by
  rw [Bool.eq_false_iff]
  intro hin
  obtain ⟨v, hv, hholds⟩ := Check.inside_iff.mp hin
  obtain ⟨q, rfl⟩ := h v (mem_viewOf.mp hv).1
  cases hholds

theorem LockStep.effect (hs : LockStep main w v t w' v') (hp : v.Paced) (hnow : w.clock = t.now)
    (hclock : w'.clock = w.clock) :
    Exclusion.Effect (lockFree v.kind v.projectId w w.clock) v.stage.holds
      (lockFree v.kind v.projectId w' w'.clock) v'.stage.holds := by
  rw [hclock]
  cases hs with
  | keeps hlocks hholds hlock =>
    rw [hholds, lockFree, lockFree, hlocks]
    exact .stays
  | takes hout hacq hlocks hholds hlock =>
    obtain ⟨rfl, hpos, hread, rfl⟩ := LockManager.acquire_eq_some hacq
    rw [hout, hholds, lockFree_of_update hlocks,
      Slot.read_eq_some.mpr ⟨_, rfl, hnow ▸ Int.le_add_of_nonneg_right hpos.le⟩]
    refine .takes ?_
    rw [lockFree, hnow]
    exact Option.isNone_iff_eq_none.mpr hread
  | beats hlock hlocks =>
    rw [lockFree_of_update hlocks, hnow, LockManager.read_heartbeat (hp.ttl _ hlock), lockFree]
    exact .stays
  | frees hstage hlock hlocks hout =>
    rw [hout, hstage]
    exact .leaves
  | fails hmain hr hstage hout =>
    rw [hout, hstage]
    exact .leaves

theorem Check.exclusion {a : Act} (hm : c.move newURL clock w a = some (w', c'))
    (hp : ∀ v ∈ c.view, v.Paced) (hnow : w.clock = a.turn.now) :
    Exclusion.Effect (lockFree kind p w w.clock) (c.inside kind p) (lockFree kind p w' w'.clock)
      (c'.inside kind p) := by
  rcases Check.lockStep hm with ⟨hv, rfl, hfresh⟩ | ⟨v, v', hv, hv', hs, hwalk⟩
  · rw [Check.inside_of_fresh (c := c) (by simp [hv]), Check.inside_of_fresh hfresh]
    exact .stays
  · obtain ⟨hkind, hproject⟩ := hwalk.same
    by_cases hof : kind = v.kind ∧ p = v.projectId
    · obtain ⟨rfl, rfl⟩ := hof
      have hin' : c'.inside v.kind v.projectId = v'.stage.holds := by
        rw [← hkind, ← hproject, Check.inside_of_view hv']
      rw [Check.inside_of_view hv, hin']
      exact hs.effect (hp v hv) hnow hwalk.clock_eq
    · rw [(hwalk.frame hof).1, Check.inside_of_ne hv hof,
        Check.inside_of_ne hv' (hkind.symm ▸ hproject.symm ▸ hof)]
      exact .stays

def Unexpired (kind : Kind) (p : ProjectId) (s : Fleet) (a : ℕ × Act) : Prop :=
  (∃ c ∈ s.2, c.inside kind p) → lockFree kind p s.1 a.2.turn.now = false

instance (s : Fleet) (a : ℕ × Act) : Decidable (Unexpired kind p s a) :=
  inferInstanceAs (Decidable ((∃ c ∈ s.2, c.inside kind p) → _))

structure Exclusive (kind : Kind) (p : ProjectId) (s : Fleet) : Prop where
  places : Exclusion.Excludes (lockFree kind p s.1 s.1.clock) (s.2.map (Check.inside kind p))
  paced : Paced s

theorem Request.outside (r : Request) : r.start.inside kind p = false := by
  rw [Bool.eq_false_iff]
  intro hin
  obtain ⟨v, hv, hholds⟩ := Check.inside_iff.mp hin
  rw [(r.paced_start v (mem_viewOf.mp hv).1).2] at hholds
  cases hholds

theorem Exclusive.start (w : World) (requests : List Request) :
    Exclusive kind p (w, requests.map Request.start) where
  places := by
    refine .start fun hin => ?_
    obtain ⟨c, hc, hin⟩ := List.mem_map.mp hin
    obtain ⟨r, -, rfl⟩ := List.mem_map.mp hc
    rw [r.outside] at hin
    cases hin
  paced := .start w requests

theorem Exclusive.wait {cs : List Check} (h : Exclusive kind p (w, cs)) (hlocks : w'.locks = w.locks)
    (hu : (∃ c ∈ cs, c.inside kind p) → lockFree kind p w w'.clock = false) :
    Exclusive kind p (w', cs) := by
  refine ⟨h.places.wait fun hin => ?_, h.paced⟩
  obtain ⟨c, hc, hin⟩ := List.mem_map.mp hin
  rw [lockFree, hlocks]
  exact hu ⟨c, hc, hin⟩

theorem Exclusive.join {cs : List Check} (h : Exclusive kind p (w, cs)) (r : Request) :
    Exclusive kind p (w, cs ++ [r.start]) where
  places := by
    rw [List.map_append, List.map_singleton, r.outside]
    exact h.places.join
  paced := by
    intro c hc
    rcases List.mem_append.mp hc with hc | hc
    · exact h.paced c hc
    · rw [List.mem_singleton.mp hc]
      exact fun v hv => (r.paced_start v hv).1

theorem Exclusive.move {cs : List Check} {i : ℕ} {a : Act} (h : Exclusive kind p (w, cs))
    (hnow : w.clock = a.turn.now) (hget : cs[i]? = some c)
    (hm : c.move newURL clock w a = some (w', c')) : Exclusive kind p (w', cs.set i c') where
  places := by
    rw [List.map_set]
    exact h.places.step (by rw [List.getElem?_map, hget]; rfl)
      (Check.exclusion hm (h.paced c (List.mem_of_getElem? hget)) hnow)
  paced := by
    have hs : ProjectLock.step newURL clock (w, cs) (i, a) = some (w', cs.set i c') := by
      have hw : { w with clock := a.turn.now } = w := by rw [← hnow]
      rw [ProjectLock.step, if_pos hnow.le, hw]
      exact Pool.step_eq_some.mpr ⟨c, c', hget, hm, rfl⟩
    exact h.paced.step hs

theorem Exclusive.step (h : Exclusive kind p s) (hu : Unexpired kind p s a)
    (hs : ProjectLock.step newURL clock s a = some s') : Exclusive kind p s' := by
  obtain ⟨c, c', hget, hmove, hset⟩ := step_eq_some hs
  have hwait : Exclusive kind p ({ s.1 with clock := a.2.turn.now }, s.2) := h.wait rfl hu
  have hnext := hwait.move rfl hget hmove
  rwa [← hset] at hnext

theorem exclusive_of_run {requests : List Request} {as : List (ℕ × Act)}
    (hu : Meets (ProjectLock.step newURL clock) (Unexpired kind p)
      (w, requests.map Request.start) as)
    (hr : exec (ProjectLock.step newURL clock) (w, requests.map Request.start) as = some s) :
    Exclusive kind p s :=
  exec_invariant_of_meets (fun _ _ _ h hc hs => h.step hc hs) (.start w requests) hu hr

def Guarded (kind : Kind) (p : ProjectId) (w : World) (cs : List Check) : Prop :=
  ∀ time token, w.clock ≤ time → (w.locks (kind.lockKey p)).read time = some token →
    ∃ c ∈ cs, ∃ v ∈ c.viewOf kind p, v.stage.holds ∧
      ∃ lock, v.lock = some lock ∧ lock.token = token

theorem Guarded.start (hfree : w.locks (kind.lockKey p) = none) (cs : List Check) :
    Guarded kind p w cs := by
  intro time token _ hread
  rw [hfree] at hread
  cases hread

theorem LockStep.read (hs : LockStep main w v t w' v') (hnow : w.clock = t.now) {time : ℤ}
    {token : LockManager.Token} (htime : w.clock ≤ time)
    (hserved : kind = v.kind → p = v.projectId → v.stage = .lowered → main → t.rejects = false)
    (hread : (w'.locks (kind.lockKey p)).read time = some token) :
    (kind = v.kind ∧ p = v.projectId ∧ v'.stage.holds ∧
        ∃ lock, v'.lock = some lock ∧ lock.token = token) ∨
      ∃ before, w.clock ≤ before ∧ (w.locks (kind.lockKey p)).read before = some token ∧
        (kind = v.kind → p = v.projectId → v.stage.holds → ∀ lock, v.lock = some lock →
          lock.token = token → v'.stage.holds ∧ v'.lock = some lock) := by
  by_cases hof : kind = v.kind ∧ p = v.projectId
  · obtain ⟨rfl, rfl⟩ := hof
    cases hs with
    | keeps hlocks hholds hlock =>
      rw [hlocks] at hread
      exact .inr ⟨time, htime, hread, fun _ _ hin lock hmine _ =>
        ⟨hholds ▸ hin, hlock.trans hmine⟩⟩
    | takes hout hacq hlocks hholds hlock =>
      obtain ⟨rfl, -, -, rfl⟩ := LockManager.acquire_eq_some hacq
      rw [hlocks, View.lockKey, Function.update_self] at hread
      obtain ⟨d, hd, -⟩ := Slot.read_eq_some.mp hread
      cases hd
      exact .inl ⟨rfl, rfl, hholds, _, hlock, rfl⟩
    | beats hlock hlocks =>
      rw [hlocks, View.lockKey, Function.update_self] at hread
      exact .inr ⟨t.now, hnow.le, LockManager.read_of_heartbeat (hnow ▸ htime) hread,
        fun _ _ hin lock hmine _ => ⟨hin, hmine⟩⟩
    | frees hstage hlock hlocks hout =>
      rw [hlocks, View.lockKey, Function.update_self] at hread
      obtain ⟨hnow', hne⟩ := LockManager.read_of_release (hnow ▸ htime) hread
      refine .inr ⟨t.now, hnow.le, hnow', fun _ _ _ lock hmine htoken => ?_⟩
      rw [hlock] at hmine
      cases hmine
      exact absurd htoken.symm hne
    | fails hmain hr hstage hout =>
      rw [hserved rfl rfl hstage hmain] at hr
      cases hr
  · have hlocks : w'.locks (kind.lockKey p) = w.locks (kind.lockKey p) := by
      have other {key : LockManager.Key} (h : w'.locks = Function.update w.locks v.lockKey key) :
          w'.locks (kind.lockKey p) = w.locks (kind.lockKey p) := by
        rw [h, View.lockKey, Function.update_of_ne fun he => hof (lockKey_inj he)]
      cases hs with
      | keeps hlocks hholds hlock => rw [hlocks]
      | takes hout hacq hlocks hholds hlock => exact other hlocks
      | beats hlock hlocks => exact other hlocks
      | frees hstage hlock hlocks hout => exact other hlocks
      | fails hmain hr hstage hout => rfl
    rw [hlocks] at hread
    exact .inr ⟨time, htime, hread, fun hkind hproject => absurd ⟨hkind, hproject⟩ hof⟩

theorem Guarded.move {cs : List Check} {i : ℕ} {a : Act} (hg : Guarded kind p w cs)
    (hget : cs[i]? = some c) (hnow : w.clock = a.turn.now)
    (hserved : ∀ v ∈ c.viewOf kind p, v.stage = .lowered → a.main → a.turn.rejects = false)
    (hm : c.move newURL clock w a = some (w', c')) : Guarded kind p w' (cs.set i c') := by
  intro time token htime hread
  rcases Check.lockStep hm with ⟨hv, rfl, hfresh⟩ | ⟨v, v', hv, hv', hs, hwalk⟩
  · obtain ⟨d, hd, u, hu, hrest⟩ := hg time token htime hread
    rcases Pool.mem_set_of_mem hget hd with rfl | hd
    · cases hv.symm.trans (mem_viewOf.mp hu).1
    · exact ⟨d, hd, u, hu, hrest⟩
  · rw [hwalk.clock_eq] at htime
    have same (hkind : kind = v.kind) (hproject : p = v.projectId) : v' ∈ c'.viewOf kind p :=
      mem_viewOf.mpr ⟨hv', hwalk.same.1.trans hkind.symm, hwalk.same.2.trans hproject.symm⟩
    have hserved' (hkind : kind = v.kind) (hproject : p = v.projectId) :=
      hserved v (mem_viewOf.mpr ⟨hv, hkind.symm, hproject.symm⟩)
    rcases hs.read hnow htime hserved' hread with ⟨hkind, hproject, hholds, hlock⟩ |
      ⟨before, hbefore, hread, hmover⟩
    · exact ⟨c', Pool.mem_set_self hget, v', same hkind hproject, hholds, hlock⟩
    · obtain ⟨d, hd, u, hu, hholds, lock, hlock, htoken⟩ := hg before token hbefore hread
      rcases Pool.mem_set_of_mem hget hd with rfl | hd
      · obtain ⟨hview, rfl, rfl⟩ := mem_viewOf.mp hu
        obtain rfl := Option.some.inj (hview.symm.trans hv)
        obtain ⟨hholds', hlock'⟩ := hmover rfl rfl hholds lock hlock htoken
        exact ⟨c', Pool.mem_set_self hget, v', same rfl rfl, hholds', lock, hlock', htoken⟩
      · exact ⟨d, hd, u, hu, hholds, lock, hlock, htoken⟩

theorem Guarded.mono {cs : List Check} (hg : Guarded kind p w cs) (hclock : w.clock ≤ w'.clock)
    (hlocks : w'.locks = w.locks) : Guarded kind p w' cs := by
  intro time token htime hread
  rw [hlocks] at hread
  exact hg time token (hclock.trans htime) hread

end LinkBulker.ProjectLock
