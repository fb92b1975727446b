import LinkBulker.Worker.CheckHistory
import LinkBulker.Worker.ProjectLockEffect

/-! A project's lock and its flag agree as long as no call lowers the flag over a `processOne` that
is still under way. -/

namespace LinkBulker.ProjectLock

open Foundations Db Shared Crawler LinkRepository SingleLink Worker

variable {newURL : UrlParser} {clock : Sheets.LocalClock} {w w' : World} {v : View} {kind : Kind}
  {p : ProjectId} {s s' : Fleet} {a : ℕ × Act} {c c' : Check}

theorem step_eq_some (h : step newURL clock s a = some s') :
    ∃ c c', s.2[a.1]? = some c ∧
      c.move newURL clock { s.1 with clock := a.2.turn.now } a.2 = some (s'.1, c') ∧
      s'.2 = s.2.set a.1 c' := by
  unfold step at h
  split at h
  · obtain ⟨c, c', hget, hmove, hset⟩ := Pool.step_eq_some.mp h
    exact ⟨c, c', hget, hmove, hset⟩
  · cases h

theorem mem_viewOf : v ∈ c.viewOf kind p ↔ v ∈ c.view ∧ v.kind = kind ∧ v.projectId = p := by
  simp [Check.viewOf, Option.mem_def, Option.filter_eq_some_iff]

theorem mem_clearing : v ∈ clearing kind p s a ↔
    (∃ c ∈ s.2[a.1]?, v ∈ c.viewOf kind p) ∧ v.stage = .clearing ∧ a.2.main := by
  simp [clearing, Option.mem_def, Option.filter_eq_some_iff, Option.bind_eq_some_iff]

def Check.phase (kind : Kind) (p : ProjectId) (c : Check) : Mirror.Phase :=
  ((c.viewOf kind p).map View.phase).getD .outside

theorem Check.phase_of_mem (h : v ∈ c.viewOf kind p) : c.phase kind p = v.phase := by
  rw [Check.phase, Option.mem_def.mp h]
  rfl

theorem Check.phase_of_forall (h : ∀ v ∈ c.viewOf kind p, v.phase = .outside) :
    c.phase kind p = .outside := by
  cases hv : c.viewOf kind p with
  | none => rw [Check.phase, hv]; rfl
  | some v => rw [Check.phase_of_mem hv, h v hv]

theorem View.inside_phase : v.phase.inside = v.stage.holds := by
  cases hstage : v.stage with
  | closing => rw [phase_eq hstage, Stage.phase]; split <;> rfl
  | clearing => rw [phase_eq hstage, Stage.phase]; split <;> rfl
  | _ => rw [phase_eq hstage]; rfl

theorem Check.inside_phase :
    (c.phase kind p).inside = (c.viewOf kind p).any fun v => v.stage.holds := by
  cases hv : c.viewOf kind p with
  | none => rw [Check.phase, hv]; rfl
  | some v => rw [Check.phase_of_mem hv, Option.any_some, View.inside_phase]

theorem Check.effect {a : Act} (hm : c.move newURL clock w a = some (w', c'))
    (hp : ∀ v ∈ c.view, v.Paced) (hclock : w.clock = a.turn.now)
    (hclear : ∀ v ∈ c.viewOf kind p, v.stage = .clearing → a.main →
      a.turn.rejects = false ∧ (v.kind.setFlag w.db v.projectId false).isSome) :
    Mirror.Effect (lockFree kind p w w.clock) (flagUp kind p w.db) (c.phase kind p)
      (lockFree kind p w' w'.clock) (flagUp kind p w'.db) (c'.phase kind p) := by
  rcases move_eq_some hm with ⟨hv, rfl, hfresh⟩ | ⟨v, v', hv, hv', hs⟩
  · rw [Check.phase_of_forall (c := c), Check.phase_of_forall (c := c')]
    · exact .stays
    · intro v hmem
      obtain ⟨q, rfl⟩ := hfresh v (mem_viewOf.mp hmem).1
      rfl
    · intro v hmem
      rw [Check.viewOf, hv] at hmem
      cases hmem
  · by_cases hof : kind = v.kind ∧ p = v.projectId
    · obtain ⟨rfl, rfl⟩ := hof
      have hmem : v ∈ c.viewOf v.kind v.projectId := mem_viewOf.mpr ⟨hv, rfl, rfl⟩
      rw [Check.phase_of_mem hmem, Check.phase_of_mem (mem_viewOf.mpr ⟨hv', hs.same⟩)]
      exact hs.effect (hp v hv) hclock (hclear v hmem)
    · obtain ⟨hfree, hflag⟩ := hs.frame hof
      rw [hfree, hflag, Check.phase_of_forall (c := c), Check.phase_of_forall (c := c')]
      · exact .stays
      · intro u hmem
        obtain ⟨hu, hkind, hproject⟩ := mem_viewOf.mp hmem
        obtain rfl := Option.some.inj (hv'.symm.trans hu)
        exact absurd ⟨hkind.symm.trans hs.same.1, hproject.symm.trans hs.same.2⟩ hof
      · intro u hmem
        obtain ⟨hu, hkind, hproject⟩ := mem_viewOf.mp hmem
        obtain rfl := Option.some.inj (hv.symm.trans hu)
        exact absurd ⟨hkind.symm, hproject.symm⟩ hof

def Paced (s : Fleet) : Prop := ∀ c ∈ s.2, ∀ v ∈ c.view, v.Paced

theorem Paced.step (h : Paced s) (hs : step newURL clock s a = some s') : Paced s' := by
  obtain ⟨c, c', hget, hmove, hset⟩ := step_eq_some hs
  rw [Paced, hset]
  refine Pool.forall_set h fun v' hv' => ?_
  rcases move_eq_some hmove with ⟨-, -, hfresh⟩ | ⟨v, u, hv, hu, hs⟩
  · obtain ⟨q, rfl⟩ := hfresh v' hv'
    exact .fresh ..
  · obtain rfl := Option.some.inj (hu.symm.trans hv')
    exact hs.paced (h c (List.mem_of_getElem? hget) v hv)

theorem Check.late {a : Act} (hm : c.move newURL clock w a = some (w', c'))
    (hp : ∀ v ∈ c.view, v.Paced) {v' : View} (hv' : v' ∈ c'.view)
    (h : ∀ v ∈ c.view, v.kind = v'.kind ∧ v.projectId = v'.projectId →
      (v.stage.late → v.batch.settled) ∧
        (v.stage = .clearing → a.main → (∃ d ∈ v.batch.calls, d.pc = .rejected) → v.batch.settled)) :
    v'.stage.late → v'.batch.settled := by
  rcases move_eq_some hm with ⟨-, -, hfresh⟩ | ⟨v, u, hv, hu, hs⟩
  · obtain ⟨q, rfl⟩ := hfresh v' hv'
    nofun
  · obtain rfl := Option.some.inj (hu.symm.trans hv')
    obtain ⟨hlate, hwaits⟩ := h v hv ⟨hs.same.1.symm, hs.same.2.symm⟩
    exact hs.late (hp v hv) hlate hwaits

structure Steady (kind : Kind) (p : ProjectId) (s : Fleet) : Prop where
  agree : Mirror.Agree (lockFree kind p s.1 s.1.clock) (flagUp kind p s.1.db)
    (s.2.map (Check.phase kind p))
  paced : Paced s
  late : ∀ c ∈ s.2, ∀ v ∈ c.viewOf kind p, v.stage.late → v.batch.settled

theorem Steady.agree_step (h : Steady kind p s) (ha : Assumed kind p s a)
    (hs : ProjectLock.step newURL clock s a = some s') :
    Mirror.Agree (lockFree kind p s'.1 s'.1.clock) (flagUp kind p s'.1.db)
      (s'.2.map (Check.phase kind p)) := by
  obtain ⟨c, c', hget, hmove, hset⟩ := step_eq_some hs
  have hwait : Mirror.Agree (lockFree kind p s.1 a.2.turn.now) (flagUp kind p s.1.db)
      (s.2.map (Check.phase kind p)) := by
    refine h.agree.wait fun q hq hin => ha.1 ?_
    obtain ⟨d, hd, rfl⟩ := List.mem_map.mp hq
    exact ⟨d, hd, Check.inside_phase ▸ hin⟩
  have heff : Mirror.Effect (lockFree kind p s.1 a.2.turn.now) (flagUp kind p s.1.db)
      (c.phase kind p) (lockFree kind p s'.1 s'.1.clock) (flagUp kind p s'.1.db)
      (c'.phase kind p) :=
    Check.effect hmove (h.paced c (List.mem_of_getElem? hget)) rfl
      fun v hv hstage hmain => ha.2 v (mem_clearing.mpr ⟨⟨c, hget, hv⟩, hstage, hmain⟩)
  rw [hset, List.map_set]
  exact hwait.step (by rw [List.getElem?_map, hget]; rfl) heff

theorem Steady.step (h : Steady kind p s) (ha : Assumed kind p s a) (hw : Waits kind p s a)
    (hs : ProjectLock.step newURL clock s a = some s') : Steady kind p s' := by
  refine ⟨h.agree_step ha hs, h.paced.step hs, ?_⟩
  obtain ⟨c, c', hget, hmove, hset⟩ := step_eq_some hs
  have hc : c ∈ s.2 := List.mem_of_getElem? hget
  rw [hset]
  refine Pool.forall_set h.late fun v' hmem' => ?_
  obtain ⟨hv', hkind, hproject⟩ := mem_viewOf.mp hmem'
  refine Check.late hmove (h.paced c hc) hv' fun v hv hsame => ?_
  have hmem : v ∈ c.viewOf kind p :=
    mem_viewOf.mpr ⟨hv, hsame.1.trans hkind, hsame.2.trans hproject⟩
  exact ⟨h.late c hc v hmem, fun hstage hmain =>
    hw v (mem_clearing.mpr ⟨⟨c, hget, hmem⟩, hstage, hmain⟩)⟩

theorem Steady.mirrors (h : Steady kind p s) : Mirrors kind p s where
  alone := by
    have halone := h.agree.alone
    rw [List.countP_map] at halone
    simpa only [Function.comp_def, Check.inside_phase] using halone
  down hfree := by
    have hagree := h.agree
    rw [hfree] at hagree
    exact hagree.flag_of_free
  up c hc v hmem hproc := by
    have hraised := (h.paced c hc v (mem_viewOf.mp hmem).1).raised (h.late c hc v hmem) hproc
    refine h.agree.shows _ (List.mem_map_of_mem hc) true ?_
    rw [Check.phase_of_mem hmem, hraised]
    rfl

theorem Request.paced_start (r : Request) : ∀ v ∈ r.start.view, v.Paced ∧ v.stage = .away := by
  cases r with
  | manual job =>
    intro v hv
    obtain rfl := Option.some.inj hv
    exact ⟨.fresh .manual job.projectId job.linkIds, rfl⟩
  | sheets sheetsTaskId => nofun

theorem Paced.start (w : World) (requests : List Request) :
    Paced (w, requests.map Request.start) := by
  intro c hc v hv
  obtain ⟨r, -, rfl⟩ := List.mem_map.mp hc
  exact (r.paced_start v hv).1

theorem Steady.start {requests : List Request} (hflag : flagUp kind p w.db = false) :
    Steady kind p (w, requests.map Request.start) := by
  refine ⟨?_, .start w requests, ?_⟩
  · rw [hflag]
    refine .start fun q hq => ?_
    simp only [List.map_map, List.mem_map, Function.comp_apply] at hq
    obtain ⟨r, -, rfl⟩ := hq
    have hphase : r.start.phase kind p = .outside := Check.phase_of_forall fun v hv =>
      phase_eq (r.paced_start v (mem_viewOf.mp hv).1).2
    rw [hphase]
    rfl
  · intro c hc v hv hlate
    obtain ⟨r, -, rfl⟩ := List.mem_map.mp hc
    rw [(r.paced_start v (mem_viewOf.mp hv).1).2] at hlate
    cases hlate

theorem Check.away_of_move {a : Act} (hm : c.move newURL clock w a = some (w', c'))
    (hp : ∀ v ∈ c.view, v.Paced) (haway : c'.away) : c.away ∧ w' = w := by
  rcases move_eq_some hm with ⟨hv, hw, -⟩ | ⟨v, v', hv, hv', hs⟩
  · exact ⟨by rw [Check.away, hv]; rfl, hw⟩
  · rw [Check.away, hv'] at haway
    obtain ⟨hstage, hw⟩ := hs.away (hp v hv) (by simpa using haway)
    exact ⟨by simp [Check.away, hv, hstage], hw⟩

theorem Paced.away_of_step (h : Paced s) (hs : ProjectLock.step newURL clock s a = some s') {i : ℕ}
    (haway : ∀ c ∈ s'.2[i]?, c.away) : ∀ c ∈ s.2[i]?, c.away := by
  obtain ⟨c, c', hget, hmove, hset⟩ := step_eq_some hs
  rw [hset] at haway
  by_cases hi : i = a.1
  · subst hi
    intro d hd
    obtain rfl := Option.some.inj (hget.symm.trans hd)
    have hc' : c'.away := haway c' (Pool.getElem?_set_self hget)
    exact (Check.away_of_move hmove (h c (List.mem_of_getElem? hget)) hc').1
  · rwa [List.getElem?_set_ne fun he => hi he.symm] at haway

theorem Paced.away_of_exec (h : Paced s) {as : List (ℕ × Act)}
    (hr : exec (ProjectLock.step newURL clock) s as = some s') {i : ℕ}
    (haway : ∀ c ∈ s'.2[i]?, c.away) : ∀ c ∈ s.2[i]?, c.away := by
  induction as generalizing s with
  | nil =>
    cases hr
    exact haway
  | cons a as ih =>
    obtain ⟨t, ht, hr⟩ := exec_cons.mp hr
    exact h.away_of_step ht (ih (h.step ht) hr)

theorem Paced.untouched (h : Paced s) {as : List (ℕ × Act)}
    (hr : exec (ProjectLock.step newURL clock) s as = some s') : Untouched newURL clock s s' as := by
  rintro before a after s₁ s₂ rfl hbefore hs haway
  obtain ⟨t, ht, hr⟩ := exec_append.mp hr
  obtain rfl := Option.some.inj (hbefore.symm.trans ht)
  obtain ⟨t, ht, hafter⟩ := exec_cons.mp hr
  obtain rfl := Option.some.inj (hs.symm.trans ht)
  have hp : Paced s₁ := exec_invariant (fun _ _ _ h hs => h.step hs) h hbefore
  have haway' := (hp.step hs).away_of_exec hafter haway
  obtain ⟨c, c', hget, hmove, hset⟩ := step_eq_some hs
  have hc' : c'.away := haway' c' (hset ▸ Pool.getElem?_set_self hget)
  rw [(Check.away_of_move hmove (hp c (List.mem_of_getElem? hget)) hc').2]
  exact ⟨rfl, rfl⟩

theorem Mirrors.waits (ha : Assumed kind p s a)
    (hs : ProjectLock.step newURL clock s a = some s') (h : Mirrors kind p s') :
    Waits kind p s a := by
  intro v hv _
  obtain ⟨hr, hset⟩ := ha.2 v hv
  obtain ⟨⟨c, hget, hmem⟩, hstage, hmain⟩ := mem_clearing.mp hv
  obtain ⟨hview, rfl, rfl⟩ := mem_viewOf.mp hmem
  obtain ⟨d, c', hget', hmove, hset'⟩ := step_eq_some hs
  obtain rfl := Option.some.inj (hget'.symm.trans hget)
  rcases move_eq_some hmove with ⟨hnone, -, -⟩ | ⟨u, v', hu, hv', hw⟩
  · cases hnone.symm.trans hview
  · obtain rfl := Option.some.inj (hu.symm.trans hview)
    rw [hmain] at hw
    obtain ⟨hbatch, hflag⟩ := hw.lowered hstage hr hset
    have hmem' : v' ∈ c'.viewOf u.kind u.projectId := mem_viewOf.mpr ⟨hv', hw.same⟩
    by_contra hun
    have hproc : v'.processes := by
      rw [View.processes, hbatch, Bool.eq_false_iff.mpr hun]
      exact Bool.or_true _
    have hup := h.up c' (hset' ▸ Pool.mem_set_self hget') v' hmem' hproc
    rw [hflag] at hup
    cases hup

/-- Any number of calls of both kinds, for any projects, in any order of their steps, with any
failures but that of the statement that lowers the flag. -/
theorem flag_mirrors_lock {requests : List Request} {as : List (ℕ × Act)}
    (hflag : flagUp kind p w.db = false)
    (hr : exec (ProjectLock.step newURL clock) (w, requests.map Request.start) as = some s)
    (hassumed : Meets (ProjectLock.step newURL clock) (Assumed kind p)
      (w, requests.map Request.start) as) :
    Meets (ProjectLock.step newURL clock) (Waits kind p) (w, requests.map Request.start) as ↔
      (∀ before s₁, before <+: as →
        exec (ProjectLock.step newURL clock) (w, requests.map Request.start) before = some s₁ →
        Mirrors kind p s₁) ∧
      Untouched newURL clock (w, requests.map Request.start) s as := by
  constructor
  · intro hwaits
    refine ⟨?_, (Paced.start w requests).untouched hr⟩
    rintro before s₁ ⟨after, rfl⟩ hbefore
    have hmeets := (hassumed.and hwaits).of_append hbefore
    have hsteady : Steady kind p s₁ :=
      exec_invariant_of_meets (fun _ _ _ h hc hs => h.step hc.1 hc.2 hs) (.start hflag) hmeets.1
        hbefore
    exact hsteady.mirrors
  · rintro ⟨hmirrors, -⟩
    refine .of_exec hr fun before a s₁ s₂ hpre hbefore hs => ?_
    have hmirrors₂ := hmirrors _ s₂ hpre (exec_concat.mpr ⟨s₁, hbefore, hs⟩)
    obtain ⟨after, rfl⟩ := hpre
    rw [List.append_assoc] at hassumed
    exact hmirrors₂.waits (hassumed.of_append hbefore).2.1 hs

def exampleWorld : World where
  db := exampleDatabase ⟨[exampleLink "a", exampleLink "b"], by decide⟩ .empty

def mainTurns (i n : ℕ) : List (ℕ × Act) :=
  List.replicate n (i, .manual (.main { token := "t" }))

def earlyTurns : List (ℕ × Act) :=
  mainTurns 0 4 ++ [(0, .manual (.child 1 {})), (0, .manual (.child 0 { rejects := true }))] ++
    mainTurns 0 4 ++ [(0, .manual (.child 1 {}))]

theorem flag_lowered_early :
    ∃ s, exec (step exampleURL Sheets.exampleClock)
        (exampleWorld, [Request.start (.manual ⟨"p", ["a", "b"]⟩)]) earlyTurns = some s ∧
      Meets (step exampleURL Sheets.exampleClock) (Assumed .manual "p")
        (exampleWorld, [Request.start (.manual ⟨"p", ["a", "b"]⟩)]) earlyTurns ∧
      lockFree .manual "p" s.1 s.1.clock = true ∧ flagUp .manual "p" s.1.db = false ∧
      (s.1.db.links.rows.map Link.status) = [.QUEUED, .CHECKING] ∧
      ¬ Mirrors .manual "p" s := by
  obtain ⟨s, hs, hfree, hflag, hstatus, c, hc, v, hv, hproc⟩ := exists_of_any
    (P := fun s => lockFree .manual "p" s.1 s.1.clock = true ∧ flagUp .manual "p" s.1.db = false ∧
      (s.1.db.links.rows.map Link.status) = [.QUEUED, .CHECKING] ∧
      ∃ c ∈ s.2, ∃ v ∈ c.viewOf .manual "p", v.processes)
    (s := exec (step exampleURL Sheets.exampleClock)
      (exampleWorld, [Request.start (.manual ⟨"p", ["a", "b"]⟩)]) earlyTurns) (by decide +kernel)
  refine ⟨s, hs, by decide +kernel, hfree, hflag, hstatus, fun hm => ?_⟩
  have hup := hm.up c hc v hv hproc
  rw [hflag] at hup
  cases hup

def sampleTurns : List (ℕ × Act) :=
  mainTurns 0 4 ++ mainTurns 1 1 ++ List.replicate 6 (0, .manual (.child 0 {})) ++ mainTurns 0 9

theorem flag_mirrors_lock_sample :
    ∃ s, exec (step exampleURL Sheets.exampleClock)
        (exampleWorld, [.manual ⟨"p", ["a"]⟩, .manual ⟨"p", ["b"]⟩].map Request.start)
        sampleTurns = some s ∧
      ∀ before s₁, before <+: sampleTurns →
        exec (step exampleURL Sheets.exampleClock)
          (exampleWorld, [.manual ⟨"p", ["a"]⟩, .manual ⟨"p", ["b"]⟩].map Request.start)
          before = some s₁ → Mirrors .manual "p" s₁ := by
  obtain ⟨s, hs, -⟩ := exists_of_any (P := fun _ => True)
    (s := exec (step exampleURL Sheets.exampleClock)
      (exampleWorld, [.manual ⟨"p", ["a"]⟩, .manual ⟨"p", ["b"]⟩].map Request.start)
      sampleTurns) (by decide +kernel)
  exact ⟨s, hs,
    ((flag_mirrors_lock (by decide +kernel) hs (by decide +kernel)).mp (by decide +kernel)).1⟩

end LinkBulker.ProjectLock
