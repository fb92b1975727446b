import LinkBulker.Api.RecheckOne

/-! The hint `retryAfterSec` of a rejected `recheckOne`, and what becomes of a caller who keeps to
it. -/

namespace LinkBulker.RecheckOne

open Foundations Db Shared LinksService

section Hint

variable {c t : ℤ}

theorem cooled_after_retryAfterSec :
    c < t + 1000 * retryAfterSec (some c) t - cooldownMs ↔
      (t - c < cooldownMs → ¬ 1000 ∣ t - c) := by
  have hcooldown : cooldownMs = 60000 := rfl
  simp only [retryAfterSec, ceilSeconds, hcooldown]
  omega

theorem retryAfterSec_bounds (lastCooldownAt : Option ℤ) (h : ∀ c ∈ lastCooldownAt, c ≤ t) :
    1 ≤ retryAfterSec lastCooldownAt t ∧ retryAfterSec lastCooldownAt t ≤ 60 := by
  have hcooldown : cooldownMs = 60000 := rfl
  cases lastCooldownAt with
  | none =>
    have hnone : retryAfterSec none t = 60 := rfl
    rw [hnone]
    decide
  | some c =>
    have hc : c ≤ t := h c rfl
    simp only [retryAfterSec, ceilSeconds, hcooldown]
    omega

end Hint

section Steps

variable {s s' : Server} {rs : List Request} {r r' : Request} {turn : Turn} {linkId : LinkId}

def Shows (linkId : LinkId) (c : Option ℤ) (db : Database) : Prop :=
  ∀ l ∈ db.links.rows, l.id = linkId → l.lastCooldownAt = c

instance (linkId : LinkId) (c : Option ℤ) (db : Database) : Decidable (Shows linkId c db) :=
  inferInstanceAs (Decidable (∀ l ∈ db.links.rows, l.id = linkId → l.lastCooldownAt = c))

def Label.Leaves (linkId : LinkId) (c : Option ℤ) : Label → Prop
  | .elsewhere db => Shows linkId c db
  | .request _ _ | .move _ _ => True

theorem move_db (hm : r.move s turn = some (s', r')) :
    (s'.db = s.db ∧ s'.accepted = s.accepted) ∨
      ∃ cutoff value, s'.accepted = s.accepted ++ [(r.linkId, value)] ∧
        s'.db.links = s.db.links.updateWhere (cooledDown r.linkId cutoff) (setCooldown value)
          (setCooldown_id value) := by
  unfold Request.move at hm
  split at hm
  case h_5 job cutoff value hpc =>
    split at hm
    · cases hm
      exact .inl ⟨rfl, rfl⟩
    · cases hm
      exact .inr ⟨cutoff, value, rfl, rfl⟩
  case h_9 => cases hm
  case h_1 =>
    split at hm
    · cases hm
      exact .inl ⟨rfl, rfl⟩
    · split at hm
      · cases hm
        exact .inl ⟨rfl, rfl⟩
      · cases hm
        exact .inl ⟨rfl, rfl⟩
  case h_6 =>
    cases hm
    exact .inl ⟨rfl, rfl⟩
  case h_8 =>
    cases hm
    exact .inl ⟨rfl, rfl⟩
  all_goals
    split at hm
    · cases hm
      exact .inl ⟨rfl, rfl⟩
    · cases hm
      try exact .inl ⟨rfl, rfl⟩

def Quiet (linkId : LinkId) (c : Option ℤ) (n : ℕ) (s : Server × List Request) : Prop :=
  n ≤ (s.1.values linkId).length ∧ ((s.1.values linkId).length = n → Shows linkId c s.1.db)

theorem Quiet.step {c : Option ℤ} {n : ℕ} {t t' : Server × List Request} {l : Label}
    (h : Quiet linkId c n t) (hl : l.Leaves linkId c) (hs : RecheckOne.step t l = some t') :
    Quiet linkId c n t' := by
  obtain ⟨s, rs⟩ := t
  cases l with
  | request userId linkId' =>
    cases hs
    exact h
  | elsewhere db =>
    simp only [RecheckOne.step] at hs
    split at hs
    · cases hs
      exact ⟨h.1, fun _ => hl⟩
    · cases hs
  | move i turn =>
    obtain ⟨s', rs'⟩ := t'
    obtain ⟨r, r', -, hm, rfl⟩ := Pool.step_eq_some.mp hs
    rcases move_db hm with ⟨hdb, haccepted⟩ | ⟨cutoff, value, haccepted, hlinks⟩
    · have hvalues : s'.values linkId = s.values linkId := by rw [Server.values, haccepted]; rfl
      simp only [Quiet, hvalues, hdb]
      exact h
    · have hvalues : s'.values linkId =
          s.values linkId ++ if r.linkId = linkId then [value] else [] := by
        rw [← values_accepted s linkId s'.db value, Server.values, haccepted]
        rfl
      by_cases hlink : r.linkId = linkId
      · rw [if_pos hlink] at hvalues
        have hlength := congrArg List.length hvalues
        rw [List.length_append, List.length_singleton] at hlength
        have hle : n ≤ (s.values linkId).length := h.1
        have hlt : n < (s'.values linkId).length := by omega
        exact ⟨hlt.le, fun heq => absurd heq hlt.ne'⟩
      · rw [if_neg hlink, List.append_nil] at hvalues
        refine ⟨hvalues ▸ h.1, fun heq l hmem hid => ?_⟩
        simp only [hvalues] at heq
        rw [hlinks] at hmem
        obtain ⟨l₀, hl₀, rfl⟩ := Table.mem_updateWhere.mp hmem
        split at hid
        · rename_i hcool
          exact absurd ((id_of_cooledDown hcool).symm.trans hid) hlink
        · rename_i hcool
          rw [if_neg hcool]
          exact h.2 heq l₀ hl₀ hid

theorem move_over (h : r.isOver) : r.move s turn = none := by
  unfold Request.isOver at h
  split at h
  · rename_i hpc
    simp only [Request.move, hpc]
  · cases h

def Waiting (i : ℕ) (c : Option ℤ) (s : Server × List Request) : Prop :=
  ∃ r, s.2[i]? = some r ∧ (r.pc = .readElapsed c ∨ r.isOver)

theorem Waiting.step {i : ℕ} {c : Option ℤ} {t t' : Server × List Request} {l : Label}
    (h : Waiting i c t) (hs : RecheckOne.step t l = some t') : Waiting i c t' := by
  obtain ⟨s, rs⟩ := t
  obtain ⟨r, hr, hpc⟩ := h
  cases l with
  | request userId linkId' =>
    cases hs
    obtain ⟨hi, -⟩ := List.getElem?_eq_some_iff.mp hr
    exact ⟨r, (List.getElem?_append_left hi).trans hr, hpc⟩
  | elsewhere db =>
    simp only [RecheckOne.step] at hs
    split at hs
    · cases hs
      exact ⟨r, hr, hpc⟩
    · cases hs
  | move k turn =>
    obtain ⟨s', rs'⟩ := t'
    obtain ⟨q, q', hq, hm, rfl⟩ := Pool.step_eq_some.mp hs
    by_cases hik : k = i
    · subst hik
      obtain rfl := Option.some.inj (hq.symm.trans hr)
      refine ⟨q', Pool.getElem?_set_self hq, .inr ?_⟩
      rcases hpc with hpc | hover
      · simp only [Request.move, hpc] at hm
        split at hm
        · cases hm
          rfl
        · cases hm
      · cases hm.symm.trans (move_over hover)
    · exact ⟨r, (List.getElem?_set_ne hik).trans hr, hpc⟩

end Steps

/-- Request `i` is rejected at `t` and told to come back in `r` seconds; request `j` on the same link
reads `t + 1000 * r` off the clock and is about to be decided.  Between the row that the first one
reads, `link`, and the decision on the second one nobody is accepted on the link. -/
structure Retry (link : Link) (t r : ℤ) (i j : ℕ) (s₀ s₃ : Server × List Request) : Prop where
  row : s₀.1.db.links.find? link.id = some link
  rejected : ∃ q, s₀.2[i]? = some q ∧ q.linkId = link.id ∧ q.pc = .findFresh
  run : ∃ reading answering before after s₁ s₂, answering.now = t ∧
    exec step s₀ (.move i reading :: before) = some s₁ ∧
    step s₁ (.move i answering) = some s₂ ∧
    (∃ q message, s₂.2[i]? = some q ∧ q.pc = .over (.error (.tooManyRequests message r))) ∧
    exec step s₂ after = some s₃ ∧
    ∀ l ∈ before ++ after, l.Leaves link.id link.lastCooldownAt
  undisturbed : s₃.1.values link.id = s₀.1.values link.id
  retries : ∃ q job value, s₃.2[j]? = some q ∧ q.linkId = link.id ∧
    q.pc = .updateMany job (t + 1000 * r - cooldownMs) value
  still : (s₃.1.db.links.find? link.id).isSome

def Passes (j : ℕ) (s : Server × List Request) : Prop :=
  ∃ turn s' q job, step s (.move j turn) = some s' ∧ s'.2[j]? = some q ∧ q.pc = .add job

section Retries

variable {link : Link} {t r : ℤ} {i j : ℕ} {s₀ s₃ : Server × List Request}

theorem Retry.hint (h : Retry link t r i j s₀ s₃) : r = retryAfterSec link.lastCooldownAt t := by
  obtain ⟨reading, answering, before, after, s₁, s₂, rfl, hbefore, hanswer, hover, -, -⟩ := h.run
  obtain ⟨q, message, hq, hpc⟩ := hover
  obtain ⟨q₀, hq₀, hlink, hpc₀⟩ := h.rejected
  obtain ⟨s, hread, hbefore⟩ := exec_cons.mp hbefore
  have hwaiting : Waiting i link.lastCooldownAt s := by
    obtain ⟨w, w', hw, hm, hs⟩ := Pool.step_eq_some.mp hread
    obtain rfl := Option.some.inj (hw.symm.trans hq₀)
    simp only [Request.move, hpc₀, hlink, h.row, Option.bind_some] at hm
    obtain ⟨-, rfl⟩ := Prod.mk.inj (Option.some.inj hm)
    exact ⟨_, hs ▸ Pool.getElem?_set_self hw, .inl rfl⟩
  have hstill : Waiting i link.lastCooldownAt s₁ :=
    exec_invariant (fun _ _ _ h hs => h.step hs) hwaiting hbefore
  obtain ⟨w, hw, hcase⟩ := hstill
  obtain ⟨w₁, w', hw₁, hm, hs⟩ := Pool.step_eq_some.mp hanswer
  obtain rfl := Option.some.inj (hw₁.symm.trans hw)
  rcases hcase with hpc₁ | hover
  · simp only [Request.move, hpc₁] at hm
    split at hm
    · obtain ⟨-, rfl⟩ := Prod.mk.inj (Option.some.inj hm)
      rw [hs, Pool.getElem?_set_self hw₁] at hq
      obtain rfl := Option.some.inj hq
      cases hpc
      rfl
    · cases hm
  · cases hm.symm.trans (move_over hover)

theorem Retry.shows (h : Retry link t r i j s₀ s₃) :
    Shows link.id link.lastCooldownAt s₃.1.db := by
  obtain ⟨reading, answering, before, after, s₁, s₂, -, hbefore, hanswer, -, hafter, hleaves⟩ :=
    h.run
  have hstart : Quiet link.id link.lastCooldownAt (s₀.1.values link.id).length s₀ := by
    refine ⟨le_refl _, fun _ l hl hid => ?_⟩
    obtain ⟨hrow, -⟩ := Table.find?_eq_some.mp h.row
    rw [s₀.1.db.links.eq_of_key_eq hl hrow hid]
  have hrun : exec step s₀ (.move i reading :: before ++ .move i answering :: after) = some s₃ :=
    exec_append.mpr ⟨s₁, hbefore, exec_cons.mpr ⟨s₂, hanswer, hafter⟩⟩
  have hall : ∀ l ∈ Label.move i reading :: before ++ .move i answering :: after,
      l.Leaves link.id link.lastCooldownAt := by
    intro l hl
    simp only [List.cons_append, List.mem_cons, List.mem_append] at hl
    rcases hl with rfl | hl | rfl | hl
    · trivial
    · exact hleaves l (List.mem_append_left _ hl)
    · trivial
    · exact hleaves l (List.mem_append_right _ hl)
  have hend : Quiet link.id link.lastCooldownAt (s₀.1.values link.id).length s₃ :=
    exec_invariant_of_meets (fun _ _ _ h hl hs => h.step hl hs) hstart (Meets.of_forall hall _) hrun
  exact hend.2 (congrArg _ h.undisturbed)

theorem passes_iff {q : Request} {job : SingleLinkJobData} {cutoff value : ℤ}
    {s : Server × List Request} (hq : s.2[j]? = some q) (hpc : q.pc = .updateMany job cutoff value) :
    Passes j s ↔ ∃ l ∈ s.1.db.links.rows, cooledDown q.linkId cutoff l := by
  rw [← List.countP_pos_iff]
  constructor
  · rintro ⟨turn, s', q', job', hs, hq', hpc'⟩
    obtain ⟨w, w', hw, hm, hset⟩ := Pool.step_eq_some.mp hs
    obtain rfl := Option.some.inj (hw.symm.trans hq)
    simp only [Request.move, hpc] at hm
    split at hm
    · obtain ⟨-, rfl⟩ := Prod.mk.inj (Option.some.inj hm)
      rw [hset, Pool.getElem?_set_self hw] at hq'
      obtain rfl := Option.some.inj hq'
      cases hpc'
    · rename_i hcount
      exact Nat.pos_of_ne_zero hcount
  · intro hcount
    obtain ⟨s', w', hm⟩ : ∃ s' w', q.move s.1 {} = some (s', w') ∧ w'.pc = .add job := by
      simp only [Request.move, hpc, if_neg hcount.ne']
      exact ⟨_, _, rfl, rfl⟩
    exact ⟨{}, (s', s.2.set j w'), w', job, Pool.step_eq_some.mpr ⟨q, w', hq, hm.1, rfl⟩,
      Pool.getElem?_set_self hq, hm.2⟩

/-- A caller who keeps to `retryAfterSec` passes exactly when the time since the row's
`lastCooldownAt` was no whole number of seconds below the cooldown. -/
theorem retryAfterSec_honest_iff (h : Retry link t r i j s₀ s₃) :
    (Passes j s₃ ∧ ((∀ c ∈ link.lastCooldownAt, c ≤ t) → 1 ≤ r ∧ r ≤ 60)) ↔
      ∀ c ∈ link.lastCooldownAt, t - c < cooldownMs → ¬ 1000 ∣ t - c := by
  obtain ⟨q, job, value, hq, hlink, hpc⟩ := h.retries
  obtain ⟨l, hl, hid⟩ := Table.find?_isSome.mp h.still
  have hshows : l.lastCooldownAt = link.lastCooldownAt := h.shows l hl hid
  have hhint : r = retryAfterSec link.lastCooldownAt t := h.hint
  have hbounds : (∀ c ∈ link.lastCooldownAt, c ≤ t) → 1 ≤ r ∧ r ≤ 60 := fun hle =>
    hhint ▸ retryAfterSec_bounds link.lastCooldownAt hle
  have hpasses : Passes j s₃ ↔ cooledDown link.id (t + 1000 * r - cooldownMs) l := by
    rw [passes_iff hq hpc, hlink]
    refine ⟨fun ⟨l', hl', hcool⟩ => ?_, fun hcool => ⟨l, hl, hcool⟩⟩
    obtain rfl := s₃.1.db.links.eq_of_key_eq hl' hl ((id_of_cooledDown hcool).trans hid.symm)
    exact hcool
  rw [and_iff_left hbounds, hpasses, hhint, cooledDown, hshows]
  cases hlast : link.lastCooldownAt with
  | none => simp [hid]
  | some c =>
    have hcool : c < t + 1000 * retryAfterSec (some c) t - cooldownMs ↔ _ :=
      cooled_after_retryAfterSec
    simp only [hid, beq_self_eq_true, Bool.true_and, Option.all_some, decide_eq_true_eq, hcool,
      Option.mem_def, Option.some.injEq, forall_eq']

end Retries

section Samples

def cooldownDatabase : Database :=
  { bulkDatabase with
    links := bulkDatabase.links.updateWhere (fun l => l.id == "a") (setCooldown 1000)
      (setCooldown_id 1000) }

def rejectedAndNext : Server × List Request :=
  (⟨cooldownDatabase, 1000, [], []⟩, [⟨"u", "a", .findFresh⟩, ⟨"u", "a", .findUnique⟩])

def comesBack (now : ℤ) : List Label :=
  [.move 1 {}, .move 1 {}, .move 1 { now }, .move 1 { now }]

theorem retryAfterSec_honest_sample :
    ∃ s, exec step rejectedAndNext (.move 0 {} :: .move 0 { now := 1500 } :: comesBack 61500) =
        some s ∧ Passes 1 s := by
  refine ⟨_, rfl, ?_⟩
  have hretry : Retry ((cooldownDatabase.links.find? "a").get rfl) 1500 60 0 1 rejectedAndNext _ :=
    { row := rfl
      rejected := ⟨_, rfl, rfl, rfl⟩
      run := ⟨{}, { now := 1500 }, [], comesBack 61500, _, _, rfl, rfl, rfl, ⟨_, _, rfl, rfl⟩, rfl,
        by simp [comesBack, Label.Leaves]⟩
      undisturbed := rfl
      retries := ⟨_, _, _, rfl, rfl, rfl⟩
      still := rfl }
  exact ((retryAfterSec_honest_iff hretry).mpr (by decide)).1

/-- Rejected a second after the row's `lastCooldownAt` and told to wait 59, the caller comes back when
the row is exactly a minute old and is rejected again. -/
theorem told_to_come_too_early : ¬ ∀ (link : Link) (t r : ℤ) (i j : ℕ)
    (s₀ s₃ : Server × List Request), Retry link t r i j s₀ s₃ → Passes j s₃ := by
  intro hall
  obtain ⟨s₃, hretry, hpassed⟩ :
      ∃ s₃, Retry ((cooldownDatabase.links.find? "a").get rfl) 2000 59 0 1 rejectedAndNext s₃ ∧
        ¬ Passes 1 s₃ := by
    refine ⟨_, ⟨rfl, ⟨_, rfl, rfl, rfl⟩, ⟨{}, { now := 2000 }, [], comesBack 61000, _, _, rfl, rfl,
      rfl, ⟨_, _, rfl, rfl⟩, rfl, by simp [comesBack, Label.Leaves]⟩, rfl, ⟨_, _, _, rfl, rfl, rfl⟩,
      rfl⟩, ?_⟩
    rw [passes_iff (q := ⟨"u", "a", .updateMany ⟨"a", "p", .MANUAL⟩ 1000 61000⟩) rfl rfl]
    decide
  exact hpassed (hall _ _ _ _ _ _ _ hretry)

end Samples

end LinkBulker.RecheckOne
