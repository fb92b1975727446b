import LinkBulker.Backend.Rewrites

/-! What the columns of a link say about each other, in every state of the backend, and how they go
on from one state to a later one. -/

namespace LinkBulker.Backend

open Foundations Db Shared Crawler LinkRepository SingleLink Worker
open RecheckOne (cooldownMs)

variable {newURL : UrlParser} {clock : Sheets.LocalClock} {db db' : Database}
  {locks : String → LockManager.Key} {time now : ℤ} {ps : List (LinkId × ℤ)} {l l' : Link}
  {labels before after : List (Label newURL)} {s s' s₁ s₂ : State newURL}

structure Succeeded (l : Link) : Prop where
  error : l.error = none
  occurrences : ∃ os, l.occurrences = some os ∧ l.occurrencesCount = os.length ∧
    l.linkFound = some (decide (0 < os.length))

structure Failed (l : Link) : Prop where
  error : l.error.isSome
  linkFound : l.linkFound = none
  occurrencesCount : l.occurrencesCount = 0

/-- A link with a result has all of it, and one without has none; a link in a check again shows the
result it had. -/
structure Shown (l : Link) : Prop where
  done : l.status = .DONE → Succeeded l
  failed : l.status = .ERROR → Failed l
  pending : l.status = .PENDING → l.lastCheckedAt = none
  unchecked : l.lastCheckedAt = none → l.status ≠ .DONE ∧ l.status ≠ .ERROR ∧ l.linkFound = none ∧
    l.occurrences = none ∧ l.occurrencesCount = 0 ∧ l.error = none
  checked : l.lastCheckedAt.isSome → Succeeded l ∨ Failed l
  found : l.linkFound = some true ↔ 0 < l.occurrencesCount

theorem Created.shown (h : Created l) : Shown l where
  done hstatus := by rw [h.status] at hstatus; cases hstatus
  failed hstatus := by rw [h.status] at hstatus; cases hstatus
  pending _ := h.lastCheckedAt
  unchecked _ := by
    rw [h.status]
    exact ⟨nofun, nofun, h.linkFound, h.occurrences, h.occurrencesCount, h.error⟩
  checked hsome := by rw [h.lastCheckedAt] at hsome; cases hsome
  found := by rw [h.linkFound, h.occurrencesCount]; exact ⟨nofun, nofun⟩

theorem Shown.saved {result : CrawlAndAnalyzeResult} (hwf : result.WellFormed) (now : ℤ) (l : Link) :
    Shown (saveResultData result now l) := by
  have hcount := hwf.count
  have hfound := hwf.found
  have herror := hwf.error
  have hsome := hwf.occurrences
  cases hos : result.occurrences with
  | none =>
    rw [hos] at hcount hfound hsome
    have hok : result.ok = false := hsome.symm
    rw [hok] at herror
    have hfailed : Failed (saveResultData result now l) := ⟨herror, hfound, hcount⟩
    refine ⟨?_, fun _ => hfailed, ?_, nofun, fun _ => .inr hfailed, ?_⟩
    · simp [saveResultData, hok]
    · simp [saveResultData, hok]
    · simp [saveResultData, hfound, hcount]
  | some os =>
    rw [hos] at hcount hfound hsome
    have hok : result.ok = true := hsome.symm
    rw [hok] at herror
    have hnone : result.error = none := by simpa using herror
    have hshown : (saveResultData result now l).occurrences = some os := by
      simp [saveResultData, hos]
    have hsucceeded : Succeeded (saveResultData result now l) := ⟨hnone, os, hshown, hcount, hfound⟩
    refine ⟨fun _ => hsucceeded, ?_, ?_, nofun, fun _ => .inl hsucceeded, ?_⟩
    · simp [saveResultData, hok]
    · simp [saveResultData, hok]
    · simp [saveResultData, hfound, hcount]

theorem Succeeded.of_columns (h : Succeeded l) (herror : l'.error = l.error)
    (hos : l'.occurrences = l.occurrences) (hcount : l'.occurrencesCount = l.occurrencesCount)
    (hfound : l'.linkFound = l.linkFound) : Succeeded l' := by
  obtain ⟨herr, hcolumns⟩ := h
  rw [← hos, ← hcount, ← hfound] at hcolumns
  exact ⟨herror.trans herr, hcolumns⟩

theorem Shown.rewrite (h : Shown l) (hr : Rewrite ps l l') : Shown l' := by
  have kept (hsome : l.lastCheckedAt.isSome) (herror : l'.error = l.error)
      (hos : l'.occurrences = l.occurrences) (hcount : l'.occurrencesCount = l.occurrencesCount)
      (hfound : l'.linkFound = l.linkFound) : Succeeded l' ∨ Failed l' :=
    (h.checked hsome).imp (fun hs => hs.of_columns herror hos hcount hfound)
      fun hf => ⟨herror ▸ hf.error, hfound.trans hf.linkFound, hcount.trans hf.occurrencesCount⟩
  cases hr with
  | kept => exact h
  | cooled hvalue =>
    exact ⟨fun hstatus => (h.done hstatus).of_columns rfl rfl rfl rfl,
      fun hstatus => ⟨(h.failed hstatus).error, (h.failed hstatus).linkFound,
        (h.failed hstatus).occurrencesCount⟩,
      h.pending, h.unchecked, fun hsome => kept hsome rfl rfl rfl rfl, h.found⟩
  | saved hwf hstamp => exact .saved hwf _ l
  | marked hstatus =>
    obtain rfl | rfl := hstatus
    · exact ⟨nofun, nofun, nofun, fun hl => ⟨nofun, nofun, (h.unchecked hl).2.2⟩,
        fun hsome => kept hsome rfl rfl rfl rfl, h.found⟩
    · exact ⟨nofun, nofun, nofun, fun hl => ⟨nofun, nofun, (h.unchecked hl).2.2⟩,
        fun hsome => kept hsome rfl rfl rfl rfl, h.found⟩

section Examples

def rechecked : List (Label Crawler.exampleURL) :=
  .dispatch (.ask (.recheckOne "u" "a")) :: (Dispatch.serves 0 6 100000).map .dispatch ++
    .dispatch .takeSingle :: (Dispatch.checks 6 100001 Crawler.foundRun).map .dispatch

end Examples

section Onward

structure Onward (ps : List (LinkId × ℤ)) (l l' : Link) : Prop where
  checked : ∀ t ∈ l.lastCheckedAt, ∃ t' ∈ l'.lastCheckedAt, t ≤ t' ∨ (l.id, t') ∈ ps
  cooldown : ∀ t ∈ l.lastCooldownAt, ∃ t' ∈ l'.lastCooldownAt, t' = t ∨ t + cooldownMs < t'
  pending : l.status ≠ .PENDING → l'.status ≠ .PENDING

theorem Onward.refl (l : Link) : Onward ps l l :=
  ⟨fun t ht => ⟨t, ht, .inl le_rfl⟩, fun t ht => ⟨t, ht, .inl rfl⟩, fun h => h⟩

def Past (now : ℤ) (l : Link) : Prop := ∀ t ∈ l.lastCheckedAt, t ≤ now

theorem Past.mono {now' : ℤ} (h : Past now l) (hle : now ≤ now') : Past now' l :=
  fun t ht => (h t ht).trans hle

theorem Past.rewrite (h : Past now l) (hps : ∀ p ∈ ps, p.2 ≤ now) (hr : Rewrite ps l l') :
    Past now l' := by
  cases hr with
  | saved hwf hstamp =>
    intro t ht
    rw [← Option.some.inj ht]
    exact hps _ hstamp
  | _ => exact h

theorem Onward.rewrite {ps' : List (LinkId × ℤ)} {l₀ : Link} {since : ℤ} (h : Onward ps l₀ l)
    (hid : l.id = l₀.id) (hpast : Past since l₀) (hps : ∀ p ∈ ps', p ∈ ps ∨ since ≤ p.2)
    (hr : Rewrite ps' l l') : Onward ps l₀ l' := by
  cases hr with
  | kept => exact h
  | marked hstatus =>
    refine ⟨h.checked, h.cooldown, fun _ => ?_⟩
    obtain rfl | rfl := hstatus <;> nofun
  | @saved result now hwf hstamp =>
    refine ⟨fun t ht => ⟨now, rfl, ?_⟩, h.cooldown, fun _ => ?_⟩
    · obtain hwaited | hread := hps _ hstamp
      · exact .inr (hid ▸ hwaited)
      · exact .inl ((hpast t ht).trans hread)
    · dsimp only [saveResultData]
      split <;> nofun
  | @cooled value hvalue =>
    refine ⟨h.checked, fun t ht => ?_, h.pending⟩
    obtain ⟨t', ht', hgrows⟩ := h.cooldown t ht
    have hpositive : 0 < cooldownMs := by decide
    have hnext := hvalue t' ht'
    exact ⟨value, rfl, .inr (by omega)⟩

structure Lived (s : State newURL) : Prop where
  filed : Filed s
  known : ∀ l ∈ s.world.db.links.rows, l.id ∈ s.given
  past : ∀ l ∈ s.world.db.links.rows, Past s.world.clock l
  stamps : ∀ p ∈ s.stamps, p.2 ≤ s.world.clock

theorem Lived.start (h : ∀ l ∈ db.links.rows, Past time l) :
    Lived (State.start db locks time : State newURL) where
  filed := Filed.start
  known l hl := mem_ids.mpr (.inr (.inl ⟨l, hl, rfl⟩))
  past := h
  stamps _ hp := absurd hp List.not_mem_nil

theorem Lived.step {a : Label newURL} (h : Lived s) (hs : step clock s a = some s') : Lived s' := by
  obtain ⟨hclock, hrewritten, hfiled⟩ := h.filed.step hs
  have hgiven := (step_given hs).2
  have hearlier : ∀ p ∈ s.stamps, p.2 ≤ s'.world.clock := fun p hp => (h.stamps p hp).trans hclock
  refine ⟨hfiled, fun l' hl' => ?_, fun l' hl' => ?_, fun p hp => ?_⟩
  · rw [hgiven]
    obtain ⟨l, hl, hr⟩ | ⟨-, hid⟩ := hrewritten l' hl'
    · exact List.mem_append_left _ (hr.id ▸ h.known l hl)
    · exact List.mem_append_right _ hid
  · obtain ⟨l, hl, hr⟩ | ⟨hcreated, -⟩ := hrewritten l' hl'
    · exact ((h.past l hl).mono hclock).rewrite hearlier hr
    · intro t ht
      rw [hcreated.lastCheckedAt] at ht
      cases ht
  · obtain hold | hnow := stamps_step hs p hp
    · exact hearlier p hold
    · exact hnow.le

/-- Of two states of a run, the later row of a link has gone on from the earlier one. -/
theorem rows_go_on (hpast : ∀ l ∈ db.links.rows, Past time l)
    (h₁ : exec (step clock) (.start db locks time) before = some s₁)
    (h₂ : exec (step clock) s₁ after = some s₂) :
    ∀ l₁ ∈ s₁.world.db.links.rows, ∀ l₂ ∈ s₂.world.db.links.rows, l₂.id = l₁.id →
      Onward s₁.stamps l₁ l₂ := by
  have hlived := exec_invariant (fun _ _ _ h hs => Lived.step h hs) (Lived.start hpast) h₁
  intro l₁ hl₁
  refine (exec_invariant (I := fun s => ReadSince s₁ s ∧ Filed s ∧ l₁.id ∈ s.given ∧
    ∀ l ∈ s.world.db.links.rows, l.id = l₁.id → Onward s₁.stamps l₁ l) ?_
    ⟨.refl s₁, hlived.filed, hlived.known l₁ hl₁, ?_⟩ h₂).2.2.2
  · intro s a s' ⟨hread, hfiled, hknown, hon⟩ hs
    obtain ⟨-, hrewritten, hfiled'⟩ := hfiled.step hs
    obtain ⟨hfresh, hgiven⟩ := step_given hs
    refine ⟨hread.step hfiled hs, hfiled', hgiven ▸ List.mem_append_left _ hknown,
      fun l' hl' hid => ?_⟩
    obtain ⟨l, hl, hr⟩ | ⟨-, hnew⟩ := hrewritten l' hl'
    · have hsame : l.id = l₁.id := hr.id.symm.trans hid
      exact (hon l hl hsame).rewrite hsame (hlived.past l₁ hl₁) hread.stamps hr
    · -- a new row has an id that no row has ever had
      exact absurd hknown (hfresh l₁.id (hid ▸ hnew))
  · intro l hl hid
    obtain rfl := s₁.world.db.links.eq_of_key_eq hl hl₁ hid
    exact .refl l

def overtaken : List (Label Crawler.exampleURL) :=
  .dispatch (.ask (.recheckOne "u" "a")) :: (Dispatch.serves 0 6 100000).map .dispatch ++
    .dispatch .takeSingle :: (Dispatch.checks 4 100001 Crawler.foundRun).map .dispatch ++
    .dispatch (.ask (.recheckOne "u" "a")) :: (Dispatch.serves 1 6 200000).map .dispatch ++
    .dispatch .takeSingle ::
      List.replicate 6 (.dispatch (.check 1 { now := 200001, run := Crawler.foundRun })) ++
    (Dispatch.checks 2 200002 Crawler.foundRun).map .dispatch

theorem rows_go_on_sample : ∃ s₁ s₂, run begun (overtaken.take 26) = some s₁ ∧
    run s₁ (overtaken.drop 26) = some s₂ ∧
    s₁.world.db.links.rows.map Link.lastCooldownAt = [some 200000] ∧
    s₁.world.db.links.rows.map Link.lastCheckedAt = [some 200001] ∧
    s₂.world.db.links.rows.map Link.lastCheckedAt = [some 100001] ∧ ("a", 100001) ∈ s₁.stamps ∧
    ∀ l₁ ∈ s₁.world.db.links.rows, ∀ l₂ ∈ s₂.world.db.links.rows, l₂.id = l₁.id →
      Onward s₁.stamps l₁ l₂ := by
  obtain ⟨s₁, h₁, ⟨hcooled, hchecked, hstamp⟩, hrest⟩ := exists_of_any
    (P := fun s : State _ => (s.world.db.links.rows.map Link.lastCooldownAt = [some 200000] ∧
      s.world.db.links.rows.map Link.lastCheckedAt = [some 200001] ∧ ("a", 100001) ∈ s.stamps) ∧
      (run s (overtaken.drop 26)).any fun s =>
        s.world.db.links.rows.map Link.lastCheckedAt = [some 100001])
    (s := run begun (overtaken.take 26)) (by decide +kernel)
  obtain ⟨s₂, h₂, hback⟩ := exists_of_any hrest
  refine ⟨s₁, s₂, h₁, h₂, hcooled, hchecked, hback, hstamp, rows_go_on (fun l hl => ?_) h₁ h₂⟩
  rw [List.mem_singleton.mp hl]
  nofun

end Onward

end LinkBulker.Backend
