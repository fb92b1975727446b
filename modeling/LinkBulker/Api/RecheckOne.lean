import LinkBulker.Api.LinksList
import LinkBulker.Foundations.Pool
import LinkBulker.Foundations.Run

/-! `LinksService.recheckOne` on its awaits and clock reads, any number of requests at once. -/

namespace LinkBulker.RecheckOne

open Foundations Db Shared LinksService

def cooldownMs : ℤ := LIMITS.SINGLE_LINK_RECHECK_COOLDOWN_SEC * 1000

inductive RecheckError
  | notFound (message : String)
  | conflict (message : String)
  | tooManyRequests (message : String) (retryAfterSec : ℤ)
  deriving DecidableEq

/-- Where a request stands, with the locals it needs from there on.  A request is over with the
number of its job in the queue or with the error it answers. -/
inductive Pc
  | findUnique
  | isLocked (job : SingleLinkJobData)
  | readCutoff (job : SingleLinkJobData)
  | readValue (job : SingleLinkJobData) (cutoff : ℤ)
  | updateMany (job : SingleLinkJobData) (cutoff value : ℤ)
  | findFresh
  | readElapsed (lastCooldownAt : Option ℤ)
  | add (job : SingleLinkJobData)
  | over (answer : Except RecheckError ℕ)

structure Request where
  userId : UserId
  linkId : LinkId
  pc : Pc := .findUnique

/-- `accepted` records the value of each `updateMany` that matched, oldest first. -/
structure Server where
  db : Database
  clock : ℤ
  singleLinkQueue : List SingleLinkJobData := []
  accepted : List (LinkId × ℤ) := []

structure Turn where
  isLocked : Bool := false
  now : ℤ := 0

def cooledDown (linkId : LinkId) (cutoff : ℤ) (l : Link) : Bool :=
  l.id == linkId && l.lastCooldownAt.all fun t => t < cutoff

def setCooldown (value : ℤ) (l : Link) : Link := { l with lastCooldownAt := some value }

theorem setCooldown_id (value : ℤ) (l : Link) : (setCooldown value l).id = l.id := rfl

def ceilSeconds (ms : ℤ) : ℤ := -(-ms / 1000)

def retryAfterSec (lastCooldownAt : Option ℤ) (now : ℤ) : ℤ :=
  let elapsed := match lastCooldownAt with
    | some t => now - t
    | none => 0
  max 1 (ceilSeconds (cooldownMs - elapsed))

def Request.move (s : Server) (r : Request) (t : Turn) : Option (Server × Request) :=
  match r.pc with
  | .findUnique =>
    match s.db.links.find? r.linkId with
    | none => some (s, { r with pc := .over (.error (.notFound "Link not found")) })
    | some link =>
      if (s.db.projects.find? link.projectId).all fun p => p.userId ≠ r.userId then
        some (s, { r with pc := .over (.error (.notFound "Link not found")) })
      else
        let job := ⟨r.linkId, link.projectId, link.source⟩
        some (s, { r with pc := if link.source = .MANUAL then .isLocked job else .readCutoff job })
  | .isLocked job =>
    if t.isLocked then
      some (s, { r with pc := .over (.error
        (.conflict "A manual check is currently running for this project")) })
    else some (s, { r with pc := .readCutoff job })
  | .readCutoff job =>
    if s.clock ≤ t.now then
      some ({ s with clock := t.now }, { r with pc := .readValue job (t.now - cooldownMs) })
    else none
  | .readValue job cutoff =>
    if s.clock ≤ t.now then
      some ({ s with clock := t.now }, { r with pc := .updateMany job cutoff t.now })
    else none
  | .updateMany job cutoff value =>
    if s.db.links.rows.countP (cooledDown r.linkId cutoff) = 0 then
      some (s, { r with pc := .findFresh })
    else
      let links := s.db.links.updateWhere (cooledDown r.linkId cutoff) (setCooldown value)
        (setCooldown_id value)
      some ({ s with db := { s.db with links }, accepted := s.accepted ++ [(r.linkId, value)] },
        { r with pc := .add job })
  | .findFresh =>
    some (s, { r with pc := .readElapsed ((s.db.links.find? r.linkId).bind Link.lastCooldownAt) })
  | .readElapsed lastCooldownAt =>
    if s.clock ≤ t.now then
      some ({ s with clock := t.now }, { r with pc := .over (.error (.tooManyRequests
        "Recheck cooldown active" (retryAfterSec lastCooldownAt t.now))) })
    else none
  | .add job =>
    some ({ s with singleLinkQueue := s.singleLinkQueue ++ [job] },
      { r with pc := .over (.ok s.singleLinkQueue.length) })
  | .over _ => none

structure Readings where
  cutoff : ℤ
  value : ℤ
  elapsed : ℤ

def recheckOne (db : Database) (isLocked : ProjectId → Bool) (now : Readings) (userId : UserId)
    (linkId : LinkId) : Except RecheckError (Database × SingleLinkJobData) :=
  match db.links.find? linkId with
  | none => .error (.notFound "Link not found")
  | some link =>
    if (db.projects.find? link.projectId).all fun p => p.userId ≠ userId then
      .error (.notFound "Link not found")
    else if link.source = .MANUAL ∧ isLocked link.projectId then
      .error (.conflict "A manual check is currently running for this project")
    else if db.links.rows.countP (cooledDown linkId (now.cutoff - cooldownMs)) = 0 then
      .error (.tooManyRequests "Recheck cooldown active"
        (retryAfterSec ((db.links.find? linkId).bind Link.lastCooldownAt) now.elapsed))
    else
      let links := db.links.updateWhere (cooledDown linkId (now.cutoff - cooldownMs))
        (setCooldown now.value) (setCooldown_id now.value)
      .ok ({ db with links }, ⟨linkId, link.projectId, link.source⟩)

inductive Label
  | request (userId : UserId) (linkId : LinkId)
  | move (i : ℕ) (t : Turn)
  | elsewhere (db : Database)

/-- Nobody else writes `lastCooldownAt`, and no id is used again. -/
def KeepsCooldowns (s : Server) (db : Database) : Prop :=
  ∀ l ∈ db.links.rows, l.id ∈ s.accepted.map Prod.fst →
    ∃ l₀ ∈ s.db.links.rows, l₀.id = l.id ∧ l₀.lastCooldownAt = l.lastCooldownAt

instance (s : Server) (db : Database) : Decidable (KeepsCooldowns s db) :=
  inferInstanceAs (Decidable (∀ l ∈ db.links.rows, _ → ∃ l₀ ∈ s.db.links.rows, _))

def step (s : Server × List Request) : Label → Option (Server × List Request)
  | .request userId linkId => some (s.1, s.2 ++ [{ userId, linkId }])
  | .move i t => Pool.step Request.move s.1 s.2 i t
  | .elsewhere db => if KeepsCooldowns s.1 db then some ({ s.1 with db }, s.2) else none

section Undisturbed

variable (s : Server) (now : Readings) (userId : UserId) (linkId : LinkId)

def Answers (answer : Except RecheckError (Database × SingleLinkJobData)) (p : Server × Request) :
    Prop :=
  match answer with
  | .error e => p.1.db = s.db ∧ p.1.singleLinkQueue = s.singleLinkQueue ∧ p.2.pc = .over (.error e)
  | .ok (db, job) => p.1.db = db ∧ p.1.singleLinkQueue = s.singleLinkQueue ++ [job] ∧
      p.2.pc = .over (.ok s.singleLinkQueue.length)

/-- Undisturbed, a request answers what `recheckOne` does. -/
theorem exec_move (isLocked : ProjectId → Bool) (hcutoff : s.clock ≤ now.cutoff)
    (hvalue : now.cutoff ≤ now.value) (helapsed : now.value ≤ now.elapsed) :
    ∃ ts p, exec (fun p t => Request.move p.1 p.2 t) (s, { userId, linkId }) ts = some p ∧
      Answers s (recheckOne s.db isLocked now userId linkId) p := by
  have hcool (job : SingleLinkJobData) : ∃ ts p,
      exec (fun p t => Request.move p.1 p.2 t) (s, ⟨userId, linkId, .readCutoff job⟩) ts = some p ∧
      Answers s (if s.db.links.rows.countP (cooledDown linkId (now.cutoff - cooldownMs)) = 0 then
          .error (.tooManyRequests "Recheck cooldown active"
            (retryAfterSec ((s.db.links.find? linkId).bind Link.lastCooldownAt) now.elapsed))
        else
          let links := s.db.links.updateWhere (cooledDown linkId (now.cutoff - cooldownMs))
            (setCooldown now.value) (setCooldown_id now.value)
          .ok ({ s.db with links }, job)) p := by
    refine exists_exec_cons (a := { now := now.cutoff }) (if_pos hcutoff) ?_
    refine exists_exec_cons (a := { now := now.value }) (if_pos hvalue) ?_
    split
    · rename_i hcount
      refine exists_exec_cons (a := {}) (if_pos hcount) ?_
      refine exists_exec_cons (a := {}) rfl ?_
      refine exists_exec_cons (a := { now := now.elapsed }) (if_pos helapsed) ?_
      exact exists_exec_nil ⟨rfl, rfl, rfl⟩
    · rename_i hcount
      refine exists_exec_cons (a := {}) (if_neg hcount) ?_
      refine exists_exec_cons (a := {}) rfl ?_
      exact exists_exec_nil ⟨rfl, rfl, rfl⟩
  cases hlink : s.db.links.find? linkId with
  | none =>
    simp only [recheckOne, hlink]
    refine exists_exec_cons (a := {}) (t := (s, ⟨userId, linkId, .over (.error
      (.notFound "Link not found"))⟩)) ?_ (exists_exec_nil ⟨rfl, rfl, rfl⟩)
    simp [Request.move, hlink]
  | some link =>
    simp only [recheckOne, hlink]
    have hfind : Request.move s { userId, linkId } {} =
        if (s.db.projects.find? link.projectId).all fun p => p.userId ≠ userId then
          some (s, ⟨userId, linkId, .over (.error (.notFound "Link not found"))⟩)
        else some (s, ⟨userId, linkId, if link.source = .MANUAL then
          .isLocked ⟨linkId, link.projectId, link.source⟩
          else .readCutoff ⟨linkId, link.projectId, link.source⟩⟩) := by
      simp only [Request.move, hlink]
    split
    · rename_i hother
      rw [if_pos hother] at hfind
      exact exists_exec_cons hfind (exists_exec_nil ⟨rfl, rfl, rfl⟩)
    · rename_i hother
      rw [if_neg hother] at hfind
      refine exists_exec_cons hfind ?_
      rw [← hlink]
      by_cases hsource : link.source = .MANUAL
      · rw [if_pos hsource]
        by_cases hlocked : isLocked link.projectId
        · rw [if_pos ⟨hsource, hlocked⟩]
          exact exists_exec_cons (a := { isLocked := true }) rfl (exists_exec_nil ⟨rfl, rfl, rfl⟩)
        · rw [if_neg fun h => hlocked h.2]
          exact exists_exec_cons (a := { isLocked := false }) rfl (hcool _)
      · rw [if_neg hsource, if_neg fun h => hsource h.1]
        exact hcool _

end Undisturbed

def Request.adds (r : Request) : Bool :=
  match r.pc with
  | .add _ => true
  | _ => false

def Request.isOver (r : Request) : Bool :=
  match r.pc with
  | .over _ => true
  | _ => false

def Server.values (s : Server) (linkId : LinkId) : List ℤ :=
  (s.accepted.filter fun a => a.1 = linkId).map Prod.snd

def Server.jobs (s : Server) (linkId : LinkId) : List SingleLinkJobData :=
  s.singleLinkQueue.filter fun job => job.linkId = linkId

def adding (rs : List Request) (linkId : LinkId) : ℕ :=
  rs.countP fun r => r.linkId = linkId && r.adds

section Moves

variable {s s' : Server} {r r' : Request} {t : Turn} {linkId : LinkId}

def Request.Timed (clock : ℤ) (r : Request) : Prop :=
  match r.pc with
  | .isLocked job | .readCutoff job | .add job => job.linkId = r.linkId
  | .readValue job cutoff => job.linkId = r.linkId ∧ cutoff + cooldownMs ≤ clock
  | .updateMany job cutoff value => job.linkId = r.linkId ∧ cutoff + cooldownMs ≤ value
  | .findUnique | .findFresh | .readElapsed _ | .over _ => True

theorem Request.Timed.mono {clock clock' : ℤ} (h : r.Timed clock) (hle : clock ≤ clock') :
    r.Timed clock' := by
  unfold Request.Timed at h ⊢
  split at h
  case h_4 => exact ⟨h.1, le_trans h.2 hle⟩
  all_goals exact h

inductive Moves (s : Server) (r : Request) : Server → Request → Prop
  | quiet {clock : ℤ} {pc : Pc} (hclock : s.clock ≤ clock) (hadds : r.adds = false)
    (hadds' : Request.adds { r with pc } = false) (htimed : Request.Timed clock { r with pc }) :
    Moves s r { s with clock } { r with pc }
  | accepted {job : SingleLinkJobData} {cutoff value : ℤ} (hpc : r.pc = .updateMany job cutoff value)
    (hmatch : ∃ l ∈ s.db.links.rows, cooledDown r.linkId cutoff l) :
    Moves s r
      { s with
        db := { s.db with
          links := (s.db.links.updateWhere (cooledDown r.linkId cutoff) (setCooldown value)
            (setCooldown_id value)) }
        accepted := s.accepted ++ [(r.linkId, value)] }
      { r with pc := .add job }
  | added {job : SingleLinkJobData} (hpc : r.pc = .add job) :
    Moves s r { s with singleLinkQueue := s.singleLinkQueue ++ [job] }
      { r with pc := .over (.ok s.singleLinkQueue.length) }

theorem Moves.answer (hadds : r.adds = false) (e : RecheckError) :
    Moves s r s { r with pc := .over (.error e) } :=
  .quiet le_rfl hadds rfl trivial

theorem move_eq_some (htimed : r.Timed s.clock) (hm : r.move s t = some (s', r')) :
    Moves s r s' r' := by
  unfold Request.move at hm
  unfold Request.Timed at htimed
  split at hm
  case h_1 hpc =>
    have hadds : r.adds = false := by rw [Request.adds, hpc]
    split at hm
    · cases hm
      exact Moves.answer hadds _
    · split at hm
      · cases hm
        exact Moves.answer hadds _
      · cases hm
        split
        · exact .quiet le_rfl hadds rfl rfl
        · exact .quiet le_rfl hadds rfl rfl
  case h_2 job hpc =>
    have hadds : r.adds = false := by rw [Request.adds, hpc]
    rw [hpc] at htimed
    split at hm
    · cases hm
      exact Moves.answer hadds _
    · cases hm
      exact .quiet le_rfl hadds rfl htimed
  case h_3 job hpc =>
    have hadds : r.adds = false := by rw [Request.adds, hpc]
    rw [hpc] at htimed
    split at hm
    · rename_i hclock
      cases hm
      exact .quiet hclock hadds rfl ⟨htimed, by simp⟩
    · cases hm
  case h_4 job cutoff hpc =>
    have hadds : r.adds = false := by rw [Request.adds, hpc]
    rw [hpc] at htimed
    split at hm
    · rename_i hclock
      cases hm
      exact .quiet hclock hadds rfl ⟨htimed.1, le_trans htimed.2 hclock⟩
    · cases hm
  case h_5 job cutoff value hpc =>
    have hadds : r.adds = false := by rw [Request.adds, hpc]
    split at hm
    · cases hm
      exact .quiet le_rfl hadds rfl trivial
    · rename_i hcount
      cases hm
      exact .accepted hpc (List.countP_pos_iff.mp (Nat.pos_of_ne_zero hcount))
  case h_6 hpc =>
    have hadds : r.adds = false := by rw [Request.adds, hpc]
    cases hm
    exact .quiet le_rfl hadds rfl trivial
  case h_7 lastCooldownAt hpc =>
    have hadds : r.adds = false := by rw [Request.adds, hpc]
    split at hm
    · rename_i hclock
      cases hm
      exact .quiet hclock hadds rfl trivial
    · cases hm
  case h_8 job hpc =>
    cases hm
    exact .added hpc
  case h_9 => cases hm

end Moves

structure Spaced (s : Server × List Request) : Prop where
  apart : ∀ id, (s.1.values id).Pairwise fun v v' => v + cooldownMs < v'
  latest : ∀ l ∈ s.1.db.links.rows, ∀ v ∈ s.1.values l.id, ∃ t, l.lastCooldownAt = some t ∧ v ≤ t
  timed : ∀ r ∈ s.2, r.Timed s.1.clock
  counted : ∀ id, (s.1.jobs id).length + adding s.2 id = (s.1.values id).length

section Steps

variable {s s' : Server} {rs : List Request} {r r' : Request} {i : ℕ} {linkId : LinkId}

theorem Spaced.start (db : Database) (clock : ℤ) : Spaced (⟨db, clock, [], []⟩, []) where
  apart _ := List.Pairwise.nil
  latest _ _ _ hv := by cases hv
  timed _ hr := by cases hr
  counted _ := rfl

theorem adding_set (linkId : LinkId) (r' : Request) (hget : rs[i]? = some r)
    (hlink : r'.linkId = r.linkId) :
    adding (rs.set i r') linkId + (if r.linkId = linkId ∧ r.adds then 1 else 0) =
      adding rs linkId + if r.linkId = linkId ∧ r'.adds then 1 else 0 := by
  obtain ⟨rest, hrs, hset⟩ := Pool.exists_rest hget
  rw [adding, adding, (hset r').countP_eq, hrs.countP_eq, List.countP_cons, List.countP_cons, hlink]
  simp only [Bool.and_eq_true, decide_eq_true_eq]
  omega

theorem Spaced.quiet (h : Spaced (s, rs)) (hget : rs[i]? = some r) {clock : ℤ} {pc : Pc}
    (hclock : s.clock ≤ clock) (hadds : r.adds = false) (hadds' : Request.adds { r with pc } = false)
    (htimed : Request.Timed clock { r with pc }) :
    Spaced ({ s with clock }, rs.set i { r with pc }) where
  apart := h.apart
  latest := h.latest
  timed := Pool.forall_set (fun r hr => (h.timed r hr).mono hclock) htimed
  counted id := by
    have hcount := adding_set id { r with pc } hget rfl
    simp only [hadds, hadds', Bool.false_eq_true, and_false, if_false] at hcount
    exact (congrArg (_ + ·) hcount).trans (h.counted id)

theorem Spaced.later (h : Spaced (s, rs)) {cutoff value v : ℤ} {l : Link}
    (hl : l ∈ s.db.links.rows) (hcool : cooledDown linkId cutoff l)
    (hle : cutoff + cooldownMs ≤ value) (hv : v ∈ s.values l.id) : v + cooldownMs < value := by
  obtain ⟨t, ht, hvt⟩ := h.latest l hl v hv
  simp only [cooledDown, ht, Option.all_some, Bool.and_eq_true, decide_eq_true_eq] at hcool
  have hlt := hcool.2
  omega

theorem values_accepted (s : Server) (id : LinkId) (db : Database) (value : ℤ) :
    Server.values { s with db, accepted := s.accepted ++ [(linkId, value)] } id =
      s.values id ++ if linkId = id then [value] else [] := by
  simp only [Server.values, List.filter_append, List.map_append]
  by_cases hid : linkId = id <;> simp [hid]

theorem id_of_cooledDown {cutoff : ℤ} {l : Link} (hcool : cooledDown linkId cutoff l) :
    l.id = linkId := by
  simp only [cooledDown, Bool.and_eq_true, beq_iff_eq] at hcool
  exact hcool.1

theorem Spaced.apart_accepted (h : Spaced (s, rs)) {cutoff value : ℤ} {l : Link} (db : Database)
    (hl : l ∈ s.db.links.rows) (hcool : cooledDown linkId cutoff l)
    (hle : cutoff + cooldownMs ≤ value) (id : LinkId) :
    (Server.values { s with db, accepted := s.accepted ++ [(linkId, value)] } id).Pairwise
      fun v v' => v + cooldownMs < v' := by
  rw [values_accepted]
  refine List.pairwise_append.mpr ⟨h.apart id, ?_, fun v hv v' hv' => ?_⟩
  · split
    · exact List.pairwise_singleton ..
    · exact List.Pairwise.nil
  · split at hv'
    · rename_i he
      obtain rfl := List.mem_singleton.mp hv'
      exact h.later hl hcool hle (by rwa [id_of_cooledDown hcool, he])
    · cases hv'

theorem Spaced.latest_accepted (h : Spaced (s, rs)) {cutoff value v : ℤ} {l l' : Link}
    (db : Database) (hl : l ∈ s.db.links.rows) (hcool : cooledDown linkId cutoff l)
    (hle : cutoff + cooldownMs ≤ value)
    (hl' : l' ∈ (s.db.links.updateWhere (cooledDown linkId cutoff) (setCooldown value)
      (setCooldown_id value)).rows)
    (hv : v ∈ Server.values { s with db, accepted := s.accepted ++ [(linkId, value)] } l'.id) :
    ∃ t, l'.lastCooldownAt = some t ∧ v ≤ t := by
  have hpos : 0 ≤ cooldownMs := by decide
  obtain ⟨l₀, hl₀, rfl⟩ := Table.mem_updateWhere.mp hl'
  rw [values_accepted] at hv
  split at hv
  · rename_i hcool₀
    rw [if_pos hcool₀]
    refine ⟨value, rfl, ?_⟩
    obtain hv | hv := List.mem_append.mp hv
    · have := h.later hl₀ hcool₀ hle hv
      omega
    · split at hv
      · exact le_of_eq (List.mem_singleton.mp hv)
      · cases hv
  · rename_i hcool₀
    rw [if_neg hcool₀]
    obtain hv | hv := List.mem_append.mp hv
    · exact h.latest l₀ hl₀ v hv
    · split at hv
      · rename_i he
        obtain rfl := s.db.links.eq_of_key_eq hl hl₀ ((id_of_cooledDown hcool).trans he)
        exact absurd hcool hcool₀
      · cases hv

theorem Spaced.accepted (h : Spaced (s, rs)) (hget : rs[i]? = some r) {job : SingleLinkJobData}
    {cutoff value : ℤ} (hpc : r.pc = .updateMany job cutoff value)
    (hmatch : ∃ l ∈ s.db.links.rows, cooledDown r.linkId cutoff l) :
    Spaced ({ s with
        db := { s.db with
          links := (s.db.links.updateWhere (cooledDown r.linkId cutoff) (setCooldown value)
            (setCooldown_id value)) }
        accepted := s.accepted ++ [(r.linkId, value)] }, rs.set i { r with pc := .add job }) := by
  obtain ⟨l, hl, hcool⟩ := hmatch
  have htimed := h.timed r (List.mem_of_getElem? hget)
  simp only [Request.Timed, hpc] at htimed
  refine ⟨h.apart_accepted _ hl hcool htimed.2, fun l' hl' v hv => ?_,
    Pool.forall_set h.timed htimed.1, fun id => ?_⟩
  · exact h.latest_accepted _ hl hcool htimed.2 hl' hv
  · have hcount := adding_set id { r with pc := .add job } hget rfl
    have hold : (s.jobs id).length + adding rs id = (s.values id).length := h.counted id
    have hadds : r.adds = false := by rw [Request.adds, hpc]
    have hadds' : Request.adds { r with pc := .add job } = true := rfl
    simp only [hadds, hadds', Bool.false_eq_true, and_false, if_false, and_true] at hcount
    rw [values_accepted, List.length_append]
    change (s.jobs id).length + adding (rs.set i { r with pc := .add job }) id = _
    split at hcount
    · rename_i he
      rw [if_pos he, List.length_singleton]
      omega
    · rename_i he
      rw [if_neg he, List.length_nil]
      omega

theorem Spaced.added (h : Spaced (s, rs)) (hget : rs[i]? = some r) {job : SingleLinkJobData}
    (hpc : r.pc = .add job) :
    Spaced ({ s with singleLinkQueue := s.singleLinkQueue ++ [job] },
      rs.set i { r with pc := .over (.ok s.singleLinkQueue.length) }) where
  apart := h.apart
  latest := h.latest
  timed := Pool.forall_set h.timed trivial
  counted id := by
    have hcount := adding_set id { r with pc := .over (.ok s.singleLinkQueue.length) } hget rfl
    have hold : (s.jobs id).length + adding rs id = (s.values id).length := h.counted id
    have htimed := h.timed r (List.mem_of_getElem? hget)
    simp only [Request.Timed, hpc] at htimed
    have hadds : r.adds = true := by rw [Request.adds, hpc]
    have hadds' : Request.adds { r with pc := .over (.ok s.singleLinkQueue.length) } = false := rfl
    simp only [hadds, hadds', Bool.false_eq_true, and_false, if_false, and_true] at hcount
    have hjobs : Server.jobs { s with singleLinkQueue := s.singleLinkQueue ++ [job] } id =
        s.jobs id ++ if r.linkId = id then [job] else [] := by
      rw [Server.jobs, List.filter_append, ← htimed]
      by_cases he : job.linkId = id <;> simp [Server.jobs, he]
    rw [hjobs, List.length_append]
    change _ + adding (rs.set i { r with pc := .over (.ok s.singleLinkQueue.length) }) id =
      (s.values id).length
    split at hcount
    · rename_i he
      rw [if_pos he, List.length_singleton]
      omega
    · rename_i he
      rw [if_neg he, List.length_nil]
      omega

theorem Spaced.request (h : Spaced (s, rs)) (userId : UserId) (linkId : LinkId) :
    Spaced (s, rs ++ [⟨userId, linkId, .findUnique⟩]) where
  apart := h.apart
  latest := h.latest
  timed r hr := by
    obtain hr | hr := List.mem_append.mp hr
    · exact h.timed r hr
    · rw [List.mem_singleton.mp hr]
      trivial
  counted id := by
    have hnone : adding (rs ++ [⟨userId, linkId, .findUnique⟩]) id = adding rs id := by
      simp [adding, List.countP_append, Request.adds]
    exact (congrArg (_ + ·) hnone).trans (h.counted id)

theorem Spaced.elsewhere (h : Spaced (s, rs)) {db : Database} (hdb : KeepsCooldowns s db) :
    Spaced ({ s with db }, rs) where
  apart := h.apart
  latest l hl v hv := by
    obtain ⟨a, ha, -⟩ := List.mem_map.mp hv
    obtain ⟨ha, hid⟩ := List.mem_filter.mp ha
    obtain ⟨l₀, hl₀, hid₀, hsame⟩ := hdb l hl
      (List.mem_map.mpr ⟨a, ha, of_decide_eq_true hid⟩)
    rw [← hsame]
    exact h.latest l₀ hl₀ v (hid₀ ▸ hv)
  timed := h.timed
  counted := h.counted

theorem Spaced.step {t t' : Server × List Request} {l : Label} (h : Spaced t)
    (hs : RecheckOne.step t l = some t') : Spaced t' := by
  obtain ⟨s, rs⟩ := t
  cases l with
  | request userId linkId =>
    cases hs
    exact h.request userId linkId
  | move i turn =>
    obtain ⟨s', rs'⟩ := t'
    obtain ⟨r, r', hget, hm, rfl⟩ := Pool.step_eq_some.mp hs
    cases move_eq_some (h.timed r (List.mem_of_getElem? hget)) hm with
    | quiet hclock hadds hadds' htimed => exact h.quiet hget hclock hadds hadds' htimed
    | accepted hpc hmatch => exact h.accepted hget hpc hmatch
    | added hpc => exact h.added hget hpc
  | elsewhere db =>
    simp only [RecheckOne.step] at hs
    split at hs
    · rename_i hdb
      cases hs
      exact h.elsewhere hdb
    · cases hs

end Steps

/-- Any number of requests, step by step in any order: a link has a job for each request its
`updateMany` has accepted, once that request is over, and any two of the values written to it differ
by more than the cooldown. -/
theorem cooldown_enforced (db : Database) (clock : ℤ) (labels : List Label)
    (s : Server) (rs : List Request)
    (hr : exec step (⟨db, clock, [], []⟩, []) labels = some (s, rs)) (linkId : LinkId) :
    (s.jobs linkId).length + adding rs linkId = (s.values linkId).length ∧
      ((∀ r ∈ rs, r.isOver) → (s.jobs linkId).length = (s.values linkId).length) ∧
      (s.values linkId).Pairwise fun v v' => v + 60 * 1000 < v' := by
  have h : Spaced (s, rs) := exec_invariant (fun _ _ _ h hs => h.step hs) (Spaced.start db clock) hr
  refine ⟨h.counted linkId, fun hover => ?_, h.apart linkId⟩
  have hnone : adding rs linkId = 0 := by
    refine List.countP_eq_zero.mpr fun r hr hadds => ?_
    have hr := hover r hr
    unfold Request.isOver at hr
    split at hr
    · rename_i hpc
      simp [Request.adds, hpc] at hadds
    · cases hr
  have hcount := h.counted linkId
  rwa [hnone, Nat.add_zero] at hcount

def rapidLabels : List Label :=
  [.request "u" "a", .request "u" "a", .move 0 {}, .move 1 {}, .move 0 {}, .move 1 {},
    .move 0 { now := 100000 }, .move 1 { now := 100000 }, .move 0 { now := 100000 },
    .move 1 { now := 100001 }, .move 1 {}, .move 0 {}, .move 1 {}, .move 0 {},
    .move 0 { now := 100002 }]

theorem cooldown_enforced_sample :
    ∃ s rs, exec step (⟨bulkDatabase, 0, [], []⟩, []) rapidLabels = some (s, rs) ∧
      (s.jobs "a").length = (s.values "a").length ∧ s.values "a" = [100001] :=
  ⟨_, _, rfl, (cooldown_enforced bulkDatabase 0 rapidLabels _ _ rfl "a").2.1 (by decide),
    by decide⟩

end LinkBulker.RecheckOne
