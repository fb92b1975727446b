import LinkBulker.Foundations.Pool

/-! A lock and a flag that mirrors it.  A client takes the lock, raises the flag, lowers it and
frees the lock; on its way out it may not know whether it has raised the flag. -/

namespace Foundations.Mirror

inductive Phase
  | outside
  | entered
  | raised
  | closing
  | lowered
  deriving DecidableEq

def Phase.inside : Phase → Bool
  | .outside => false
  | _ => true

def Phase.shows : Phase → Option Bool
  | .entered | .lowered => some false
  | .raised => some true
  | .outside | .closing => none

inductive Effect (free flag : Bool) : Phase → Bool → Bool → Phase → Prop
  | stays {p : Phase} : Effect free flag p free flag p
  | takes (hfree : free = true) : Effect free flag .outside false flag .entered
  | raises : Effect free flag .entered free true .raised
  | closes {p : Phase} (hin : p.inside) : Effect free flag p free flag .closing
  | lowers {p : Phase} (hin : p.inside) : Effect free flag p free false .lowered
  | frees {free' : Bool} : Effect free flag .lowered free' flag .outside

structure Agree (free flag : Bool) (ps : List Phase) : Prop where
  held : ∀ p ∈ ps, p.inside → free = false
  alone : ps.countP Phase.inside ≤ 1
  shows : ∀ p ∈ ps, ∀ b ∈ p.shows, flag = b
  rest : (∀ p ∈ ps, p.inside = false) → flag = false

variable {free free' flag flag' : Bool} {p p' : Phase} {ps rest : List Phase}

theorem Agree.perm (h : Agree free flag ps) (hp : ps.Perm rest) : Agree free flag rest where
  held q hq := h.held q (hp.mem_iff.mpr hq)
  alone := hp.countP_eq _ ▸ h.alone
  shows q hq := h.shows q (hp.mem_iff.mpr hq)
  rest hr := h.rest fun q hq => hr q (hp.mem_iff.mp hq)

theorem Agree.others (h : Agree free flag (p :: rest)) (hin : p.inside) :
    ∀ q ∈ rest, q.inside = false := by
  have halone := h.alone
  rw [List.countP_cons_of_pos hin] at halone
  have hzero : rest.countP Phase.inside = 0 := by omega
  intro q hq
  simpa using List.countP_eq_zero.mp hzero q hq

theorem shows_of_outside (h : p.inside = false) : p.shows = none := by
  cases p <;> first | rfl | cases h

theorem Agree.of_others (ho : ∀ q ∈ rest, q.inside = false) (hheld : p.inside → free = false)
    (hshows : ∀ b ∈ p.shows, flag = b) (hrest : p.inside = false → flag = false) :
    Agree free flag (p :: rest) where
  held := by
    simp only [List.forall_mem_cons]
    exact ⟨hheld, fun q hq hin => by rw [ho q hq] at hin; cases hin⟩
  alone := by
    have hzero : rest.countP Phase.inside = 0 :=
      List.countP_eq_zero.mpr fun q hq => by simp [ho q hq]
    rw [List.countP_cons, hzero]
    split <;> omega
  shows := by
    simp only [List.forall_mem_cons]
    exact ⟨hshows, fun q hq b hb => by rw [shows_of_outside (ho q hq)] at hb; cases hb⟩
  rest hr := hrest (hr p List.mem_cons_self)

theorem Agree.effect (h : Agree free flag (p :: rest)) (he : Effect free flag p free' flag' p') :
    Agree free' flag' (p' :: rest) := by
  cases he with
  | stays => exact h
  | takes hfree =>
    have ho : ∀ q ∈ rest, q.inside = false := by
      intro q hq
      by_contra hin
      rw [h.held q (List.mem_cons_of_mem _ hq) (by simpa using hin)] at hfree
      cases hfree
    have hflag : flag = false := h.rest (by simpa using ⟨rfl, ho⟩)
    exact .of_others ho (fun _ => rfl) (by simpa [Phase.shows] using hflag) fun _ => hflag
  | raises =>
    have hfree : free = false := h.held _ List.mem_cons_self rfl
    exact .of_others (h.others rfl) (fun _ => hfree) (by simp [Phase.shows]) nofun
  | closes hin =>
    exact .of_others (h.others hin) (fun _ => h.held p List.mem_cons_self hin) nofun nofun
  | lowers hin =>
    exact .of_others (h.others hin) (fun _ => h.held p List.mem_cons_self hin)
      (by simp [Phase.shows]) nofun
  | frees =>
    have hflag : flag = false := h.shows _ List.mem_cons_self false rfl
    exact .of_others (h.others rfl) nofun nofun fun _ => hflag

theorem Agree.start (h : ∀ q ∈ ps, q.inside = false) : Agree free false ps where
  held q hq hin := by rw [h q hq] at hin; cases hin
  alone := by
    rw [List.countP_eq_zero.mpr fun q hq => by simp [h q hq]]
    exact Nat.zero_le 1
  shows q hq b hb := by rw [shows_of_outside (h q hq)] at hb; cases hb
  rest _ := rfl

theorem Agree.step {i : ℕ} (h : Agree free flag ps) (hget : ps[i]? = some p)
    (he : Effect free flag p free' flag' p') : Agree free' flag' (ps.set i p') := by
  obtain ⟨rest, hps, hset⟩ := Pool.exists_rest hget
  exact ((h.perm hps).effect he).perm (hset p').symm

theorem Agree.wait (h : Agree free flag ps) (hheld : ∀ p ∈ ps, p.inside → free' = false) :
    Agree free' flag ps :=
  ⟨hheld, h.alone, h.shows, h.rest⟩

theorem Agree.flag_of_free (h : Agree true flag ps) : flag = false := by
  refine h.rest fun q hq => ?_
  by_contra hin
  cases h.held q hq (by simpa using hin)

end Foundations.Mirror
