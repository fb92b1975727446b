import LinkBulker.Db.Schema
import LinkBulker.Shared.Url

/-! `apps/web/src/lib/api.ts` and `lib/status.ts`: the rows the web client caches and the status
it derives from one.  Times stay milliseconds where the wire carries the ISO string. -/

namespace LinkBulker.Web

open Db Shared

structure LinkRow where
  id : LinkId
  projectId : ProjectId
  source : LinkSource
  status : LinkStatus
  donorUrl : String
  acceptorRaw : String
  acceptorHost : String
  donorStatusCode : Option ℤ
  donorFinalUrl : Option String
  donorIndexable : Option Bool
  donorCanonical : Option String
  canonicalMatches : Option Bool
  linkFound : Option Bool
  occurrences : Option (List LinkOccurrence)
  occurrencesCount : ℕ
  error : Option String
  checkDurationMs : Option ℤ
  lastCheckedAt : Option ℤ
  lastCooldownAt : Option ℤ
  deriving DecidableEq

def linkRow (l : Link) : LinkRow where
  id := l.id
  projectId := l.projectId
  source := l.source
  status := l.status
  donorUrl := l.donorUrl
  acceptorRaw := l.acceptorRaw
  acceptorHost := l.acceptorHost
  donorStatusCode := l.donorStatusCode
  donorFinalUrl := l.donorFinalUrl
  donorIndexable := l.donorIndexable
  donorCanonical := l.donorCanonical
  canonicalMatches := l.canonicalMatches
  linkFound := l.linkFound
  occurrences := l.occurrences
  occurrencesCount := l.occurrencesCount
  error := l.error
  checkDurationMs := l.checkDurationMs
  lastCheckedAt := l.lastCheckedAt
  lastCooldownAt := l.lastCooldownAt

inductive RowStatus
  | PENDING
  | CHECKING
  | GREEN
  | YELLOW
  | PROBLEM
  | ERROR
  deriving DecidableEq

def isOk : Option ℤ → Bool
  | none => false
  | some code => 200 ≤ code && code < 300

def computeRowStatus (link : LinkRow) : RowStatus :=
  match link.status with
  | .PENDING | .QUEUED => .PENDING
  | .CHECKING => .CHECKING
  | .ERROR => .ERROR
  | .DONE =>
    if !isOk link.donorStatusCode || link.linkFound != some true ||
        link.donorIndexable != some true then .PROBLEM
    else if link.canonicalMatches = some true then .GREEN
    else .YELLOW

def rowStatusLabel : RowStatus → String
  | .PENDING => "Pending"
  | .CHECKING => "Checking"
  | .GREEN => "Done"
  | .YELLOW => "Done"
  | .PROBLEM => "Problem"
  | .ERROR => "Error"

inductive FollowKind
  | dofollow
  | nofollow
  deriving DecidableEq

def NOFOLLOW_RELS : List String := ["nofollow", "sponsored", "ugc"]

def isDofollow (o : LinkOccurrence) : Bool :=
  !o.rel.any fun r => NOFOLLOW_RELS.contains (toLowerCase r)

def computeFollowKind (link : LinkRow) : Option FollowKind :=
  let occurrences := link.occurrences.getD []
  if occurrences.length = 0 then none
  else if occurrences.any isDofollow then some .dofollow else some .nofollow

section Laws

variable {l l' : LinkRow}

theorem computeRowStatus_congr (hs : l.status = l'.status) (hdone : l.status ≠ .DONE) :
    computeRowStatus l = computeRowStatus l' := by
  unfold computeRowStatus
  rw [← hs]
  cases h : l.status with
  | DONE => exact absurd h hdone
  | PENDING => rfl
  | QUEUED => rfl
  | CHECKING => rfl
  | ERROR => rfl

theorem computeRowStatus_eq_iff (hl : l.status = .DONE) (hl' : l'.status = .DONE)
    (hcode : l.donorStatusCode = l'.donorStatusCode) (hfound : l.linkFound = l'.linkFound) :
    computeRowStatus l = computeRowStatus l' ↔
      (isOk l'.donorStatusCode → l'.linkFound = some true →
        (l.donorIndexable = some true ↔ l'.donorIndexable = some true) ∧
          (l'.donorIndexable = some true →
            (l.canonicalMatches = some true ↔ l'.canonicalMatches = some true))) := by
  unfold computeRowStatus
  rw [hl, hl', hcode, hfound]
  by_cases hok : isOk l'.donorStatusCode
  · by_cases hf : l'.linkFound = some true
    · by_cases hi : l.donorIndexable = some true <;> by_cases hi' : l'.donorIndexable = some true <;>
        by_cases hc : l.canonicalMatches = some true <;>
        by_cases hc' : l'.canonicalMatches = some true <;> simp [hok, hf, hi, hi', hc, hc']
    · simp [hok, hf]
  · simp [hok]

theorem computeFollowKind_eq_iff :
    computeFollowKind l = computeFollowKind l' ↔
      (l.occurrences.getD [] = [] ↔ l'.occurrences.getD [] = []) ∧
        ((∃ o ∈ l.occurrences.getD [], isDofollow o) ↔
          ∃ o ∈ l'.occurrences.getD [], isDofollow o) := by
  simp only [computeFollowKind, ← List.any_eq_true, List.length_eq_zero_iff]
  generalize l.occurrences.getD [] = os, l'.occurrences.getD [] = os'
  cases os with
  | nil =>
    cases os' with
    | nil => simp
    | cons o' os' => cases (o' :: os').any isDofollow <;> simp
  | cons o os =>
    cases os' with
    | nil => cases (o :: os).any isDofollow <;> simp
    | cons o' os' =>
      cases (o :: os).any isDofollow <;> cases (o' :: os').any isDofollow <;> simp

end Laws

end LinkBulker.Web
