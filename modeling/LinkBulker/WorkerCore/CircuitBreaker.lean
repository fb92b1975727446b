import Mathlib.Data.Int.Order.Basic
import Mathlib.Data.List.DropRight

/-! `packages/worker-core/src/circuit-breaker.ts`, and any number of `exec` calls on one breaker. -/

namespace LinkBulker.CircuitBreaker

inductive CircuitState
  | CLOSED
  | OPEN
  | HALF_OPEN
  deriving DecidableEq

structure CircuitBreakerOptions where
  failureThreshold : ℕ := 5
  cooldownMs : ℤ := 30000

structure Breaker where
  state : CircuitState := .CLOSED
  consecutiveFailures : ℕ := 0
  openedAt : ℤ := 0
  deriving DecidableEq

/-- The breaker after `getState`, whose `state` is the answer. -/
def getState (o : CircuitBreakerOptions) (cb : Breaker) (now : ℤ) : Breaker :=
  if cb.state = .OPEN ∧ now - cb.openedAt ≥ o.cooldownMs then { cb with state := .HALF_OPEN }
  else cb

def onSuccess (cb : Breaker) : Breaker :=
  { cb with consecutiveFailures := 0, state := .CLOSED }

def onFailure (o : CircuitBreakerOptions) (cb : Breaker) (now : ℤ) : Breaker :=
  let cb := { cb with consecutiveFailures := cb.consecutiveFailures + 1 }
  if cb.consecutiveFailures ≥ o.failureThreshold ∨ cb.state = .HALF_OPEN then
    { cb with state := .OPEN, openedAt := now }
  else cb

def reset (_ : Breaker) : Breaker := {}

inductive Outcome
  | returned
  | threw
  | circuitOpen
  deriving DecidableEq

/-- A call of `exec`: its local `state`, and how it ended, `none` while `fn` runs. -/
structure Exec where
  state : CircuitState
  outcome : Option Outcome := none
  deriving DecidableEq

/-- `exec` up to the await of `fn`. -/
def exec (o : CircuitBreakerOptions) (cb : Breaker) (now : ℤ) : Breaker × Exec :=
  let cb := getState o cb now
  (cb, ⟨cb.state, if cb.state = .OPEN then some .circuitOpen else none⟩)

def settle (o : CircuitBreakerOptions) (cb : Breaker) (now : ℤ) (ok : Bool) :
    Breaker × Outcome :=
  if ok then (onSuccess cb, .returned) else (onFailure o cb now, .threw)

/-- The start of the `i`-th call of `exec` at a breaker in state `before`, or its settling. -/
inductive Event
  | started (i : ℕ) (now : ℤ) (before : CircuitState) (call : Exec)
  | settled (i : ℕ) (now : ℤ) (ok : Bool) (after : CircuitState)
  deriving DecidableEq

structure Session where
  breaker : Breaker := {}
  clock : ℤ := 0
  calls : List Exec := []
  log : List Event := []
  deriving DecidableEq

def Session.start (clock : ℤ) : Session := { clock }

inductive Label
  | getState (now : ℤ)
  | start (now : ℤ)
  | settle (i : ℕ) (now : ℤ) (ok : Bool)
  | reset
  deriving DecidableEq

def step (o : CircuitBreakerOptions) (s : Session) : Label → Option Session
  | .getState now => some { s with breaker := getState o s.breaker now, clock := now }
  | .start now =>
    let r := exec o s.breaker now
    some { s with
      breaker := r.1
      clock := now
      calls := s.calls ++ [r.2]
      log := s.log ++ [.started s.calls.length now s.breaker.state r.2] }
  | .settle i now ok =>
    match s.calls[i]? with
    | some ⟨state, none⟩ =>
      let r := settle o s.breaker now ok
      some { s with
        breaker := r.1
        clock := now
        calls := s.calls.set i ⟨state, some r.2⟩
        log := s.log ++ [.settled i now ok r.1.state] }
    | _ => none
  | .reset => some { s with breaker := reset s.breaker }

def Label.execs : Label → Bool
  | .start _ | .settle .. => true
  | _ => false

def Label.later (s : Session) : Label → Bool
  | .getState now | .start now | .settle _ now _ => s.clock ≤ now
  | .reset => true

/-- The settlings since the last `reset`, oldest first: whether `fn` succeeded. -/
def settles (labels : List Label) : List Bool :=
  labels.foldl (fun oks l =>
    match l with
    | .settle _ _ ok => oks ++ [ok]
    | .reset => []
    | _ => oks) []

def failureRun (oks : List Bool) : ℕ := (oks.rtakeWhile fun ok => !ok).length

def Event.turnsHalfOpen : Event → Bool
  | .started _ _ before call => before = .OPEN && call.state = .HALF_OPEN
  | .settled .. => false

def Event.trial : Event → Option ℕ
  | .started i _ _ call => if call.state = .HALF_OPEN then some i else none
  | .settled .. => none

def Event.settles (i : ℕ) : Event → Bool
  | .settled j .. => i = j
  | .started .. => false

def Event.callsFn : Event → Bool
  | .started _ _ _ call => call.outcome ≠ some .circuitOpen
  | .settled .. => false

/-- While no call let through since the breaker turned `HALF_OPEN` has settled, every other start
fails fast. -/
def OneTrial (log : List Event) : Prop :=
  ∀ before turn during e, before ++ turn :: during ++ [e] <+: log → turn.turnsHalfOpen →
    (∀ i ∈ (turn :: during).filterMap Event.trial,
      ∀ e' ∈ before ++ turn :: during, e'.settles i = false) → e.callsFn = false

def Event.opensAt : Event → Option ℤ
  | .settled _ now false .OPEN => some now
  | _ => none

def Event.startsAt : Event → Option ℤ
  | .started _ now _ _ => some now
  | .settled .. => none

def CooldownKept (o : CircuitBreakerOptions) (log : List Event) : Prop :=
  ∀ before opening during e, before ++ opening :: during ++ [e] <+: log →
    ∀ t ∈ opening.opensAt, ∀ now ∈ e.startsAt, now < t + o.cooldownMs → e.callsFn = false

/-- A call starts while one let through in `HALF_OPEN` runs only if a failure has left the breaker
`OPEN` since and less than the cooldown has passed. -/
def Alone (o : CircuitBreakerOptions) (s : Session) : Label → Prop
  | .start now => ⟨.HALF_OPEN, none⟩ ∈ s.calls →
      s.breaker.state = .OPEN ∧ now < s.breaker.openedAt + o.cooldownMs
  | _ => True

instance (o : CircuitBreakerOptions) (s : Session) (l : Label) : Decidable (Alone o s l) := by
  cases l <;> unfold Alone <;> infer_instance

def LateSuccess (o : CircuitBreakerOptions) (s : Session) : Label → Prop
  | .settle _ now true => s.breaker.state = .OPEN ∧ now - s.breaker.openedAt < o.cooldownMs
  | _ => False

instance (o : CircuitBreakerOptions) (s : Session) (l : Label) : Decidable (LateSuccess o s l) := by
  unfold LateSuccess
  split <;> infer_instance

end LinkBulker.CircuitBreaker
