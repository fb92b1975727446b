import LinkBulker.Foundations.Run
import LinkBulker.Foundations.Expiring

/-! `packages/worker-core/src/lock-manager.ts`: one Redis key, the `SET NX PX` that takes it and
the two scripts that compare its value before they touch it. -/

namespace LinkBulker.LockManager

open Foundations

abbrev Token := String

abbrev Key := Slot Token

/-- What the closures of a `Lock` object have captured. -/
structure Lock where
  token : Token
  ttlMs : ℤ
  deriving DecidableEq

/-- `SET key token PX ttl NX`; an expire time that is not positive is an error, so no lock. -/
def acquire (key : Key) (now : ℤ) (lock : Lock) : Option Lock × Key :=
  if lock.ttlMs ≤ 0 then (none, key)
  else match key.read now with
    | none => (some lock, Slot.write lock.token now lock.ttlMs)
    | some _ => (none, key)

def isLocked (key : Key) (now : ℤ) : Bool := (key.read now).isSome

def HEARTBEAT_LUA (key : Key) (now : ℤ) (token : Token) (ttl : ℤ) : ℕ × Key :=
  if key.read now = some token then (1, Slot.write token now ttl) else (0, key)

def RELEASE_LUA (key : Key) (now : ℤ) (token : Token) : ℕ × Key :=
  if key.read now = some token then (1, none) else (0, key)

def Lock.heartbeat (lock : Lock) (key : Key) (now : ℤ) : Bool × Key :=
  let r := HEARTBEAT_LUA key now lock.token lock.ttlMs
  (r.1 == 1, r.2)

def Lock.release (lock : Lock) (key : Key) (now : ℤ) : Bool × Key :=
  let r := RELEASE_LUA key now lock.token
  (r.1 == 1, r.2)

inductive Op
  | acquire (lock : Lock)
  | heartbeat (lock : Lock)
  | release (lock : Lock)
  deriving DecidableEq

structure Event where
  time : ℤ
  op : Op
  ok : Bool
  deriving DecidableEq

def serve (key : Key) (now : ℤ) : Op → Bool × Key
  | .acquire lock =>
    let r := LockManager.acquire key now lock
    (r.1.isSome, r.2)
  | .heartbeat lock => lock.heartbeat key now
  | .release lock => lock.release key now

/-- `locks` are the `Lock` objects handed out so far. -/
structure Session where
  key : Key
  clock : ℤ
  issued : List Token
  locks : List Lock

def Session.start (clock : ℤ) : Session := ⟨none, clock, [], []⟩

def Op.allowed (s : Session) : Op → Bool
  | .acquire lock => lock.token ∉ s.issued
  | .heartbeat lock => lock ∈ s.locks
  | .release lock => lock ∈ s.locks

def Op.issues : Op → List Lock
  | .acquire lock => [lock]
  | _ => []

def Session.step (s : Session) (e : Event) : Option Session :=
  if s.clock ≤ e.time ∧ e.op.allowed s ∧ (serve s.key e.time e.op).1 = e.ok then
    some {
      key := (serve s.key e.time e.op).2
      clock := e.time
      issued := e.op.issues.map Lock.token ++ s.issued
      locks := (if e.ok then e.op.issues else []) ++ s.locks }
  else none

def refreshes (lock : Lock) (es : List Event) : List ℤ :=
  es.filterMap fun e => if e.op = .heartbeat lock ∧ e.ok then some e.time else none

def Event.acquires (e : Event) : Bool :=
  match e.op with
  | .acquire _ => e.ok
  | _ => false

end LinkBulker.LockManager
