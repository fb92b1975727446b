import LinkBulker.Foundations.Run
import LinkBulker.Foundations.Table
import LinkBulker.Foundations.Expiring

/-! `packages/worker-core/src/semaphore.ts`: the sorted set behind the counting semaphore, the
three scripts that run on it, and what its clients can observe of them. -/

namespace LinkBulker.Semaphore

open Foundations

abbrev Token := String

/-- Members and scores.  The scripts look at nothing else, so the order of the rows is free. -/
abbrev SortedSet := Table (Prod.fst : Token × ℤ → Token)

def SortedSet.zremrangebyscore (z : SortedSet) (max : ℤ) : SortedSet :=
  z.deleteWhere fun e => e.2 ≤ max

def SortedSet.zcard (z : SortedSet) : ℕ := z.rows.length

def SortedSet.zscore (z : SortedSet) (token : Token) : Option ℤ := (z.find? token).map Prod.snd

def SortedSet.zrem (z : SortedSet) (token : Token) : SortedSet := z.delete token

def SortedSet.zadd (z : SortedSet) (score : ℤ) (token : Token) : SortedSet :=
  match z.insertMany [(token, score)] with
  | some z' => z'
  | none => z.updateWhere (fun e => e.1 = token) (fun e => (e.1, score)) fun _ => rfl

/-- An absent key and an empty set answer every command alike. -/
abbrev Key := Slot SortedSet

def Key.members (key : Key) (redisNow : ℤ) : SortedSet := (key.read redisNow).getD Table.empty

structure SemaphoreOptions where
  limit : ℕ
  ttlMs : ℤ
  deriving DecidableEq

/-- `redisNow` is the clock Redis expires keys by, `now` the caller's argument. -/
def ACQUIRE_LUA (key : Key) (redisNow now ttl : ℤ) (limit : ℕ) (token : Token) : ℕ × Key :=
  let pruned := key.modify redisNow fun z => z.zremrangebyscore (now - ttl)
  let count := (Key.members pruned redisNow).zcard
  if count < limit then
    (1, Slot.write ((Key.members pruned redisNow).zadd now token) redisNow ttl)
  else
    (0, pruned)

def RELEASE_LUA (key : Key) (redisNow : ℤ) (token : Token) : ℕ × Key :=
  match (key.members redisNow).zscore token with
  | some _ => (1, key.modify redisNow fun z => z.zrem token)
  | none => (0, key)

def HEARTBEAT_LUA (key : Key) (redisNow : ℤ) (token : Token) (now ttl : ℤ) : ℕ × Key :=
  match (key.members redisNow).zscore token with
  | some _ => (1, Slot.write ((key.members redisNow).zadd now token) redisNow ttl)
  | none => (0, key)

inductive Op
  | tryAcquire (token : Token)
  | heartbeat (token : Token)
  | release (token : Token)
  deriving DecidableEq

structure Event where
  time : ℤ
  op : Op
  ok : Bool
  deriving DecidableEq

def serve (o : SemaphoreOptions) (key : Key) (t : ℤ) : Op → Bool × Key
  | .tryAcquire token =>
    let r := ACQUIRE_LUA key t t o.ttlMs o.limit token
    (r.1 == 1, r.2)
  | .heartbeat token =>
    let r := HEARTBEAT_LUA key t token t o.ttlMs
    (r.1 == 1, r.2)
  | .release token =>
    let r := RELEASE_LUA key t token
    (r.1 == 1, r.2)

structure Session where
  key : Key
  clock : ℤ
  issued : List Token

def Session.start (clock : ℤ) : Session := ⟨none, clock, []⟩

def Op.issues : Op → List Token
  | .tryAcquire token => [token]
  | _ => []

/-- The clock never runs back and every `tryAcquire` draws a new UUID. -/
def Session.step (o : SemaphoreOptions) (s : Session) (e : Event) : Option Session :=
  if s.clock ≤ e.time ∧ (∀ token ∈ e.op.issues, token ∉ s.issued) ∧
      (serve o s.key e.time e.op).1 = e.ok then
    some ⟨(serve o s.key e.time e.op).2, e.time, e.op.issues ++ s.issued⟩
  else none

def note (token : Token) (last : Option ℤ) (e : Event) : Option ℤ :=
  match e.op with
  | .tryAcquire k => if k = token ∧ e.ok then some e.time else last
  | .heartbeat k => if k = token ∧ e.ok then some e.time else last
  | .release k => if k = token then none else last

def refreshedAt (es : List Event) (token : Token) : Option ℤ := es.foldl (note token) none

def leases (es : List Event) : List Token :=
  es.flatMap fun e => if e.ok then e.op.issues else []

def live (o : SemaphoreOptions) (es : List Event) (now : ℤ) (token : Token) : Bool :=
  match refreshedAt es token with
  | some r => now - r < o.ttlMs
  | none => false

def liveCount (o : SemaphoreOptions) (es : List Event) (now : ℤ) : ℕ :=
  (leases es).countP (live o es now)

end LinkBulker.Semaphore
