import LinkBulker.Foundations.Pool
import LinkBulker.Worker.SingleLink

/-! The loop both processors run over their links:
`for (i = 0; i < ids.length; i += n) await Promise.all(ids.slice(i, i + n).map(processOne))`. -/

namespace LinkBulker.Worker

open Foundations Db Shared SingleLink

/-- `calls` are the calls of `processOne` made so far, in the order of their ids. -/
structure Batch where
  ids : List LinkId
  calls : List ProcessOne := []
  deriving DecidableEq

namespace Batch

def unstarted (b : Batch) : List LinkId := b.ids.drop b.calls.length

def start (n : ℕ) (b : Batch) (i : ℕ) : Batch :=
  { b with calls := b.calls ++ ((b.ids.drop i).take n).map fun id => ⟨id, .findById⟩ }

/-- `Promise.all` of the calls from the `i`-th on: it rejects as soon as one has, so `some false`
says nothing about the others; `none` while it is pending. -/
def all (b : Batch) (i : ℕ) : Option Bool :=
  if (b.calls.drop i).any fun c => c.pc = .rejected then some false
  else if (b.calls.drop i).all fun c => c.pc = .resolved then some true
  else none

def move (newURL : UrlParser) (w : World) (b : Batch) (k : ℕ) (t : Turn) :
    Option (World × Batch) :=
  (Pool.step (ProcessOne.move newURL) w b.calls k t).map fun r => (r.1, { b with calls := r.2 })

def settled (b : Batch) : Bool := b.calls.all ProcessOne.settled

end Batch

end LinkBulker.Worker
