/-! Computations that end with a value or throw one, and leave a trace of events behind: what `try`,
`catch` and `finally` make of them. -/

universe u

namespace Foundations

structure Traced (ε τ : Type u) (α : Type u) where
  result : Except τ α
  trace : List ε

namespace Traced

variable {ε τ α β : Type u}

def next (x : Traced ε τ α) (f : α → Traced ε τ β) : Traced ε τ β :=
  match x.result with
  | .ok a => ⟨(f a).result, x.trace ++ (f a).trace⟩
  | .error e => ⟨.error e, x.trace⟩

instance : Monad (Traced ε τ) where
  pure a := ⟨.ok a, []⟩
  bind := next

def throw (e : τ) : Traced ε τ α := ⟨.error e, []⟩

def call (event : ε) (answer : Except τ α) : Traced ε τ α := ⟨answer, [event]⟩

def gained (event : ε) : Except τ α → Traced ε τ α
  | .ok a => ⟨.ok a, [event]⟩
  | .error e => ⟨.error e, []⟩

def attempt (x : Traced ε τ α) : Traced ε τ (Except τ α) := ⟨.ok x.result, x.trace⟩

def handle (x : Traced ε τ α) (handler : τ → Traced ε τ α) : Traced ε τ α :=
  match x.result with
  | .ok _ => x
  | .error e => ⟨(handler e).result, x.trace ++ (handler e).trace⟩

/-- What the cleanup throws replaces the outcome. -/
def finally_ (x : Traced ε τ α) (cleanup : Traced ε τ PUnit) : Traced ε τ α where
  result :=
    match cleanup.result with
    | .ok _ => x.result
    | .error e => .error e
  trace := x.trace ++ cleanup.trace

section Laws

@[simp] theorem bind_ok (a : α) (trace : List ε) (f : α → Traced ε τ β) :
    (⟨.ok a, trace⟩ >>= f : Traced ε τ β) = ⟨(f a).result, trace ++ (f a).trace⟩ := rfl

@[simp] theorem bind_error (e : τ) (trace : List ε) (f : α → Traced ε τ β) :
    (⟨.error e, trace⟩ >>= f : Traced ε τ β) = ⟨.error e, trace⟩ := rfl

@[simp] theorem handle_ok (a : α) (trace : List ε) (handler : τ → Traced ε τ α) :
    handle ⟨.ok a, trace⟩ handler = ⟨.ok a, trace⟩ := rfl

@[simp] theorem handle_error (e : τ) (trace : List ε) (handler : τ → Traced ε τ α) :
    handle ⟨.error e, trace⟩ handler = ⟨(handler e).result, trace ++ (handler e).trace⟩ := rfl

@[simp] theorem trace_finally (x : Traced ε τ α) (cleanup : Traced ε τ PUnit) :
    (x.finally_ cleanup).trace = x.trace ++ cleanup.trace := rfl

end Laws

end Traced

end Foundations
