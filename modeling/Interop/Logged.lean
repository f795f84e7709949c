/-! Computations that keep a log and may fail. What was logged before a failure stays. -/

namespace Interop

structure Logged (ω ε α : Type) where
  log : List ω
  result : Except ε α

namespace Logged

variable {ω ε α β : Type}

def pure (a : α) : Logged ω ε α := { log := [], result := .ok a }

def bind (x : Logged ω ε α) (f : α → Logged ω ε β) : Logged ω ε β :=
  match x.result with
  | .ok a =>
    let next := f a
    { log := x.log ++ next.log, result := next.result }
  | .error e => { log := x.log, result := .error e }

instance : Monad (Logged ω ε) where
  pure := pure
  bind := bind

/-- Logs one entry. -/
def note (entry : ω) : Logged ω ε Unit := { log := [entry], result := .ok () }

def fail (e : ε) : Logged ω ε α := { log := [], result := .error e }

def ofExcept (result : Except ε α) : Logged ω ε α := { log := [], result }

def mapError (f : ε → ε) (x : Logged ω ε α) : Logged ω ε α :=
  { x with result := x.result.mapError f }

end Logged

end Interop
