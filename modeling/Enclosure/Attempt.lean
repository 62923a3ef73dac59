/-!
# Attempts

An attempt works on a state and ends with a result or an error. What it has done to the state stays
done in either case.
-/

namespace Enclosure

abbrev Attempt (σ ε α : Type) := ExceptT ε (StateM σ) α

namespace Attempt

variable {σ ε ε' α β : Type}

/-- An attempt by what it does to a state. -/
@[inline] def of (f : σ → Except ε α × σ) : Attempt σ ε α := f

/-- The result and the state left behind. -/
@[inline] def on (m : Attempt σ ε α) (s : σ) : Except ε α × σ := m s

def fail (e : ε) : Attempt σ ε α := of fun s => (.error e, s)

def read (f : σ → α) : Attempt σ ε α := of fun s => (.ok (f s), s)

def modify (f : σ → σ) : Attempt σ ε Unit := of fun s => (.ok (), f s)

/-- The attempt with its error told in other words. -/
def mapError (f : ε → ε') (m : Attempt σ ε α) : Attempt σ ε' α := of fun s =>
  match m s with
  | (.ok a, s) => (.ok a, s)
  | (.error e, s) => (.error (f e), s)

/-- A value that may be missing. -/
def orFail (e : ε) : Option α → Attempt σ ε α
  | some a => of fun s => (.ok a, s)
  | none => fail e

/-- One attempt for each item in turn, up to the first that fails. -/
def each (f : β → Attempt σ ε Unit) : List β → Attempt σ ε Unit
  | [] => of fun s => (.ok (), s)
  | b :: rest => do
    f b
    each f rest

end Attempt

end Enclosure
