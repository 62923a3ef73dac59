import Enclosure.Lua.Store

/-!
# Runs

A run works on the store and ends with a result or an error, or it asks for something that only its
surroundings can do: call a function, catch an error, switch to another thread. A request carries the
store and the rest of the run, so a run can be stopped at a request and taken up later. What may be
asked is plain data.
-/

namespace Enclosure.Lua

/-- An error on its way. The position or the name of the function is put in where the error is
raised, by whoever knows the calls that are active. -/
inductive Raise
  /-- A value, as it is. -/
  | value (v : Value)
  /-- A message after the position of the function that is active at a level, 1 being the caller. -/
  | located (level : Nat) (message : Bytes)
  /-- A message after a line of the running script. -/
  | atLine (line : Nat) (message : Bytes)
  /-- An argument of the running function is wrong. -/
  | argument (position : Nat) (why : Bytes)
  /-- The run was too long. -/
  | exhausted

/-- How the called function is named at the place of a call. -/
structure Site where
  line : Nat := 0
  name : Option Origin := none
  /-- The call comes from the library and not from a script's own call. -/
  nested : Bool := true
  /-- A thread can be stopped inside the call although the library made it. -/
  passable : Bool := false

inductive Request
  | call (f : Value) (args : List Value) (site : Site)
  /-- A call in place of the running function. -/
  | tailCall (f : Value) (args : List Value) (site : Site)
  /-- Answers true and the results, or false and the error. A thread can be stopped inside the call
  if it is `passable`. -/
  | protectedCall (f : Value) (args : List Value) (handler : Option Value)
    (passable : Bool := false)
  /-- Marks a value to be closed. -/
  | defer (v : Value)
  /-- Closes the value marked last. -/
  | closeLast (line : Nat)
  | spawn (f : Value)
  /-- Answers true and what the thread yields or returns, or false and its error. -/
  | resume (t : ThreadId) (args : List Value)
  | yield (vs : List Value)
  | status (t : ThreadId)
  | running
  /-- Whether a thread, or else the running one, can be stopped. -/
  | isYieldable (t : Option ThreadId)
  /-- Closes a suspended or dead thread. -/
  | closeThread (t : ThreadId)

inductive Res (α : Type)
  | done (a : α) (s : Store)
  | raise (e : Raise) (s : Store)
  | ask (r : Request) (s : Store) (k : List Value → Store → Res α)

def Run (α : Type) := Store → Res α

namespace Res

def bind {α β : Type} (r : Res α) (f : α → Store → Res β) : Res β :=
  match r with
  | .done a s => f a s
  | .raise e s => .raise e s
  | .ask q s k => .ask q s fun vs s => (k vs s).bind f

end Res

namespace Run

@[inline] protected def pure {α : Type} (a : α) : Run α := fun s => .done a s

@[inline] protected def bind {α β : Type} (m : Run α) (f : α → Run β) : Run β := fun s =>
  match m s with
  | .done a s => f a s
  | .raise e s => .raise e s
  | .ask q s k => .ask q s fun vs s => (k vs s).bind f

instance : Monad Run where
  pure := Run.pure
  bind := Run.bind

instance {α : Type} : Inhabited (Run α) := ⟨fun s => .raise .exhausted s⟩

/-! ## Errors -/

def throw {α : Type} (e : Raise) : Run α := fun s => .raise e s

/-- An error of the running library function: a message after the position of its caller. -/
def fail {α : Type} (message : String) : Run α := throw (.located 1 (Bytes.ofText message))

def failBytes {α : Type} (message : Bytes) : Run α := throw (.located 1 message)

/-- An error message without a position. -/
def failPlain {α : Type} (message : String) : Run α := throw (.value (.text message))

def badArgument {α : Type} (position : Nat) (why : String) : Run α :=
  throw (.argument position (Bytes.ofText why))

/-! ## Requests -/

def ask (q : Request) : Run (List Value) := fun s => .ask q s fun vs s => .done vs s

def call (f : Value) (args : List Value) (site : Site) : Run (List Value) := ask (.call f args site)

/-- The first value of a list; nil if there is none. -/
def first (vs : List Value) : Value := vs.headD .nil

/-! ## The store -/

@[inline] def read {α : Type} (f : Store → α) : Run α := fun s => .done (f s) s

@[inline] def modify (f : Store → Store) : Run Unit := fun s => .done () (f s)

/-- A step that answers and changes the store. -/
@[inline] def step {α : Type} (f : Store → α × Store) : Run α := fun s =>
  let (a, s) := f s
  .done a s

/-- Something that the store decides by chance. -/
def draw {α : Type} (f : Chance → α × Chance) : Run α :=
  step fun s => ((f s.chance).1, { s with chance := (f s.chance).2 })

def rawGet (t : TableId) (k : Value) : Run Value := read (·.rawGet t k)

/-- Sets a key, which must be one. -/
def rawSetKey (t : TableId) (k v : Value) : Run Unit :=
  modify (·.modifyTable t (·.set k v))

def rawGetText (t : TableId) (k : String) : Run Value := rawGet t (.text k)

def rawSetText (t : TableId) (k : String) (v : Value) : Run Unit := rawSetKey t (.text k) v

def rawGetInt (t : TableId) (n : Nat) : Run Value := rawGet t (.nat n)

def rawSetInt (t : TableId) (n : Nat) (v : Value) : Run Unit := rawSetKey t (.nat n) v

def rawLength (t : TableId) : Run Nat := read fun s => (s.table t).length

def newTable : Run TableId := step (·.newTable {})

def newCell (v : Value) : Run CellId := step (·.newCell v)

def readCell (c : CellId) : Run Value := read (·.cell c)

def writeCell (c : CellId) (v : Value) : Run Unit := modify (·.setCell c v)

def newFunction (f : FunctionObject) : Run Value := do
  let f ← step (·.newFunction f)
  return .func f

def newBuiltin (b : Builtin) (captured : List Value) : Run Value :=
  newFunction (.builtin b captured.toArray)

def newObject (o : HostObject) : Run Value := do
  let o ← step (·.newObject o)
  return .object o

def metatable (v : Value) : Run (Option TableId) := read (·.metatable v)

def metamethod (v : Value) (event : String) : Run Value := read (·.metamethod v event)

def setMetatable (t : TableId) (m : Option TableId) : Run Unit :=
  modify (·.modifyTable t fun t => { t with metatable := m })

/-- An error object with a text of the host. -/
def failHost {α : Type} (text : Bytes) : Run α := do
  throw (.value (← newObject (.failure text)))

/-! ## Loops -/

/-- How many rounds a loop may take. -/
def roundLimit : Nat := Nat.pow 2 62

/-- Repeats a step until it gives a result. -/
def repeatStep {α : Type} : Nat → Run (Option α) → Run α
  | 0, _ => throw .exhausted
  | n + 1, m => fun s =>
    match m s with
    | .done none s => repeatStep n m s
    | .done (some a) s => .done a s
    | .raise e s => .raise e s
    | .ask q s k => .ask q s fun vs s => (k vs s).bind fun
      | none, s => repeatStep n m s
      | some a, s => .done a s

/-- Repeats a step that hands a value on until it gives a result. -/
def iterate {σ α : Type} (step : σ → Run (σ ⊕ α)) : Nat → σ → Run α
  | 0, _ => throw .exhausted
  | n + 1, x => fun s =>
    match step x s with
    | .done (.inl x) s => iterate step n x s
    | .done (.inr a) s => .done a s
    | .raise e s => .raise e s
    | .ask q s k => .ask q s fun vs s => (k vs s).bind fun
      | .inl x, s => iterate step n x s
      | .inr a, s => .done a s

def loop {α : Type} (m : Run (Option α)) : Run α := repeatStep roundLimit m

def loopWith {σ α : Type} (start : σ) (step : σ → Run (σ ⊕ α)) : Run α :=
  iterate step roundLimit start

/-- One step for each number from `i` up, `n` of them. -/
def forCount : Nat → Nat → (Nat → Run Unit) → Run Unit
  | 0, _, _ => Run.pure ()
  | n + 1, i, f => Run.bind (f i) fun _ => forCount n (i + 1) f

end Run

end Enclosure.Lua
