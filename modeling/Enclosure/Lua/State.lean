import Enclosure.Attempt
import Enclosure.Lua.Fresh
import Enclosure.Lua.Machine

/-!
# States

A state is a store with its threads and the functions that the host added. The host acts on it through
actions, which end with a result or a failure and leave a state in either case.
-/

namespace Enclosure.Lua

/-- What a function of the host does. -/
abbrev Callback := Args → Run (List Value)

structure State where
  store : Store
  threads : Array Thread
  callbacks : Array Callback

/-- What the host does with a state. -/
abbrev Action (α : Type) := Attempt State Failure α

namespace State

/-- A state with the whole standard library. -/
def fresh (around : Surroundings) : State where
  store := Fresh.store around
  threads := #[⟨.running, ⟨0⟩⟩]
  callbacks := #[]

/-- The state with a field of a table set, without metamethods. -/
def setField (st : State) (t : TableId) (name : String) (v : Value) : State :=
  { st with store := st.store.modifyTable t (·.set (.text name) v) }

def functions (st : State) : Functions where
  builtin := Library.run
  callback n := st.callbacks.getD n fun _ => pure []

/-- Runs on the main thread; an error is told as the value it is. -/
def runRaw (st : State) (m : Run (List Value)) : Except (Option Value) (List Value) × State :=
  match Machine.start st.functions st.threads m st.store with
  | .returned vs store threads => (.ok vs, { st with store, threads })
  | .raised e store threads => (.error (some e), { st with store, threads })
  | .exhausted store threads => (.error none, { st with store, threads })

/-- Runs on the main thread. -/
def run (st : State) (m : Run (List Value)) : Except Failure (List Value) × State :=
  match st.runRaw m with
  | (.ok vs, st) => (.ok vs, st)
  | (.error none, st) => (.error .exhausted, st)
  | (.error (some e), st) =>
    match st.runRaw do return [← Failure.describe e] with
    | (.ok vs, st) => (.error (Failure.ofDescribed st.store (Run.first vs)), st)
    | (.error _, st) => (.error .exhausted, st)

end State

namespace Action

def run (m : Run (List Value)) : Action (List Value) := fun st => st.run m

def runFirst (m : Run (List Value)) : Action Value := do return Run.first (← run m)

def read {α : Type} (f : Store → α) : Action α := fun st => (.ok (f st.store), st)

def modify (f : Store → Store) : Action Unit := fun st =>
  (.ok (), { st with store := f st.store })

/-- A step that answers and changes the store. -/
def step {α : Type} (f : Store → α × Store) : Action α := fun st =>
  let (a, store) := f st.store
  (.ok a, { st with store })

def globals : Action TableId := read (·.globals)

def newTable : Action TableId := step (·.newTable {})

def rawGet (t : TableId) (k : Value) : Action Value := read (·.rawGet t k)

def rawGetText (t : TableId) (k : String) : Action Value := rawGet t (.text k)

/-- Sets a key without metamethods. -/
def rawSet (t : TableId) (k v : Value) : Action Unit := do
  let _ ← run do
    Operation.rawSet .library t k v
    return []

def rawSetText (t : TableId) (k : String) (v : Value) : Action Unit :=
  modify (·.modifyTable t (·.set (.text k) v))

/-- The value of a field, through metamethods. -/
def get (object k : Value) : Action Value :=
  runFirst do return [← Operation.index .library none object k]

/-- Sets a field, through metamethods. -/
def set (object k v : Value) : Action Unit := do
  let _ ← run do
    Operation.setIndex .library none object k v
    return []

/-- The length of a value, through metamethods. -/
def length (v : Value) : Action Value :=
  runFirst do return [← Operation.length .library { value := v }]

def call (f : Value) (args : List Value) : Action (List Value) := run (Run.call f args {})

/-- A new function that does what the host says. -/
def newCallback (f : Callback) : Action Value := fun st =>
  let (id, store) := st.store.newFunction (.callback st.callbacks.size)
  (.ok (.func id), { st with store, callbacks := st.callbacks.push f })

def newBuiltin (b : Builtin) (captured : List Value) : Action Value :=
  runFirst do return [← Run.newBuiltin b captured]

/-! ## Sources -/

/-- Which kinds of source are let in. -/
def textMode : Bytes := Bytes.ofText "t"

def anyMode : Bytes := Bytes.ofText "bt"

/-- The place of the first zero byte. -/
def zeroAt? (b : Bytes) : Option Nat := b.find? (Bytes.singleton 0) 0

/-- A function for a source. -/
def load (source name mode : Bytes) (env : TableId) : Action Value := fun st =>
  match zeroAt? name with
  | some i =>
    (.error (.runtime ("invalid name: nul byte found in provided data at position: " ++ toString i)),
      st)
  | none =>
    match Chunk.load source name mode (.table env) 0 st.store with
    | .done (.ok f) store => (.ok f, { st with store })
    | .done (.error e) store => (.error (Failure.ofLoadError e), { st with store })
    | .raise _ store => (.error .exhausted, { st with store })
    | .ask _ store _ => (.error .exhausted, { st with store })

/-- A source as the expression that it may be. -/
def asExpression (source : Bytes) : Bytes := Bytes.ofText "return " ++ source

/-- The function of a source that is an expression, or else a block. -/
def loadEither (source name mode : Bytes) (env : TableId) : Action Value := fun st =>
  match load (asExpression source) name textMode env st with
  | (.ok f, st) => (.ok f, st)
  | (.error _, st) => load source name mode env st

/-- Runs a source in the full environment, as an expression if it is one. -/
def evaluate (source name mode : Bytes) : Action (List Value) := do
  let f ← loadEither source name mode (← globals)
  call f []

end Action

end Enclosure.Lua
