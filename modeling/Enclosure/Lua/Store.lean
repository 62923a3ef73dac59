import Enclosure.Lua.Builtin
import Enclosure.Lua.Grammar
import Enclosure.Lua.Surroundings
import Enclosure.Lua.Table

/-!
# The store

Everything that scripts can change lives here. Objects are named by their place and are never given
up, so a place that is handed out is new. The functions that a host adds are named by number; what
they do is known outside the store.
-/

namespace Enclosure.Lua

/-- A variable. -/
structure CellId where
  index : Nat
  deriving DecidableEq, Hashable, Repr

inductive FunctionObject
  /-- A function of a script with the variables in scope where it was made, innermost first, and the
  name of its chunk. -/
  | closure (body : FuncBody) (env : List CellId) (chunk : Bytes)
  /-- A function of the library with values of its own. -/
  | builtin (b : Builtin) (captured : Array Value)
  /-- A function of the host. -/
  | callback (number : Nat)

instance : Inhabited FunctionObject := ⟨.builtin (.base .assert) #[]⟩

/-- An open or closed file. -/
structure FileHandle where
  /-- Nothing for a standard stream. -/
  path : Option String := none
  content : Bytes := .empty
  position : Nat := 0
  readable : Bool := false
  writable : Bool := false
  appends : Bool := false
  closed : Bool := false

/-- An object of the host that scripts hold but cannot look into. -/
inductive HostObject
  /-- An error that a function of the host raised, with its text. -/
  | failure (text : Bytes)
  | file (f : FileHandle)

instance : Inhabited HostObject := ⟨.failure .empty⟩

structure Store where
  tables : Array Table := #[]
  cells : Array Value := #[]
  functions : Array FunctionObject := #[]
  objects : Array HostObject := #[]
  stringMeta : Option TableId := none
  failureMeta : Option TableId := none
  fileMeta : Option TableId := none
  globals : TableId := ⟨0⟩
  loaded : TableId := ⟨0⟩
  preload : TableId := ⟨0⟩
  /-- What was written to the captured output. -/
  output : Bytes := .empty
  input : Option ObjectId := none
  standardOutput : Option ObjectId := none
  files : FileSystem := {}
  chance : Chance := {}
  /-- Native modules by name that were opened in this state. -/
  natives : List (String × TableId) := []
  /-- The native modules whose opener ran, the last one first. -/
  opened : List String := []
  /-- The files in which script modules were looked for, the last one first. -/
  tried : List String := []

namespace Store

def table (s : Store) (t : TableId) : Table := s.tables.getD t.index default

def modifyTable (s : Store) (t : TableId) (f : Table → Table) : Store :=
  { s with tables := s.tables.modify t.index f }

def cell (s : Store) (c : CellId) : Value := s.cells.getD c.index .nil

def setCell (s : Store) (c : CellId) (v : Value) : Store :=
  { s with cells := s.cells.setIfInBounds c.index v }

def function (s : Store) (f : FuncId) : FunctionObject := s.functions.getD f.index default

def object (s : Store) (o : ObjectId) : HostObject := s.objects.getD o.index default

def newTable (s : Store) (t : Table) : TableId × Store :=
  (⟨s.tables.size⟩, { s with tables := s.tables.push t })

def newCell (s : Store) (v : Value) : CellId × Store :=
  (⟨s.cells.size⟩, { s with cells := s.cells.push v })

def newFunction (s : Store) (f : FunctionObject) : FuncId × Store :=
  (⟨s.functions.size⟩, { s with functions := s.functions.push f })

def newObject (s : Store) (o : HostObject) : ObjectId × Store :=
  (⟨s.objects.size⟩, { s with objects := s.objects.push o })

/-- A value of a table, without metamethods; what is no key has no value. -/
def rawGet (s : Store) (t : TableId) (k : Value) : Value :=
  match k.asKey? with
  | some k => (s.table t).get k
  | none => .nil

def metatable (s : Store) : Value → Option TableId
  | .table t => (s.table t).metatable
  | .str _ => s.stringMeta
  | .object o =>
    match s.object o with
    | .failure _ => s.failureMeta
    | .file _ => s.fileMeta
  | _ => none

/-- The metamethod of a value for an event; nil if there is none. -/
def metamethod (s : Store) (v : Value) (event : String) : Value :=
  match s.metatable v with
  | some m => s.rawGet m (.text event)
  | none => .nil

end Store

end Enclosure.Lua
