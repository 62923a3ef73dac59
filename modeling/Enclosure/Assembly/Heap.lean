import Enclosure.Assembly

/-!
# A host over a heap of tables

The simplest host: globals, modules and namespaces are tables in a heap. It writes down each primitive
that is asked of it, and it can be told which ones to fail.
-/

namespace Enclosure.Heap

/-- A value: some datum that is kept as it is, or a table of the heap. -/
inductive Value (α : Type)
  | datum (a : α)
  | table (id : Nat)

/-- A table: the name of the module that it is, if it is one, and its fields. -/
structure Table (α : Type) where
  owner : Option String := none
  fields : List (String × Value α) := []

inductive Primitive
  | global
  | require
  | field
  | newNamespace
  | bind
  | install
  | load
  deriving DecidableEq, Repr

def Primitive.name : Primitive → String
  | .global => "global"
  | .require => "require"
  | .field => "field"
  | .newNamespace => "new_namespace"
  | .bind => "bind"
  | .install => "install"
  | .load => "load"

/-- A primitive with what it was asked for. -/
structure Call where
  primitive : Primitive
  what : String
  deriving DecidableEq, Repr

def Call.text (c : Call) : String := c.primitive.name ++ " " ++ c.what

end Heap

open Heap in
structure Heap (α : Type) where
  tables : Array (Table α) := #[]
  globals : List (String × Value α) := []
  /-- The tables of the modules that can be required. -/
  modules : List (String × Nat) := []
  natives : List (String × Nat) := []
  /-- Native modules that are refused, with the reason. -/
  refused : List (String × String) := []
  failing : List Call := []
  /-- What was asked for, the last first. -/
  journal : List Call := []
  /-- How many namespaces were made. -/
  made : Nat := 0

namespace Heap

variable {α : Type}

def setField {β : Type} (key : String) (v : β) : List (String × β) → List (String × β)
  | [] => [(key, v)]
  | (k, w) :: rest => if k = key then (k, v) :: rest else (k, w) :: setField key v rest

def table (h : Heap α) (id : Nat) : Table α := h.tables.getD id {}

/-- The heap with one field of a table set. -/
def write (h : Heap α) (id : Nat) (key : String) (v : Value α) : Heap α :=
  { h with tables := h.tables.modify id fun t => { t with fields := setField key v t.fields } }

def newTable (h : Heap α) (t : Table α) : Nat × Heap α :=
  (h.tables.size, { h with tables := h.tables.push t })

/-- Tables without fields for modules of these names. -/
def addModules (names : List String) (h : Heap α) : List (String × Nat) × Heap α :=
  names.foldl
    (fun (ids, h) name =>
      let (id, h) := h.newTable { owner := some name }
      (ids ++ [(name, id)], h))
    ([], h)

/-- The heap with fields of a table set, if there is a table. -/
def fill (h : Heap α) (id : Option Nat) (fields : List (String × Value α)) : Heap α :=
  match id with
  | some id => fields.foldl (fun h (k, v) => h.write id k v) h
  | none => h

/-- Writes a primitive down, and fails if it is to fail. -/
def note (primitive : Primitive) (what : String) : Attempt (Heap α) Cause Unit :=
  Attempt.of fun h =>
    let c : Call := ⟨primitive, what⟩
    let failed := h.failing.contains c
    (if failed then .error (.text (c.text ++ " failed")) else .ok (),
      { h with journal := c :: h.journal })

def global (name : String) : Attempt (Heap α) Cause (Option (Value α)) := do
  note .global name
  Attempt.read fun h => h.globals.lookup name

def require (name : String) : Attempt (Heap α) Cause Nat := do
  note .require name
  let found ← Attempt.read fun h => h.modules.lookup name
  Attempt.orFail (.text ("no module " ++ name)) found

def field (id : Nat) (name : String) : Attempt (Heap α) Cause (Option (Value α)) := do
  let owner ← Attempt.read fun h => (h.table id).owner.getD ""
  note .field (owner ++ "." ++ name)
  Attempt.read fun h => (h.table id).fields.lookup name

def newNamespace : Attempt (Heap α) Cause Nat := do
  let k ← Attempt.read (·.made)
  Attempt.modify fun h => { h with made := h.made + 1 }
  note .newNamespace (toString k)
  Attempt.of fun h =>
    let (id, h) := h.newTable {}
    (.ok id, h)

def bind (id : Nat) (name : String) (v : Value α) : Attempt (Heap α) Cause Unit := do
  note .bind name
  Attempt.modify fun h => h.write id name v

def install (id : Nat) (name : String) (child : Nat) : Attempt (Heap α) Cause Unit := do
  note .install name
  Attempt.modify fun h => h.write id name (.table child)

def host : Host (Heap α) (Value α) Nat Nat where
  global := global
  require := require
  field := field
  newNamespace := newNamespace
  bind := bind
  install := install

/-- Loads the native modules of the heap; one that is refused is refused before it is looked for. -/
def load : NativeLoad (Heap α) Nat := fun name => do
  Attempt.modify fun h => { h with journal := ⟨.load, name⟩ :: h.journal }
  match ← Attempt.read fun h => (h.refused.lookup name, h.natives.lookup name) with
  | (some why, _) => Attempt.fail (.text why)
  | (none, some id) => Attempt.of fun h => (.ok id, h)
  | (none, none) => Attempt.fail (.text ("unknown native " ++ name))

/-- The heap with nothing written down. -/
def forget (h : Heap α) : Heap α := { h with journal := [] }

end Heap

end Enclosure
