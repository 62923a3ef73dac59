import Enclosure.Lua.Store
import Enclosure.Text.Utf8

/-!
# Names of library functions

Under which names a store holds its functions and the tables of its libraries. A function with several
names is told by the first in alphabetical order.
-/

namespace Enclosure.Lua

structure Names where
  /-- In alphabetical order. -/
  functions : List (FuncId × String) := []
  libraries : List (TableId × String) := []

namespace Names

/-- The globals that are tables of libraries. -/
def libraryNames : List String :=
  ["coroutine", "io", "math", "os", "package", "string", "table", "utf8"]

/-- The functions in a table, with a text in front of each name. -/
def functionsIn (s : Store) (t : TableId) (front : String) : List (FuncId × String) :=
  (s.table t).entries.filterMap fun (k, v) =>
    match k, v with
    | .str k, .func f => some (f, front ++ k.textLossy)
    | _, _ => none

/-- The library tables of a store by their names. -/
def librariesIn (s : Store) : List (TableId × String) :=
  libraryNames.filterMap fun name =>
    match s.rawGet s.globals (.text name) with
    | .table t => some (t, name)
    | _ => none

def ofStore (s : Store) : Names :=
  let libraries := librariesIn s
  let named := functionsIn s s.globals ""
    ++ libraries.flatMap fun (t, name) => functionsIn s t (name ++ ".")
  { functions := named.mergeSort fun a b => a.2 ≤ b.2
    libraries := (s.globals, "_G") :: libraries }

def function? (n : Names) (f : FuncId) : Option String := n.functions.lookup f

def library? (n : Names) (t : TableId) : Option String := n.libraries.lookup t

end Names

end Enclosure.Lua
