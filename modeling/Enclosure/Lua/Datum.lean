import Enclosure.Lua.State

/-!
# Values written out

A description of a value that can be built in any state: tables with their entries, functions by what
they answer. Each time it is built, tables and functions are new.
-/

namespace Enclosure.Lua

inductive Datum
  /-- A value that is there already, or one that is no object. -/
  | value (v : Value)
  | table (entries : List (Datum × Datum))
  /-- A function that answers one value, whatever it is called with. -/
  | constant (result : Datum)

namespace Datum

instance : Inhabited Datum := ⟨.value .nil⟩

open Run

mutual

def build : Datum → Run Value
  | .value v => pure v
  | .table entries => do
    let t ← newTable
    fill t entries
    return .table t
  | .constant result => do
    let v ← build result
    newBuiltin (.guard .constant) [v]

/-- Sets the entries of a table in order. -/
def fill (t : TableId) : List (Datum × Datum) → Run Unit
  | [] => pure ()
  | (k, v) :: rest => do
    let k ← build k
    let v ← build v
    Operation.rawSet .library t k v
    fill t rest

end

def buildAll : List Datum → Run (List Value)
  | [] => pure []
  | d :: rest => do
    let v ← d.build
    let vs ← buildAll rest
    return v :: vs

/-- The entries of a table with strings as keys. -/
def fields (fs : List (String × Datum)) : List (Datum × Datum) :=
  fs.map fun (k, d) => (.value (.text k), d)

end Datum

namespace Action

/-- Builds a value in the state. -/
def build (d : Datum) : Action Value := runFirst do return [← d.build]

end Action

end Enclosure.Lua
