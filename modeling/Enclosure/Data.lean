import Enclosure.Number.Shortest
import Enclosure.Text.Quoted

/-!
# Plain data

What a document in any notation holds, before it is known to mean anything: scalars, sequences and
mappings whose keys keep their order.
-/

namespace Enclosure

inductive Data
  | null
  | boolean (b : Bool)
  | integer (n : Int)
  | float (d : Double)
  | string (s : String)
  | sequence (items : List Data)
  | mapping (entries : List (String × Data))

namespace Data

instance : Inhabited Data := ⟨.null⟩

/-- How messages name a piece of data; notations differ in how they write numbers. -/
def shown (float : Double → String) : Data → String
  | .null => "null"
  | .boolean b => "boolean `" ++ (if b then "true" else "false") ++ "`"
  | .integer n => "integer `" ++ toString n ++ "`"
  | .float d => "floating point `" ++ float d ++ "`"
  | .string s => "string " ++ Quoted.quote s
  | .sequence _ => "sequence"
  | .mapping _ => "map"

/-- The data under the first key of that name. -/
def find? (key : String) : List (String × Data) → Option Data
  | [] => none
  | (k, d) :: rest => if k == key then some d else find? key rest

end Data

/-- Why data does not mean what it should. -/
inductive DataError
  | invalidType (found : Data) (expected : String)
  | missingField (name : String)
  | unknownVariant (name : String) (known : List String)
  | invalidLength (length : Nat) (expected : String)

namespace DataError

def message (float : Double → String) : DataError → String
  | .invalidType found expected => "invalid type: " ++ found.shown float ++ ", expected " ++ expected
  | .missingField name => "missing field `" ++ name ++ "`"
  | .unknownVariant name known =>
    "unknown variant `" ++ name ++ "`, expected one of "
      ++ ", ".intercalate (known.map fun k => "`" ++ k ++ "`")
  | .invalidLength n expected => "invalid length " ++ toString n ++ ", expected " ++ expected

end DataError

end Enclosure
