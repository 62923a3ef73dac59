import Enclosure.Data

/-!
# Rules

A rule says what one key of a restricted environment holds: a global of the full environment, or a
table with chosen fields of a library module or of a native one.
-/

namespace Enclosure

inductive Rule
  /-- The global of that name. -/
  | bare (name : String)
  /-- A table with these fields of a library module. -/
  | library (module : String) (names : List String)
  /-- A table with these fields of a native module. -/
  | native (module : String) (names : List String)
  deriving DecidableEq, Repr

namespace Rule

/-- The key that the rule fills. -/
def target : Rule → String
  | .bare name => name
  | .library module _ => module
  | .native module _ => module

/-- The fields that the rule copies. -/
def names : Rule → List String
  | .bare _ => []
  | .library _ names => names
  | .native _ names => names

def isNative : Rule → Bool
  | .native .. => true
  | _ => false

/-! ## Rules as data -/

/-- The words that tell the kinds of rules apart. -/
def kinds : List String := ["bare", "module", "native"]

inductive Kind
  | bare
  | library
  | native
  deriving DecidableEq, Repr

def Kind.ofData : Data → Except DataError Kind
  | .string s =>
    if s = "bare" then .ok .bare
    else if s = "module" then .ok .library
    else if s = "native" then .ok .native
    else .error (.unknownVariant s kinds)
  | d => .error (.invalidType d "variant identifier")

def textOf : Data → Except DataError String
  | .string s => .ok s
  | d => .error (.invalidType d "a string")

def textsOf : List Data → Except DataError (List String)
  | [] => .ok []
  | d :: rest => do
    let s ← textOf d
    let ss ← textsOf rest
    return s :: ss

def namesOf : Data → Except DataError (List String)
  | .sequence items => textsOf items
  | d => .error (.invalidType d "a sequence")

def required {α : Type} (name : String) : Option α → Except DataError α
  | some a => .ok a
  | none => .error (.missingField name)

/-- The field `name` of a mapping, read in the order of the keys. -/
def bareOf (entries : List (String × Data)) : Except DataError Rule := do
  let name ← required "name" (Data.find? "name" entries)
  return .bare (← textOf name)

/-- The fields `module` and `names` of a mapping; of two that are wrong the first in order counts. -/
def moduleFields : List (String × Data) → Option String → Option (List String) →
    Except DataError (Option String × Option (List String))
  | [], module, names => .ok (module, names)
  | (key, d) :: rest, module, names =>
    if key = "module" then
      match textOf d with
      | .ok s => moduleFields rest (some s) names
      | .error e => .error e
    else if key = "names" then
      match namesOf d with
      | .ok ss => moduleFields rest module (some ss)
      | .error e => .error e
    else moduleFields rest module names

def moduleOf (entries : List (String × Data)) : Except DataError (String × List String) := do
  let (module, names) ← moduleFields entries none none
  let module ← required "module" module
  let names ← required "names" names
  return (module, names)

/-- What messages call a kind of rule that is written as a sequence. -/
def Kind.title : Kind → String
  | .bare => "struct variant WhitelistEntry::Bare with 1 element"
  | .library => "struct variant WhitelistEntry::FromModule with 2 elements"
  | .native => "struct variant WhitelistEntry::FromNativeModule with 2 elements"

def bareOfItems : List Data → Except DataError Rule
  | [] => .error (.invalidLength 0 Kind.bare.title)
  | name :: rest => do
    let name ← textOf name
    if rest.isEmpty then return .bare name
    throw (.invalidLength (rest.length + 1) "1 element in sequence")

def moduleOfItems (kind : Kind) : List Data → Except DataError (String × List String)
  | [] => .error (.invalidLength 0 kind.title)
  | [module] => do
    let _ ← textOf module
    throw (.invalidLength 1 kind.title)
  | module :: names :: rest => do
    let module ← textOf module
    let names ← namesOf names
    if rest.isEmpty then return (module, names)
    throw (.invalidLength (rest.length + 2) "2 elements in sequence")

/-- The rule that data describes: a mapping with a kind and its fields, or a sequence of them. -/
def ofData : Data → Except DataError Rule
  | .mapping entries => do
    match ← Kind.ofData (← required "kind" (Data.find? "kind" entries)) with
    | .bare => bareOf entries
    | .library =>
      let (module, names) ← moduleOf entries
      return .library module names
    | .native =>
      let (module, names) ← moduleOf entries
      return .native module names
  | .sequence [] => .error (.missingField "kind")
  | .sequence (kind :: items) => do
    match ← Kind.ofData kind with
    | .bare => bareOfItems items
    | .library =>
      let (module, names) ← moduleOfItems .library items
      return .library module names
    | .native =>
      let (module, names) ← moduleOfItems .native items
      return .native module names
  | d => .error (.invalidType d "internally tagged enum WhitelistEntry")

def listOfData : List Data → Except DataError (List Rule)
  | [] => .ok []
  | d :: rest => do
    let r ← ofData d
    let rs ← listOfData rest
    return r :: rs

/-- The rule as a mapping. -/
def toData : Rule → Data
  | .bare name => .mapping [("kind", .string "bare"), ("name", .string name)]
  | .library module names =>
    .mapping [("kind", .string "module"), ("module", .string module),
      ("names", .sequence (names.map .string))]
  | .native module names =>
    .mapping [("kind", .string "native"), ("module", .string module),
      ("names", .sequence (names.map .string))]

end Rule

end Enclosure
