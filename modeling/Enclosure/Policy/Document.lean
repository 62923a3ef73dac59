import Enclosure.Policy
import Enclosure.Toml.Reader

/-!
# Policies as documents

A policy file is a TOML document with the rules under `entry`, one block each. What a document has
besides is ignored.
-/

namespace Enclosure.Policy

/-- Why a text is no policy. -/
inductive DocumentError
  /-- The text is no document. -/
  | malformed
  | data (e : DataError)
  | defect (d : Defect)

/-- The rules that a document holds. -/
def rulesOfData (entries : List (String × Data)) : Except DataError (List Rule) :=
  match Data.find? "entry" entries with
  | none => .ok []
  | some (.sequence items) => Rule.listOfData items
  | some d => .error (.invalidType d "a sequence")

/-- The policy that a text describes. -/
def read (source : String) : Except DocumentError Policy :=
  match Toml.Reader.document source with
  | none => .error .malformed
  | some es =>
    match rulesOfData (Toml.Node.entriesData es) with
    | .error e => .error (.data e)
    | .ok rules =>
      match ofRules rules with
      | .ok p => .ok p
      | .error d => .error (.defect d)

/-! ## Writing -/

/-- A key with a string. -/
def textLine (key : String) (value : String) : List Char :=
  key.toList ++ [' ', '=', ' '] ++ Toml.Quote.write value.toList ++ ['\n']

/-- Strings with commas between them. -/
def writeItems : List String → List Char
  | [] => []
  | [s] => Toml.Quote.write s.toList
  | s :: rest => Toml.Quote.write s.toList ++ [',', ' '] ++ writeItems rest

def namesLine (names : List String) : List Char :=
  ['n', 'a', 'm', 'e', 's', ' ', '=', ' ', '['] ++ writeItems names ++ [']', '\n']

def writeRule (r : Rule) : List Char :=
  ['[', '[', 'e', 'n', 't', 'r', 'y', ']', ']', '\n'] ++
    match r with
    | .bare name => textLine "kind" "bare" ++ textLine "name" name
    | .library module names =>
      textLine "kind" "module" ++ textLine "module" module ++ namesLine names
    | .native module names =>
      textLine "kind" "native" ++ textLine "module" module ++ namesLine names

/-- Blocks with an empty line between them. -/
def writeRules : List Rule → List Char
  | [] => []
  | [r] => writeRule r
  | r :: rest => writeRule r ++ ['\n'] ++ writeRules rest

def write (p : Policy) : String :=
  if p.rules.isEmpty then "entry = []\n" else String.ofList (writeRules p.rules)

end Enclosure.Policy
