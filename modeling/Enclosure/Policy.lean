import Enclosure.Policy.Rule
import Enclosure.Text.Blank

/-!
# Policies

A policy is a list of rules that can be carried out without one undoing another: names can be used as
keys, no two rules fill the same key, and the table of a module has at least one field and none twice.
The first defect of a list of rules, in the order of reading, says why it is no policy.
-/

namespace Enclosure

/-- Why rules or names cannot be used together. -/
inductive Defect
  | invalidName (name : String)
  /-- A module of which nothing is exposed. -/
  | noNames (module : String)
  /-- A key filled twice, at the top or in the table of a module. -/
  | duplicate (scope : Option String) (name : String)
  deriving DecidableEq, Repr

/-- A key is not empty and holds neither blanks nor controls. -/
def validName (name : String) : Bool :=
  !name.toList.isEmpty && name.toList.all fun c => !(isBlank c || isControl c)

namespace Rule

/-- The first defect among the fields of a module; `seen` are the fields before. -/
def namesDefect (module : String) (seen : List String) : List String → Option Defect
  | [] => none
  | name :: rest =>
    if !validName name then some (.invalidName name)
    else if seen.contains name then some (.duplicate (some module) name)
    else namesDefect module (name :: seen) rest

def fieldsDefect (module : String) (names : List String) : Option Defect :=
  if names.isEmpty then some (.noNames module) else namesDefect module [] names

/-- The first defect of a rule by itself. -/
def defect (r : Rule) : Option Defect :=
  if !validName r.target then some (.invalidName r.target)
  else
    match r with
    | .bare _ => none
    | .library module names => fieldsDefect module names
    | .native module names => fieldsDefect module names

end Rule

/-- The first defect of rules that come after rules with the targets `seen`. -/
def defectAfter (seen : List String) : List Rule → Option Defect
  | [] => none
  | r :: rest =>
    match r.defect with
    | some d => some d
    | none =>
      if seen.contains r.target then some (.duplicate none r.target)
      else defectAfter (r.target :: seen) rest

def firstDefect (rules : List Rule) : Option Defect := defectAfter [] rules

structure Policy where
  rules : List Rule
  sound : firstDefect rules = none
  deriving DecidableEq

namespace Policy

/-- The policy of the rules, or their first defect. -/
def ofRules (rules : List Rule) : Except Defect Policy :=
  match h : firstDefect rules with
  | none => .ok ⟨rules, h⟩
  | some d => .error d

def empty : Policy := ⟨[], rfl⟩

/-- The rules of both, in order. -/
def merge (a b : Policy) : Except Defect Policy := ofRules (a.rules ++ b.rules)

def targets (p : Policy) : List String := p.rules.map Rule.target

def natives (p : Policy) : List String := (p.rules.filter Rule.isNative).map Rule.target

/-- Iteration and conversion, and those parts of the libraries that change nothing outside. -/
def standardRules : List Rule := [
  .bare "pairs", .bare "ipairs", .bare "print", .bare "next", .bare "tostring", .bare "tonumber",
  .library "table" ["insert", "remove", "sort", "unpack"],
  .library "math" ["sin", "cos", "tan", "asin", "acos", "atan", "abs", "exp", "floor", "ceil",
    "huge", "log", "sqrt", "max", "min", "pi", "random", "randomseed"],
  .library "os" ["clock", "difftime", "time"],
  .library "string" ["format"]]

def standard : Policy := ⟨standardRules, by decide +kernel⟩

/-- Rules on their way to a policy. -/
structure Draft where
  rules : List Rule := []

namespace Draft

def rule (d : Draft) (r : Rule) : Draft := ⟨d.rules ++ [r]⟩

def bare (d : Draft) (name : String) : Draft := d.rule (.bare name)

def bares (d : Draft) (names : List String) : Draft := ⟨d.rules ++ names.map .bare⟩

def library (d : Draft) (module : String) (names : List String) : Draft :=
  d.rule (.library module names)

def native (d : Draft) (module : String) (names : List String) : Draft :=
  d.rule (.native module names)

def build (d : Draft) : Except Defect Policy := ofRules d.rules

end Draft

end Policy

end Enclosure
