import Enclosure.Data

/-!
# The tree of a TOML document

A table remembers how it came to be, since that decides what may still be added to it: by a header, as
a step on the way of a header, or by a dotted key. A key is set once.
-/

namespace Enclosure.Toml

/-- How a table came to be. -/
inductive Origin
  /-- By a header or as a value. -/
  | defined
  /-- As a step on the way of a header. -/
  | implied
  /-- By a dotted key. -/
  | dotted
  deriving DecidableEq, Repr

inductive Node
  | string (s : String)
  | integer (n : Int)
  | float (d : Double)
  | boolean (b : Bool)
  /-- A date, a time or both. -/
  | moment
  | array (items : List Node)
  | inlineTable (origin : Origin) (entries : List (String × Node))
  | table (origin : Origin) (entries : List (String × Node))
  /-- Tables under headers in double brackets. -/
  | tables (elements : List (List (String × Node)))

abbrev Entries := List (String × Node)

namespace Entries

def find? (key : String) : Entries → Option Node
  | [] => none
  | (k, n) :: rest => if k == key then some n else find? key rest

/-- The entries with another node under a key that is there. -/
def replace (key : String) (n : Node) : Entries → Entries
  | [] => []
  | (k, m) :: rest => if k == key then (k, n) :: rest else (k, m) :: replace key n rest

def remove (key : String) : Entries → Entries
  | [] => []
  | (k, m) :: rest => if k == key then rest else (k, m) :: remove key rest

/-- The entries with a new key; nothing if the key is there. -/
def add? (key : String) (n : Node) (es : Entries) : Option Entries :=
  if (find? key es).isNone then some (es ++ [(key, n)]) else none

/-- A change of a table at the end of a path. -/
abbrev Change := Origin → Entries → Option Entries

/-- Changes the table at the end of a path from a table. Tables that are missing on the way are made;
of tables under double brackets the last one is entered. A dotted key enters no table that a header
defined. -/
def descend (byKey : Bool) (change : Change) :
    List String → Origin → Entries → Option Entries
  | [], origin, es => change origin es
  | key :: path, _, es =>
    match find? key es with
    | none =>
      let made : Origin := if byKey then .dotted else .implied
      (descend byKey change path made []).map fun inner => es ++ [(key, .table made inner)]
    | some (.table origin inner) =>
      if byKey && origin == .defined then none
      else
        (descend byKey change path origin inner).map fun inner =>
          replace key (.table origin inner) es
    | some (.tables elements) =>
      match elements.getLast? with
      | none => none
      | some last =>
        (descend byKey change path .defined last).map fun inner =>
          replace key (.tables (elements.dropLast ++ [inner])) es
    | some _ => none

/-- The same inside of a table in braces. -/
def descendInline (change : Change) : List String → Origin → Entries → Option Entries
  | [], origin, es => change origin es
  | key :: path, _, es =>
    match find? key es with
    | none =>
      (descendInline change path .dotted []).map fun inner =>
        es ++ [(key, .inlineTable .dotted inner)]
    | some (.inlineTable origin inner) =>
      if origin == .defined then none
      else
        (descendInline change path origin inner).map fun inner =>
          replace key (.inlineTable origin inner) es
    | some _ => none

/-- Sets a new key; a dotted one only in a table that dotted keys made, a plain one only in one that
they did not make. -/
def setKey (plain : Bool) (key : String) (n : Node) : Change := fun origin es =>
  if (origin == .dotted) == plain then none else add? key n es

/-- Sets the value at a dotted key. -/
def setDotted (keys : List String) (n : Node) (es : Entries) : Option Entries :=
  match keys.getLast? with
  | none => none
  | some key => descend true (setKey (keys.length == 1) key n) keys.dropLast .defined es

/-- Sets the value at a dotted key in braces. -/
def setInline (keys : List String) (n : Node) (es : Entries) : Option Entries :=
  match keys.getLast? with
  | none => none
  | some key => descendInline (setKey (keys.length == 1) key n) keys.dropLast .defined es

end Entries

namespace Node

mutual

/-- What the document says, without how it says it. A moment is a mapping of its own. -/
def toData : Node → Data
  | .string s => .string s
  | .integer n => .integer n
  | .float d => .float d
  | .boolean b => .boolean b
  | .moment => .mapping []
  | .array items => .sequence (itemsData items)
  | .inlineTable _ es => .mapping (entriesData es)
  | .table _ es => .mapping (entriesData es)
  | .tables elements => .sequence (elementsData elements)

def itemsData : List Node → List Data
  | [] => []
  | n :: rest => n.toData :: itemsData rest

def entriesData : List (String × Node) → List (String × Data)
  | [] => []
  | (k, n) :: rest => (k, n.toData) :: entriesData rest

def elementsData : List (List (String × Node)) → List Data
  | [] => []
  | es :: rest => .mapping (entriesData es) :: elementsData rest

end

end Node

/-- The table that lines add to. -/
inductive Place
  | top
  /-- Under a header. -/
  | table (path : List String)
  /-- Under a header in double brackets. -/
  | element (path : List String)

/-- A document that is being read: what is complete, and the table that lines add to. -/
structure Draft where
  root : Entries := []
  place : Place := .top
  current : Entries := []

namespace Draft

/-- Puts the table that is complete into its place. -/
def finish (d : Draft) : Option Entries :=
  match d.place with
  | .top => some d.current
  | .table path =>
    match path.getLast? with
    | none => none
    | some key =>
      Entries.descend false (fun _ es => Entries.add? key (.table .defined d.current) es)
        path.dropLast .defined d.root
  | .element path =>
    match path.getLast? with
    | none => none
    | some key =>
      let append : Entries.Change := fun _ es =>
        match Entries.find? key es with
        | none => some (es ++ [(key, .tables [d.current])])
        | some (.tables elements) =>
          some (Entries.replace key (.tables (elements ++ [d.current])) es)
        | some _ => none
      Entries.descend false append path.dropLast .defined d.root

/-- The entries of a table that was only a step on the way so far. -/
def impliedAt (path : List String) (key : String) (root : Entries) : Option (Option Entries) :=
  go path root
where
  go : List String → Entries → Option (Option Entries)
    | [], es =>
      match Entries.find? key es with
      | none => some none
      | some (.table .implied inner) => some (some inner)
      | some _ => none
    | k :: path, es =>
      match Entries.find? k es with
      | none => some none
      | some (.table _ inner) => go path inner
      | some (.tables elements) => (elements.getLast?).bind (go path)
      | some _ => none

/-- A header: its table may have been a step on the way, and then comes after the others. -/
def openTable (d : Draft) (path : List String) : Option Draft := do
  let root ← d.finish
  let key ← path.getLast?
  let held ← impliedAt path.dropLast key root
  let root ←
    Entries.descend false (fun _ es => some (Entries.remove key es)) path.dropLast .defined root
  return { root, place := .table path, current := held.getD [] }

/-- A header in double brackets. -/
def openElement (d : Draft) (path : List String) : Option Draft := do
  let root ← d.finish
  let key ← path.getLast?
  let check : Entries.Change := fun _ es =>
    match Entries.find? key es with
    | none => some (es ++ [(key, .tables [])])
    | some (.tables _) => some es
    | some _ => none
  let root ← Entries.descend false check path.dropLast .defined root
  return { root, place := .element path, current := [] }

/-- A line with a key and its value. -/
def set (d : Draft) (keys : List String) (n : Node) : Option Draft :=
  (Entries.setDotted keys n d.current).map fun current => { d with current }

end Draft

end Enclosure.Toml
