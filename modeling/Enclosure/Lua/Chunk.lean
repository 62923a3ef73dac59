import Enclosure.Lua.Parser
import Enclosure.Lua.Run

/-!
# Chunks

A chunk is a source with a name. Messages show the name in at most 59 bytes: after `=` as it is, after
`@` with its end kept, and a source that is its own name by its first line.
-/

namespace Enclosure.Lua

namespace Chunk

open Bytes (ofText)

/-- How messages show the name of a chunk. -/
def shownName (name : Bytes) : Bytes :=
  let rest := name.drop 1
  Token.upToZero <|
    if name.at0 0 == 61 && name.size > 0 then rest.take 59
    else if name.at0 0 == 64 && name.size > 0 then
      if rest.size ≤ 59 then rest else ofText "..." ++ rest.drop (rest.size - 56)
    else
      let line := Bytes.ofList (name.asList.takeWhile (· != 10))
      let shown :=
        if line.size == name.size && name.size < 45 then name
        else line.take 45 ++ ofText "..."
      ofText "[string \"" ++ shown ++ ofText "\"]"

/-- Why a source is not loaded. -/
inductive LoadError
  | source (message : Bytes)
  /-- Not an error of the source's text. -/
  | other (message : Bytes)

def LoadError.message : LoadError → Bytes
  | .source m => m
  | .other m => m

/-- Whether a source claims to be compiled. -/
def isBinary (source : Bytes) : Bool := source.size > 0 && source.at0 0 == 27

/-- Whether the mode lets the kind of source through: `t` for texts, `b` for compiled ones. -/
def checkMode (source mode : Bytes) : Except LoadError Unit :=
  let (letter, kind) := if isBinary source then (98, "binary") else (116, "text")
  if mode.asList.contains letter then .ok ()
  else
    .error (.source (ofText ("attempt to load a " ++ kind ++ " chunk (mode is '") ++ mode
      ++ ofText "')"))

/-- The main function of a source. -/
def compile (source name : Bytes) (nesting : Nat) : Except LoadError FuncBody :=
  match parse source nesting with
  | .ok body => .ok body
  | .error (.at line m) =>
    .error (.source (shownName name ++ ofText (":" ++ toString line ++ ": ") ++ m))
  | .error .tooDeep => .error (.other (ofText "C stack overflow"))

/-- How a function of a script is written: its place in the store. -/
def dumped (f : FuncId) : Bytes := ofText "\x1bLua" ++ ofText (toString f.index)

/-- The function that a compiled source was written from. -/
def undumped? (source : Bytes) : Option FuncId :=
  if source.hasAt (ofText "\x1bLua") 0 then
    ((source.drop 4).text?.bind String.toNat?).map FuncId.mk
  else none

/-- A function for the source whose globals are those of `env`. In place of a compiled source, `env` becomes
the variable from outside that the function uses first, whatever it was, and the others are nil. -/
def load (source name mode : Bytes) (env : Value) (nesting : Nat) :
    Run (Except LoadError Value) := do
  match checkMode source mode with
  | .error e => return .error e
  | .ok () =>
    let cell ← Run.newCell env
    if isBinary source then
      match undumped? source with
      | none =>
        return .error (.source (shownName name ++ ofText ": bad binary format (truncated chunk)"))
      | some f =>
        match ← Run.read (·.function f) with
        | .closure body outer chunk =>
          let cells ← outer.mapM fun _ => Run.newCell .nil
          let scope := match body.outer? 0 with
            | some n => cells.set n cell
            | none => cells
          return .ok (← Run.newFunction (.closure body scope chunk))
        | _ =>
          return .error (.source (shownName name ++ ofText ": bad binary format (truncated chunk)"))
    else
      match compile source name nesting with
      | .error e => return .error e
      | .ok body => return .ok (← Run.newFunction (.closure body [cell] (shownName name)))

/-- A file's source without a byte order mark and without a first line that begins with `#`. -/
def fileSource (content : Bytes) : Bytes :=
  let b := if content.hasAt (Bytes.ofList [0xEF, 0xBB, 0xBF]) 0 then content.drop 3 else content
  if b.size > 0 && b.at0 0 == 35 then
    Bytes.ofList (b.asList.dropWhile (· != 10))
  else b

/-- A function for the content of a file. -/
def loadFile (path : Bytes) (mode : Bytes) (env : Value) (nesting : Nat) :
    Run (Except LoadError Value) := do
  let content ← Run.read fun s => s.files.read path.textLossy
  match content with
  | .ok b => load (fileSource b) (ofText "@" ++ path) mode env nesting
  | .error e =>
    let action := if e == .isDirectory then "read" else "open"
    return .error (.other (ofText ("cannot " ++ action ++ " ") ++ path ++ ofText ": "
      ++ ofText e.short.1))

end Chunk

end Enclosure.Lua
