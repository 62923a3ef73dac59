import Enclosure.Lua.Chunk
import Enclosure.Lua.Library.Argument

/-!
# Modules

`require` answers what `package.loaded` holds under a name, or asks the searchers one after another for
a loader. There are searchers for preloaded modules and for files; those for native modules refuse.
-/

namespace Enclosure.Lua.Library.Package

open Run

def ofText := Bytes.ofText

/-- The text with every occurrence of a byte replaced. -/
def replaceByte (s : Bytes) (b : UInt8) (new : Bytes) : Bytes :=
  s.asList.foldl (fun acc c => if c == b then acc ++ new else acc.push c) .empty

/-- The parts of a text between semicolons that are not empty. -/
def templates (path : Bytes) : List Bytes :=
  let parts := path.asList.foldr
    (fun b acc =>
      match acc with
      | cur :: rest => if b == 59 then [] :: acc else (b :: cur) :: rest
      | [] => [[b]])
    [[]]
  (parts.filter (!·.isEmpty)).map Bytes.ofList

/-- The text with every occurrence of `sep` replaced; an empty `sep` occurs nowhere. -/
def replaceText (s sep new : Bytes) : Nat → Nat → Bytes → Bytes
  | 0, _, acc => acc
  | fuel + 1, i, acc =>
    if s.size ≤ i then acc
    else if 0 < sep.size && s.hasAt sep i then
      replaceText s sep new fuel (i + sep.size) (acc ++ new)
    else replaceText s sep new fuel (i + 1) (acc.push (s.at0 i))

/-- The files that a path has for a name. -/
def candidates (name path sep dirSep : Bytes) : List Bytes :=
  let name := replaceText name sep dirSep (name.size + 1) 0 .empty
  (templates path).map fun t => replaceByte t 63 name

def readable (file : Bytes) : Run Bool := read fun s =>
  match s.files.read file.textLossy with
  | .ok _ => true
  | .error .isDirectory => true
  | .error _ => false

/-- The first file that can be read. -/
def firstReadable : List Bytes → Run (Option Bytes)
  | [] => pure none
  | f :: rest => do if ← readable f then return some f else firstReadable rest

/-- What is said of files that were not found. -/
def notFound (files : List Bytes) : Bytes :=
  Bytes.join (ofText "\n\t") (files.map fun f => ofText "no file '" ++ f ++ ofText "'")

def searchPath (args : Args) : Run (List Value) := do
  let name ← args.string 1
  let path ← args.string 2
  let sep ← args.stringOr 3 (ofText ".")
  let dirSep ← args.stringOr 4 (ofText "/")
  let files := candidates name path sep dirSep
  match ← firstReadable files with
  | some f => return [.str f]
  | none => return [.nil, .str (notFound files)]

/-- The table `package` that a function of the library holds. -/
def packageOf (captured : Array Value) : Value := captured.getD 0 .nil

def preloadSearcher (args : Args) : Run (List Value) := do
  let name ← args.string 1
  let preload ← read fun s => Value.table s.preload
  let v ← Operation.index .library none preload (.str name)
  if v.isNil then
    return [.str (ofText "no field package.preload['" ++ name ++ ofText "']")]
  return [v, .text ":preload:"]

def fileSearcher (captured : Array Value) (args : Args) : Run (List Value) := do
  let name ← args.string 1
  match (← Operation.index .library none (packageOf captured) (.text "path")).bytes? with
  | none => fail "'package.path' must be a string"
  | some path =>
    let files := candidates name path (ofText ".") (ofText "/")
    match ← firstReadable files with
    | none => return [.str (notFound files)]
    | some f =>
      let env ← read fun s => Value.table s.globals
      match ← Chunk.loadFile f (ofText "bt") env 1 with
      | .ok v => return [v, .str f]
      | .error e =>
        failBytes (ofText "error loading module '" ++ name ++ ofText "' from file '" ++ f
          ++ ofText "':\n\t" ++ e.message)

/-- Asks the searchers from the one numbered `i`; `message` holds what they said. -/
def askSearchers (searchers : TableId) (name : Bytes) : Nat → Nat → Bytes → Run (Value × Value)
  | 0, _, _ => throw .exhausted
  | fuel + 1, i, message => do
    let searcher ← rawGetInt searchers i
    if searcher.isNil then
      failBytes (ofText "module '" ++ name ++ ofText "' not found:" ++ message)
    let vs ← call searcher [.str name] {}
    match first vs with
    | .func f => return (.func f, first (vs.drop 1))
    | v =>
      match v.bytes? with
      | some b => askSearchers searchers name fuel (i + 1) (message ++ ofText "\n\t" ++ b)
      | none => askSearchers searchers name fuel (i + 1) message

def require (captured : Array Value) (args : Args) : Run (List Value) := do
  let name ← args.string 1
  let loaded ← read fun s => Value.table s.loaded
  let v ← Operation.index .library none loaded (.str name)
  if v.truthy then return [v]
  match ← Operation.index .library none (packageOf captured) (.text "searchers") with
  | .table searchers =>
    let (loader, extra) ← askSearchers searchers name roundLimit 1 .empty
    let v := first (← call loader [.str name, extra] {})
    if !v.isNil then Operation.setIndex .library none loaded (.str name) v
    let v ← Operation.index .library none loaded (.str name)
    if v.isNil then
      Operation.setIndex .library none loaded (.str name) (.bool true)
      return [.bool true, extra]
    return [v, extra]
  | _ => fail "'package.searchers' must be a table"

def run (f : PackageFunction) (captured : Array Value) (args : Args) : Run (List Value) := do
  match f with
  | .loadLib => failHost (ofText "safety error: package.loadlib is disabled in safe mode")
  | .require => require captured args
  | .searchPath => searchPath args
  | .preloadSearcher => preloadSearcher args
  | .fileSearcher => fileSearcher captured args
  | .nativeSearcher => return [.text "\n\tcan't load C modules in safe mode"]

end Enclosure.Lua.Library.Package
