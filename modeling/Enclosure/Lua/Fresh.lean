import Enclosure.Lua.Library

/-!
# The fresh store

The store that a state begins with: the global functions, the library tables, the tables of the module
system, and what strings, files and errors of the host answer to. A library function that holds no
values is one object under all its names.
-/

namespace Enclosure.Lua.Fresh

open Run

/-- The name that the table of globals has among the loaded modules. -/
def globalsName : String := "_G"

/-- Puts a new function of the library under a name. -/
def setFunction (t : TableId) (name : String) (b : Builtin) (captured : List Value) :
    Run Unit := do
  rawSetText t name (← newBuiltin b captured)

def setNames (t : TableId) : Library.Names → Run Unit
  | [] => pure ()
  | (name, b) :: rest => do
    setFunction t name b []
    setNames t rest

/-- A new table of functions. -/
def tableOf (names : Library.Names) : Run TableId := do
  let t ← newTable
  setNames t names
  return t

/-- A library: a table of functions under a global name, which is a loaded module. -/
def addLibrary (globals loaded : TableId) (name : String) (names : Library.Names) :
    Run TableId := do
  let t ← tableOf names
  rawSetText globals name (.table t)
  rawSetText loaded name (.table t)
  return t

/-- The iterating functions, which hold what they hand out. -/
def addIterators (globals : TableId) : Run Unit := do
  let next ← rawGetText globals "next"
  setFunction globals "pairs" (.base .pairs) [next]
  setFunction globals "ipairs" (.base .ipairs) [← newBuiltin (.base .ipairsStep) []]

def addMath (globals loaded : TableId) : Run Unit := do
  let t ← addLibrary globals loaded "math" Library.math
  rawSetText t "atan2" (← rawGetText t "atan")
  rawSetText t "pi" (.float Library.Math.pi)
  rawSetText t "huge" (.float .infinity)
  rawSetText t "maxinteger" (.int Int64.maxValue)
  rawSetText t "mininteger" (.int Int64.minValue)

/-- The library of strings, through whose functions strings are indexed. -/
def addString (globals loaded : TableId) : Run Unit := do
  let t ← addLibrary globals loaded "string" Library.string
  let events ← tableOf Library.stringEvents
  rawSetText events "__index" (.table t)
  modify fun s => { s with stringMeta := some events }

def addUtf8 (globals loaded : TableId) : Run Unit := do
  let t ← addLibrary globals loaded "utf8" Library.utf8
  rawSetText t "charpattern" (.str Library.charPattern)

def standardStream (readable writable : Bool) : Run ObjectId :=
  step (·.newObject (.file { readable, writable }))

def addFiles (globals loaded : TableId) : Run Unit := do
  let t ← addLibrary globals loaded "io" Library.io
  let events ← tableOf Library.fileEvents
  let methods ← tableOf Library.fileMethods
  rawSetText events "__index" (.table methods)
  rawSetText events "__name" (.text "FILE*")
  let input ← standardStream true false
  let output ← standardStream false true
  let errors ← standardStream false true
  rawSetText t "stdin" (.object input)
  rawSetText t "stdout" (.object output)
  rawSetText t "stderr" (.object errors)
  modify fun s =>
    { s with fileMeta := some events, input := some input, standardOutput := some output }

/-- The module system. The searcher for native modules refuses. -/
def addPackage (globals loaded : TableId) : Run Unit := do
  let t ← addLibrary globals loaded "package" [("loadlib", .package .loadLib)]
  let self : List Value := [.table t]
  setFunction t "searchpath" (.package .searchPath) []
  rawSetText t "path" (.text Library.path)
  rawSetText t "cpath" (.text Library.nativePath)
  rawSetText t "config" (.text "/\n;\n?\n!\n-\n")
  rawSetText t "loaded" (.table loaded)
  let preload ← newTable
  rawSetText t "preload" (.table preload)
  let searchers ← newTable
  rawSetInt searchers 1 (← newBuiltin (.package .preloadSearcher) self)
  rawSetInt searchers 2 (← newBuiltin (.package .fileSearcher) self)
  rawSetInt searchers 3 (← newBuiltin (.package .nativeSearcher) self)
  rawSetText t "searchers" (.table searchers)
  setFunction globals "require" (.package .require) self
  modify fun s => { s with preload := preload }

/-- Errors of the host show their text and hide their metatable. -/
def addFailures : Run Unit := do
  let t ← newTable
  setFunction t "__tostring" (.guard .failureText) []
  rawSetText t "__metatable" (.bool false)
  modify fun s => { s with failureMeta := some t }

/-- Fills the empty store. -/
def fill : Run Unit := do
  let globals ← newTable
  let loaded ← newTable
  modify fun s => { s with globals := globals, loaded := loaded }
  setNames globals Library.globals
  rawSetText globals globalsName (.table globals)
  rawSetText globals "_VERSION" (.text "Lua 5.4")
  rawSetText loaded globalsName (.table globals)
  addIterators globals
  addPackage globals loaded
  let _ ← addLibrary globals loaded "coroutine" Library.coroutine
  let _ ← addLibrary globals loaded "table" Library.table
  addFiles globals loaded
  let _ ← addLibrary globals loaded "os" Library.os
  addString globals loaded
  addMath globals loaded
  addUtf8 globals loaded
  addFailures

/-- The empty store of a state. -/
def bare (around : Surroundings) : Store := { files := around.files, chance := around.chance }

def store (around : Surroundings) : Store :=
  match fill (bare around) with
  | .done () s => s
  | .raise _ s => s
  | .ask _ s _ => s

end Enclosure.Lua.Fresh
