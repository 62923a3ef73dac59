import Enclosure.Lua.Library.Argument
import Enclosure.Text.Utf8

/-!
# The library `io`

A file object holds the content of its file and a place in it; what is written goes to the file at
once. The standard input is empty and what is written to the standard output is lost.
-/

namespace Enclosure.Lua.Library.Stream

open Run

def ofText := Bytes.ofText

/-! ## File objects -/

def handle (o : ObjectId) : Run FileHandle := do
  match ← read (·.object o) with
  | .file f => return f
  | .failure _ => return { closed := true }

def setHandle (o : ObjectId) (f : FileHandle) : Run Unit :=
  modify fun s => { s with objects := s.objects.setIfInBounds o.index (.file f) }

/-- The argument as a file object, open or closed. -/
def anyFile (args : Args) (n : Nat) : Run ObjectId := do
  match args.arg n with
  | .object o =>
    match ← read (·.object o) with
    | .file _ => return o
    | .failure _ => args.failType n "FILE*"
  | _ => args.failType n "FILE*"

def openFile (args : Args) (n : Nat) : Run ObjectId := do
  let o ← anyFile args n
  if (← handle o).closed then fail "attempt to use a closed file"
  return o

def defaultFile (o : Option ObjectId) (name : String) : Run ObjectId := do
  match o with
  | some o =>
    if (← handle o).closed then fail ("default " ++ name ++ " file is closed")
    return o
  | none => fail ("default " ++ name ++ " file is closed")

def failed (path : Bytes) (e : FileError) : Bytes × Nat :=
  (path ++ ofText (": " ++ e.short.1), e.short.2)

/-- Where a file has to be there, its absence is an error. -/
def cannotOpen {α : Type} (path : Bytes) (e : FileError) : Run α :=
  failBytes (ofText "cannot open file '" ++ path ++ ofText ("' (" ++ e.short.1 ++ ")"))

def isMode (m : Bytes) : Bool :=
  match m.asList with
  | b :: rest =>
    (b == 114 || b == 119 || b == 97) &&
      (let rest := if rest.head? == some 43 then rest.drop 1 else rest
       rest.isEmpty || rest == [98])
  | [] => false

/-- Opens a file; or says why not. -/
def openPath (path mode : Bytes) : Run (Except FileError ObjectId) := do
  let kind := mode.at0 0
  let both := mode.asList.contains 43
  let name := path.textLossy
  let content ← read fun s => s.files.read name
  let started : Except FileError Bytes :=
    match kind, content with
    | 114, .ok b => .ok b
    | 114, .error e => .error e
    | 97, .ok b => .ok b
    | _, .error .isDirectory => .error .isDirectory
    | _, _ => .ok .empty
  match started with
  | .error e => return .error e
  | .ok b =>
    let f : FileHandle :=
      { path := some name, content := b, readable := kind == 114 || both,
        writable := kind != 114 || both, appends := kind == 97 }
    if kind == 114 then return .ok (← step (·.newObject (.file f)))
    match ← read fun s => s.files.write name b with
    | .error e => return .error e
    | .ok fs =>
      modify fun s => { s with files := fs }
      return .ok (← step (·.newObject (.file f)))

def answerFailure (e : Bytes × Nat) : List Value := [.nil, .str e.1, .nat e.2]

def badDescriptor : List Value := [.nil, .text "Bad file descriptor", .int 9]

/-- Closes a file; a standard stream stays open. -/
def closeObject (o : ObjectId) : Run (List Value) := do
  let f ← handle o
  let standard ← read fun s => s.input == some o || s.standardOutput == some o
  if standard && f.path.isNone then return [.nil, .text "cannot close standard file"]
  setHandle o { f with closed := true }
  return [.bool true]

/-! ## Reading -/

/-- The next line, with its end if `keep`. -/
def readLine (f : FileHandle) (keep : Bool) : Option (Value × FileHandle) :=
  if f.content.size ≤ f.position then none
  else
    let rest := f.content.drop f.position
    match rest.find? (Bytes.singleton 10) 0 with
    | some i =>
      some (.str (rest.take (if keep then i + 1 else i)), { f with position := f.position + i + 1 })
    | none => some (.str rest, { f with position := f.content.size })

/-- At most so many bytes; none at the end of the file. -/
def readBytes (f : FileHandle) (n : Nat) : Option (Value × FileHandle) :=
  if f.content.size ≤ f.position then none
  else
    let b := f.content.slice f.position (f.position + n)
    some (.str b, { f with position := f.position + b.size })

def isNumberByte (b : UInt8) : Bool := Ascii.isAlnum b || b == 43 || b == 45 || b == 46

/-- A number in front, blanks before it skipped. -/
def readNumber (f : FileHandle) : Option (Value × FileHandle) :=
  let rest := (f.content.drop f.position).asList
  let blanks := rest.takeWhile Ascii.isSpace
  let text := ((rest.drop blanks.length).takeWhile isNumberByte).take 200
  let f := { f with position := f.position + blanks.length + text.length }
  (Numeral.ofBytes? (Bytes.ofList text)).map fun x => (.number x, f)

/-- What one format reads; nothing at the end of the file. -/
def readFormat (f : FileHandle) (args : Args) (n : Nat) : Run (Option (Value × FileHandle)) := do
  match args.arg n with
  | .int k =>
    if k == 0 then
      return if f.content.size ≤ f.position then none else some (.str .empty, f)
    return readBytes f k.toInt.toNat
  | .float d => return readBytes f ((d.toInt64?.map (·.toInt.toNat)).getD 0)
  | v =>
    let text := (v.bytes?.getD .empty)
    let text := if text.at0 0 == 42 && 0 < text.size then text.drop 1 else text
    match Char.ofNat (text.at0 0).toNat with
    | 'n' => return readNumber f
    | 'l' => return readLine f false
    | 'L' => return readLine f true
    | 'a' =>
      return some (.str (f.content.drop f.position), { f with position := max f.position f.content.size })
    | _ => badArgument n "invalid format"

/-- What the formats from the argument numbered `n` on read, up to the first that finds nothing. -/
def readFormats (o : ObjectId) (args : Args) : Nat → Nat → Run (List Value)
  | 0, _ => pure []
  | count + 1, n => do
    match ← readFormat (← handle o) args n with
    | some (v, f) =>
      setHandle o f
      return v :: (← readFormats o args count (n + 1))
    | none => return [.nil]

/-- Reads by the formats from the argument numbered `n` on, or a line if there are none. -/
def readAll (o : ObjectId) (args : Args) (n : Nat) : Run (List Value) := do
  let f ← handle o
  if !f.readable then return badDescriptor
  if args.length < n then
    match readLine f false with
    | some (v, f) =>
      setHandle o f
      return [v]
    | none => return [.nil]
  readFormats o args (args.length + 1 - n) n

/-- An iterator over a file: the file and whether to close it at the end, then the formats. -/
def linesOf (o : ObjectId) (close : Bool) (formats : List Value) : Run Value :=
  newBuiltin (.files .linesStep) (.object o :: .bool close :: formats)

def linesStep (captured : Array Value) : Run (List Value) := do
  match captured.toList with
  | .object o :: close :: formats =>
    if (← handle o).closed then fail "file is already closed"
    let vs ← readAll o formats 1
    if !(first vs).isNil then return vs
    if close.truthy then
      let _ ← closeObject o
    return []
  | _ => return []

/-! ## Writing -/

/-- The content with bytes put in at a place, over what was there. -/
def overwrite (content : Bytes) (place : Nat) (b : Bytes) : Bytes :=
  content.take place ++ Bytes.replicate (place - content.size) 0 ++ b
    ++ content.drop (place + b.size)

def writeBytes (o : ObjectId) (b : Bytes) : Run Bool := do
  let f ← handle o
  if !f.writable then return false
  let place := if f.appends then f.content.size else f.position
  match f.path with
  | none => return true
  | some path =>
    let content := overwrite f.content place b
    setHandle o { f with content, position := place + b.size }
    match ← read fun s => s.files.write path content with
    | .ok fs =>
      modify fun s => { s with files := fs }
      return true
    | .error _ => return true

def writeArgs (o : ObjectId) (args : Args) : Nat → Nat → Run (List Value)
  | 0, _ => pure [.object o]
  | count + 1, n => do
    let b ← args.string n
    if ← writeBytes o b then writeArgs o args count (n + 1) else return badDescriptor

/-! ## The functions -/

def openArgs (args : Args) : Run (List Value) := do
  let path ← args.string 1
  let mode ← args.stringOr 2 (ofText "r")
  if !isMode mode then badArgument 2 "invalid mode"
  match ← openPath path mode with
  | .ok o => return [.object o]
  | .error e => return answerFailure (failed path e)

/-- Answers a default file, or makes another one the default. -/
def defaultArgs (args : Args) (mode : String) (get : Store → Option ObjectId)
    (set : Store → Option ObjectId → Store) : Run (List Value) := do
  if !args.absent 1 then
    match (args.arg 1).bytes? with
    | some path =>
      match ← openPath path (ofText mode) with
      | .ok o => modify fun s => set s (some o)
      | .error e => cannotOpen path e
    | none =>
      let o ← anyFile args 1
      modify fun s => set s (some o)
  match ← read get with
  | some o => return [.object o]
  | none => return [.nil]

def lines (args : Args) : Run (List Value) := do
  if args.absent 1 then
    let o ← defaultFile (← read (·.input)) "input"
    return [← linesOf o false (args.drop 1)]
  let path ← args.string 1
  match ← openPath path (ofText "r") with
  | .ok o => return [← linesOf o true (args.drop 1), .nil, .nil, .object o]
  | .error e => cannotOpen path e

def typeOf (args : Args) : Run (List Value) := do
  match ← args.any 1 with
  | .object o =>
    match ← read (·.object o) with
    | .file f => return [.text (if f.closed then "closed file" else "file")]
    | .failure _ => return [.nil]
  | _ => return [.nil]

def seek (args : Args) : Run (List Value) := do
  let o ← openFile args 1
  let whence ← args.option 2 ["cur", "set", "end"]
  let offset := (← args.integerOr 3 0).toInt
  let f ← handle o
  let base : Nat :=
    match whence with
    | "set" => 0
    | "end" => f.content.size
    | _ => f.position
  let place := (base : Int) + offset
  if place < 0 then return [.nil, .text "Invalid argument", .int 22]
  setHandle o { f with position := place.toNat }
  return [.int (Int64.ofInt place)]

def fileText (args : Args) : Run (List Value) := do
  let o ← anyFile args 1
  if (← handle o).closed then return [.text "file (closed)"]
  return [.str (ofText "file (" ++ Operation.addressOf (.object o) ++ ofText ")")]

def run (f : IoFunction) (captured : Array Value) (args : Args) : Run (List Value) := do
  match f with
  | .close =>
    if args.isEmpty then closeObject (← defaultFile (← read (·.standardOutput)) "output")
    else closeObject (← openFile args 1)
  | .flush =>
    let _ ← defaultFile (← read (·.standardOutput)) "output"
    return [.bool true]
  | .input => defaultArgs args "r" (·.input) fun s o => { s with input := o }
  | .lines => lines args
  | .linesStep => linesStep captured
  | .open => openArgs args
  | .output => defaultArgs args "w" (·.standardOutput) fun s o => { s with standardOutput := o }
  | .popen =>
    let command ← args.string 1
    return [.nil, .str (command ++ ofText ": Function not implemented"), .int 38]
  | .read => readAll (← defaultFile (← read (·.input)) "input") args 1
  | .tmpFile =>
    return [← newObject (.file { readable := true, writable := true })]
  | .type => typeOf args
  | .write =>
    let o ← defaultFile (← read (·.standardOutput)) "output"
    writeArgs o args args.length 1
  | .fileClose => closeObject (← openFile args 1)
  | .fileFinish =>
    let o ← anyFile args 1
    if !(← handle o).closed then
      let _ ← closeObject o
    return []
  | .fileFlush =>
    let _ ← openFile args 1
    return [.bool true]
  | .fileLines => return [← linesOf (← openFile args 1) false (args.drop 1)]
  | .fileRead => readAll (← openFile args 1) args 2
  | .fileSeek => seek args
  | .fileSetBuffer =>
    let _ ← openFile args 1
    let _ ← args.option 2 ["no", "full", "line"]
    return [.bool true]
  | .fileWrite =>
    let o ← openFile args 1
    writeArgs o args (args.length - 1) 2
  | .fileText => fileText args

end Enclosure.Lua.Library.Stream
