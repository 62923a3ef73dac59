import Enclosure.Lua.Chunk
import Enclosure.Lua.Library.Argument

/-!
# The global functions

`print` writes to the standard output, which nobody reads here; it still asks for the text of every
argument. The functions that hand out an iterator hold it as a value of their own.
-/

namespace Enclosure.Lua.Library.Base

open Run

/-- How deep calls may be taken to be when a source is read from a script. -/
def readingNesting : Nat := 1

/-- Raises a value; a string gets the position of the function active at the level. -/
def raise {α : Type} (v : Value) (level : Int64) : Run α :=
  match v with
  | .str s => if 0 < level then throw (.located level.toInt.toNat s) else throw (.value v)
  | _ => throw (.value v)

def assert (args : Args) : Run (List Value) := do
  let v ← args.any 1
  if v.truthy then return args
  raise (args.getD 1 (.text "assertion failed!")) 1

def collectGarbage (args : Args) : Run (List Value) := do
  let o ← args.option 1
    ["collect", "stop", "restart", "count", "step", "setpause", "setstepmul", "isrunning",
     "generational", "incremental"]
  match o with
  | "count" => return [.float (Double.ofInt 64)]
  | "step" | "isrunning" => return [.bool true]
  | "generational" | "incremental" => return [.text "incremental"]
  | _ => return [.int 0]

/-- What loading answers: the function, or nil and the message. -/
def loaded (r : Except Chunk.LoadError Value) : List Value :=
  match r with
  | .ok f => [f]
  | .error e => [.nil, .str e.message]

/-- The table of globals unless another value is given in its place. -/
def environment (args : Args) (n : Nat) : Run Value :=
  match args.get? n with
  | some v => pure v
  | none => read fun s => .table s.globals

def load (args : Args) : Run (List Value) := do
  let mode ← args.stringOr 3 (Bytes.ofText "bt")
  let env ← environment args 4
  match (args.arg 1).bytes? with
  | some source =>
    let name ← args.stringOr 2 source
    return loaded (← Chunk.load source name mode env readingNesting)
  | none =>
    let name ← args.stringOr 2 (Bytes.ofText "=(load)")
    let reader ← args.function 1
    match ← protectedPieces reader with
    | .ok source => return loaded (← Chunk.load source name mode env readingNesting)
    | .error e => return [.nil, e]
where
  /-- The pieces, or the error of the reader. -/
  protectedPieces (reader : Value) : Run (Except Value Bytes) := do
    loopWith (Bytes.ofText "") fun acc => do
      match ← ask (.protectedCall reader [] none) with
      | .bool true :: rest =>
        match first rest with
        | .nil => return .inr (.ok acc)
        | v =>
          match v.bytes? with
          | some b => if b.size == 0 then return .inr (.ok acc) else return .inl (acc ++ b)
          | none => return .inr (.error (.text "reader function must return a string"))
      | answer => return .inr (.error (first answer.tail))

def loadFile (args : Args) : Run (List Value) := do
  let mode ← args.stringOr 2 (Bytes.ofText "bt")
  let env ← environment args 3
  if args.absent 1 then
    return loaded (← Chunk.load .empty (Bytes.ofText "=stdin") mode env readingNesting)
  let path ← args.string 1
  return loaded (← Chunk.loadFile path mode env readingNesting)

def doFile (args : Args) : Run (List Value) := do
  let env ← read fun s => Value.table s.globals
  let mode := Bytes.ofText "bt"
  let r ←
    if args.absent 1 then Chunk.load .empty (Bytes.ofText "=stdin") mode env readingNesting
    else Chunk.loadFile (← args.string 1) mode env readingNesting
  match r with
  | .ok f => call f [] { passable := true }
  | .error e => throw (.value (.str e.message))

def getMetatable (args : Args) : Run (List Value) := do
  let v ← args.any 1
  match ← metatable v with
  | none => return [.nil]
  | some m =>
    let shown ← rawGetText m "__metatable"
    return [if shown.isNil then .table m else shown]

def setMetatable (args : Args) : Run (List Value) := do
  let t ← args.table 1
  let m ←
    match args.get? 2 with
    | some .nil => pure none
    | some (.table m) => pure (some m)
    | _ => args.failType 2 "nil or table"
  let shown ← metamethod (.table t) "__metatable"
  if !shown.isNil then fail "cannot change a protected metatable"
  Run.setMetatable t m
  return [.table t]

def next (args : Args) : Run (List Value) := do
  let t ← args.table 1
  match ← read fun s => (s.table t).next (args.arg 2) with
  | .entry k v => return [k, v]
  | .done => return [.nil]
  | .unknownKey => failPlain "invalid key to 'next'"

/-- The function held by an iterating function. -/
def held (captured : Array Value) : Value := captured.getD 0 .nil

def pairs (captured : Array Value) (args : Args) : Run (List Value) := do
  let v ← args.any 1
  let h ← metamethod v "__pairs"
  if h.isNil then return [held captured, v, .nil]
  let vs ← call h [v] { passable := true }
  return [first vs, first (vs.drop 1), first (vs.drop 2)]

def ipairs (captured : Array Value) (args : Args) : Run (List Value) := do
  let v ← args.any 1
  return [held captured, v, .int 0]

def ipairsStep (args : Args) : Run (List Value) := do
  let i ← args.integer 2
  let i := i + 1
  let v ← Operation.index .library none (args.arg 1) (.int i)
  return if v.isNil then [.nil] else [.int i, v]

def rawLen (args : Args) : Run (List Value) := do
  match args.arg 1 with
  | .table t => return [.nat (← rawLength t)]
  | .str s => return [.nat s.size]
  | _ => args.failType 1 "table or string"

def select (args : Args) : Run (List Value) := do
  let rest := args.drop 1
  let all ← pure <|
    match args.arg 1 with
    | .str s => s.at0 0 == 35 && s.size > 0
    | _ => false
  if all then return [.nat rest.length]
  let i := (← args.integer 1).toInt
  if i < 0 then
    let start := (rest.length : Int) + i
    if start < 0 then badArgument 1 "index out of range"
    return rest.drop start.toNat
  if i == 0 then badArgument 1 "index out of range"
  return rest.drop (i - 1).toNat

/-- The value of a digit or letter, whichever base it is meant for. -/
def digit? (b : UInt8) : Option Nat := if Ascii.isAlnum b then some (Ascii.digitValue b) else none

/-- The digits in front of a text in a base, wrapping around. -/
def takeInBase (base : Nat) : List UInt8 → Nat → Option (Nat × List UInt8)
  | [], value => some (value, [])
  | b :: r, value =>
    match digit? b with
    | some d => if d < base then takeInBase base r (value * base + d) else none
    | none => some (value, b :: r)

/-- The whole text as an integer in a base. -/
def numberInBase (base : Nat) (s : Bytes) : Option Int64 :=
  let bs := s.asList.dropWhile Ascii.isSpace
  let (negative, bs) :=
    match bs with
    | 45 :: r => (true, r)
    | r => (false, r)
  match bs with
  | b :: _ =>
    if Ascii.isAlnum b then
      match takeInBase base bs 0 with
      | some (value, rest) =>
        if (rest.dropWhile Ascii.isSpace).isEmpty then
          some (Int64.ofInt (if negative then -(value : Int) else value))
        else none
      | none => none
    else none
  | [] => none

def toNumber (args : Args) : Run (List Value) := do
  if args.absent 2 then
    match ← args.any 1 with
    | .str s => return [((Numeral.ofBytes? s).map Value.number).getD .nil]
    | .int n => return [.int n]
    | .float d => return [.float d]
    | _ => return [.nil]
  else
    let base := (← args.integer 2).toInt
    match args.arg 1 with
    | .str s =>
      if base < 2 || 36 < base then badArgument 2 "base out of range"
      return [((numberInBase base.toNat s).map Value.int).getD .nil]
    | _ => args.failType 1 "string"

def xpcall (args : Args) : Run (List Value) := do
  let handler ← args.function 2
  ask (.protectedCall (args.arg 1) (args.drop 2) (some handler) true)

def texts : List Value → Run (List Bytes)
  | [] => pure []
  | v :: vs => do
    let t ← Operation.text v
    let ts ← texts vs
    return t :: ts

def run (f : BaseFunction) (captured : Array Value) (args : Args) : Run (List Value) := do
  match f with
  | .assert => assert args
  | .collectGarbage => collectGarbage args
  | .doFile => doFile args
  | .error => raise (args.arg 1) (← args.integerOr 2 1)
  | .getMetatable => getMetatable args
  | .ipairs => ipairs captured args
  | .ipairsStep => ipairsStep args
  | .load => load args
  | .loadFile => loadFile args
  | .next => next args
  | .pairs => pairs captured args
  | .pcall =>
    let f ← args.any 1
    ask (.protectedCall f (args.drop 1) none true)
  | .print =>
    let _ ← texts args
    return []
  | .rawEqual =>
    let a ← args.any 1
    let b ← args.any 2
    return [.bool (a.rawEq b)]
  | .rawGet =>
    let t ← args.table 1
    let k ← args.any 2
    return [← rawGet t k]
  | .rawLen => rawLen args
  | .rawSet =>
    let t ← args.table 1
    let k ← args.any 2
    let v ← args.any 3
    Operation.rawSet .library t k v
    return [.table t]
  | .select => select args
  | .setMetatable => setMetatable args
  | .toNumber => toNumber args
  | .toString => return [.str (← Operation.text (← args.any 1))]
  | .type => return [.text (← args.any 1).typeName]
  | .warn =>
    let _ ← args.string 1
    for n in List.range args.length do
      let _ ← args.string (n + 1)
    return []
  | .xpcall => xpcall args

end Enclosure.Lua.Library.Base
