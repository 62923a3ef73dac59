import Enclosure.Calendar
import Enclosure.Lua.Library.Argument
import Enclosure.Text.Utf8

/-!
# The library `os`

Times are in universal time. There is no environment and no shell: no variable is set and no command can
be run.
-/

namespace Enclosure.Lua.Library.System

open Run

def now : Run Int64 := draw (Chance.ask (·.time))

def textOf (s : String) : Value := .text s

/-! ## Dates as tables -/

/-- A field of a date; `fallback` stands for a missing one. What is given is reduced by `base`. -/
def dateField (t : Value) (name : String) (fallback : Option Int) (base : Int) : Run Int := do
  let v ← Operation.index .library none t (.text name)
  match v.toNumeral?.bind Numeral.toInt64? with
  | some n =>
    let n := n.toInt
    let fits := if 0 ≤ n then n - base ≤ 2147483647 else -2147483648 + base ≤ n
    if !fits then fail ("field '" ++ name ++ "' is out-of-bound")
    return n - base
  | none =>
    if !v.isNil then fail ("field '" ++ name ++ "' is not an integer")
    match fallback with
    | some d => return d
    | none => fail ("field '" ++ name ++ "' missing in date table")

def setDate (t : TableId) (d : Date) : Run Unit := do
  let put (k : String) (n : Int) : Run Unit := rawSetText t k (.int (Int64.ofInt n))
  put "year" d.year
  put "month" d.month
  put "day" d.day
  put "hour" d.hour
  put "min" d.minute
  put "sec" d.second
  put "yday" (d.yearday + 1)
  put "wday" (d.weekday + 1)
  rawSetText t "isdst" (.bool false)

def time (args : Args) : Run (List Value) := do
  if args.absent 1 then return [.int (← now)]
  let t ← args.table 1
  let v := Value.table t
  let year ← dateField v "year" none 1900
  let month ← dateField v "month" none 1
  let day ← dateField v "day" none 0
  let hour ← dateField v "hour" (some 12) 0
  let minute ← dateField v "min" (some 0) 0
  let second ← dateField v "sec" (some 0) 0
  let s := Date.seconds (year + 1900) month day hour minute second
  setDate t (Date.ofSeconds s)
  return [.int (Int64.ofInt s)]

/-! ## Dates as text -/

def conversions : String := "aAbBcCdDeFgGhHIjmMnprRStTuUVwWxXyYzZ%"
def eraConversions : String := "cCxXyY"
def digitConversions : String := "deHImMSuUVwWy"

def failConversion {α : Type} (text : List UInt8) : Run α :=
  throw (.argument 1 (Bytes.ofText "invalid conversion specifier '%" ++ Bytes.ofList text
    ++ Bytes.ofText "'"))

def charOf (b : UInt8) : Char := Char.ofNat b.toNat

def dateText (d : Date) (zone : String) : List UInt8 → Run Bytes
  | [] => pure .empty
  | 37 :: e :: rest => do
    let c := charOf e
    if c == 'E' || c == 'O' then
      match rest with
      | b :: rest' =>
        let allowed := if c == 'E' then eraConversions else digitConversions
        if allowed.contains (charOf b) then
          let piece := (d.field zone (charOf b)).getD ""
          return Bytes.ofText piece ++ (← dateText d zone rest')
        else failConversion [e, b]
      | [] => failConversion [e]
    else if conversions.contains c then
      return Bytes.ofText ((d.field zone c).getD "") ++ (← dateText d zone rest)
    else failConversion [e]
  | [37] => failConversion []
  | b :: rest => do return Bytes.singleton b ++ (← dateText d zone rest)

def date (args : Args) : Run (List Value) := do
  let f ← args.stringOr 1 (Bytes.ofText "%c")
  let t := (← (if args.absent 2 then now else args.integer 2)).toInt
  let utc := f.at0 0 == 33 && 0 < f.size
  let f := if utc then f.drop 1 else f
  if !(-67768040609740800 ≤ t && t ≤ 67768036191676799) then
    fail "date result cannot be represented in this installation"
  let d := Date.ofSeconds t
  if f.hasAt (Bytes.ofText "*t") 0 then
    let table ← newTable
    setDate table d
    return [.table table]
  return [.str (← dateText d (if utc then "GMT" else "UTC") f.asList)]

/-! ## Files -/

/-- What a function answers that could not do its work. -/
def failed (path : Bytes) (e : FileError) : List Value :=
  [.nil, .str (path ++ Bytes.ofText (": " ++ e.short.1)), .nat e.short.2]

def remove (args : Args) : Run (List Value) := do
  let path ← args.string 1
  match ← read fun s => s.files.remove path.textLossy with
  | .error e => return failed path e
  | .ok fs =>
    modify fun s => { s with files := fs }
    return [.bool true]

def rename (args : Args) : Run (List Value) := do
  let source ← args.string 1
  let target ← args.string 2
  let moved ← read fun s => do
    let content ← s.files.read source.textLossy
    let fs ← s.files.remove source.textLossy
    fs.write target.textLossy content
  match moved with
  | .error e => return failed source e
  | .ok fs =>
    modify fun s => { s with files := fs }
    return [.bool true]

def run (f : OsFunction) (args : Args) : Run (List Value) := do
  match f with
  | .clock => return [.float (← draw (Chance.ask (·.work)))]
  | .date => date args
  | .difftime =>
    let a ← args.integer 1
    let b ← args.integer 2
    return [.float (Double.ofInt (a.toInt - b.toInt))]
  | .execute =>
    if args.absent 1 then return [.bool false]
    let _ ← args.string 1
    return [.nil, textOf "exit", .int 127]
  | .exit =>
    match args.arg 1 with
    | .bool _ => throw .exhausted
    | _ =>
      let _ ← args.integerOr 1 0
      throw .exhausted
  | .getenv =>
    let _ ← args.string 1
    return [.nil]
  | .remove => remove args
  | .rename => rename args
  | .setLocale =>
    let name ← args.stringOr 1 (Bytes.ofText "C")
    let _ ← args.option 2 ["all", "collate", "ctype", "monetary", "numeric", "time"]
    let known := name.size == 0 || name == Bytes.ofText "C" || name == Bytes.ofText "POSIX"
    return [if known then textOf "C" else .nil]
  | .time => time args
  | .tmpName => return [textOf "/tmp/lua_000000"]

end Enclosure.Lua.Library.System
