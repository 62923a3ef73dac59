import Enclosure.Lua.Failure

/-!
# Results

The types in which the host takes the results of scripts, and how values become them: surplus results
are dropped, missing ones are nil. Numbers may be spelled by strings and strings by numbers; a float
that is wanted as an integer loses its fraction.
-/

namespace Enclosure.Lua

/-- A type that a single value can become. -/
class OfValue (α : Type) where
  ofValue : Store → Value → Except Failure α

/-- A type that the results of a call can become. -/
class OfResults (α : Type) where
  ofResults : Store → List Value → Except Failure α

namespace Result

def failed {α : Type} (v : Value) (target : String) (why : Option String) : Except Failure α :=
  .error (.conversion v.fineTypeName target why)

/-- A double without its fraction. -/
def truncate? (d : Double) : Option Int :=
  if d.isFinite then
    let (m, e) := d.decode
    let n : Int := if e ≥ 0 then m <<< e.toNat else m >>> (-e).toNat
    some (if d.isNeg then -n else n)
  else none

/-- The integer that a number is, or that is left of it. -/
def wholeOf : Numeral → Option Int
  | .int n => some n.toInt
  | .float d =>
    match d.toInt64? with
    | some n => some n.toInt
    | none => truncate? d

/-- A value as an integer between two bounds. -/
def bounded (target : String) (low high : Int) (v : Value) : Except Failure Int :=
  match v.toNumeral? with
  | none => failed v target (some "expected number or string coercible to number")
  | some x =>
    match wholeOf x with
    | some n => if low ≤ n && n ≤ high then .ok n else failed v target (some "out of range")
    | none => failed v target (some "out of range")

def int64 (v : Value) : Except Failure Int64 := do
  return Int64.ofInt (← bounded "i64" (-Int.pow 2 63) (Int.pow 2 63 - 1) v)

def uint8 (v : Value) : Except Failure UInt8 := do
  return UInt8.ofNat (← bounded "u8" 0 255 v).toNat

def double (v : Value) : Except Failure Double :=
  match v.toNumeral? with
  | some x => .ok x.toDouble
  | none => failed v "f64" (some "expected number or string coercible to number")

def bytes (target : String) (v : Value) : Except Failure Bytes :=
  match v.bytes? with
  | some b => .ok b
  | none => failed v target (some "expected string or number")

def string (v : Value) : Except Failure String := do
  let b ← bytes "String" v
  match b.text with
  | .ok s => return s
  | .error d => failed v "String" (some d.message)

def table (v : Value) : Except Failure TableId :=
  match v with
  | .table t => .ok t
  | _ => failed v "table" none

/-- The values at `i`, `i + 1`, and so on up to the first that is missing. -/
def sequence (t : Table) : Nat → Nat → List Value
  | 0, _ => []
  | fuel + 1, i =>
    let v := t.getInt i
    if v.isNil then [] else v :: sequence t fuel (i + 1)

def int64s (s : Store) (v : Value) : Except Failure (List Int64) :=
  match v with
  | .table t =>
    let t := s.table t
    (sequence t (t.order.size + 1) 1).mapM int64
  | _ => failed v "Vec<i64>" (some "expected table")

end Result

instance : OfValue Value := ⟨fun _ v => .ok v⟩

instance : OfValue Bool := ⟨fun _ v => .ok v.truthy⟩

instance : OfValue Int64 := ⟨fun _ v => Result.int64 v⟩

instance : OfValue UInt8 := ⟨fun _ v => Result.uint8 v⟩

instance : OfValue Double := ⟨fun _ v => Result.double v⟩

instance : OfValue String := ⟨fun _ v => Result.string v⟩

instance : OfValue Bytes := ⟨fun _ v => Result.bytes "string" v⟩

instance : OfValue TableId := ⟨fun _ v => Result.table v⟩

instance : OfValue (Option String) :=
  ⟨fun _ v => if v.isNil then .ok none else (Result.string v).map some⟩

instance : OfValue (List Int64) := ⟨fun s v => Result.int64s s v⟩

instance {α : Type} [OfValue α] : OfResults α := ⟨fun s vs => OfValue.ofValue s (Run.first vs)⟩

instance : OfResults Unit := ⟨fun _ _ => .ok ()⟩

instance : OfResults (List Value) := ⟨fun _ vs => .ok vs⟩

instance {α β : Type} [OfValue α] [OfValue β] : OfResults (α × β) :=
  ⟨fun s vs => do
    let a ← OfValue.ofValue s (Run.first vs)
    let b ← OfValue.ofValue s (Run.first (vs.drop 1))
    return (a, b)⟩

end Enclosure.Lua
