import Enclosure.Lua.Grammar
import Enclosure.Lua.Value
import Enclosure.Number.Digits

/-!
# Arithmetic

Operations on numbers of both kinds. Sums, differences and products of two integers wrap around;
division and powers are done on doubles; `//` and `%` round to the floor. An integer and a double are
compared exactly.
-/

namespace Enclosure.Lua

/-- Why two numbers have no result. -/
inductive ArithmeticDefect
  | divisionByZero
  | remainderByZero
  deriving DecidableEq

def ArithmeticDefect.message : ArithmeticDefect → String
  | .divisionByZero => "attempt to divide by zero"
  | .remainderByZero => "attempt to perform 'n%0'"

namespace Arithmetic

/-- `x` shifted to the left, or to the right if `n` is negative; zeros come in from both sides. -/
def shiftLeft (x n : Int64) : Int64 :=
  let k := n.toInt
  let bits := x.toUInt64
  if k ≤ -64 || 64 ≤ k then 0
  else if k < 0 then (bits >>> (UInt64.ofNat (-k).toNat)).toInt64
  else (bits <<< (UInt64.ofNat k.toNat)).toInt64

/-- An operation on integers that has an integer result. -/
def onInts (op : BinaryOp) (a b : Int64) : Except ArithmeticDefect Int64 :=
  match op with
  | .add => .ok (a + b)
  | .sub => .ok (a - b)
  | .mul => .ok (a * b)
  | .idiv =>
    if b == 0 then .error .divisionByZero else .ok (Int64.ofInt (Int.fdiv a.toInt b.toInt))
  | .mod =>
    if b == 0 then .error .remainderByZero else .ok (Int64.ofInt (Int.fmod a.toInt b.toInt))
  | .bitAnd => .ok (a &&& b)
  | .bitOr => .ok (a ||| b)
  | .bitXor => .ok (a ^^^ b)
  | .shiftLeft => .ok (shiftLeft a b)
  | .shiftRight => .ok (shiftLeft a (if b == Int64.minValue then Int64.maxValue else -b))
  | _ => .ok 0

def onDoubles (op : BinaryOp) (a b : Double) : Double :=
  match op with
  | .add => a.add b
  | .sub => a.sub b
  | .mul => a.mul b
  | .div => a.div b
  | .pow => a.pow b
  | .idiv => a.floorDiv b
  | .mod => a.floorMod b
  | _ => .nan

/-- Whether an operation is always done on doubles. -/
def wantsDoubles : BinaryOp → Bool
  | .div | .pow => true
  | _ => false

def isBitwise : BinaryOp → Bool
  | .bitAnd | .bitOr | .bitXor | .shiftLeft | .shiftRight => true
  | _ => false

/-- An arithmetic operation that is not bitwise. -/
def apply (op : BinaryOp) (a b : Numeral) : Except ArithmeticDefect Numeral :=
  match a, b with
  | .int x, .int y =>
    if wantsDoubles op then .ok (.float (onDoubles op (Double.ofInt64 x) (Double.ofInt64 y)))
    else (onInts op x y).map .int
  | a, b => .ok (.float (onDoubles op a.toDouble b.toDouble))

def negate : Numeral → Numeral
  | .int n => .int (-n)
  | .float d => .float d.neg

/-- How an integer compares with a double that is a number. -/
def compareExact (n : Int) (d : Double) : Ordering :=
  if d.isInfinite then (if d.isNeg then .gt else .lt)
  else
    let (m, e) := d.decode
    let m : Int := if d.isNeg then -(m : Int) else m
    if e ≥ 0 then compare n (m * Int.pow 2 e.toNat) else compare (n * Int.pow 2 (-e).toNat) m

def less (a b : Numeral) : Bool :=
  match a, b with
  | .int x, .int y => x < y
  | .float x, .float y => x.lt y
  | .int x, .float y => !y.isNan && compareExact x.toInt y == .lt
  | .float x, .int y => !x.isNan && compareExact y.toInt x == .gt

def lessEq (a b : Numeral) : Bool :=
  match a, b with
  | .int x, .int y => x ≤ y
  | .float x, .float y => x.le y
  | .int x, .float y => !y.isNan && compareExact x.toInt y != .gt
  | .float x, .int y => !x.isNan && compareExact y.toInt x != .lt

/-- Fourteen significant digits; a double without a fraction shows that it is one. -/
def doubleText (d : Double) : String :=
  let sign := if d.isNeg then "-" else ""
  if d.isFinite then
    let s := Digits.general 14 false false d.abs
    if s.all Char.isDigit then sign ++ s ++ ".0" else sign ++ s
  else sign ++ Digits.notFinite false d

def numeralText : Numeral → String
  | .int n => toString n.toInt
  | .float d => doubleText d

end Arithmetic

/-- The bytes of a string or a number; other values have none. -/
def Value.bytes? : Value → Option Bytes
  | .str s => some s
  | .int n => some (Bytes.ofText (Arithmetic.numeralText (.int n)))
  | .float d => some (Bytes.ofText (Arithmetic.numeralText (.float d)))
  | _ => none

end Enclosure.Lua
