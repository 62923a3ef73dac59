/-!
# Doubles

A double is kept as its sixty-four bits, so equality of doubles is equality of bits and is
decidable. Arithmetic is IEEE 754 binary64. The one thing the processor decides is the sign of a
NaN: an operand that is one is passed on, the left before the right, and an operation that makes one
out of numbers makes a negative one.
-/

namespace Enclosure

structure Double where
  bits : UInt64
  deriving DecidableEq, Hashable, Inhabited

namespace Double

def ofFloat (f : Float) : Double := ⟨f.toBits⟩

def toFloat (d : Double) : Float := Float.ofBits d.bits

def zero : Double := ⟨0⟩
def one : Double := ⟨0x3FF0000000000000⟩
def infinity : Double := ⟨0x7FF0000000000000⟩
def nan : Double := ⟨0x7FF8000000000000⟩
def negNan : Double := ⟨0xFFF8000000000000⟩

def isNeg (d : Double) : Bool := d.bits >>> 63 == 1

/-- The biased exponent. -/
def exponentField (d : Double) : Nat := ((d.bits >>> 52) &&& 0x7FF).toNat

def fractionField (d : Double) : Nat := (d.bits &&& 0xFFFFFFFFFFFFF).toNat

def isNan (d : Double) : Bool := d.exponentField == 0x7FF && d.fractionField != 0

def isInfinite (d : Double) : Bool := d.exponentField == 0x7FF && d.fractionField == 0

def isFinite (d : Double) : Bool := d.exponentField != 0x7FF

/-- Significand and exponent of a finite double: its absolute value is `m * 2 ^ e`. -/
def decode (d : Double) : Nat × Int :=
  let e := d.exponentField
  if e == 0 then (d.fractionField, -1074)
  else (d.fractionField + Nat.pow 2 52, (e : Int) - 1075)

/-- The sign bit put in front of the bits of an absolute value. -/
def withSign (negative : Bool) (magnitude : UInt64) : Double :=
  ⟨if negative then magnitude ||| 0x8000000000000000 else magnitude⟩

/-- `num / den` to the nearest whole number, a half to the even neighbour. -/
def divEven (num den : Nat) : Nat :=
  let q := num / den
  let r := num % den
  if 2 * r < den then q
  else if den < 2 * r then q + 1
  else q + q % 2

/-- The double nearest to `num / den`, ties to the even significand; past the largest double it is
infinite. Below the normal range the grid stays at `2 ^ (-1074)`. -/
def ofRatio (negative : Bool) (num den : Nat) : Double :=
  if num == 0 then withSign negative 0
  else
    -- the exponent `e` of the grid: num / den lies in [2 ^ (e + 52), 2 ^ (e + 53))
    let guess : Int := (num.log2 : Int) - (den.log2 : Int) - 52
    let scaled (e : Int) : Nat × Nat :=
      if e ≥ 0 then (num, den <<< e.toNat) else (num <<< (-e).toNat, den)
    let e :=
      let (n, m) := scaled guess
      if n < m <<< 52 then guess - 1 else guess
    let e := if e < -1074 then -1074 else e
    let (n, m) := scaled e
    let q := divEven n m
    let (q, e) := if q == Nat.pow 2 53 then (Nat.pow 2 52, e + 1) else (q, e)
    if e > 971 then withSign negative infinity.bits
    else if q < Nat.pow 2 52 then withSign negative q.toUInt64
    else withSign negative ((((e + 1075).toNat) <<< 52) + (q - Nat.pow 2 52)).toUInt64

/-- The double nearest to `m * 2 ^ e`. -/
def ofScaled (negative : Bool) (m : Nat) (e : Int) : Double :=
  if e ≥ 0 then ofRatio negative (m <<< e.toNat) 1 else ofRatio negative m (1 <<< (-e).toNat)

def ofInt (n : Int) : Double := ofRatio (n < 0) n.natAbs 1

def ofInt64 (n : Int64) : Double := ofFloat n.toFloat

/-- The result of an operation with the sign its NaN has, if it is one. -/
def settle1 (a : Double) (r : Float) : Double :=
  if r.isNaN then (if a.isNan then a else negNan) else ofFloat r

def settle2 (a b : Double) (r : Float) : Double :=
  if r.isNaN then (if a.isNan then a else if b.isNan then b else negNan) else ofFloat r

def add (a b : Double) : Double := settle2 a b (a.toFloat + b.toFloat)
def sub (a b : Double) : Double := settle2 a b (a.toFloat - b.toFloat)
def mul (a b : Double) : Double := settle2 a b (a.toFloat * b.toFloat)
def div (a b : Double) : Double := settle2 a b (a.toFloat / b.toFloat)

/-- Negation flips the sign bit of anything, a NaN too. -/
def neg (a : Double) : Double := ⟨a.bits ^^^ 0x8000000000000000⟩

def abs (a : Double) : Double := ⟨a.bits &&& 0x7FFFFFFFFFFFFFFF⟩

def beq (a b : Double) : Bool := a.toFloat == b.toFloat
def lt (a b : Double) : Bool := a.toFloat < b.toFloat
def le (a b : Double) : Bool := a.toFloat ≤ b.toFloat

def floor (a : Double) : Double := if a.isNan then a else ofFloat a.toFloat.floor
def ceil (a : Double) : Double := if a.isNan then a else ofFloat a.toFloat.ceil
def sqrt (a : Double) : Double := settle1 a a.toFloat.sqrt

/-- The remainder of truncating division, exactly; it has the sign of the dividend. -/
def fmod (a b : Double) : Double :=
  if a.isNan then a
  else if b.isNan then b
  else if a.isInfinite || b.abs == zero then negNan
  else if b.isInfinite || a.abs == zero then a
  else
    let (ma, ea) := a.decode
    let (mb, eb) := b.decode
    let e := min ea eb
    let x := ma <<< (ea - e).toNat
    let y := mb <<< (eb - e).toNat
    ofScaled a.isNeg (x % y) e

/-- The remainder of division to the floor: it has the sign of the divisor. -/
def floorMod (a b : Double) : Double :=
  let m := fmod a b
  let opposite := if zero.lt m then b.lt zero else m.lt zero && zero.lt b
  if opposite then m.add b else m

/-- Division to the floor. -/
def floorDiv (a b : Double) : Double := (a.div b).floor

/-- Powers; a square is a product. -/
def pow (a b : Double) : Double :=
  if b == ⟨0x4000000000000000⟩ then a.mul a else settle2 a b (a.toFloat.pow b.toFloat)

/-- The integer equal to a double, if there is one of sixty-four bits. -/
def toInt64? (d : Double) : Option Int64 :=
  let f := d.toFloat
  if f.floor == f && -9223372036854775808.0 ≤ f && f < 9223372036854775808.0 then
    some f.toInt64
  else none

end Double

end Enclosure
