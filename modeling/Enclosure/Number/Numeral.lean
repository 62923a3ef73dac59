import Enclosure.Number.Double
import Enclosure.Text.Bytes

/-!
# Reading numbers

A text is read as an integer if it is one, decimal or hexadecimal, and else as a double. A decimal
integer that does not fit in sixty-four bits is read as a double; a hexadecimal one wraps around.
Blanks around the number are skipped and nothing else may stand there.
-/

namespace Enclosure

/-- A number of either kind. -/
inductive Numeral
  | int (n : Int64)
  | float (d : Double)
  deriving DecidableEq

namespace Numeral

def toDouble : Numeral → Double
  | .int n => Double.ofInt64 n
  | .float d => d

/-- The integer equal to a number. -/
def toInt64? : Numeral → Option Int64
  | .int n => some n
  | .float d => d.toInt64?

def skipBlanks (bs : List UInt8) : List UInt8 := bs.dropWhile Ascii.isSpace

/-- A sign in front, and what follows it. -/
def takeSign : List UInt8 → Bool × List UInt8
  | 45 :: r => (true, r)
  | 43 :: r => (false, r)
  | r => (false, r)

/-- The digits in front of a text with their value, and what follows them. -/
def takeDigits (ok : UInt8 → Bool) (base : Nat) : List UInt8 → Nat → Nat → Nat × Nat × List UInt8
  | [], value, count => (value, count, [])
  | b :: r, value, count =>
    if ok b then takeDigits ok base r (value * base + Ascii.digitValue b) (count + 1)
    else (value, count, b :: r)

/-- What follows `0x` or `0X`, if the text starts so. -/
def afterHexMark : List UInt8 → Option (List UInt8)
  | 48 :: 120 :: r => some r
  | 48 :: 88 :: r => some r
  | _ => none

/-- The whole text as an integer. -/
def integer? (bs : List UInt8) : Option Int64 :=
  let (negative, bs) := takeSign (skipBlanks bs)
  match afterHexMark bs with
  | some r =>
    let (value, count, r) := takeDigits Ascii.isHexDigit 16 r 0 0
    if count != 0 && (skipBlanks r).isEmpty then
      some (Int64.ofInt (if negative then -value else value))
    else none
  | none =>
    let (value, count, r) := takeDigits Ascii.isDigit 10 bs 0 0
    let limit := if negative then Nat.pow 2 63 else Nat.pow 2 63 - 1
    if count != 0 && (skipBlanks r).isEmpty && value ≤ limit then
      some (Int64.ofInt (if negative then -value else value))
    else none

/-- A signed exponent after its mark; without digits there is none and nothing is consumed. -/
def takeExponent (marks : List UInt8) (bs : List UInt8) : Int × List UInt8 :=
  match bs with
  | b :: r =>
    if marks.contains b then
      let (negative, r) := takeSign r
      let (value, count, r) := takeDigits Ascii.isDigit 10 r 0 0
      if count == 0 then (0, bs) else (if negative then -value else value, r)
    else (0, bs)
  | [] => (0, [])

/-- Digits with an optional point: their value, how many stand after the point, how many there are,
and what follows. -/
def takeFraction (ok : UInt8 → Bool) (base : Nat) (bs : List UInt8) :
    Nat × Nat × Nat × List UInt8 :=
  let (whole, n, r) := takeDigits ok base bs 0 0
  match r with
  | 46 :: r' =>
    let (value, k, r'') := takeDigits ok base r' whole 0
    if n + k == 0 then (0, 0, 0, bs) else (value, k, n + k, r'')
  | _ => (whole, 0, n, r)

/-- `value * 10 ^ e`, rounded; an exponent far out of range decides at once. -/
def decimal (negative : Bool) (value : Nat) (e : Int) : Double :=
  if value == 0 then Double.withSign negative 0
  else
    let size : Int := (Nat.toDigits 10 value).length + e
    if size > 400 then Double.withSign negative Double.infinity.bits
    else if size < -400 then Double.withSign negative 0
    else if e ≥ 0 then Double.ofRatio negative (value * Nat.pow 10 e.toNat) 1
    else Double.ofRatio negative value (Nat.pow 10 (-e).toNat)

/-- `value * 2 ^ e`, rounded. -/
def binary (negative : Bool) (value : Nat) (e : Int) : Double :=
  if value == 0 then Double.withSign negative 0
  else
    let size : Int := value.log2 + e
    if size > 2000 then Double.withSign negative Double.infinity.bits
    else if size < -2000 then Double.withSign negative 0
    else Double.ofScaled negative value e

/-- The whole text as a double. -/
def double? (bs : List UInt8) : Option Double :=
  let (negative, bs) := takeSign (skipBlanks bs)
  match afterHexMark bs with
  | some r =>
    let (value, after, count, r) := takeFraction Ascii.isHexDigit 16 r
    let (e, r) := takeExponent [112, 80] r
    if count != 0 && (skipBlanks r).isEmpty then
      some (binary negative value (e - 4 * after))
    else none
  | none =>
    let (value, after, count, r) := takeFraction Ascii.isDigit 10 bs
    let (e, r) := takeExponent [101, 69] r
    if count != 0 && (skipBlanks r).isEmpty then some (decimal negative value (e - after))
    else none

/-- The number that a text is, if it is one. -/
def ofBytes? (b : Bytes) : Option Numeral :=
  let bs := b.asList
  match integer? bs with
  | some n => some (.int n)
  | none => (double? bs).map .float

end Numeral

end Enclosure
