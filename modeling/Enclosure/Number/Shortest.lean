import Enclosure.Number.Digits

/-!
# Shortest digits

The shortest decimal that reads back as a double. The reals that round to a double form an interval;
of the decimal grids, coarsest first, the first with a point in the interval wins, and on it the point
nearest to the double. If any point of a grid lies in the interval, so does one of the double's two
neighbours on that grid.
-/

namespace Enclosure.Shortest

/-- The reals that round to a positive double, over a common denominator; the ends count if the
significand is even. -/
structure Interval where
  low : Nat
  value : Nat
  high : Nat
  denominator : Nat
  closed : Bool

def interval (d : Double) : Interval :=
  let (m, e) := d.decode
  -- a quarter of the grid's unit is the finest step needed
  let e' := e - 2
  let scale (n : Nat) : Nat := if e' ≥ 0 then n <<< e'.toNat else n
  let below := if m == Nat.pow 2 52 && e > -1074 then 1 else 2
  { low := scale (4 * m - below), value := scale (4 * m), high := scale (4 * m + 2),
    denominator := if e' ≥ 0 then 1 else 1 <<< (-e').toNat, closed := m % 2 == 0 }

/-- Whether `k * 10 ^ p` lies in the interval. -/
def Interval.holds (i : Interval) (k : Nat) (p : Int) : Bool :=
  let (point, scale) :=
    if p ≥ 0 then (k * Nat.pow 10 p.toNat * i.denominator, 1)
    else (k * i.denominator, Nat.pow 10 (-p).toNat)
  if i.closed then i.low * scale ≤ point && point ≤ i.high * scale
  else i.low * scale < point && point < i.high * scale

/-- The point of the grid `10 ^ p` in the interval that is nearest to the value. -/
def Interval.nearest? (i : Interval) (p : Int) : Option Nat :=
  let (num, den) :=
    if p ≥ 0 then (i.value, Nat.pow 10 p.toNat * i.denominator)
    else (i.value * Nat.pow 10 (-p).toNat, i.denominator)
  let k := num / den
  match i.holds k p, i.holds (k + 1) p with
  | true, true => some (Double.divEven num den)
  | true, false => some k
  | false, true => some (k + 1)
  | false, false => none

/-- The digits and the exponent of the last of them, from grids of `count` digits on. -/
def search (i : Interval) (first : Int) : Nat → Nat → Nat × Int
  | 0, _ => (0, 0)
  | fuel + 1, count =>
    let p := first + 1 - (count : Int)
    match i.nearest? p with
    | some k => (k, p)
    | none => search i first fuel (count + 1)

/-- Zeros at the end moved into the exponent. -/
def strip : Nat → Nat → Int → Nat × Int
  | 0, k, p => (k, p)
  | fuel + 1, k, p => if k != 0 && k % 10 == 0 then strip fuel (k / 10) (p + 1) else (k, p)

/-- The shortest digits of a positive finite double and the exponent of the last one. -/
def digits (d : Double) : Nat × Int :=
  let (n, m) := Digits.ratio d
  let (k, p) := search (interval d) (Digits.exponent n m) 20 1
  strip 20 k p

/-- Digits with the point where it belongs and nothing else: zeros fill up either side. -/
def positional (k : Nat) (p : Int) : String :=
  let s := Digits.ofNat k
  if p ≥ 0 then s ++ Digits.zeros p.toNat
  else Digits.withPoint (-p).toNat false k

/-- One digit, the others after the point, and the exponent as it is. -/
def exponential (k : Nat) (p : Int) : String :=
  let s := Digits.ofNat k
  let e := p + (s.length : Int) - 1
  (if s.length == 1 then s else Digits.withPoint (s.length - 1) false k) ++ "e" ++ toString e

/-- The point and a zero after a text without a point. -/
def pointed (s : String) : String := if s.contains '.' then s else s ++ ".0"

def sign (d : Double) : String := if d.isNeg then "-" else ""

def zeroOr (d : Double) (f : Nat → Int → String) : String :=
  if d.abs == .zero then "0.0"
  else
    let (k, p) := digits d
    f k p

/-- Always positional, with a point. -/
def plain (d : Double) : String :=
  if d.isNan then "NaN"
  else if d.isInfinite then sign d ++ "inf"
  else sign d ++ zeroOr d fun k p => pointed (positional k p)

/-- Positional from `10 ^ -5` up to below `10 ^ 16`, with an exponent elsewhere. -/
def compact (d : Double) : String :=
  if d.isNan then "NaN"
  else if d.isInfinite then sign d ++ "inf"
  else sign d ++ zeroOr d fun k p =>
    let point := p + ((Digits.ofNat k).length : Int)
    if -5 < point && point ≤ 16 then pointed (positional k p) else exponential k p

end Enclosure.Shortest
