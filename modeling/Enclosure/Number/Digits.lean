import Enclosure.Number.Double

/-!
# Writing doubles

Every form here rounds the exact value of the double once, to the number of places asked for; a half
goes to the even neighbour. `fixed` counts places after the point, `scientific` significant digits,
`general` takes whichever of the two is shorter in the usual sense, and `hexadecimal` writes the
bits.
-/

namespace Enclosure.Digits

/-- The decimal digits of a number. -/
def ofNat (n : Nat) : String := String.ofList (Nat.toDigits 10 n)

def zeros (n : Nat) : String := String.ofList (List.replicate n '0')

/-- The digits of `n`, filled up with zeros on the left. -/
def padded (width n : Nat) : String :=
  let s := ofNat n
  zeros (width - s.length) ++ s

/-- Numerator and denominator of the absolute value of a finite double. -/
def ratio (d : Double) : Nat × Nat :=
  let (m, e) := d.decode
  if e ≥ 0 then (m <<< e.toNat, 1) else (m, 1 <<< (-e).toNat)

/-- Digits of `n` with a point before the last `places` of them; `point` forces the point when there
are none. -/
def withPoint (places : Nat) (point : Bool) (n : Nat) : String :=
  let s := padded (places + 1) n
  let cut := s.length - places
  let whole := (s.take cut).toString
  let rest := (s.drop cut).toString
  if places == 0 && !point then whole else whole ++ "." ++ rest

/-- The absolute value with `places` digits after the point. -/
def fixed (places : Nat) (point : Bool) (d : Double) : String :=
  let (n, m) := ratio d
  withPoint places point (Double.divEven (n * Nat.pow 10 places) m)

/-- `n / m` scaled by a power of ten. -/
def scaledBy (n m : Nat) (e : Int) : Nat :=
  if e ≥ 0 then Double.divEven (n * Nat.pow 10 e.toNat) m
  else Double.divEven n (m * Nat.pow 10 (-e).toNat)

/-- Whether `10 ^ e ≤ n / m`. -/
def atLeastPower (n m : Nat) (e : Int) : Bool :=
  if e ≥ 0 then m * Nat.pow 10 e.toNat ≤ n else m ≤ n * Nat.pow 10 (-e).toNat

/-- The decimal exponent of `n / m`, found by steps from a guess that is off by at most a few. -/
def exponentFrom (n m : Nat) : Nat → Int → Int
  | 0, e => e
  | fuel + 1, e =>
    if atLeastPower n m (e + 1) then exponentFrom n m fuel (e + 1)
    else if atLeastPower n m e then e
    else exponentFrom n m fuel (e - 1)

def exponent (n m : Nat) : Int :=
  exponentFrom n m 8 (((n.log2 : Int) - (m.log2 : Int)) * 1233 / 4096)

/-- The `count` significant digits of a finite double as a number, and the exponent of the first;
zero has exponent zero. -/
def significant (count : Nat) (d : Double) : Nat × Int :=
  let (n, m) := ratio d
  if n == 0 then (0, 0)
  else
    let e := exponent n m
    let q := scaledBy n m ((count : Int) - 1 - e)
    if q == Nat.pow 10 count then (Nat.pow 10 (count - 1), e + 1) else (q, e)

/-- A decimal exponent: its sign and at least two digits. -/
def exponentText (e : Int) : String :=
  (if e < 0 then "-" else "+") ++ padded 2 e.natAbs

/-- One digit, `places` more after the point, and the exponent. -/
def scientific (places : Nat) (point upper : Bool) (d : Double) : String :=
  let (q, e) := significant (places + 1) d
  withPoint places point q ++ (if upper then "E" else "e") ++ exponentText e

/-- A text with a point without the zeros at its end, nor the point if nothing follows it. -/
def trimZeros (s : String) : String :=
  if s.contains '.' then
    let cs := (s.toList.reverse.dropWhile (· == '0'))
    String.ofList (match cs with
      | '.' :: r => r
      | r => r).reverse
  else s

/-- `count` significant digits: positional when the exponent is at least -4 and less than `count`,
scientific otherwise; zeros at the end are dropped unless `keep`. -/
def general (count : Nat) (keep upper : Bool) (d : Double) : String :=
  let count := if count == 0 then 1 else count
  let (q, e) := significant count d
  if -4 ≤ e && e < count then
    let s := fixed ((count : Int) - 1 - e).toNat keep d
    if keep then s else trimZeros s
  else
    let s := withPoint (count - 1) keep q
    (if keep then s else trimZeros s) ++ (if upper then "E" else "e") ++ exponentText e

def hexDigits (n : Nat) : String := String.ofList (Nat.toDigits 16 n)

/-- The significand in hexadecimal and the exponent of two. Without a count of places the digits are
those needed. -/
def hexadecimal (places : Option Nat) (point upper : Bool) (d : Double) : String :=
  let f := d.fractionField
  let e := d.exponentField
  let lead := if e == 0 then 0 else 1
  let exp : Int := if e == 0 then (if f == 0 then 0 else -1022) else (e : Int) - 1023
  let (lead, digits) :=
    match places with
    | none =>
      let s := hexDigits f
      let s := zeros (13 - s.length) ++ s
      (lead, String.ofList (s.toList.reverse.dropWhile (· == '0')).reverse)
    | some p =>
      if 13 ≤ p then
        let s := hexDigits f
        (lead, zeros (13 - s.length) ++ s ++ zeros (p - 13))
      else
        let v := Double.divEven (lead * Nat.pow 2 52 + f) (Nat.pow 2 (52 - 4 * p))
        let s := hexDigits (v % Nat.pow 16 p)
        (v / Nat.pow 16 p, if p == 0 then "" else zeros (p - s.length) ++ s)
  let text := "0x" ++ ofNat lead
    ++ (if digits.isEmpty && !point then "" else "." ++ digits)
    ++ "p" ++ (if exp < 0 then "-" else "+") ++ ofNat exp.natAbs
  if upper then text.toUpper else text

/-- How a double that is not finite is written. -/
def notFinite (upper : Bool) (d : Double) : String :=
  let s := if d.isNan then "nan" else "inf"
  if upper then s.toUpper else s

end Enclosure.Digits
