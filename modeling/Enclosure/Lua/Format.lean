import Enclosure.Lua.Arithmetic

/-!
# Conversions

A conversion is a `%`, flags, a width, a precision and a letter. Reading one keeps its text for
messages; each letter allows certain flags and perhaps a precision. The functions here write one value
each; filling up to the width is the last step.
-/

namespace Enclosure.Lua.Format

open Bytes (ofText)

/-- A conversion after its `%`: everything up to and with the letter. -/
structure Spec where
  text : List UInt8
  letter : UInt8

/-- How a conversion is to be written. -/
structure Layout where
  minus : Bool := false
  plus : Bool := false
  space : Bool := false
  alternate : Bool := false
  zero : Bool := false
  width : Nat := 0
  precision : Option Nat := none

def isModifier (b : UInt8) : Bool := Ascii.isDigit b || "-+ #.".toUTF8.data.contains b

/-- The longest text of modifiers that is read. -/
def maxModifiers : Nat := 22

/-- The conversion in front of a text, and what follows it; nothing if it is too long. -/
def takeSpec (bs : List UInt8) : Option (Spec × List UInt8) :=
  let modifiers := bs.takeWhile isModifier
  if maxModifiers ≤ modifiers.length + 1 then none
  else
    let rest := bs.drop modifiers.length
    match rest with
    | [] => some (⟨modifiers, 0⟩, [])
    | b :: rest => some (⟨modifiers ++ [b], b⟩, rest)

/-- The conversion as messages show it. -/
def Spec.shown (s : Spec) : Bytes := ofText "%" ++ Bytes.ofList s.text

/-- At most two digits in front. -/
def twoDigits (bs : List UInt8) : List UInt8 × List UInt8 :=
  let ds := (bs.take 2).takeWhile Ascii.isDigit
  (ds, bs.drop ds.length)

def valueOf (ds : List UInt8) : Nat := ds.foldl (fun v d => v * 10 + Ascii.digitValue d) 0

/-- How to write a conversion whose letter allows some flags; nothing if it is not well formed. -/
def Spec.layout? (s : Spec) (flags : String) (precision : Bool) : Option Layout :=
  let allowed := flags.toUTF8.data.toList
  let given := s.text.takeWhile allowed.contains
  let rest := s.text.drop given.length
  let layout : Layout :=
    { minus := given.contains 45, plus := given.contains 43, space := given.contains 32,
      alternate := given.contains 35, zero := given.contains 48 }
  let (layout, rest) :=
    if rest.head? == some 48 then (layout, rest)
    else
      let (w, rest) := twoDigits rest
      let layout := { layout with width := valueOf w }
      match rest with
      | 46 :: rest' =>
        if precision then
          let (p, rest) := twoDigits rest'
          ({ layout with precision := some (valueOf p) }, rest)
        else (layout, rest)
      | _ => (layout, rest)
  match rest with
  | b :: _ => if Ascii.isAlpha b then some layout else none
  | [] => none

def spaces (n : Nat) : Bytes := Bytes.replicate n 32

/-- A text filled up with spaces. -/
def Layout.fill (l : Layout) (b : Bytes) : Bytes :=
  if l.minus then b ++ spaces (l.width - b.size) else spaces (l.width - b.size) ++ b

/-- A number: its sign or mark, and its digits; zeros may stand between them. -/
def Layout.number (l : Layout) (mark digits : String) (zeros : Bool) : Bytes :=
  if zeros && l.zero && !l.minus then
    ofText (mark ++ Digits.zeros (l.width - mark.length - digits.length) ++ digits)
  else l.fill (ofText (mark ++ digits))

def Layout.sign (l : Layout) (negative : Bool) : String :=
  if negative then "-" else if l.plus then "+" else if l.space then " " else ""

/-- At least as many digits as the precision; zero has none at precision zero. -/
def Layout.digits (l : Layout) (base n : Nat) : String :=
  let ds := String.ofList (Nat.toDigits base n)
  match l.precision with
  | none => ds
  | some 0 => if n == 0 then "" else ds
  | some p => Digits.zeros (p - ds.length) ++ ds

def Layout.decimal (l : Layout) (n : Int64) : Bytes :=
  l.number (l.sign (n < 0)) (l.digits 10 n.toInt.natAbs) l.precision.isNone

def Layout.unsigned (l : Layout) (letter : UInt8) (n : Int64) : Bytes :=
  let v := n.toUInt64.toNat
  if letter == 111 then
    let ds := l.digits 8 v
    let ds := if l.alternate && !ds.startsWith "0" then "0" ++ ds else ds
    l.number "" ds l.precision.isNone
  else if letter == 117 then l.number "" (l.digits 10 v) l.precision.isNone
  else
    let upper := letter == 88
    let ds := l.digits 16 v
    let ds := if upper then ds.toUpper else ds
    let mark := if l.alternate && v != 0 then (if upper then "0X" else "0x") else ""
    l.number mark ds l.precision.isNone

def Layout.double (l : Layout) (letter : UInt8) (d : Double) : Bytes :=
  let upper := Ascii.isUpper letter
  let sign := l.sign d.isNeg
  let a := d.abs
  if !d.isFinite then l.number sign (Digits.notFinite upper a) false
  else
    let kind := Ascii.toLower letter
    let places := l.precision.getD 6
    if kind == 97 then
      let text := Digits.hexadecimal l.precision l.alternate upper a
      l.number (sign ++ (text.take 2).toString) (text.drop 2).toString true
    else if kind == 101 then l.number sign (Digits.scientific places l.alternate upper a) true
    else if kind == 102 then l.number sign (Digits.fixed places l.alternate a) true
    else l.number sign (Digits.general places l.alternate upper a) true

/-- A text cut to the precision. -/
def Layout.text (l : Layout) (b : Bytes) : Bytes :=
  match l.precision with
  | some p => l.fill (b.take p)
  | none => l.fill b

/-! ## Literals -/

/-- A string between quotes, as a script would write it. -/
def quoted (s : Bytes) : Bytes :=
  ofText "\"" ++ Bytes.ofList (go s.asList) ++ ofText "\""
where
  go : List UInt8 → List UInt8
    | [] => []
    | b :: rest =>
      if b == 34 || b == 92 || b == 10 then 92 :: b :: go rest
      else if Ascii.isControl b then
        let followed := (rest.head?.map Ascii.isDigit).getD false
        let ds := if followed then Digits.padded 3 b.toNat else Digits.ofNat b.toNat
        92 :: ds.toUTF8.data.toList ++ go rest
      else b :: go rest

/-- A double that reads back as the same. -/
def doubleLiteral (d : Double) : String :=
  if d.isNan then "(0/0)"
  else if d.isInfinite then (if d.isNeg then "-1e9999" else "1e9999")
  else (if d.isNeg then "-" else "") ++ Digits.hexadecimal none false false d.abs

def intLiteral (n : Int64) : String :=
  if n == Int64.minValue then "0x8000000000000000" else toString n.toInt

end Enclosure.Lua.Format
