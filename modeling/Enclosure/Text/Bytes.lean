/-!
# Byte strings

Scripts work on strings of bytes, with no encoding of their own. This module names the type and
holds what the rest needs of it: the order, searching, and the classes of ASCII bytes, which are
the classes of the C locale.
-/

namespace Enclosure

/-- The strings of scripts: any bytes, in any encoding or none. -/
abbrev Bytes := ByteArray

instance : DecidableEq Bytes := ByteArray.instDecidableEq

namespace Bytes

def ofList (bs : List UInt8) : Bytes := ⟨bs.toArray⟩

/-- The bytes of a text in UTF-8. -/
def ofText (s : String) : Bytes := s.toUTF8

def singleton (b : UInt8) : Bytes := ⟨#[b]⟩

/-- The bytes from `start` up to but not including `stop`, cut to what exists. -/
def slice (b : Bytes) (start stop : Nat) : Bytes := b.extract start stop

def drop (b : Bytes) (n : Nat) : Bytes := b.extract n b.size

def take (b : Bytes) (n : Nat) : Bytes := b.extract 0 n

def asList (b : Bytes) : List UInt8 := b.data.toList

/-- The byte at `i`, or zero past the end. -/
def at0 (b : Bytes) (i : Nat) : UInt8 := if h : i < b.size then b[i] else 0

/-- Dictionary order, bytes compared as numbers; a proper beginning comes first. -/
def compareFrom (a b : Bytes) : Nat → Nat → Ordering
  | 0, _ => compare a.size b.size
  | n + 1, i =>
    match compare (a.at0 i) (b.at0 i) with
    | .eq => compareFrom a b n (i + 1)
    | o => o

def order (a b : Bytes) : Ordering := compareFrom a b (min a.size b.size) 0

def less (a b : Bytes) : Bool := order a b == .lt

def lessEq (a b : Bytes) : Bool := order a b != .gt

/-- Whether `pat` stands in `b` at `i`. -/
def hasAt (b pat : Bytes) (i : Nat) : Bool :=
  i + pat.size ≤ b.size && go pat.size
where
  go : Nat → Bool
    | 0 => true
    | n + 1 => b.at0 (i + n) == pat.at0 n && go n

/-- The first place at or after `start` where `pat` stands in `b`. -/
def find? (b pat : Bytes) (start : Nat) : Option Nat :=
  if start + pat.size ≤ b.size then go (b.size - pat.size - start + 1) start else none
where
  go : Nat → Nat → Option Nat
    | 0, _ => none
    | n + 1, i => if b.hasAt pat i then some i else go n (i + 1)

def replicate (n : Nat) (b : UInt8) : Bytes := ⟨Array.replicate n b⟩

def map (f : UInt8 → UInt8) (b : Bytes) : Bytes := ⟨b.data.map f⟩

def reverse (b : Bytes) : Bytes := ⟨b.data.reverse⟩

/-- The pieces one after another, `sep` between neighbours. -/
def join (sep : Bytes) : List Bytes → Bytes
  | [] => .empty
  | [b] => b
  | b :: bs => bs.foldl (fun acc x => acc ++ sep ++ x) b

end Bytes

namespace Ascii

def isDigit (b : UInt8) : Bool := 48 ≤ b && b ≤ 57

def isUpper (b : UInt8) : Bool := 65 ≤ b && b ≤ 90

def isLower (b : UInt8) : Bool := 97 ≤ b && b ≤ 122

def isAlpha (b : UInt8) : Bool := isUpper b || isLower b

def isAlnum (b : UInt8) : Bool := isAlpha b || isDigit b

/-- Space, tab, line feed, vertical tab, form feed, carriage return. -/
def isSpace (b : UInt8) : Bool := b == 32 || (9 ≤ b && b ≤ 13)

def isHexDigit (b : UInt8) : Bool :=
  isDigit b || (65 ≤ b && b ≤ 70) || (97 ≤ b && b ≤ 102)

def isControl (b : UInt8) : Bool := b < 32 || b == 127

/-- Printable and not a space. -/
def isGraph (b : UInt8) : Bool := 33 ≤ b && b ≤ 126

def isPrint (b : UInt8) : Bool := 32 ≤ b && b ≤ 126

def isPunct (b : UInt8) : Bool := isGraph b && !isAlnum b

def toUpper (b : UInt8) : UInt8 := if isLower b then b - 32 else b

def toLower (b : UInt8) : UInt8 := if isUpper b then b + 32 else b

/-- The value of a digit in a base up to 36; letters follow the decimal digits. -/
def digitValue (b : UInt8) : Nat :=
  if isDigit b then b.toNat - 48 else (toLower b).toNat - 87

end Ascii

end Enclosure
