import Enclosure.Lua.Library.Text

/-!
# The library `utf8`

Code points go up to 31 bits when read laxly; else surrogates and what lies past U+10FFFF are refused.
Overlong forms are always refused.
-/

namespace Enclosure.Lua.Library.CodePoint

open Run

def isContinuation (b : UInt8) : Bool := b &&& 0xC0 == 0x80

/-- The least code point of a form with so many continuation bytes. -/
def formLimit : List Nat := [0, 0x80, 0x800, 0x10000, 0x200000, 0x4000000]

/-- Continuation bytes: the value with them, if there are as many. -/
def takeTail (b : Bytes) : Nat → Nat → Nat → Option Nat
  | 0, _, value => some value
  | n + 1, i, value =>
    if i < b.size && isContinuation (b.at0 i) then
      takeTail b n (i + 1) (value * 64 + (b.at0 i).toNat % 64)
    else none

/-- How many continuation bytes a lead byte announces. -/
def tailLength (c : UInt8) : Option Nat :=
  if c < 0x80 then some 0
  else if c < 0xC0 then none
  else if c < 0xE0 then some 1
  else if c < 0xF0 then some 2
  else if c < 0xF8 then some 3
  else if c < 0xFC then some 4
  else if c < 0xFE then some 5
  else none

/-- The code point at a place and the place after it. -/
def decode (b : Bytes) (i : Nat) (strict : Bool) : Option (Nat × Nat) :=
  let c := b.at0 i
  match tailLength c with
  | none => none
  | some 0 => if i < b.size then some (c.toNat, i + 1) else some (0, i + 1)
  | some n =>
    match takeTail b n (i + 1) (c.toNat % Nat.pow 2 (6 - n)) with
    | none => none
    | some v =>
      if v < formLimit.getD n 0 then none
      else if strict && (0x10FFFF < v || (0xD800 ≤ v && v ≤ 0xDFFF)) then none
      else some (v, i + n + 1)

/-- A place counted from the end if negative; zero if before the start. -/
def placeOf (i : Int64) (size : Nat) : Int :=
  let i := i.toInt
  if 0 ≤ i then i else if (size : Int) < -i then 0 else (size : Int) + i + 1

def charsFrom (args : Args) : Nat → Nat → Run Bytes
  | 0, _ => pure .empty
  | count + 1, n => do
    let c ← args.integer n
    if 0x7FFFFFFF < c.toUInt64 then badArgument n "value out of range"
    let rest ← charsFrom args count (n + 1)
    return Bytes.ofList (Lexer.utf8Bytes c.toInt.toNat) ++ rest

/-- The code points between two places. -/
def pointsBetween (b : Bytes) (strict : Bool) : Nat → Nat → Nat → Run (List Value)
  | 0, _, _ => pure []
  | fuel + 1, i, stop => do
    if stop ≤ i then return []
    match decode b i strict with
    | none => fail "invalid UTF-8 code"
    | some (v, next) => return .nat v :: (← pointsBetween b strict fuel next stop)

def codePoint (args : Args) : Run (List Value) := do
  let s ← args.string 1
  let start := placeOf (← args.integerOr 2 1) s.size
  let stop := placeOf (← args.integerOr 3 (Int64.ofInt start)) s.size
  if start < 1 then badArgument 2 "out of bounds"
  if (s.size : Int) < stop then badArgument 3 "out of bounds"
  if stop < start then return []
  pointsBetween s (!(args.arg 4).truthy) (s.size + 1) (start - 1).toNat stop.toNat

/-- Counts the code points that begin between two places, or gives the place of a bad one. -/
def countBetween (b : Bytes) (strict : Bool) (stop : Int) : Nat → Nat → Nat → Nat ⊕ Nat
  | 0, _, n => .inl n
  | fuel + 1, i, n =>
    if stop < (i : Int) then .inl n
    else
      match decode b i strict with
      | none => .inr (i + 1)
      | some (_, next) => countBetween b strict stop fuel next (n + 1)

def len (args : Args) : Run (List Value) := do
  let s ← args.string 1
  let start := placeOf (← args.integerOr 2 1) s.size
  let stop := placeOf (← args.integerOr 3 (-1)) s.size
  if !(1 ≤ start && start - 1 ≤ (s.size : Int)) then badArgument 2 "initial position out of bounds"
  if !(stop - 1 < (s.size : Int)) then badArgument 3 "final position out of bounds"
  match countBetween s (!(args.arg 4).truthy) (stop - 1) (s.size + 1) (start - 1).toNat 0 with
  | .inl n => return [.nat n]
  | .inr place => return [.nil, .nat place]

/-- Goes back from a place over continuation bytes. -/
def backOver (b : Bytes) : Nat → Nat
  | 0 => 0
  | i + 1 => if isContinuation (b.at0 (i + 1)) then backOver b i else i + 1

/-- Goes on from a place over continuation bytes. -/
def onOver (b : Bytes) : Nat → Nat → Nat
  | 0, i => i
  | fuel + 1, i => if isContinuation (b.at0 i) && i < b.size then onOver b fuel (i + 1) else i

/-- The start of the code point `n` before a place. -/
def stepsBack (b : Bytes) : Nat → Nat → Option Nat
  | 0, i => some i
  | n + 1, i => if i == 0 then none else stepsBack b n (backOver b (i - 1))

/-- The start of the code point `n` after a place. -/
def stepsOn (b : Bytes) : Nat → Nat → Option Nat
  | 0, i => some i
  | n + 1, i => if i < b.size then stepsOn b n (onOver b (b.size + 1) (i + 1)) else none

def offset (args : Args) : Run (List Value) := do
  let s ← args.string 1
  let n := (← args.integer 2).toInt
  let default : Int64 := if 0 ≤ n then 1 else Int64.ofNat (s.size + 1)
  let i := placeOf (← args.integerOr 3 default) s.size - 1
  if !(0 ≤ i && i ≤ (s.size : Int)) then badArgument 3 "position out of bounds"
  let i := i.toNat
  let answer (r : Option Nat) : List Value :=
    match r with
    | some i => [.nat (i + 1)]
    | none => [.nil]
  if n == 0 then return [.nat (backOver s i + 1)]
  if isContinuation (s.at0 i) then fail "initial position is a continuation byte"
  if n < 0 then return answer (stepsBack s (-n).toNat i)
  return answer (stepsOn s (n - 1).toNat i)

def codes (args : Args) : Run (List Value) := do
  let s ← args.string 1
  if isContinuation (s.at0 0) then badArgument 1 "invalid UTF-8 code"
  let next := if (args.arg 2).truthy then Utf8Function.codesStepLax else .codesStep
  return [← newBuiltin (.utf8 next) [], .str s, .int 0]

def codesStep (args : Args) (strict : Bool) : Run (List Value) := do
  let s ← args.string 1
  let n := (← args.integer 2).toUInt64.toNat
  -- the rest of the code point at the place is passed over
  let i := if n < s.size then onOver s (s.size + 1) n else n
  if s.size ≤ i then return []
  match decode s i strict with
  | none => fail "invalid UTF-8 code"
  | some (v, next) =>
    if isContinuation (s.at0 next) then fail "invalid UTF-8 code"
    return [.nat (i + 1), .nat v]

def run (f : Utf8Function) (args : Args) : Run (List Value) := do
  match f with
  | .char => return [.str (← charsFrom args args.length 1)]
  | .codePoint => codePoint args
  | .codes => codes args
  | .codesStep => codesStep args true
  | .codesStepLax => codesStep args false
  | .len => len args
  | .offset => offset args

end Enclosure.Lua.Library.CodePoint
