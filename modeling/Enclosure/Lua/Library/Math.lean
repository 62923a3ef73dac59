import Enclosure.Lua.Library.Argument

/-!
# The library `math`

Roundings give an integer where the result fits one. Random numbers come from a generator with 256
bits of state, the same numbers after the same seed.
-/

namespace Enclosure.Lua

/-! ## Random numbers -/

namespace RandomState

def rotate (x : UInt64) (n : UInt64) : UInt64 := (x <<< n) ||| (x >>> (64 - n))

/-- The next number, and the state after it. -/
def next (r : RandomState) : UInt64 × RandomState :=
  let result := rotate (r.s1 * 5) 7 * 9
  let t := r.s1 <<< 17
  let s2 := r.s2 ^^^ r.s0
  let s3 := r.s3 ^^^ r.s1
  let s1 := r.s1 ^^^ s2
  let s0 := r.s0 ^^^ s3
  (result, ⟨s0, s1, s2 ^^^ t, rotate s3 45⟩)

def skip : Nat → RandomState → RandomState
  | 0, r => r
  | n + 1, r => skip n r.next.2

/-- The state that two numbers give. -/
def seeded (a b : UInt64) : RandomState := skip 16 ⟨a, 0xff, b, 0⟩

/-- The smallest number of the form `2 ^ k - 1` that is at least `n`. -/
def mask (n : UInt64) : UInt64 :=
  let n := n ||| (n >>> 1)
  let n := n ||| (n >>> 2)
  let n := n ||| (n >>> 4)
  let n := n ||| (n >>> 8)
  let n := n ||| (n >>> 16)
  n ||| (n >>> 32)

/-- A number of at most `n`, by taking the next numbers until one lies there. -/
def within (n : UInt64) : Nat → UInt64 → RandomState → UInt64 × RandomState
  | 0, x, r => (x % (n + 1), r)
  | fuel + 1, x, r =>
    let y := x &&& mask n
    if y ≤ n then (y, r)
    else
      let (x, r) := r.next
      within n fuel x r

end RandomState

namespace Library.Math

open Run

/-- A double without its fraction as an integer if it fits, else as it is. -/
def whole (d : Double) : Value :=
  match d.toInt64? with
  | some n => .int n
  | none => .float d

def unary (args : Args) (f : Float → Float) : Run (List Value) := do
  let d ← args.double 1
  return [.float (d.settle1 (f d.toFloat))]

def rounding (args : Args) (f : Double → Double) : Run (List Value) := do
  match ← args.number 1 with
  | .int n => return [.int n]
  | .float d => return [whole (f d)]

/-- Toward zero. -/
def truncate (d : Double) : Double := if d.isNeg then d.ceil else d.floor

def fmod (args : Args) : Run (List Value) := do
  match ← args.number 1, ← args.number 2 with
  | .int a, .int b =>
    if b == 0 then badArgument 2 "zero"
    return [.int (Int64.ofInt (Int.tmod a.toInt b.toInt))]
  | a, b => return [.float (Double.fmod a.toDouble b.toDouble)]

def modf (args : Args) : Run (List Value) := do
  match args.arg 1 with
  | .int n => return [.int n, .float .zero]
  | _ =>
    let d ← args.double 1
    let t := truncate d
    return [whole t, .float (if d.beq t then .zero else d.sub t)]

/-- The extreme of the arguments: `less a b` says that `a` replaces `b`. -/
def extreme (args : Args) (less : Value → Value → Run Bool) : Run (List Value) :=
  match args with
  | [] => badArgument 1 "value expected"
  | v :: rest => do
    let best ← rest.foldlM (fun best w => do return if ← less w best then w else best) v
    return [best]

def log (args : Args) : Run (List Value) := do
  let d ← args.double 1
  let x := d.toFloat
  let result : Float ←
    if args.absent 2 then pure x.log
    else do
      let b := (← args.double 2).toFloat
      pure (if b == 2.0 then x.log2 else if b == 10.0 then x.log10 else x.log / b.log)
  return [.float (d.settle1 result)]

/-- Mantissa in `[1/2, 1)` and exponent. -/
def frexp (d : Double) : Double × Int :=
  if !d.isFinite || d.abs == .zero then (d, 0)
  else
    let (m, e) := d.decode
    let bits : Nat := m.log2 + 1
    (Double.ofScaled d.isNeg m (-(bits : Int)), e + bits)

def ldexp (d : Double) (e : Int) : Double :=
  if !d.isFinite || d.abs == .zero then d
  else
    let (m, k) := d.decode
    let e := max (-3000) (min 3000 e)
    Double.ofScaled d.isNeg m (k + e)

/-- A random double in `[0, 1)`. -/
def unitDouble (x : UInt64) : Double := Double.ofScaled false (x >>> 11).toNat (-53)

def random (args : Args) : Run (List Value) := do
  let x ← draw fun c =>
    let (x, r) := c.random.next
    (x, { c with random := r })
  let between (low up : Int64) (n : Nat) : Run (List Value) := do
    if up < low then badArgument n "interval is empty"
    let span := up.toUInt64 - low.toUInt64
    let y ← draw fun c =>
      let (y, r) := RandomState.within span 1000 x c.random
      (y, { c with random := r })
    return [.int (y + low.toUInt64).toInt64]
  match args with
  | [] => return [.float (unitDouble x)]
  | [_] => do
    let up ← args.integer 1
    if up == 0 then return [.int x.toInt64]
    between 1 up 1
  | [_, _] => do
    let low ← args.integer 1
    let up ← args.integer 2
    between low up 2
  | _ => fail "wrong number of arguments"

def randomSeed (args : Args) : Run (List Value) := do
  let (a, b) : UInt64 × UInt64 ←
    if args.isEmpty then draw (Chance.ask (·.seed))
    else do
      let a ← args.number 1
      let b ← args.integerOr 2 0
      let a : UInt64 :=
        match a.toInt64? with
        | some n => n.toUInt64
        | none => a.toDouble.bits
      pure (a, b.toUInt64)
  draw fun c => ((), { c with random := RandomState.seeded a b })
  return [.int a.toInt64, .int b.toInt64]

def pi : Double := ⟨0x400921FB54442D18⟩

def run (f : MathFunction) (args : Args) : Run (List Value) := do
  match f with
  | .abs =>
    match ← args.number 1 with
    | .int n => return [.int (if n < 0 then -n else n)]
    | .float d => return [.float d.abs]
  | .acos => unary args Float.acos
  | .asin => unary args Float.asin
  | .atan =>
    let y ← args.double 1
    let x ← args.doubleOr 2 .one
    return [.float (Double.settle2 y x (Float.atan2 y.toFloat x.toFloat))]
  | .ceil => rounding args Double.ceil
  | .cos => unary args Float.cos
  | .cosh => unary args Float.cosh
  | .deg => return [.float ((← args.double 1).mul ((Double.ofInt 180).div pi))]
  | .exp => unary args Float.exp
  | .floor => rounding args Double.floor
  | .fmod => fmod args
  | .frexp =>
    let (m, e) := frexp (← args.double 1)
    return [.float m, .int (Int64.ofInt e)]
  | .ldexp => return [.float (ldexp (← args.double 1) (← args.integer 2).toInt)]
  | .log => log args
  | .log10 => unary args Float.log10
  | .max => extreme args fun a b => Operation.less .library b a
  | .min => extreme args fun a b => Operation.less .library a b
  | .modf => modf args
  | .pow => return [.float ((← args.double 1).pow (← args.double 2))]
  | .rad => return [.float ((← args.double 1).mul (pi.div (Double.ofInt 180)))]
  | .random => random args
  | .randomSeed => randomSeed args
  | .sin => unary args Float.sin
  | .sinh => unary args Float.sinh
  | .sqrt => return [.float (← args.double 1).sqrt]
  | .tan => unary args Float.tan
  | .tanh => unary args Float.tanh
  | .toInteger =>
    match ← args.any 1 with
    | .int n => return [.int n]
    | .float d => return [match d.toInt64? with | some n => .int n | none => .nil]
    | .str b =>
      match Numeral.ofBytes? b with
      | some x => return [match x.toInt64? with | some n => .int n | none => .nil]
      | none => return [.nil]
    | _ => return [.nil]
  | .type =>
    match ← args.any 1 with
    | .int _ => return [.text "integer"]
    | .float _ => return [.text "float"]
    | _ => return [.nil]
  | .ult => return [.bool ((← args.integer 1).toUInt64 < (← args.integer 2).toUInt64)]

end Library.Math

end Enclosure.Lua
