import Enclosure.Lua.Value

/-!
# Packed values

A format is a list of options that say how values lie in bytes. Options are read one after another,
because those for byte order and alignment change the meaning of the later ones.
-/

namespace Enclosure.Lua.Pack

inductive Kind
  | int (size : Nat)
  | uint (size : Nat)
  | float
  | double
  | char (size : Nat)
  | string (size : Nat)
  | zeroString
  | padding
  | alignPadding
  | nothing
  deriving DecidableEq

/-- What holds while a format is read. -/
structure Mode where
  little : Bool := true
  maxAlign : Nat := 1

/-- One option: what it is, how many bytes it takes by itself, and the padding before it. -/
structure Item where
  kind : Kind
  size : Nat
  padding : Nat

def maxIntSize : Nat := 16

/-- A number takes another digit only up to here, so that it stays a size. -/
def maxBeforeDigit : Nat := 214748363

/-- The number that goes on with the digits in front of a format. -/
def takeDigits (n : Nat) : List UInt8 → Nat × List UInt8
  | [] => (n, [])
  | b :: r =>
    if Ascii.isDigit b && n ≤ maxBeforeDigit then takeDigits (n * 10 + Ascii.digitValue b) r
    else (n, b :: r)

/-- A number in front of a format, if there is one. -/
def takeNumber (bs : List UInt8) : Option Nat × List UInt8 :=
  if bs.head?.any Ascii.isDigit then
    let (n, r) := takeDigits 0 bs
    (some n, r)
  else (none, bs)

/-- The options of a format, which ends at a zero byte. -/
def optionsOf (format : Bytes) : List UInt8 := format.asList.takeWhile (· != 0)

/-- A size within the limits for integers. -/
def intSize (default : Nat) (bs : List UInt8) : Except String (Nat × List UInt8) :=
  match takeNumber bs with
  | (none, r) => .ok (default, r)
  | (some n, r) =>
    if n > maxIntSize || n == 0 then
      .error ("integral size (" ++ toString n ++ ") out of limits [1," ++ toString maxIntSize ++ "]")
    else .ok (n, r)

/-- One option in front of a format, with the mode after it. -/
def takeOption (m : Mode) : List UInt8 → Except String (Kind × Nat × Mode × List UInt8)
  | [] => .ok (.nothing, 0, m, [])
  | b :: r =>
    let plain (k : Kind) (n : Nat) : Except String (Kind × Nat × Mode × List UInt8) := .ok (k, n, m, r)
    match Char.ofNat b.toNat with
    | 'b' => plain (.int 1) 1
    | 'B' => plain (.uint 1) 1
    | 'h' => plain (.int 2) 2
    | 'H' => plain (.uint 2) 2
    | 'l' => plain (.int 8) 8
    | 'L' => plain (.uint 8) 8
    | 'j' => plain (.int 8) 8
    | 'J' => plain (.uint 8) 8
    | 'T' => plain (.uint 8) 8
    | 'f' => plain .float 4
    | 'n' => plain .double 8
    | 'd' => plain .double 8
    | 'i' => (intSize 4 r).map fun (n, r) => (.int n, n, m, r)
    | 'I' => (intSize 4 r).map fun (n, r) => (.uint n, n, m, r)
    | 's' => (intSize 8 r).map fun (n, r) => (.string n, n, m, r)
    | 'c' =>
      match takeNumber r with
      | (some n, r) => .ok (.char n, n, m, r)
      | (none, _) => .error "missing size for format option 'c'"
    | 'z' => plain .zeroString 0
    | 'x' => plain .padding 1
    | 'X' => plain .alignPadding 0
    | ' ' => plain .nothing 0
    | '<' => .ok (.nothing, 0, { m with little := true }, r)
    | '>' => .ok (.nothing, 0, { m with little := false }, r)
    | '=' => .ok (.nothing, 0, { m with little := true }, r)
    | '!' => (intSize 8 r).map fun (n, r) => (.nothing, 0, { m with maxAlign := n }, r)
    | c => .error ("invalid format option '" ++ String.singleton c ++ "'")

def isPowerOfTwo (n : Nat) : Bool := n != 0 && Nat.pow 2 n.log2 == n

/-- The next option when so many bytes came before: the item, the mode and the rest. An error may be
one of the format as an argument. -/
def takeItem (m : Mode) (before : Nat) (bs : List UInt8) :
    Except (Bool × String) (Item × Mode × List UInt8) := do
  let lift {α : Type} (e : Except String α) : Except (Bool × String) α :=
    match e with
    | .ok a => .ok a
    | .error s => .error (false, s)
  let (kind, size, m, rest) ← lift (takeOption m bs)
  let align ←
    match kind with
    | .alignPadding =>
      if rest.isEmpty then .error (true, "invalid next option for option 'X'")
      else do
        let (k, n, _, _) ← lift (takeOption m rest)
        match k with
        | .char _ => .error (true, "invalid next option for option 'X'")
        | _ => if n == 0 then .error (true, "invalid next option for option 'X'") else pure n
    | _ => pure size
  -- the option that an alignment is taken from is skipped
  let rest ←
    match kind with
    | .alignPadding => do
      let (_, _, _, r) ← lift (takeOption m rest)
      pure r
    | _ => pure rest
  let aligned :=
    match kind with
    | .char _ | .padding | .nothing | .zeroString => false
    | _ => 1 < align
  if !aligned then return (⟨kind, size, 0⟩, m, rest)
  let align := min align m.maxAlign
  if !isPowerOfTwo align then .error (true, "format asks for alignment not power of 2")
  else
    let past := before % align
    return (⟨kind, size, if past == 0 then 0 else align - past⟩, m, rest)

/-- The low bytes of a number, least first. -/
def littleBytes : Nat → Nat → List UInt8
  | 0, _ => []
  | k + 1, n => (n % 256).toUInt8 :: littleBytes k (n / 256)

def bytesOf (little : Bool) (size n : Nat) : Bytes :=
  let bs := littleBytes size n
  Bytes.ofList (if little then bs else bs.reverse)

def numberOf (little : Bool) (b : Bytes) : Nat :=
  let bs := b.asList
  (if little then bs.reverse else bs).foldl (fun v x => v * 256 + x.toNat) 0

/-- A signed integer in so many bytes. -/
def intBytes (little : Bool) (size : Nat) (n : Int) : Bytes :=
  bytesOf little size (n % (Nat.pow 256 size : Nat)).toNat

/-- The nearest single-precision number's bits. -/
def singleBits (d : Double) : UInt32 := d.toFloat.toFloat32.toBits

def ofSingleBits (bits : UInt32) : Double := Double.ofFloat (Float32.ofBits bits).toFloat

end Enclosure.Lua.Pack
