import Enclosure.Lua.Chunk
import Enclosure.Lua.Format
import Enclosure.Lua.Library.Argument
import Enclosure.Lua.Pack
import Enclosure.Lua.Pattern

/-!
# The library `string`

Places in a string are counted from one, and from the end when negative. The arithmetic operators of
strings belong here too: a string that spells a number is taken for it.
-/

namespace Enclosure.Lua.Library.Text

open Run

def ofText := Bytes.ofText

/-- The longest string that may be made by repetition. -/
def maxSize : Nat := Nat.pow 2 31 - 1

/-- A start counted from the end if negative, at least one. -/
def startPlace (i : Int64) (size : Nat) : Nat :=
  let i := i.toInt
  if 0 < i then i.toNat
  else if i == 0 then 1
  else if i < -(size : Int) then 1
  else ((size : Int) + i + 1).toNat

/-- An end counted from the end if negative, at most the size. -/
def endPlace (i : Int64) (size : Nat) : Nat :=
  let i := i.toInt
  if (size : Int) < i then size
  else if 0 ≤ i then i.toNat
  else if i < -(size : Int) then 0
  else ((size : Int) + i + 1).toNat

def byte (args : Args) : Run (List Value) := do
  let s ← args.string 1
  let i ← args.integerOr 2 1
  let start := startPlace i s.size
  let stop := endPlace (← args.integerOr 3 i) s.size
  return (s.slice (start - 1) stop).asList.map fun b => .nat b.toNat

/-- The byte that each argument is, numbered from `n`. -/
def charsFrom (args : Args) : Nat → Nat → Run (List UInt8)
  | 0, _ => pure []
  | count + 1, n => do
    let c ← args.integer n
    if c < 0 || 255 < c then badArgument n "value out of range"
    let rest ← charsFrom args count (n + 1)
    return c.toInt.toNat.toUInt8 :: rest

def sub (args : Args) : Run (List Value) := do
  let s ← args.string 1
  let start := startPlace (← args.integer 2) s.size
  let stop := endPlace (← args.integerOr 3 (-1)) s.size
  return [.str (s.slice (start - 1) stop)]

/-- So many copies with a text between neighbours. -/
def copies (s sep : Bytes) : Nat → Bytes → Bytes
  | 0, acc => acc
  | n + 1, acc => copies s sep n (acc ++ sep ++ s)

def rep (args : Args) : Run (List Value) := do
  let s ← args.string 1
  let n := (← args.integer 2).toInt
  let sep ← args.stringOr 3 .empty
  if n ≤ 0 then return [.str .empty]
  if maxSize / n.toNat < s.size + sep.size then fail "resulting string too large"
  return [.str (copies s sep (n.toNat - 1) s)]

def dump (args : Args) : Run (List Value) := do
  match ← args.function 1 with
  | .func f =>
    match ← read (·.function f) with
    | .closure .. => return [.str (Chunk.dumped f)]
    | _ => fail "unable to dump given function"
  | _ => fail "unable to dump given function"

/-! ## Searching -/

def ofPattern {α : Type} : Except String α → Run α
  | .ok a => pure a
  | .error e => fail e

/-- The value of a capture. -/
def captureValue (s : Bytes) : Capture → Run Value
  | .text start stop => pure (.str (s.slice start stop))
  | .position i => pure (.nat (i + 1))
  | .unfinished _ => fail "unfinished capture"

/-- The captures of a match, or the whole match if there are none. -/
def captureValues (s : Bytes) (start stop : Nat) (caps : List Capture) : Run (List Value) :=
  match caps with
  | [] => pure [.str (s.slice start stop)]
  | caps => caps.mapM (captureValue s)

/-- The place after `^` if the pattern begins with it. -/
def anchor (pat : Bytes) : Bool × Nat := if pat.at0 0 == 94 && 0 < pat.size then (true, 1) else (false, 0)

def find (args : Args) (isFind : Bool) : Run (List Value) := do
  let s ← args.string 1
  let pat ← args.string 2
  let start := startPlace (← args.integerOr 3 1) s.size - 1
  if s.size < start then return [.nil]
  if isFind && ((args.arg 4).truthy || Pattern.isPlain pat) then
    match s.find? pat start with
    | some i => return [.nat (i + 1), .nat (i + pat.size)]
    | none => return [.nil]
  let (anchored, p) := anchor pat
  match ← ofPattern (Pattern.search ⟨s, pat⟩ p anchored (s.size + 2) start) with
  | none => return [.nil]
  | some (i, stop, caps) =>
    if isFind then
      let vs ← caps.mapM (captureValue s)
      return .nat (i + 1) :: .nat stop :: vs
    else captureValues s i stop caps

/-- The next match at or after a place that does not end where the last one ended. -/
def nextMatch (s : Pattern.Subject) (last : Option Nat) :
    Nat → Nat → Except String (Option (Nat × Nat × List Capture))
  | 0, _ => .ok none
  | fuel + 1, i =>
    if s.text.size < i then .ok none
    else
      match Pattern.matchAt s i 0 with
      | .error e => .error e
      | .ok (some (stop, caps)) =>
        if last == some stop then nextMatch s last fuel (i + 1) else .ok (some (i, stop, caps))
      | .ok none => nextMatch s last fuel (i + 1)

def gmatch (args : Args) : Run (List Value) := do
  let s ← args.string 1
  let pat ← args.string 2
  let start := startPlace (← args.integerOr 3 1) s.size - 1
  let start := if s.size < start then s.size + 1 else start
  let f ← newBuiltin (.string .gmatchStep) [.str s, .str pat, .nat start, .nil]
  return [f]

/-- Replaces the values that a function object of the library holds. -/
def setCaptured (f : FuncId) (captured : List Value) : Run Unit :=
  modify fun s =>
    { s with functions := s.functions.modify f.index fun
        | .builtin b _ => .builtin b captured.toArray
        | o => o }

def natOf : Value → Nat
  | .int n => n.toInt.toNat
  | _ => 0

def gmatchStep (self : FuncId) (captured : Array Value) : Run (List Value) := do
  match captured.toList with
  | [.str s, .str pat, at_, last] =>
    let start := natOf at_
    let last? :=
      match last with
      | .int n => some n.toInt.toNat
      | _ => none
    match ← ofPattern (nextMatch ⟨s, pat⟩ last? (s.size + 2) start) with
    | none =>
      setCaptured self [.str s, .str pat, .nat (s.size + 1), last]
      return [.nil]
    | some (i, stop, caps) =>
      setCaptured self [.str s, .str pat, .nat stop, .nat stop]
      captureValues s i stop caps
  | _ => return [.nil]

/-! ## Replacing -/

/-- The replacement text for a match: `%` and a digit stand for a capture. -/
def expand (s : Bytes) (start stop : Nat) (caps : List Capture) : List UInt8 → Run Bytes
  | [] => pure .empty
  | [37] => fail "invalid use of '%' in replacement string"
  | 37 :: d :: rest => do
    let piece ←
      if d == 37 then pure (ofText "%")
      else if d == 48 then pure (s.slice start stop)
      else if Ascii.isDigit d then
        let n := d.toNat - 49
        match caps[n]? with
        | some c => do pure ((← captureValue s c).bytes?.getD .empty)
        | none =>
          if n == 0 then pure (s.slice start stop)
          else fail ("invalid capture index %" ++ toString (n + 1) ++ " in replacement string")
      else fail "invalid use of '%' in replacement string"
    return piece ++ (← expand s start stop caps rest)
  | b :: rest => do return Bytes.singleton b ++ (← expand s start stop caps rest)

/-- What takes the place of a match; false and nil leave it. -/
def replacement (args : Args) (s : Bytes) (start stop : Nat) (caps : List Capture) :
    Run Bytes := do
  let v ←
    match args.arg 3 with
    | .func f => do
      let vs ← captureValues s start stop caps
      pure (first (← call (.func f) vs {}))
    | .table t => do
      let vs ← captureValues s start stop caps
      Operation.index .library none (.table t) (first vs)
    | v => do
      let text := v.bytes?.getD .empty
      if text.asList.contains 37 then
        pure (Value.str (← expand s start stop caps text.asList))
      else pure (Value.str text)
  if !v.truthy then return s.slice start stop
  match v.bytes? with
  | some b => return b
  | none => fail ("invalid replacement value (a " ++ v.typeName ++ ")")

/-- A replacement on its way: what was written, where it stands, how many were made. -/
structure Replacing where
  out : Bytes := .empty
  place : Nat := 0
  last : Option Nat := none
  count : Nat := 0

def gsub (args : Args) : Run (List Value) := do
  let s ← args.string 1
  let pat ← args.string 2
  match args.arg 3 with
  | .str _ | .int _ | .float _ | .table _ | .func _ => pure ()
  | _ => args.failType 3 "string/function/table"
  let limit := (← args.integerOr 4 (Int64.ofNat (s.size + 1))).toInt
  let (anchored, p) := anchor pat
  let r ← loopWith ({} : Replacing) fun r => do
    if limit ≤ r.count then return .inr r
    let next ←
      match ← ofPattern (Pattern.matchAt ⟨s, pat⟩ r.place p) with
      | some (stop, caps) =>
        if r.last == some stop then pure none
        else do
          let piece ← replacement args s r.place stop caps
          pure (some { out := r.out ++ piece, place := stop, last := some stop, count := r.count + 1 })
      | none => pure none
    match next with
    | some r => if anchored then return .inr r else return .inl r
    | none =>
      if r.place < s.size then
        let r := { r with out := r.out.push (s.at0 r.place), place := r.place + 1 }
        if anchored then return .inr r else return .inl r
      else return .inr r
  return [.str (r.out ++ s.drop r.place), .nat r.count]

/-! ## Formatting -/

def layout (spec : Format.Spec) (flags : String) (precision : Bool) : Run Format.Layout :=
  match spec.layout? flags precision with
  | some l => pure l
  | none =>
    failBytes (ofText "invalid conversion '" ++ Token.upToZero spec.shown
      ++ ofText "' to 'format'")

/-- What a script would write for a value. -/
def literal (args : Args) (n : Nat) : Run Bytes :=
  match args.arg n with
  | .str s => pure (Format.quoted s)
  | .int i => pure (ofText (Format.intLiteral i))
  | .float d => pure (ofText (Format.doubleLiteral d))
  | .nil => pure (ofText "nil")
  | .bool b => pure (ofText (if b then "true" else "false"))
  | _ => badArgument n "value has no literal form"

/-- One conversion applied to the argument numbered `n`. -/
def convert (spec : Format.Spec) (args : Args) (n : Nat) : Run Bytes := do
  match Char.ofNat spec.letter.toNat with
  | 'c' =>
    let l ← layout spec "-" false
    return l.fill (Bytes.singleton (← args.integer n).toInt8.toUInt8)
  | 'd' | 'i' =>
    let i ← args.integer n
    return (← layout spec "-+0 " true).decimal i
  | 'u' =>
    let i ← args.integer n
    return (← layout spec "-0" true).unsigned spec.letter i
  | 'o' | 'x' | 'X' =>
    let i ← args.integer n
    return (← layout spec "-#0" true).unsigned spec.letter i
  | 'a' | 'A' =>
    let l ← layout spec "-+ #0" true
    return l.double spec.letter (← args.double n)
  | 'f' | 'e' | 'E' | 'g' | 'G' =>
    let d ← args.double n
    return (← layout spec "-+ #0" true).double spec.letter d
  | 'p' =>
    let v := args.arg n
    let l ← layout spec "-" false
    let a := Operation.addressOf v
    return l.fill (if a.size == 0 then ofText "(null)" else a)
  | 'q' =>
    if spec.text.length != 1 then fail "specifier '%q' cannot have modifiers"
    literal args n
  | 's' =>
    let s ← Operation.text (args.arg n)
    if spec.text.length == 1 then return s
    if s.asList.contains 0 then badArgument n "string contains zeros"
    let l ← layout spec "-" true
    if l.precision.isNone && 100 ≤ s.size then return s
    return l.text s
  | _ =>
    failBytes (ofText "invalid conversion '" ++ Token.upToZero spec.shown
      ++ ofText "' to 'format'")

/-- The rest of a format; arguments up to the one numbered `n` are used. -/
def formatFrom (args : Args) : Nat → Nat → List UInt8 → Bytes → Run Bytes
  | 0, _, _, acc => pure acc
  | _ + 1, _, [], acc => pure acc
  | fuel + 1, n, 37 :: 37 :: rest, acc => formatFrom args fuel n rest (acc.push 37)
  | fuel + 1, n, 37 :: rest, acc => do
    let n := n + 1
    if args.length < n then badArgument n "no value"
    match Format.takeSpec rest with
    | none => fail "invalid format string to 'format'"
    | some (spec, rest) =>
      let piece ← convert spec args n
      formatFrom args fuel n rest (acc ++ piece)
  | fuel + 1, n, b :: rest, acc => formatFrom args fuel n rest (acc.push b)

def format (args : Args) : Run (List Value) := do
  let f ← args.string 1
  return [.str (← formatFrom args (f.size + 1) 1 f.asList .empty)]

/-! ## Packing -/

/-- The next option of a format; the format is the first argument. -/
def packItem (m : Pack.Mode) (before : Nat) (bs : List UInt8) :
    Run (Pack.Item × Pack.Mode × List UInt8) :=
  match Pack.takeItem m before bs with
  | .ok r => pure r
  | .error (true, e) => badArgument 1 e
  | .error (false, e) => fail e

def zeros (n : Nat) : Bytes := Bytes.replicate n 0

/-- What one option writes, and how many arguments it takes. -/
def packOne (m : Pack.Mode) (item : Pack.Item) (args : Args) (n : Nat) : Run (Bytes × Nat) := do
  match item.kind with
  | .int size =>
    let i := (← args.integer n).toInt
    if size < 8 then
      let limit := Int.pow 2 (size * 8 - 1)
      if i < -limit || limit ≤ i then badArgument n "integer overflow"
    return (Pack.intBytes m.little size i, 1)
  | .uint size =>
    let i ← args.integer n
    if size < 8 && Nat.pow 2 (size * 8) ≤ i.toUInt64.toNat then badArgument n "unsigned overflow"
    return (Pack.bytesOf m.little size i.toUInt64.toNat, 1)
  | .float =>
    return (Pack.bytesOf m.little 4 (Pack.singleBits (← args.double n)).toNat, 1)
  | .double => return (Pack.bytesOf m.little 8 (← args.double n).bits.toNat, 1)
  | .char size =>
    let s ← args.string n
    if size < s.size then badArgument n "string longer than given size"
    return (s ++ zeros (size - s.size), 1)
  | .string size =>
    let s ← args.string n
    if size < 8 && Nat.pow 2 (size * 8) ≤ s.size then
      badArgument n "string length does not fit in given size"
    return (Pack.bytesOf m.little size s.size ++ s, 1)
  | .zeroString =>
    let s ← args.string n
    if s.asList.contains 0 then badArgument n "string contains zeros"
    return (s.push 0, 1)
  | .padding => return (zeros 1, 0)
  | .alignPadding | .nothing => return (.empty, 0)

def packFrom (args : Args) : Nat → Pack.Mode → Nat → List UInt8 → Bytes → Run Bytes
  | 0, _, _, _, acc => pure acc
  | _ + 1, _, _, [], acc => pure acc
  | fuel + 1, m, n, bs, acc => do
    let (item, m, rest) ← packItem m acc.size bs
    let (piece, used) ← packOne m item args n
    packFrom args fuel m (n + used) rest (acc ++ zeros item.padding ++ piece)

def pack (args : Args) : Run (List Value) := do
  let f ← args.string 1
  return [.str (← packFrom args (f.size + 1) {} 2 (Pack.optionsOf f) .empty)]

def packSizeFrom : Nat → Pack.Mode → List UInt8 → Nat → Run Nat
  | 0, _, _, total => pure total
  | _ + 1, _, [], total => pure total
  | fuel + 1, m, bs, total => do
    let (item, m, rest) ← packItem m total bs
    match item.kind with
    | .string _ | .zeroString => badArgument 1 "variable-length format"
    | _ => pure ()
    let total := total + item.padding + item.size
    if maxSize < total then badArgument 1 "format result too large"
    packSizeFrom fuel m rest total

/-- An integer in so many bytes; the bytes past the eighth must only extend its sign. -/
def unpackInt (little signed : Bool) (b : Bytes) : Run Value := do
  let size := b.size
  let v := Pack.numberOf little b
  let low := v % Nat.pow 2 64
  if size ≤ 8 then
    let full := Nat.pow 2 (size * 8)
    if signed && full ≤ 2 * v then return .int (Int64.ofInt ((v : Int) - full))
    return .int (UInt64.ofNat v).toInt64
  let high := v / Nat.pow 2 64
  let negative := signed && Nat.pow 2 63 ≤ low
  if high == 0 || (negative && high == Nat.pow 2 ((size - 8) * 8) - 1) then
    return .int (UInt64.ofNat low).toInt64
  fail (toString size ++ "-byte integer does not fit into Lua Integer")

/-- The value of one option at a place of the data, and the place after it. -/
def unpackOne (m : Pack.Mode) (item : Pack.Item) (data : Bytes) (place : Nat) :
    Run (List Value × Nat) := do
  let here := data.slice place (place + item.size)
  match item.kind with
  | .int _ => return ([← unpackInt m.little true here], place + item.size)
  | .uint _ => return ([← unpackInt m.little false here], place + item.size)
  | .float =>
    return ([.float (Pack.ofSingleBits (Pack.numberOf m.little here).toUInt32)], place + item.size)
  | .double =>
    return ([.float ⟨(Pack.numberOf m.little here).toUInt64⟩], place + item.size)
  | .char size => return ([.str here], place + size)
  | .string size =>
    let n := Pack.numberOf m.little here
    if data.size < place + size + n then badArgument 2 "data string too short"
    return ([.str (data.slice (place + size) (place + size + n))], place + size + n)
  | .zeroString =>
    let rest := (data.drop place).asList
    let s := rest.takeWhile (· != 0)
    if s.length == rest.length then badArgument 2 "unfinished string for format 'z'"
    return ([.str (Bytes.ofList s)], place + s.length + 1)
  | .padding | .alignPadding | .nothing => return ([], place + item.size)

def unpackFrom (data : Bytes) : Nat → Pack.Mode → List UInt8 → Nat → Run (List Value)
  | 0, _, _, place => pure [.nat (place + 1)]
  | _ + 1, _, [], place => pure [.nat (place + 1)]
  | fuel + 1, m, bs, place => do
    let (item, m, rest) ← packItem m place bs
    if data.size < place + item.padding + item.size then badArgument 2 "data string too short"
    let (vs, place) ← unpackOne m item data (place + item.padding)
    return vs ++ (← unpackFrom data fuel m rest place)

def unpack (args : Args) : Run (List Value) := do
  let f ← args.string 1
  let data ← args.string 2
  let start := startPlace (← args.integerOr 3 1) data.size - 1
  if data.size < start then badArgument 3 "initial position out of string"
  unpackFrom data (f.size + 1) {} (Pack.optionsOf f) start

/-! ## Arithmetic on strings -/

def operatorOf : StringOperator → Option BinaryOp
  | .add => some .add
  | .sub => some .sub
  | .mul => some .mul
  | .mod => some .mod
  | .pow => some .pow
  | .div => some .div
  | .idiv => some .idiv
  | .unm => none

def eventOf : StringOperator → String
  | .unm => "unm"
  | o => (operatorOf o).elim "" Operation.eventOf

def applyOperator (o : StringOperator) (args : Args) : Run (List Value) := do
  let a := args.arg 1
  let b := args.arg 2
  match a.toNumeral?, b.toNumeral? with
  | some x, some y =>
    match operatorOf o with
    | some op =>
      return [← Operation.arithmetic .library op ⟨.number x, none⟩ ⟨.number y, none⟩]
    | none => return [.number (Arithmetic.negate x)]
  | _, _ =>
    let event := eventOf o
    let h ←
      match b with
      | .str _ => pure Value.nil
      | b => metamethod b ("__" ++ event)
    if h.isNil then
      fail ("attempt to " ++ event ++ " a '" ++ a.typeName ++ "' with a '" ++ b.typeName ++ "'")
    return [first (← call h [a, b] {})]

def run (f : StringFunction) (self : FuncId) (captured : Array Value) (args : Args) :
    Run (List Value) := do
  match f with
  | .byte => byte args
  | .char => return [.str (Bytes.ofList (← charsFrom args args.length 1))]
  | .dump => dump args
  | .find => find args true
  | .format => format args
  | .gmatch => gmatch args
  | .gmatchStep => gmatchStep self captured
  | .gsub => gsub args
  | .len => return [.nat (← args.string 1).size]
  | .lower => return [.str ((← args.string 1).map Ascii.toLower)]
  | .match => find args false
  | .pack => pack args
  | .packSize => do
    let f ← args.string 1
    return [.nat (← packSizeFrom (f.size + 1) {} (Pack.optionsOf f) 0)]
  | .rep => rep args
  | .reverse => return [.str (← args.string 1).reverse]
  | .sub => sub args
  | .unpack => unpack args
  | .upper => return [.str ((← args.string 1).map Ascii.toUpper)]

end Enclosure.Lua.Library.Text
