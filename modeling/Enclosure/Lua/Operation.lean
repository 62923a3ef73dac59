import Enclosure.Lua.Arithmetic
import Enclosure.Lua.Run

/-!
# Operations on values

What the operators of the language and field accesses do, metamethods included. An operation is done
either at a line of a script or inside the library; the two differ in what an error message tells: in
a script the position is put in front, and an operand is named after where it came from.
-/

namespace Enclosure.Lua

inductive Where
  | line (n : Nat)
  | library

namespace Operation

open Run

/-- An error of an operation. -/
def failAt {α : Type} (w : Where) (message : Bytes) : Run α :=
  match w with
  | .line n => throw (.atLine n message)
  | .library => throw (.value (.str message))

def failTextAt {α : Type} (w : Where) (message : String) : Run α := failAt w (Bytes.ofText message)

def siteOf (w : Where) (event : String) : Site :=
  match w with
  | .line n => { line := n, name := some ⟨"metamethod", Bytes.ofText event⟩ }
  | .library => {}

/-- The type of a value as messages tell it: a metatable may give a name of its own. -/
def shownType (v : Value) : Run Bytes := do
  let named ←
    match v with
    | .table _ | .object _ => metamethod v "__name"
    | _ => pure .nil
  match named with
  | .str s => pure s
  | _ => pure (Bytes.ofText v.typeName)

/-- The name of an operand in parentheses, if it has one. -/
def originText (w : Where) (o : Option Origin) : Bytes :=
  match w, o with
  | .line _, some o => Bytes.ofText (" (" ++ o.kind ++ " '") ++ o.name ++ Bytes.ofText "')"
  | _, _ => .empty

/-- An operand has the wrong type. -/
def failType {α : Type} (w : Where) (action : String) (v : Value) (o : Option Origin) : Run α := do
  let t ← shownType v
  failAt w (Bytes.ofText ("attempt to " ++ action ++ " a ") ++ t ++ Bytes.ofText " value"
    ++ originText w o)

/-! ## Fields -/

/-- How many tables an access may pass. -/
def chainLimit : Nat := 2000

/-- The value of a field where an access can go no further. -/
def indexLast (w : Where) (object key : Value) : Run Value := do
  match object with
  | .table t =>
    let v ← rawGet t key
    if v.isNil then failTextAt w "'__index' chain too long; possibly a loop" else pure v
  | _ => failTextAt w "'__index' chain too long; possibly a loop"

/-- The value of a field, through `__index`. -/
def indexFrom (w : Where) : Nat → Option Origin → Value → Value → Run Value
  | 0, _, object, key => indexLast w object key
  | fuel + 1, origin, object, key => do
    let follow (handler : Value) : Run Value :=
      match handler with
      | .func _ => do return first (← call handler [object, key] (siteOf w "index"))
      | _ => indexFrom w fuel none handler key
    match object with
    | .table t =>
      let v ← rawGet t key
      if v.isNil then
        let handler ← metamethod object "__index"
        if handler.isNil then pure .nil else follow handler
      else pure v
    | _ =>
      let handler ← metamethod object "__index"
      if handler.isNil then failType w "index" object origin else follow handler

def index (w : Where) (origin : Option Origin) (object key : Value) : Run Value :=
  indexFrom w chainLimit origin object key

/-- Sets a field of a table without metamethods. -/
def rawSet (w : Where) (t : TableId) (key v : Value) : Run Unit :=
  match key.asKey? with
  | some k => rawSetKey t k v
  | none => failTextAt w (if key.isNil then "table index is nil" else "table index is NaN")

/-- Sets a field where an access can go no further, if the field is there. -/
def setIndexLast (w : Where) (object key v : Value) : Run Unit := do
  match object with
  | .table t =>
    let old ← rawGet t key
    if old.isNil then failTextAt w "'__newindex' chain too long; possibly a loop"
    else rawSet w t key v
  | _ => failTextAt w "'__newindex' chain too long; possibly a loop"

/-- Sets a field, through `__newindex`. -/
def setIndexFrom (w : Where) : Nat → Option Origin → Value → Value → Value → Run Unit
  | 0, _, object, key, v => setIndexLast w object key v
  | fuel + 1, origin, object, key, v => do
    let follow (handler : Value) : Run Unit :=
      match handler with
      | .func _ => do
        let _ ← call handler [object, key, v] (siteOf w "newindex")
        pure ()
      | _ => setIndexFrom w fuel none handler key v
    match object with
    | .table t =>
      let old ← rawGet t key
      if old.isNil then
        let handler ← metamethod object "__newindex"
        if handler.isNil then rawSet w t key v else follow handler
      else rawSet w t key v
    | _ =>
      let handler ← metamethod object "__newindex"
      if handler.isNil then failType w "index" object origin else follow handler

def setIndex (w : Where) (origin : Option Origin) (object key v : Value) : Run Unit :=
  setIndexFrom w chainLimit origin object key v

/-! ## Arithmetic -/

/-- The event that an operator's metamethod is named after. -/
def eventOf : BinaryOp → String
  | .add => "add"
  | .sub => "sub"
  | .mul => "mul"
  | .mod => "mod"
  | .pow => "pow"
  | .div => "div"
  | .idiv => "idiv"
  | .bitAnd => "band"
  | .bitOr => "bor"
  | .bitXor => "bxor"
  | .shiftLeft => "shl"
  | .shiftRight => "shr"
  | .concat => "concat"
  | .eq | .ne => "eq"
  | .lt | .gt => "lt"
  | .le | .ge => "le"

/-- The handler of an event of two operands: that of the first that has one. -/
def binaryHandler (event : String) (a b : Value) : Run Value := do
  let h ← metamethod a ("__" ++ event)
  if h.isNil then metamethod b ("__" ++ event) else pure h

/-- An operand with its name. -/
structure Operand where
  value : Value
  origin : Option Origin := none

/-- The operand to blame when one must be a number. -/
def culprit (a b : Operand) : Operand := if a.value.numeral?.isNone then a else b

/-- The operand to blame when one must be an integer. -/
def unintegral (a b : Operand) : Operand :=
  match a.value.numeral? with
  | some n => if n.toInt64?.isNone then a else b
  | none => a

/-- What is left when the operands are no numbers: a metamethod or an error. -/
def arithmeticFallback (w : Where) (op : BinaryOp) (a b : Operand) : Run Value := do
  let event := eventOf op
  let h ← binaryHandler event a.value b.value
  if !h.isNil then
    return first (← call h [a.value, b.value] (siteOf w event))
  if Arithmetic.isBitwise op then
    if a.value.numeral?.isSome && b.value.numeral?.isSome then
      let c := unintegral a b
      failAt w (Bytes.ofText "number" ++ originText w c.origin
        ++ Bytes.ofText " has no integer representation")
    else
      let c := culprit a b
      failType w "perform bitwise operation on" c.value c.origin
  else
    let c := culprit a b
    failType w "perform arithmetic on" c.value c.origin

def ofDefect {α : Type} (w : Where) : Except ArithmeticDefect α → Run α
  | .ok a => pure a
  | .error e => failTextAt w e.message

def arithmetic (w : Where) (op : BinaryOp) (a b : Operand) : Run Value :=
  match a.value.numeral?, b.value.numeral? with
  | some x, some y =>
    if Arithmetic.isBitwise op then
      match x.toInt64?, y.toInt64? with
      | some i, some j => do return .int (← ofDefect w (Arithmetic.onInts op i j))
      | _, _ => arithmeticFallback w op a b
    else do return .number (← ofDefect w (Arithmetic.apply op x y))
  | _, _ => arithmeticFallback w op a b

/-- A unary operation whose metamethod gets the operand twice. -/
def unaryFallback (w : Where) (event action : String) (a : Operand) : Run Value := do
  let h ← metamethod a.value ("__" ++ event)
  if h.isNil then failType w action a.value a.origin
  else return first (← call h [a.value, a.value] (siteOf w event))

def minus (w : Where) (a : Operand) : Run Value :=
  match a.value.numeral? with
  | some x => pure (.number (Arithmetic.negate x))
  | none => unaryFallback w "unm" "perform arithmetic on" a

def bitNot (w : Where) (a : Operand) : Run Value := do
  match a.value.numeral? with
  | some x =>
    match x.toInt64? with
    | some i => pure (.int (~~~i))
    | none =>
      failAt w (Bytes.ofText "number" ++ originText w a.origin
        ++ Bytes.ofText " has no integer representation")
  | none => unaryFallback w "bnot" "perform bitwise operation on" a

def length (w : Where) (a : Operand) : Run Value := do
  match a.value with
  | .str s => pure (.nat s.size)
  | v =>
    let h ← metamethod v "__len"
    if !h.isNil then return first (← call h [v, v] (siteOf w "len"))
    match v with
    | .table t => return .nat (← rawLength t)
    | _ => failType w "get length of" v a.origin

/-- Two values one after the other. -/
def concat (w : Where) (a b : Operand) : Run Value := do
  match a.value.bytes?, b.value.bytes? with
  | some x, some y => pure (.str (x ++ y))
  | x, _ =>
    let h ← binaryHandler "concat" a.value b.value
    if h.isNil then
      let c := if x.isSome then b else a
      failType w "concatenate" c.value c.origin
    else return first (← call h [a.value, b.value] (siteOf w "concat"))

/-! ## Comparison -/

def equal (w : Where) (a b : Value) : Run Bool := do
  if a.rawEq b then return true
  let comparable :=
    match a, b with
    | .table _, .table _ => true
    | .object _, .object _ => true
    | _, _ => false
  if !comparable then return false
  let h ← binaryHandler "eq" a b
  if h.isNil then return false
  return (first (← call h [a, b] (siteOf w "eq"))).truthy

/-- What is left when two operands are neither numbers nor strings. -/
def compareFallback (w : Where) (event : String) (a b : Value) : Run Bool := do
  let h ← binaryHandler event a b
  if !h.isNil then return (first (← call h [a, b] (siteOf w event))).truthy
  let x ← shownType a
  let y ← shownType b
  if x == y then
    failAt w (Bytes.ofText "attempt to compare two " ++ x ++ Bytes.ofText " values")
  else
    failAt w (Bytes.ofText "attempt to compare " ++ x ++ Bytes.ofText " with " ++ y)

def less (w : Where) (a b : Value) : Run Bool :=
  match a.numeral?, b.numeral? with
  | some x, some y => pure (Arithmetic.less x y)
  | _, _ =>
    match a, b with
    | .str x, .str y => pure (x.less y)
    | _, _ => compareFallback w "lt" a b

def lessEq (w : Where) (a b : Value) : Run Bool :=
  match a.numeral?, b.numeral? with
  | some x, some y => pure (Arithmetic.lessEq x y)
  | _, _ =>
    match a, b with
    | .str x, .str y => pure (x.lessEq y)
    | _, _ => compareFallback w "le" a b

/-! ## Text -/

/-- A number that stands for the place of an object. -/
def address (kind place : Nat) : Bytes :=
  let digits := Nat.toDigits 16 (0x560000000000 + kind * 0x1000000000 + place * 64)
  Bytes.ofText ("0x" ++ String.ofList digits)

/-- Where an object is; other values are nowhere. -/
def addressOf : Value → Bytes
  | .table t => address 1 t.index
  | .func f => address 2 f.index
  | .thread t => address 3 t.index
  | .object o => address 4 o.index
  | _ => .empty

/-- The text of a value without `__tostring`. -/
def plainText (v : Value) : Run Bytes := do
  match v with
  | .nil => pure (Bytes.ofText "nil")
  | .bool b => pure (Bytes.ofText (if b then "true" else "false"))
  | v =>
    match v.bytes? with
    | some b => pure b
    | none =>
      let named ← metamethod v "__name"
      let name :=
        match named with
        | .str s => s
        | _ => Bytes.ofText v.typeName
      pure (name ++ Bytes.ofText ": " ++ addressOf v)

def text (v : Value) : Run Bytes := do
  let h ← metamethod v "__tostring"
  if h.isNil then plainText v
  else
    match (first (← call h [v] {})).bytes? with
    | some b => pure b
    | none => fail "'__tostring' must return a string"

end Operation

end Enclosure.Lua
