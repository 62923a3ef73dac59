import Enclosure.Lua.Operation

/-!
# Evaluation

Expressions give lists of values, statements a signal that says how to go on. A call is a request, so
evaluation recurses on the program text alone; loops count their rounds against a limit that no run
reaches.

Operands that are variables of the running function are read when the operation is done, after the
other operands; all else is read in order of appearance.
-/

namespace Enclosure.Lua

/-- Where a piece of program is evaluated. -/
structure Scope where
  /-- The variables in scope, innermost first. -/
  env : List CellId
  varargs : List Value
  chunk : Bytes

/-- How to go on after a statement. -/
inductive Signal
  | normal
  /-- Leave the innermost loop. -/
  | leave
  /-- Go on after a label, with the variables that were in scope at the jump. -/
  | jump (label : Bytes) (env : List CellId)
  | ret (vs : List Value)

def Literal.value : Literal → Value
  | .nil => .nil
  | .bool b => .bool b
  | .int n => .int n
  | .float d => .float d
  | .str s => .str s

namespace Evaluate

open Run Operation

/-! ## Variables -/

def cellAt (c : Scope) (slot : Nat) : CellId := c.env.getD slot ⟨0⟩

def readSlot (c : Scope) (slot : Nat) : Run Value := readCell (cellAt c slot)

/-- New variables in front of the others, as many as `count`; values that are missing are nil. -/
def declare : Nat → List Value → List CellId → Run (List CellId)
  | 0, _, env => pure env
  | n + 1, vs, env => do
    let cell ← newCell (first vs)
    declare n vs.tail (cell :: env)

/-- The variable of the running function that an expression is. -/
def ownCell? (c : Scope) : Expr → Option CellId
  | .variable slot false _ => some (cellAt c slot)
  | .paren e => ownCell? c e
  | _ => none

/-- A function with the variables in scope. -/
def closure (c : Scope) (body : FuncBody) : Run Value :=
  newFunction (.closure body c.env c.chunk)

/-! ## Operators -/

def unary (op : UnaryOp) (line : Nat) (a : Operand) : Run Value :=
  match op with
  | .minus => minus (.line line) a
  | .not => pure (.bool (!a.value.truthy))
  | .length => length (.line line) a
  | .bitNot => bitNot (.line line) a

def binary (op : BinaryOp) (line : Nat) (a b : Operand) : Run Value :=
  let w := Where.line line
  match op with
  | .concat => concat w a b
  | .eq => do return .bool (← equal w a.value b.value)
  | .ne => do return .bool !(← equal w a.value b.value)
  | .lt => do return .bool (← less w a.value b.value)
  | .le => do return .bool (← lessEq w a.value b.value)
  | .gt => do return .bool (← less w b.value a.value)
  | .ge => do return .bool (← lessEq w b.value a.value)
  | op => arithmetic w op a b

/-- Whether the left operand may be read after the right one. -/
def readsLate (op : BinaryOp) (left : Expr) : Bool :=
  left.isOwnVariable && !(op == .concat)

/-! ## Jumps -/

/-- Whether a label stands in the block itself. -/
def hasLabel (l : Bytes) : List Stmt → Bool
  | [] => false
  | .label n _ :: rest => n == l || hasLabel l rest
  | _ :: rest => hasLabel l rest

/-- A label to go on after, with the variables in scope at the jump. -/
abbrev Landing := Option (Bytes × List CellId)

/-- Runs a block from its start and again from each label of its own that is jumped to. -/
def withLabels (body : List Stmt) (run : Landing → Run Signal) : Run Signal :=
  loopWith none fun landing => do
    match ← run landing with
    | .jump l env =>
      if hasLabel l body then return .inl (some (l, env)) else return .inr (.jump l env)
    | s => return .inr s

/-- The scope at a label that has so many variables in scope. -/
def landAt (c : Scope) (env : List CellId) (depth : Nat) : Scope :=
  { c with env := env.drop (env.length - depth) }

/-! ## Places that are assigned to -/

/-- A value that is known, or a variable to be read later. -/
inductive Late
  | known (v : Value)
  | later (c : CellId)

inductive Place
  | variable (c : CellId)
  | field (object : Late) (key : Late) (origin : Option Origin)

def Late.read : Late → Run Value
  | .known v => pure v
  | .later c => readCell c

/-- A place with everything known that an assignment to it needs. -/
inductive ReadyPlace
  | variable (c : CellId)
  | field (object key : Value) (origin : Option Origin)

def Place.ready : Place → Run ReadyPlace
  | .variable c => pure (.variable c)
  | .field o k origin => do return .field (← o.read) (← k.read) origin

def ReadyPlace.write (line : Nat) (v : Value) : ReadyPlace → Run Unit
  | .variable c => writeCell c v
  | .field o k origin => setIndex (.line line) origin o k v

def readyAll : List Place → Run (List ReadyPlace)
  | [] => pure []
  | p :: rest => do
    let p ← p.ready
    let rest ← readyAll rest
    return p :: rest

/-- Writes the values, the last place first; values that are missing are nil. -/
def writeAll (line : Nat) : List ReadyPlace → List Value → Run Unit
  | [], _ => pure ()
  | p :: rest, vs => do
    writeAll line rest vs.tail
    p.write line (first vs)

/-! ## Closing -/

/-- Marks a value to be closed; nil and false need no closing. Answers whether it was marked. -/
def deferClose (line : Nat) (name : Bytes) (v : Value) : Run Bool := do
  if !v.truthy then return false
  let h ← metamethod v "__close"
  if h.isNil then
    failAt (.line line) (Bytes.ofText "variable '" ++ name
      ++ Bytes.ofText "' got a non-closable value")
  let _ ← ask (.defer v)
  return true

/-- Closes the value marked last, if one was, and goes on as said. -/
def closing (marked : Bool) (line : Nat) (s : Signal) : Run Signal := do
  if marked then
    let _ ← ask (.closeLast line)
  return s

/-! ## Loops -/

/-- What a numeric loop runs through. -/
inductive Range
  | empty
  /-- `more` steps after the first round. -/
  | ints (start step : Int64) (more : Nat)
  | doubles (start limit step : Double)

def failFor {α : Type} (line : Nat) (what : String) (v : Value) : Run α := do
  let t ← shownType v
  failAt (.line line) (Bytes.ofText ("bad 'for' " ++ what ++ " (number expected, got ") ++ t
    ++ Bytes.ofText ")")

/-- The last integer within a limit that is a double; nothing if no round is to be run. -/
def clipLimit (d : Double) (up : Bool) : Option Int64 :=
  match (if up then d.floor else d.ceil).toInt64? with
  | some n => some n
  | none =>
    if Double.zero.lt d then (if up then some Int64.maxValue else none)
    else if up then none
    else some Int64.minValue

/-- The rounds from `start` to `limit` by `step`, which is not zero. -/
def intRange (start limit step : Int64) : Range :=
  if 0 < step then
    if limit < start then .empty
    else .ints start step ((limit.toInt - start.toInt) / step.toInt).toNat
  else if start < limit then .empty
  else .ints start step ((start.toInt - limit.toInt) / -step.toInt).toNat

def doubleRange (start limit step : Double) : Range :=
  if (if Double.zero.lt step then limit.lt start else start.lt limit) then .empty
  else .doubles start limit step

def rangeOf (line : Nat) (start limit step : Value) : Run Range := do
  match start, step with
  | .int a, .int s =>
    if s == 0 then failTextAt (.line line) "'for' step is zero"
    match limit.toNumeral? with
    | none => failFor line "limit" limit
    | some (.int l) => return intRange a l s
    | some (.float d) =>
      match clipLimit d (0 < s) with
      | some l => return intRange a l s
      | none => return .empty
  | _, _ =>
    match limit.toNumeral?, step.toNumeral?, start.toNumeral? with
    | none, _, _ => failFor line "limit" limit
    | _, none, _ => failFor line "step" step
    | _, _, none => failFor line "initial value" start
    | some l, some s, some a =>
      if s.toDouble.beq Double.zero then failTextAt (.line line) "'for' step is zero"
      return doubleRange a.toDouble l.toDouble s.toDouble

/-- What a loop does after a round of its body: nothing to go on. -/
def afterRound : Signal → Option Signal
  | .normal => none
  | .leave => some .normal
  | s => some s

/-- A numeric loop; the body gets the value of the round. -/
def overRange (r : Range) (body : Value → Run Signal) : Run Signal :=
  match r with
  | .empty => pure .normal
  | .ints start step more =>
    loopWith (start, more) fun (i, more) => do
      match afterRound (← body (.int i)) with
      | some s => return .inr s
      | none =>
        match more with
        | 0 => return .inr .normal
        | more + 1 => return .inl (i + step, more)
  | .doubles start limit step =>
    loopWith start fun d => do
      match afterRound (← body (.float d)) with
      | some s => return .inr s
      | none =>
        let d := d.add step
        let within := if Double.zero.lt step then d.le limit else limit.le d
        if within then return .inl d else return .inr .normal

/-- A loop over what an iterator gives; the body gets the values of the round. -/
def overIterator (line : Nat) (f state control : Value) (body : List Value → Run Signal) :
    Run Signal :=
  loopWith control fun control => do
    let name : Origin := ⟨"for iterator", Bytes.ofText "for iterator"⟩
    let vs ← call f [state, control] { line, name := some name }
    if (first vs).isNil then return .inr .normal
    match afterRound (← body vs) with
    | some s => return .inr s
    | none => return .inl (first vs)

/-! ## Expressions and statements -/

/-- Stores values at `n`, `n + 1` and so on. -/
def storeFrom (t : TableId) : Nat → List Value → Run Unit
  | _, [] => pure ()
  | n, v :: vs => do
    rawSetInt t n v
    storeFrom t (n + 1) vs

mutual

def eval (c : Scope) : Expr → Run (List Value)
  | .literal l => pure [l.value]
  | .vararg => pure c.varargs
  | .variable slot _ _ => do return [← readSlot c slot]
  | .index object key line => do
    if object.isOwnVariable then
      let k ← eval c key
      let o ← eval c object
      return [← index (.line line) object.origin? (first o) (first k)]
    else
      let o ← eval c object
      let k ← eval c key
      return [← index (.line line) object.origin? (first o) (first k)]
  | .call callee args line => do
    let f ← eval c callee
    let vs ← evalList c args
    call (first f) vs { line, name := callee.origin?, nested := false }
  | .method object name args selfLine line => do
    let o ← eval c object
    let f ← index (.line selfLine) object.origin? (first o) (.str name)
    let vs ← evalList c args
    call f (first o :: vs) { line, name := some ⟨"method", name⟩, nested := false }
  | .function body => do return [← closure c body]
  | .unary op operand line => do
    let v ← eval c operand
    return [← unary op line ⟨first v, operand.origin?⟩]
  | .binary op left right line => do
    if readsLate op left then
      let b ← eval c right
      let a ← eval c left
      return [← binary op line ⟨first a, left.origin?⟩ ⟨first b, right.origin?⟩]
    else
      let a ← eval c left
      let b ← eval c right
      return [← binary op line ⟨first a, left.origin?⟩ ⟨first b, right.origin?⟩]
  | .and left right => do
    let a ← eval c left
    if (first a).truthy then return [first (← eval c right)] else return [first a]
  | .or left right => do
    let a ← eval c left
    if (first a).truthy then return [first a] else return [first (← eval c right)]
  | .paren inner => do return [first (← eval c inner)]
  | .table items arrayRoom hashRoom => do
    let t ← step (·.newTable (Table.withRoom arrayRoom hashRoom))
    evalItems c t 1 items
    return [.table t]

/-- The values of expressions, one of each and all of the last. -/
def evalList (c : Scope) : List Expr → Run (List Value)
  | [] => pure []
  | [e] => eval c e
  | e :: rest => do
    let v ← eval c e
    let vs ← evalList c rest
    return first v :: vs

/-- Fills a table; positional items are numbered from `n`. -/
def evalItems (c : Scope) (t : TableId) (n : Nat) : List Item → Run Unit
  | [] => pure ()
  | .positional e :: rest => do
    let vs ← eval c e
    if rest.isEmpty && e.isMulti then storeFrom t n vs
    else
      rawSetInt t n (first vs)
      evalItems c t (n + 1) rest
  | .keyed key value line :: rest => do
    let k ← eval c key
    let v ← eval c value
    rawSet (.line line) t (first k) (first v)
    evalItems c t n rest

/-- The places that expressions name. -/
def places (c : Scope) : List Expr → Run (List Place)
  | [] => pure []
  | .variable slot _ _ :: rest => do return .variable (cellAt c slot) :: (← places c rest)
  | .index object key _ :: rest => do
    let o ←
      match ownCell? c object with
      | some cell => pure (Late.later cell)
      | none => do pure (Late.known (first (← eval c object)))
    let k ←
      match ownCell? c key with
      | some cell => pure (Late.later cell)
      | none => do pure (Late.known (first (← eval c key)))
    return .field o k object.origin? :: (← places c rest)
  | _ :: rest => places c rest

/-- One statement that declares nothing. -/
def exec (c : Scope) : Stmt → Run Signal
  | .assign targets values line => do
    let ps ← places c targets
    let vs ← evalList c values
    let ps ← readyAll ps
    writeAll line ps vs
    return .normal
  | .call e => do
    let _ ← eval c e
    return .normal
  | .block body => withLabels body fun l => execList c l body
  | .while condition body =>
    loop do
      let v ← eval c condition
      if (first v).truthy then
        let s ← withLabels body fun l => execList c l body
        return afterRound s
      else return some .normal
  | .repeat body =>
    loop do
      let s ← withLabels body fun l => execList c l body
      return afterRound s
  | .leaveIf condition => do
    let v ← eval c condition
    return if (first v).truthy then .leave else .normal
  | .ifThen condition thenBody elseBody => do
    let v ← eval c condition
    if (first v).truthy then withLabels thenBody fun l => execList c l thenBody
    else withLabels elseBody fun l => execList c l elseBody
  | .numericFor start limit step body line => do
    let a ← eval c start
    let l ← eval c limit
    let s ← eval c step
    let r ← rangeOf line (first a) (first l) (first s)
    overRange r fun v => do
      let env ← declare 1 [v] c.env
      withLabels body fun l => execList { c with env } l body
  | .genericFor count values body line => do
    let vs ← evalList c values
    let marked ← deferClose line (Bytes.ofText "(for state)") (first (vs.drop 3))
    let s ← overIterator line (first vs) (first (vs.drop 1)) (first (vs.drop 2)) fun vs => do
      let env ← declare count vs c.env
      withLabels body fun l => execList { c with env } l body
    closing marked line s
  | .ret values => do return .ret (← evalList c values)
  | .tailCall callee args line => do
    let f ← eval c callee
    let vs ← evalList c args
    return .ret (← ask (.tailCall (first f) vs { line, name := callee.origin?, nested := false }))
  | .tailMethod object name args selfLine line => do
    let o ← eval c object
    let f ← index (.line selfLine) object.origin? (first o) (.str name)
    let vs ← evalList c args
    return .ret (← ask (.tailCall f (first o :: vs)
      { line, name := some ⟨"method", name⟩, nested := false }))
  | .break => pure .leave
  | .goto label => pure (.jump label c.env)
  | .localVars .. | .localClose .. | .localFunction _ | .label .. => pure .normal

/-- Statements from their start, or from after a label. -/
def execList (c : Scope) (landing : Landing) : List Stmt → Run Signal
  | [] => pure .normal
  | s :: rest =>
    match landing with
    | some (l, env) =>
      match s with
      | .label n depth =>
        if n == l then execList (landAt c env depth) none rest else execList c landing rest
      | _ => execList c landing rest
    | none =>
      match s with
      | .localVars count values => do
        let vs ← evalList c values
        let env ← declare count vs c.env
        execList { c with env } none rest
      | .localFunction body => do
        let cell ← newCell .nil
        let inner := { c with env := cell :: c.env }
        let f ← closure inner body
        writeCell cell f
        execList inner none rest
      | .localClose count values position name line => do
        let vs ← evalList c values
        let env ← declare count vs c.env
        let marked ← deferClose line name (first (vs.drop position))
        let s ← withLabels rest fun l => execList { c with env } l rest
        closing marked line s
      | .label _ _ => execList c none rest
      | s => do
        match ← exec c s with
        | .normal => execList c none rest
        | other => return other

end

def callBody (body : FuncBody) (env : List CellId) (chunk : Bytes) (args : List Value) :
    Run (List Value) :=
  match body with
  | .mk params variadic statements _ => do
    let env ← declare params args env
    let c : Scope := { env, chunk, varargs := if variadic then args.drop params else [] }
    match ← withLabels statements fun l => execList c l statements with
    | .ret vs => return vs
    | _ => return []

end Evaluate

end Enclosure.Lua
