import Enclosure.Lua.Grammar
import Enclosure.Lua.Token

/-!
# Reading programs

A recursive descent over the tokens that resolves names while it reads. The state knows the variables
in scope, innermost first, and for each function being read its open blocks with their labels and the
jumps not yet resolved. A jump that is still open when its function ends has no target.

Fuel is computed from the number of tokens and never runs out: between two tokens that are consumed
the calls nest to a bounded depth.
-/

namespace Enclosure.Lua

/-- Why a source is no program. -/
inductive SyntaxError
  | at (line : Nat) (message : Bytes)
  /-- The source nests too deeply. -/
  | tooDeep
  deriving DecidableEq

namespace Parser

/-- What a name in scope stands for. -/
inductive Binding
  /-- A variable of the program. -/
  | variable
  /-- A name for a constant, replaced by it wherever it is used. -/
  | constant (l : Literal)
  /-- A variable of a loop that the program cannot name. -/
  | hidden

structure VisibleName where
  name : Bytes
  attr : Attribute
  binding : Binding
  /-- The nesting depth of the function that declares it. -/
  level : Nat

structure Label where
  name : Bytes
  line : Nat
  /-- Names in scope at the label, counted over all functions. -/
  scope : Nat

/-- A jump without a target yet; a break has no label. -/
structure Jump where
  label : Option Bytes
  line : Nat
  scope : Nat

structure Block where
  isLoop : Bool
  /-- Names in scope where the block begins. -/
  scope : Nat
  /-- Whether a variable that is in scope in the block will be closed. -/
  closes : Bool
  labels : List Label := []
  jumps : List Jump := []

structure Function where
  variadic : Bool
  line : Nat
  /-- Names in scope outside the function. -/
  scope : Nat
  blocks : List Block := []

structure State where
  tokens : List Token
  /-- The line of the token consumed last. -/
  lastLine : Nat := 1
  visible : List VisibleName
  functions : List Function
  /-- Nesting of statements and expressions. -/
  depth : Nat

end Parser

abbrev Parse := StateT Parser.State (Except SyntaxError)

namespace Parser

open Bytes (ofText)

/-- How deep statements and expressions may nest, the calls around the reading counted. -/
def depthLimit : Nat := 200

/-- How many names one function may have in scope at one place. -/
def scopeLimit : Nat := 200

def current : Parse Token := return (← get).tokens.headD default

def currentLine : Parse Nat := return (← current).line

def lastLine : Parse Nat := return (← get).lastLine

/-- A defect at the current line, described as it is. -/
def failBare {α : Type} (message : Bytes) : Parse α := do
  throw (.at (← currentLine) message)

/-- A defect at the current token. -/
def failNear {α : Type} (message : Bytes) : Parse α := do
  let t ← current
  throw (.at t.line (message ++ ofText " near " ++ t.near))

def failText {α : Type} (message : String) : Parse α := failNear (ofText message)

/-- A defect token stands for an error. -/
def checkToken (t : Token) : Parse Unit :=
  match t.kind with
  | .defect message => throw (.at t.line message)
  | _ => pure ()

/-- Consumes the current token. -/
def advance : Parse Unit := do
  let s ← get
  match s.tokens with
  | [] => pure ()
  | [_] => pure ()
  | t :: next :: rest =>
    checkToken next
    set { s with tokens := next :: rest, lastLine := t.line }

/-- The token after the current one. -/
def peek : Parse Token := do
  match (← get).tokens with
  | _ :: next :: _ =>
    checkToken next
    pure next
  | _ => current

def atWord (w : String) : Parse Bool := return (← current).kind == .word w

def atSymbol (s : String) : Parse Bool := return (← current).kind == .symbol s

/-- Consumes the token if it is the one asked for. -/
def accept (k : TokenKind) : Parse Bool := do
  if (← current).kind == k then
    advance
    pure true
  else pure false

def acceptSymbol (s : String) : Parse Bool := accept (.symbol s)

def acceptWord (w : String) : Parse Bool := accept (.word w)

/-- How messages write a kind of token that is expected. -/
def kindText : TokenKind → Bytes
  | .word w => Token.quoted (ofText w)
  | .symbol s => Token.quoted (ofText s)
  | .name => ofText "<name>"
  | _ => ofText "<eof>"

def failExpected {α : Type} (k : TokenKind) : Parse α :=
  failNear (kindText k ++ ofText " expected")

def expect (k : TokenKind) : Parse Unit := do
  unless ← accept k do failExpected k

def expectSymbol (s : String) : Parse Unit := expect (.symbol s)

def expectWord (w : String) : Parse Unit := expect (.word w)

/-- The token that closes what `opener` opened on a line. -/
def expectMatch (closer opener : TokenKind) (line : Nat) : Parse Unit := do
  unless ← accept closer do
    if (← currentLine) == line then failExpected closer
    else
      failNear (kindText closer ++ ofText " expected (to close " ++ kindText opener
        ++ ofText (" at line " ++ toString line ++ ")"))

def expectName : Parse Bytes := do
  let t ← current
  if t.kind == .name then
    advance
    pure t.text
  else failExpected .name

/-- Reads something one level deeper. -/
def deeper {α : Type} (p : Parse α) : Parse α := do
  let s ← get
  if depthLimit ≤ s.depth + 1 then throw .tooDeep
  set { s with depth := s.depth + 1 }
  let a ← p
  modify fun s => { s with depth := s.depth - 1 }
  pure a

def function : Parse Function := do
  match (← get).functions with
  | f :: _ => pure f
  | [] => pure { variadic := true, line := 0, scope := 0 }

def modifyFunction (f : Function → Function) : Parse Unit :=
  modify fun s =>
    match s.functions with
    | g :: rest => { s with functions := f g :: rest }
    | [] => s

def modifyBlock (f : Block → Block) : Parse Unit :=
  modifyFunction fun g =>
    match g.blocks with
    | b :: rest => { g with blocks := f b :: rest }
    | [] => g

def level : Parse Nat := return (← get).functions.length

def scopeSize : Parse Nat := return (← get).visible.length

/-- Fails if the function cannot have `count` names more. -/
def checkRoom (count : Nat) : Parse Unit := do
  let f ← function
  if scopeLimit < (← scopeSize) + count - f.scope then
    let place :=
      if f.line == 0 then "main function" else "function at line " ++ toString f.line
    failText ("too many local variables (limit is " ++ toString scopeLimit ++ ") in " ++ place)

def declare (name : Bytes) (attr : Attribute) (binding : Binding) : Parse Unit := do
  let l ← level
  modify fun s => { s with visible := ⟨name, attr, binding, l⟩ :: s.visible }

def declareVariables (names : List Bytes) : Parse Unit :=
  names.forM fun n => declare n .regular .variable

def hiddenName : Bytes := ofText "(for state)"

def declareHidden (count : Nat) : Parse Unit :=
  (List.replicate count hiddenName).forM fun n => declare n .regular .hidden

def Binding.isVariable : Binding → Bool
  | .variable => true
  | _ => false

/-- How many of the names are variables of the program. -/
def variableCount (visible : List VisibleName) : Nat :=
  (visible.filter (·.binding.isVariable)).length

/-- What a name means: its slot and declaration. -/
def resolve (name : Bytes) : List VisibleName → Nat → Option (Nat × VisibleName)
  | [], _ => none
  | v :: rest, slot =>
    match v.binding with
    | .hidden => resolve name rest slot
    | .constant _ => if v.name == name then some (slot, v) else resolve name rest slot
    | .variable => if v.name == name then some (slot, v) else resolve name rest (slot + 1)

/-! ## Blocks and jumps -/

def enterBlock (isLoop : Bool) : Parse Unit := do
  let size ← scopeSize
  modifyFunction fun f =>
    let closes := (f.blocks.head?.map (·.closes)).getD false
    { f with blocks := { isLoop := isLoop, scope := size, closes := closes } :: f.blocks }

/-- The declared name numbered `n`, counted from the outermost. -/
def nameAt (visible : List VisibleName) (n : Nat) : Bytes :=
  ((visible.reverse.drop n).head?.map (·.name)).getD .empty

/-- Resolves the open jumps of the current block to a label. -/
def solveJumps (label : Option Bytes) (scope : Nat) : Parse Unit := do
  let f ← function
  let jumps := (f.blocks.head?.map (·.jumps)).getD []
  match jumps.find? fun j => j.label == label && j.scope < scope with
  | some j =>
    let names := (← get).visible
    failBare (ofText "<goto " ++ label.getD (ofText "break")
      ++ ofText ("> at line " ++ toString j.line ++ " jumps into the scope of local '")
      ++ nameAt names j.scope ++ ofText "'")
  | none => modifyBlock fun b => { b with jumps := b.jumps.filter fun j => !(j.label == label) }

/-- A jump that found no target. -/
def failJump {α : Type} (j : Jump) : Parse α :=
  match j.label with
  | none => failBare (ofText ("break outside loop at line " ++ toString j.line))
  | some name =>
    failBare (ofText "no visible label '" ++ name
      ++ ofText ("' for <goto> at line " ++ toString j.line))

/-- Leaves the current block: its names and labels go, its open jumps move outwards. -/
def leaveBlock : Parse Unit := do
  let f ← function
  match f.blocks with
  | [] => pure ()
  | b :: outer =>
    modify fun s => { s with visible := s.visible.drop (s.visible.length - b.scope) }
    if b.isLoop then solveJumps none b.scope
    let jumps := ((← function).blocks.head?.map (·.jumps)).getD []
    match outer with
    | [] =>
      match jumps with
      | j :: _ => failJump j
      | [] => modifyFunction fun f => { f with blocks := [] }
    | o :: rest =>
      let moved := jumps.map fun j => { j with scope := min j.scope b.scope }
      modifyFunction fun f =>
        { f with blocks := { o with jumps := o.jumps ++ moved } :: rest }

/-- The label of a name that is visible in the function. -/
def findLabel (name : Bytes) : Parse (Option Label) := do
  let f ← function
  pure (f.blocks.findSome? fun b => b.labels.find? (·.name == name))

def openFunction (variadic : Bool) (line : Nat) : Parse Unit := do
  let size ← scopeSize
  modify fun s => { s with functions := { variadic, line, scope := size } :: s.functions }
  enterBlock false

def closeFunction : Parse Unit := do
  leaveBlock
  modify fun s => { s with functions := s.functions.drop 1 }

/-! ## Expressions -/

/-- The line of an access to a field is that of the token consumed when its value is asked for. -/
def settle (line : Nat) : Expr → Expr
  | .index object key _ => .index object key line
  | e => e

def settled (e : Expr) : Parse Expr := return settle (← lastLine) e

/-- What may stand on the left of an assignment. -/
inductive Target
  | none
  | place (attr : Attribute) (name : Bytes)
  | constant (name : Bytes)

/-- What a name in an expression is. -/
def variableExpr (name : Bytes) : Parse (Expr × Target) := do
  let s ← get
  let here := s.functions.length
  let line := s.lastLine
  match resolve name s.visible 0 with
  | some (slot, v) =>
    match v.binding with
    | .constant l => pure (.literal l, .constant name)
    | _ => pure (.variable slot (v.level != here) name, .place v.attr name)
  | none =>
    let key := Expr.literal (.str name)
    let envName := ofText "_ENV"
    let env :=
      match resolve envName s.visible 0 with
      | some (slot, v) =>
        match v.binding with
        | .constant l => Expr.literal l
        | _ => .variable slot (v.level != here) envName
      | none => .literal .nil
    pure (.index env key line, .place .regular name)

def unaryOp? (t : Token) : Option UnaryOp :=
  match t.kind with
  | .word "not" => some .not
  | .symbol "-" => some .minus
  | .symbol "~" => some .bitNot
  | .symbol "#" => some .length
  | _ => none

inductive Operator
  | op (o : BinaryOp)
  | and
  | or

/-- A binary operator with its binding strength to the left and to the right. -/
def binaryOperator? (t : Token) : Option (Operator × Nat × Nat) :=
  match t.kind with
  | .symbol "+" => some (.op .add, 10, 10)
  | .symbol "-" => some (.op .sub, 10, 10)
  | .symbol "*" => some (.op .mul, 11, 11)
  | .symbol "%" => some (.op .mod, 11, 11)
  | .symbol "^" => some (.op .pow, 14, 13)
  | .symbol "/" => some (.op .div, 11, 11)
  | .symbol "//" => some (.op .idiv, 11, 11)
  | .symbol "&" => some (.op .bitAnd, 6, 6)
  | .symbol "|" => some (.op .bitOr, 4, 4)
  | .symbol "~" => some (.op .bitXor, 5, 5)
  | .symbol "<<" => some (.op .shiftLeft, 7, 7)
  | .symbol ">>" => some (.op .shiftRight, 7, 7)
  | .symbol ".." => some (.op .concat, 9, 8)
  | .symbol "==" => some (.op .eq, 3, 3)
  | .symbol "~=" => some (.op .ne, 3, 3)
  | .symbol "<" => some (.op .lt, 3, 3)
  | .symbol "<=" => some (.op .le, 3, 3)
  | .symbol ">" => some (.op .gt, 3, 3)
  | .symbol ">=" => some (.op .ge, 3, 3)
  | .word "and" => some (.and, 2, 2)
  | .word "or" => some (.or, 1, 1)
  | _ => none

def unaryStrength : Nat := 12

def isComparison : BinaryOp → Bool
  | .eq | .ne | .lt | .le | .gt | .ge => true
  | _ => false

/-- A binary operation; comparisons take the line of what was read last. -/
def combine (o : Operator) (line last : Nat) (left right : Expr) : Expr :=
  match o with
  | .and => .and left right
  | .or => .or left right
  | .op b => .binary b left right (if isComparison b then last else line)

/-- The literal that an expression is, a negated number included. -/
def constant? : Expr → Option Literal
  | .literal l => some l
  | .unary .minus (.literal (.int n)) _ => some (.int (-n))
  | .unary .minus (.literal (.float d)) _ =>
    if d.abs == Double.zero then none else some (.float d.neg)
  | _ => none

/-- The list with its last element changed. -/
def mapLast {α : Type} (f : α → α) : List α → List α
  | [] => []
  | [a] => [f a]
  | a :: rest => a :: mapLast f rest

/-- The last of the values is asked for now. -/
def settleLast (es : List Expr) : Parse (List Expr) := do
  let line ← lastLine
  pure (mapLast (settle line) es)

/-- Whether the block ends at the current token. -/
def atBlockEnd (untilToo : Bool) : Parse Bool := do
  match (← current).kind with
  | .word "else" | .word "elseif" | .word "end" | .eof => pure true
  | .word "until" => pure untilToo
  | _ => pure false

/-- What ends the reading when the fuel does. -/
def outOfFuel {α : Type} : Parse α := throw .tooDeep

/-- Fields of a table being read. -/
structure Fields where
  items : List Item := []
  positional : Nat := 0
  keyed : Nat := 0

/-- The items so far with the last positional one asked for at a line. -/
def settleItem (line : Nat) : List Item → List Item
  | .positional e :: rest => .positional (settle line e) :: rest
  | items => items

/-- The table of the items, given last first. -/
def tableOf (f : Fields) (line : Nat) : Expr :=
  let items := settleItem line f.items
  let endsOpen :=
    match items with
    | .positional e :: _ => e.isMulti
    | _ => false
  .table items.reverse (if endsOpen then f.positional - 1 else f.positional) f.keyed

/-- Declares the names and attributes of a `local` statement as they are read. -/
structure LocalNames where
  names : List (Bytes × Attribute) := []
  close : Option (Nat × Bytes) := none

def attributeOf (text : Bytes) : Option Attribute :=
  if text == ofText "const" then some .const
  else if text == ofText "close" then some .close
  else none

def localAttribute : Parse Attribute := do
  if ← acceptSymbol "<" then
    let text ← expectName
    expectSymbol ">"
    match attributeOf text with
    | some a => pure a
    | none => failBare (ofText "unknown attribute '" ++ text ++ ofText "'")
  else pure .regular

/-- The names of a `local` statement. -/
def localNames : Nat → LocalNames → Parse LocalNames
  | 0, _ => outOfFuel
  | fuel + 1, acc => do
    let name ← expectName
    checkRoom (acc.names.length + 1)
    let attr ← localAttribute
    let acc ←
      match attr, acc.close with
      | .close, some _ => failBare (ofText "multiple to-be-closed variables in local list")
      | .close, none =>
        pure { acc with close := some (acc.names.length, name),
                        names := acc.names ++ [(name, attr)] }
      | _, _ => pure { acc with names := acc.names ++ [(name, attr)] }
    if ← acceptSymbol "," then localNames fuel acc else pure acc

/-- Names separated by commas after a first one. -/
def moreNames : Nat → List Bytes → Parse (List Bytes)
  | 0, _ => outOfFuel
  | fuel + 1, acc => do
    if ← acceptSymbol "," then
      let name ← expectName
      checkRoom (acc.length + 4)
      moreNames fuel (acc ++ [name])
    else pure acc

/-- Parameters up to the closing parenthesis: their names and whether more are taken. -/
def parameters : Nat → List Bytes → Parse (List Bytes × Bool)
  | 0, _ => outOfFuel
  | fuel + 1, acc => do
    let t ← current
    match t.kind with
    | .name =>
      advance
      checkRoom (acc.length + 1)
      let acc := acc ++ [t.text]
      if ← acceptSymbol "," then parameters fuel acc else pure (acc, false)
    | .symbol "..." =>
      advance
      pure (acc, true)
    | _ => failText "<name> or '...' expected"

def checkTarget : Target → Parse Unit
  | .none => failText "syntax error"
  | .place .regular _ => pure ()
  | .place _ name | .constant name =>
    failBare (ofText "attempt to assign to const variable '" ++ name ++ ofText "'")

/-- The value returned is that of a call in tail position if nothing has to be closed after it. -/
def returnOf (values : List Expr) : Parse Stmt := do
  let f ← function
  let closes := (f.blocks.head?.map (·.closes)).getD false
  match closes, values with
  | false, [.call callee args line] => pure (.tailCall callee args line)
  | false, [.method object name args selfLine line] =>
    pure (.tailMethod object name args selfLine line)
  | _, _ => pure (.ret values)

mutual

/-- Expressions separated by commas; all but the last are asked for at their comma. -/
def exprList : Nat → Parse (List Expr)
  | 0 => outOfFuel
  | fuel + 1 => do
    let e ← expr fuel 0
    if ← acceptSymbol "," then
      let e ← settled e
      let rest ← exprList fuel
      pure (e :: rest)
    else pure [e]
termination_by structural fuel => fuel

/-- An expression of operators that bind more strongly than `limit`. -/
def expr : Nat → Nat → Parse Expr
  | 0, _ => outOfFuel
  | fuel + 1, limit => deeper do
    let t ← current
    let left ←
      match unaryOp? t with
      | some op => do
        advance
        let e ← settled (← expr fuel unaryStrength)
        pure (.unary op e t.line)
      | none => simpleExpr fuel
    operators fuel limit left
termination_by structural fuel => fuel

/-- The operators that follow a left operand. -/
def operators : Nat → Nat → Expr → Parse Expr
  | 0, _, _ => outOfFuel
  | fuel + 1, limit, left => do
    let t ← current
    match binaryOperator? t with
    | none => pure left
    | some (o, toLeft, toRight) =>
      if toLeft ≤ limit then pure left
      else do
        advance
        let left ← settled left
        let right ← settled (← expr fuel toRight)
        operators fuel limit (combine o t.line (← lastLine) left right)
termination_by structural fuel => fuel

def simpleExpr : Nat → Parse Expr
  | 0 => outOfFuel
  | fuel + 1 => do
    let t ← current
    let literal (l : Literal) : Parse Expr := do
      advance
      pure (.literal l)
    match t.kind with
    | .int n => literal (.int n)
    | .float d => literal (.float d)
    | .string s => literal (.str s)
    | .word "nil" => literal .nil
    | .word "true" => literal (.bool true)
    | .word "false" => literal (.bool false)
    | .symbol "..." =>
      unless (← function).variadic do
        failText "cannot use '...' outside a vararg function"
      advance
      pure .vararg
    | .symbol "\x7b" => tableExpr fuel
    | .word "function" => do
      advance
      let body ← funcBody fuel false t.line
      pure (.function body)
    | _ => return (← suffixedExpr fuel).1
termination_by structural fuel => fuel

/-- A name or an expression in parentheses. -/
def primaryExpr : Nat → Parse (Expr × Target)
  | 0 => outOfFuel
  | fuel + 1 => do
    let t ← current
    match t.kind with
    | .name => do
      advance
      variableExpr t.text
    | .symbol "(" => do
      advance
      let e ← expr fuel 0
      expectMatch (.symbol ")") (.symbol "(") t.line
      let e ← settled e
      pure (.paren e, .none)
    | _ => failText "unexpected symbol"
termination_by structural fuel => fuel

def suffixedExpr : Nat → Parse (Expr × Target)
  | 0 => outOfFuel
  | fuel + 1 => do
    let (e, target) ← primaryExpr fuel
    suffixes fuel e target
termination_by structural fuel => fuel

/-- Fields, keys and calls after an expression. -/
def suffixes : Nat → Expr → Target → Parse (Expr × Target)
  | 0, _, _ => outOfFuel
  | fuel + 1, e, target => do
    let t ← current
    match t.kind with
    | .symbol "." => do
      let object ← settled e
      advance
      let name ← expectName
      suffixes fuel (.index object (.literal (.str name)) (← lastLine)) (.place .regular name)
    | .symbol "[" => do
      let object ← settled e
      advance
      let key ← settled (← expr fuel 0)
      expectSymbol "]"
      suffixes fuel (.index object key (← lastLine)) (.place .regular .empty)
    | .symbol ":" => do
      advance
      let name ← expectName
      let object ← settled e
      let selfLine ← lastLine
      let line ← currentLine
      let args ← callArgs fuel
      suffixes fuel (.method object name args selfLine line) .none
    | .symbol "(" | .symbol "\x7b" | .string _ => do
      let callee ← settled e
      let args ← callArgs fuel
      suffixes fuel (.call callee args t.line) .none
    | _ => pure (e, target)
termination_by structural fuel => fuel

def callArgs : Nat → Parse (List Expr)
  | 0 => outOfFuel
  | fuel + 1 => do
    let t ← current
    match t.kind with
    | .string s => do
      advance
      pure [.literal (.str s)]
    | .symbol "\x7b" => return [← tableExpr fuel]
    | .symbol "(" => do
      advance
      if ← acceptSymbol ")" then pure []
      else do
        let args ← exprList fuel
        expectMatch (.symbol ")") (.symbol "(") t.line
        settleLast args
    | _ => failText "function arguments expected"
termination_by structural fuel => fuel

def tableExpr : Nat → Parse Expr
  | 0 => outOfFuel
  | fuel + 1 => do
    let line ← currentLine
    expectSymbol "\x7b"
    let fields ← tableFields fuel {}
    expectMatch (.symbol "\x7d") (.symbol "\x7b") line
    pure (tableOf fields (← lastLine))
termination_by structural fuel => fuel

def tableFields : Nat → Fields → Parse Fields
  | 0, _ => outOfFuel
  | fuel + 1, acc => do
    if ← atSymbol "\x7d" then pure acc
    else do
      let acc := { acc with items := settleItem (← lastLine) acc.items }
      let acc ← tableField fuel acc
      if (← acceptSymbol ",") || (← acceptSymbol ";") then tableFields fuel acc
      else pure acc
termination_by structural fuel => fuel

def tableField : Nat → Fields → Parse Fields
  | 0, _ => outOfFuel
  | fuel + 1, acc => do
    let positional : Parse Fields := do
      let e ← expr fuel 0
      pure { acc with items := .positional e :: acc.items, positional := acc.positional + 1 }
    let keyed (key : Expr) : Parse Fields := do
      expectSymbol "="
      let e ← settled (← expr fuel 0)
      pure { acc with items := .keyed key e (← lastLine) :: acc.items, keyed := acc.keyed + 1 }
    let t ← current
    match t.kind with
    | .name =>
      if (← peek).kind == .symbol "=" then do
        advance
        keyed (.literal (.str t.text))
      else positional
    | .symbol "[" => do
      advance
      let key ← settled (← expr fuel 0)
      expectSymbol "]"
      keyed key
    | _ => positional
termination_by structural fuel => fuel

/-- Parameters and body of a function; a method has the parameter `self` in front. -/
def funcBody : Nat → Bool → Nat → Parse FuncBody
  | 0, _, _ => outOfFuel
  | fuel + 1, isMethod, line => do
    openFunction false line
    expectSymbol "("
    let first := if isMethod then [ofText "self"] else []
    let (names, variadic) ←
      if ← atSymbol ")" then pure (first, false) else parameters fuel first
    modifyFunction fun f => { f with variadic }
    declareVariables names
    expectSymbol ")"
    let body ← statements fuel
    expectMatch (.word "end") (.word "function") line
    closeFunction
    pure (.mk names.length variadic body line)
termination_by structural fuel => fuel

/-- Statements up to the end of the block. -/
def statements : Nat → Parse (List Stmt)
  | 0 => outOfFuel
  | fuel + 1 => do
    if ← atBlockEnd true then pure []
    else if ← atWord "return" then statement fuel
    else do
      let first ← statement fuel
      let rest ← statements fuel
      pure (first ++ rest)
termination_by structural fuel => fuel

/-- A block with a scope of its own. -/
def block : Nat → Parse (List Stmt)
  | 0 => outOfFuel
  | fuel + 1 => do
    enterBlock false
    let body ← statements fuel
    leaveBlock
    pure body
termination_by structural fuel => fuel

/-- One statement; an empty one gives none. -/
def statement : Nat → Parse (List Stmt)
  | 0 => outOfFuel
  | fuel + 1 => deeper do
    let t ← current
    match t.kind with
    | .symbol ";" => do
      advance
      pure []
    | .word "if" => do
      advance
      return [← ifBranches fuel t.line]
    | .word "while" => do
      advance
      let condition ← settled (← expr fuel 0)
      enterBlock true
      expectWord "do"
      let body ← block fuel
      expectMatch (.word "end") (.word "while") t.line
      leaveBlock
      pure [.while condition body]
    | .word "do" => do
      advance
      let body ← block fuel
      expectMatch (.word "end") (.word "do") t.line
      pure [.block body]
    | .word "for" => do
      enterBlock true
      advance
      let s ← forLoop fuel t.line
      expectMatch (.word "end") (.word "for") t.line
      leaveBlock
      pure [s]
    | .word "repeat" => do
      enterBlock true
      enterBlock false
      advance
      let body ← statements fuel
      expectMatch (.word "until") (.word "repeat") t.line
      let condition ← settled (← expr fuel 0)
      leaveBlock
      leaveBlock
      pure [.repeat (body ++ [.leaveIf condition])]
    | .word "function" => do
      advance
      functionStatement fuel t.line
    | .word "local" => do
      advance
      if ← acceptWord "function" then
        let name ← expectName
        checkRoom 1
        declareVariables [name]
        let line ← currentLine
        let body ← funcBody fuel false line
        pure [.localFunction body]
      else localStatement fuel
    | .symbol "::" => do
      advance
      let name ← expectName
      labelStatement fuel name t.line
    | .word "return" => do
      advance
      let s ←
        if (← atBlockEnd true) || (← atSymbol ";") then pure (Stmt.ret [])
        else do
          let values ← settleLast (← exprList fuel)
          returnOf values
      let _ ← acceptSymbol ";"
      pure [s]
    | .word "break" => do
      advance
      let size ← scopeSize
      modifyBlock fun b => { b with jumps := b.jumps ++ [⟨none, t.line, size⟩] }
      pure [.break]
    | .word "goto" => do
      advance
      let line ← currentLine
      let name ← expectName
      match ← findLabel name with
      | some _ => pure [.goto name]
      | none =>
        let size ← scopeSize
        modifyBlock fun b => { b with jumps := b.jumps ++ [⟨some name, line, size⟩] }
        pure [.goto name]
    | _ => exprStatement fuel
termination_by structural fuel => fuel

/-- The rest of an `if` or `elseif` that begins on a line. -/
def ifBranches : Nat → Nat → Parse Stmt
  | 0, _ => outOfFuel
  | fuel + 1, line => do
    let condition ← expr fuel 0
    expectWord "then"
    let condition ← settled condition
    let thenBody ← block fuel
    if ← acceptWord "elseif" then
      let rest ← ifBranches fuel line
      pure (.ifThen condition thenBody [rest])
    else do
      let elseBody ← if ← acceptWord "else" then block fuel else pure []
      expectMatch (.word "end") (.word "if") line
      pure (.ifThen condition thenBody elseBody)
termination_by structural fuel => fuel

/-- The rest of a `for` statement up to its `end`. -/
def forLoop : Nat → Nat → Parse Stmt
  | 0, _ => outOfFuel
  | fuel + 1, line => do
    let name ← expectName
    let t ← current
    match t.kind with
    | .symbol "=" => do
      checkRoom 4
      advance
      let start ← settled (← expr fuel 0)
      expectSymbol ","
      let limit ← settled (← expr fuel 0)
      let step ←
        if ← acceptSymbol "," then settled (← expr fuel 0) else pure (.literal (.int 1))
      declareHidden 3
      expectWord "do"
      let doLine ← lastLine
      let body ← loopBody fuel [name]
      pure (.numericFor start limit step body doLine)
    | .symbol "," | .word "in" => do
      checkRoom 5
      let names ← moreNames fuel [name]
      expectWord "in"
      let values ← settleLast (← exprList fuel)
      declareHidden 4
      modifyBlock fun b => { b with closes := true }
      expectWord "do"
      let body ← loopBody fuel names
      pure (.genericFor names.length values body line)
    | _ => failText "'=' or 'in' expected"
termination_by structural fuel => fuel

/-- The body of a `for` loop with its variables. -/
def loopBody : Nat → List Bytes → Parse (List Stmt)
  | 0, _ => outOfFuel
  | fuel + 1, names => do
    enterBlock false
    declareVariables names
    let body ← block fuel
    leaveBlock
    pure body
termination_by structural fuel => fuel

def functionStatement : Nat → Nat → Parse (List Stmt)
  | 0, _ => outOfFuel
  | fuel + 1, line => do
    let name ← expectName
    let (e, target) ← variableExpr name
    let (e, target, isMethod) ← functionName fuel e target
    let body ← funcBody fuel isMethod line
    checkTarget target
    pure [.assign [e] [.function body] line]
termination_by structural fuel => fuel

/-- The fields of a function's name. -/
def functionName : Nat → Expr → Target → Parse (Expr × Target × Bool)
  | 0, _, _ => outOfFuel
  | fuel + 1, e, target => do
    let field : Parse Expr := do
      let object ← settled e
      advance
      let name ← expectName
      pure (.index object (.literal (.str name)) (← lastLine))
    if ← atSymbol "." then
      let e ← field
      functionName fuel e (.place .regular .empty)
    else if ← atSymbol ":" then
      let e ← field
      pure (e, .place .regular .empty, true)
    else pure (e, target, false)
termination_by structural fuel => fuel

def localStatement : Nat → Parse (List Stmt)
  | 0 => outOfFuel
  | fuel + 1 => do
    let declared ← localNames fuel {}
    let values ←
      if ← acceptSymbol "=" then
        let values ← exprList fuel
        settleLast values
      else pure []
    let line ← lastLine
    let names := declared.names
    let lastConstant :=
      match names.getLast?, values.getLast? with
      | some (_, .const), some v => if names.length == values.length then constant? v else none
      | _, _ => none
    match lastConstant with
    | some l =>
      names.dropLast.forM fun (n, a) => declare n a .variable
      names.getLast?.forM fun (n, a) => declare n a (.constant l)
      match declared.close with
      | some (position, name) => do
        modifyBlock fun b => { b with closes := true }
        pure [.localClose (names.length - 1) values.dropLast position name line]
      | none => pure [.localVars (names.length - 1) values.dropLast]
    | none =>
      names.forM fun (n, a) => declare n a .variable
      match declared.close with
      | some (position, name) => do
        modifyBlock fun b => { b with closes := true }
        pure [.localClose names.length values position name line]
      | none => pure [.localVars names.length values]
termination_by structural fuel => fuel

/-- A label after its name. Statements that do nothing are read first, to see whether the label
stands at the end of its block: there the variables of the block are out of scope already. -/
def labelStatement : Nat → Bytes → Nat → Parse (List Stmt)
  | 0, _, _ => outOfFuel
  | fuel + 1, name, line => do
    expectSymbol "::"
    let rest ← idleStatements fuel
    match ← findLabel name with
    | some l =>
      failBare (ofText "label '" ++ name
        ++ ofText ("' already defined on line " ++ toString l.line))
    | none => pure ()
    let atEnd ← atBlockEnd false
    let s ← get
    let f ← function
    let size := if atEnd then (f.blocks.head?.map (·.scope)).getD 0 else s.visible.length
    modifyBlock fun b => { b with labels := ⟨name, line, size⟩ :: b.labels }
    solveJumps (some name) size
    let depth := variableCount (s.visible.drop (s.visible.length - size))
    pure (.label name depth :: rest)
termination_by structural fuel => fuel

/-- Semicolons and labels. -/
def idleStatements : Nat → Parse (List Stmt)
  | 0 => outOfFuel
  | fuel + 1 => do
    if (← atSymbol ";") || (← atSymbol "::") then
      let first ← statement fuel
      let rest ← idleStatements fuel
      pure (first ++ rest)
    else pure []
termination_by structural fuel => fuel

def exprStatement : Nat → Parse (List Stmt)
  | 0 => outOfFuel
  | fuel + 1 => do
    let (e, target) ← suffixedExpr fuel
    if (← atSymbol "=") || (← atSymbol ",") then
      assignment fuel [e] target
    else
      match e with
      | .call .. | .method .. => pure [.call e]
      | _ => failText "syntax error"
termination_by structural fuel => fuel

/-- The rest of an assignment; `targets` are the places read so far, last first. -/
def assignment : Nat → List Expr → Target → Parse (List Stmt)
  | 0, _, _ => outOfFuel
  | fuel + 1, targets, target => do
    checkTarget target
    if ← acceptSymbol "," then
      let (e, next) ← suffixedExpr fuel
      deeper (assignment fuel (e :: targets) next)
    else do
      expectSymbol "="
      let values ← settleLast (← exprList fuel)
      pure [.assign targets.reverse values (← lastLine)]
termination_by structural fuel => fuel

end

/-- The fuel that reading so many tokens needs at most. -/
def fuelFor (tokens : Nat) : Nat := 32 * tokens + 8192

/-- The main function of a chunk: its only outer variable is `_ENV`. -/
def mainFunction (fuel : Nat) : Parse FuncBody := do
  checkToken (← current)
  openFunction true 0
  let body ← statements fuel
  unless (← current).kind == .eof do failExpected .eof
  closeFunction
  pure (.mk 0 true body 0)

/-- Where reading starts, inside so many calls. -/
def start (tokens : List Token) (depth : Nat) : State :=
  { tokens, depth, functions := [],
    visible := [⟨ofText "_ENV", .regular, .variable, 0⟩] }

end Parser

/-- The main function of a source, read inside `depth` nested calls. -/
def parse (source : Bytes) (depth : Nat) : Except SyntaxError FuncBody :=
  let tokens := tokenize source
  let fuel := Parser.fuelFor tokens.length
  match Parser.mainFunction fuel (Parser.start tokens depth) with
  | .ok (body, _) => .ok body
  | .error e => .error e

end Enclosure.Lua
