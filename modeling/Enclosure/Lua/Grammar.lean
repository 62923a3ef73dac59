import Enclosure.Number.Double
import Enclosure.Text.Bytes

/-!
# Programs

The tree of a chunk after reading. Names are resolved: a variable is the number of variables that
were declared between it and the place of its use, counted outwards through all enclosing functions,
and a global `x` is the field `x` of the variable `_ENV`. Lines are those that messages name.
-/

namespace Enclosure.Lua

inductive UnaryOp
  | minus | not | length | bitNot
  deriving DecidableEq, Repr

/-- Operators that work on two values; `and` and `or` are not among them. -/
inductive BinaryOp
  | add | sub | mul | mod | pow | div | idiv
  | bitAnd | bitOr | bitXor | shiftLeft | shiftRight
  | concat | eq | ne | lt | le | gt | ge
  deriving DecidableEq, Repr

inductive Literal
  | nil
  | bool (b : Bool)
  | int (n : Int64)
  | float (d : Double)
  | str (s : Bytes)
  deriving DecidableEq

/-- What a local variable was declared with. -/
inductive Attribute
  | regular | const | close
  deriving DecidableEq, Repr

mutual

inductive Expr
  | literal (l : Literal)
  | vararg
  /-- `outer` tells a variable of an enclosing function from one of the function itself. -/
  | variable (slot : Nat) (outer : Bool) (name : Bytes)
  | index (object key : Expr) (line : Nat)
  | call (callee : Expr) (args : List Expr) (line : Nat)
  | method (object : Expr) (name : Bytes) (args : List Expr) (selfLine line : Nat)
  | function (body : FuncBody)
  | unary (op : UnaryOp) (operand : Expr) (line : Nat)
  | binary (op : BinaryOp) (left right : Expr) (line : Nat)
  | and (left right : Expr)
  | or (left right : Expr)
  /-- Parentheses keep the first value only. -/
  | paren (inner : Expr)
  | table (items : List Item) (arrayRoom hashRoom : Nat)

inductive Item
  | positional (value : Expr)
  | keyed (key value : Expr) (line : Nat)

inductive FuncBody
  | mk (params : Nat) (variadic : Bool) (body : List Stmt) (line : Nat)

inductive Stmt
  /-- Declares as many variables as `count`. -/
  | localVars (count : Nat) (values : List Expr)
  /-- As `localVars`; the variable numbered `position`, named `name`, is closed at the end of the
  block. -/
  | localClose (count : Nat) (values : List Expr) (position : Nat) (name : Bytes) (line : Nat)
  | localFunction (body : FuncBody)
  | assign (targets values : List Expr) (line : Nat)
  | call (e : Expr)
  | block (body : List Stmt)
  | while (condition : Expr) (body : List Stmt)
  /-- The condition stands at the end of the body, as `leaveIf`. -/
  | repeat (body : List Stmt)
  | leaveIf (condition : Expr)
  | ifThen (condition : Expr) (thenBody elseBody : List Stmt)
  | numericFor (start limit step : Expr) (body : List Stmt) (line : Nat)
  | genericFor (count : Nat) (values : List Expr) (body : List Stmt) (line : Nat)
  | ret (values : List Expr)
  | tailCall (callee : Expr) (args : List Expr) (line : Nat)
  | tailMethod (object : Expr) (name : Bytes) (args : List Expr) (selfLine line : Nat)
  | break
  | goto (label : Bytes)
  /-- `depth` counts the variables in scope at the label, those of enclosing functions too. -/
  | label (name : Bytes) (depth : Nat)

end

/-- How many variables a statement declares for those after it. -/
def Stmt.declared : Stmt → Nat
  | .localVars count _ | .localClose count _ _ _ _ => count
  | .localFunction _ => 1
  | _ => 0

instance : Inhabited Expr := ⟨.literal .nil⟩
instance : Inhabited FuncBody := ⟨.mk 0 false [] 0⟩

/-- How messages name the expression that a value came from. -/
structure Origin where
  kind : String
  name : Bytes

namespace Expr

def isEnv : Expr → Bool
  | .variable _ _ name => name == Bytes.ofText "_ENV"
  | _ => false

/-- The name of the thing an expression takes its value from: a variable, a field, a method or a
string constant. Others have none. -/
def origin? : Expr → Option Origin
  | .variable _ outer name => some ⟨if outer then "upvalue" else "local", name⟩
  | .index object (.literal (.str k)) _ => some ⟨if object.isEnv then "global" else "field", k⟩
  | .index _ (.literal (.int n)) _ =>
    if 0 ≤ n.toInt && n.toInt ≤ 255 then some ⟨"field", Bytes.ofText "integer index"⟩
    else some ⟨"field", Bytes.ofText "?"⟩
  | .index object _ _ => some ⟨if object.isEnv then "global" else "field", Bytes.ofText "?"⟩
  | .literal (.str s) => some ⟨"constant", s⟩
  | .paren e => e.origin?
  | _ => none

/-- Whether the expression is a variable of the function itself. Such an operand is read when the
operation is done, after the other operand. -/
def isOwnVariable : Expr → Bool
  | .variable _ outer _ => !outer
  | .paren e => e.isOwnVariable
  | _ => false

/-- Whether an expression can have more or fewer than one value. -/
def isMulti : Expr → Bool
  | .call .. => true
  | .method .. => true
  | .vararg => true
  | _ => false

end Expr

/-! ## Variables from outside

Of the variables in scope in a function, the first `n` are its own. The others are numbered from outside the
function, and what counts is which of them the text uses first.
-/

mutual

def Expr.outer? (n : Nat) : Expr → Option Nat
  | .literal _ | .vararg => none
  | .variable slot _ _ => if slot < n then none else some (slot - n)
  | .index object key _ => (object.outer? n).or (key.outer? n)
  | .call callee args _ => (callee.outer? n).or (firstOuter? n args)
  | .method object _ args _ _ => (object.outer? n).or (firstOuter? n args)
  | .function body => body.outer? n
  | .unary _ operand _ => operand.outer? n
  | .binary _ left right _ | .and left right | .or left right => (left.outer? n).or (right.outer? n)
  | .paren inner => inner.outer? n
  | .table items _ _ => itemsOuter? n items

def firstOuter? (n : Nat) : List Expr → Option Nat
  | [] => none
  | e :: rest => (e.outer? n).or (firstOuter? n rest)

def itemsOuter? (n : Nat) : List Item → Option Nat
  | [] => none
  | .positional value :: rest => (value.outer? n).or (itemsOuter? n rest)
  | .keyed key value _ :: rest => ((key.outer? n).or (value.outer? n)).or (itemsOuter? n rest)

def FuncBody.outer? (n : Nat) : FuncBody → Option Nat
  | .mk params _ body _ => blockOuter? (n + params) body

def Stmt.outer? (n : Nat) : Stmt → Option Nat
  | .localVars _ values | .localClose _ values _ _ _ | .ret values => firstOuter? n values
  | .localFunction body => body.outer? (n + 1)
  | .assign targets values _ => (firstOuter? n targets).or (firstOuter? n values)
  | .call e | .leaveIf e => e.outer? n
  | .block body | .repeat body => blockOuter? n body
  | .while condition body => (condition.outer? n).or (blockOuter? n body)
  | .ifThen condition thenBody elseBody =>
    (condition.outer? n).or ((blockOuter? n thenBody).or (blockOuter? n elseBody))
  | .numericFor start limit step body _ =>
    (start.outer? n).or ((limit.outer? n).or ((step.outer? n).or (blockOuter? (n + 1) body)))
  | .genericFor count values body _ => (firstOuter? n values).or (blockOuter? (n + count) body)
  | .tailCall callee args _ => (callee.outer? n).or (firstOuter? n args)
  | .tailMethod object _ args _ _ => (object.outer? n).or (firstOuter? n args)
  | .break | .goto _ | .label _ _ => none

def blockOuter? (n : Nat) : List Stmt → Option Nat
  | [] => none
  | s :: rest => (s.outer? n).or (blockOuter? (n + s.declared) rest)

end

end Enclosure.Lua
