import Enclosure.Lua.Evaluate

/-!
# The machine

The machine answers the requests of runs. It keeps the calls that are active, innermost first, and the
threads that wait. Each active call knows how its result is to be delivered; an error goes out to the
nearest guarded call, and values that were to be closed on the way are closed there.

The machine is a step function. `run` repeats it and stops for want of fuel only after more steps than
any run takes.
-/

namespace Enclosure.Lua

/-- What becomes of the result of a call. -/
inductive Role
  /-- The caller goes on with it. A thread can be stopped inside such a call if a script made it, or
  else if the call is `passable`. -/
  | plain (passable : Bool := false)
  /-- Errors end here. A handler sees them before the calls inside are given up. -/
  | guarded (handler : Option Value) (passable : Bool)
  /-- A handler of errors; its result is the error to go on with. -/
  | handling
  /-- The first call of a thread. -/
  | entry

/-- An active call. -/
structure Frame where
  function : Value
  /-- The chunk of a script's function; library functions have none. -/
  chunk : Option Bytes
  line : Nat
  /-- How the caller named the function. -/
  name : Option Origin
  /-- Values to be closed when the call ends, the last one first. -/
  deferred : List Value
  /-- How many calls by the library this one is inside of. -/
  nesting : Nat
  /-- How many calls are active below. -/
  depth : Nat
  role : Role
  /-- What is left to do when the answer to the last request is there. -/
  resume : List Value → Store → Res (List Value)

inductive ThreadState
  /-- Not started yet. -/
  | fresh (f : Value)
  | suspended (frames : List Frame)
  | running
  /-- Waits for a thread that it resumed. -/
  | normal (frames : List Frame)
  | finished
  /-- Ended by an error, with values still to be closed. -/
  | failed (error : Value) (deferred : List Value)

structure Thread where
  state : ThreadState
  /-- The thread to go back to. -/
  resumer : ThreadId

instance : Inhabited Thread := ⟨⟨.finished, ⟨0⟩⟩⟩

/-- What library functions and functions of the host do. -/
structure Functions where
  builtin : Builtin → FuncId → Array Value → List Value → Run (List Value)
  callback : Nat → List Value → Run (List Value)

structure Machine where
  frames : List Frame
  current : ThreadId
  threads : Array Thread

inductive Outcome
  | returned (vs : List Value) (s : Store) (threads : Array Thread)
  | raised (e : Value) (s : Store) (threads : Array Thread)
  | exhausted (s : Store) (threads : Array Thread)

namespace Machine

open Bytes (ofText)

/-- How many calls by the library may be inside one another. -/
def nestingLimit : Nat := 200

/-- From here on an error while an error is handled is given up on. -/
def handlingLimit : Nat := 220

/-- How many calls may be active. -/
def depthLimit : Nat := 199990

/-! ## Messages -/

/-- The position of an active call, as it stands in front of a message. -/
def position (f : Frame) : Bytes :=
  match f.chunk with
  | some c => c ++ ofText (":" ++ toString f.line ++ ": ")
  | none => .empty

def positionAt (frames : List Frame) (level : Nat) : Bytes :=
  match frames[level]? with
  | some f => position f
  | none => .empty

/-- The key of a value among the entries of a table. -/
def keyOf (s : Store) (t : TableId) (v : Value) : Option Bytes :=
  (s.table t).entries.findSome? fun (k, w) =>
    match k with
    | .str k => if w == v then some k else none
    | _ => none

/-- The name of a function that is a loaded module's field. -/
def globalName? (s : Store) (f : Value) : Option Bytes :=
  (s.table s.loaded).entries.findSome? fun (k, w) =>
    match k, w with
    | .str module, .table t =>
      (keyOf s t f).map fun name =>
        if module == ofText "_G" then name else module ++ ofText "." ++ name
    | _, _ => none

/-- The message for a wrong argument of the function that is active. -/
def argumentMessage (s : Store) (frames : List Frame) (n : Nat) (why : Bytes) : Bytes :=
  let top := frames.head?
  let bad (n : Nat) (name : Bytes) : Bytes :=
    ofText ("bad argument #" ++ toString n ++ " to '") ++ name ++ ofText "' (" ++ why ++ ofText ")"
  match top.bind (·.name) with
  | some origin =>
    if origin.kind == "method" then
      if n ≤ 1 then
        ofText "calling '" ++ origin.name ++ ofText "' on bad self (" ++ why ++ ofText ")"
      else bad (n - 1) origin.name
    else bad n origin.name
  | none =>
    bad n (((top.map (·.function)).bind (globalName? s)).getD (ofText "?"))

/-- The value of an error; nothing if the run was too long. -/
def errorValue? (s : Store) (frames : List Frame) : Raise → Option Value
  | .value v => some v
  | .located level m => some (.str (positionAt frames level ++ m))
  | .atLine n m =>
    match frames with
    | f :: _ => some (.str (position { f with line := n } ++ m))
    | [] => some (.str m)
  | .argument n why =>
    some (.str (positionAt frames 1 ++ argumentMessage s frames n why))
  | .exhausted => none

/-! ## Closing -/

/-- Closes values, each with the error so far. Answers whether there is an error, and it. -/
def closeAll (passable : Bool) : List Value → Bool → Value → Run (Bool × Value)
  | [], failed, e => pure (failed, e)
  | v :: rest, failed, e => do
    let h ← Run.metamethod v "__close"
    match ← Run.ask (.protectedCall h [v, e] none passable) with
    | .bool true :: _ => closeAll passable rest failed e
    | _ :: e :: _ => closeAll passable rest true e
    | _ => closeAll passable rest failed e

/-! ## Steps -/

/-- What a step leads to: the machine with what it runs, or the end. -/
inductive Next
  | run (m : Machine) (r : Res (List Value))
  | stop (o : Outcome)

def setThread (m : Machine) (t : ThreadId) (f : Thread → Thread) : Machine :=
  { m with threads := m.threads.modify t.index f }

def setState (m : Machine) (t : ThreadId) (st : ThreadState) : Machine :=
  m.setThread t fun th => { th with state := st }

def isMain (m : Machine) : Bool := m.current.index == 0

/-- Hands an answer to the innermost call. -/
def deliver (m : Machine) (vs : List Value) (s : Store) : Next :=
  match m.frames with
  | f :: _ => .run m (f.resume vs s)
  | [] => .stop (.returned vs s m.threads)

/-- Goes back to the thread that resumed the current one. -/
def switchBack (m : Machine) (st : ThreadState) (vs : List Value) (s : Store) : Next :=
  let back := (m.threads.getD m.current.index default).resumer
  let m := m.setState m.current st
  match (m.threads.getD back.index default).state with
  | .normal frames => deliver { m.setState back .running with frames, current := back } vs s
  | _ => .stop (.returned vs s m.threads)

/-- The calls up to the nearest guarded one, its handler, and the calls below it. -/
def splitAtGuard : List Frame → Option (List Frame × Option Value × List Frame)
  | [] => none
  | f :: rest =>
    match f.role with
    | .guarded h _ => some ([f], h, rest)
    | _ => (splitAtGuard rest).map fun (inside, h, below) => (f :: inside, h, below)

def deferredOf (frames : List Frame) : List Value := frames.flatMap (·.deferred)

/-- Gives up the calls inside the nearest guarded one. -/
def unwind (m : Machine) (e : Value) (s : Store) : Next :=
  match splitAtGuard m.frames with
  | some (inside, _, below) =>
    let rest : Run (List Value) := do
      let (_, e) ← closeAll true (deferredOf inside) true e
      match below with
      | f :: _ => f.resume [.bool false, e]
      | [] => return [.bool false, e]
    .run { m with frames := below } (rest s)
  | none =>
    if m.isMain then .stop (.raised e s m.threads)
    else m.switchBack (.failed e (deferredOf m.frames)) [.bool false, e] s

/-- What is called in the end when a value is called, and with which arguments: a value that is no
function is called through `__call`. -/
def resolve (s : Store) : Nat → Value → List Value → Option (FuncId × List Value)
  | 0, _, _ => none
  | _ + 1, .func f, args => some (f, args)
  | fuel + 1, v, args =>
    let h := s.metamethod v "__call"
    if h.isNil then none else resolve s fuel h (v :: args)

/-- A call to be made: how it is named and delivered. -/
structure Entry where
  name : Option Origin := none
  nesting : Nat
  depth : Nat
  role : Role := .plain

def Entry.frame (e : Entry) (f : Value) (chunk : Option Bytes) (line : Nat) : Frame :=
  { function := f, chunk, line, name := e.name, deferred := [], nesting := e.nesting,
    depth := e.depth, role := e.role, resume := fun vs s => .done vs s }

/-- Begins a call of a function object. -/
def enter (fs : Functions) (m : Machine) (e : Entry) (f : FuncId) (args : List Value) (s : Store) :
    Next :=
  match s.function f with
  | .closure body env chunk =>
    let line := match body with
      | .mk _ _ _ line => line
    .run { m with frames := e.frame (.func f) (some chunk) line :: m.frames }
      (Evaluate.callBody body env chunk args s)
  | .builtin b captured =>
    .run { m with frames := e.frame (.func f) none 0 :: m.frames } (fs.builtin b f captured args s)
  | .callback n =>
    .run { m with frames := e.frame (.func f) none 0 :: m.frames } (fs.callback n args s)

/-- Where the innermost call is, for an error of its own. -/
def hereOf (m : Machine) : Where :=
  match m.frames with
  | f :: _ => if f.chunk.isSome then .line f.line else .library
  | [] => .library

/-- Fails in the innermost call. -/
def failHere (m : Machine) (message : String) (s : Store) : Next :=
  .run m ((Operation.failTextAt m.hereOf message : Run (List Value)) s)

/-- Fails in a call of its own, so that the guard of the entry sees the error. -/
def failInside (m : Machine) (e : Entry) (r : Res (List Value)) : Next :=
  .run { m with frames := e.frame .nil none 0 :: m.frames } r

def topNesting (m : Machine) : Nat := (m.frames.head?.map (·.nesting)).getD 0

def topDepth (m : Machine) : Nat := (m.frames.head?.map (·.depth)).getD 0

def beginCall (fs : Functions) (m : Machine) (f : Value) (args : List Value) (site : Site)
    (s : Store) : Next :=
  let library := m.frames.head?.all (·.chunk.isNone)
  let nesting := if site.nested || library then m.topNesting + 1 else m.topNesting
  if nesting == nestingLimit then m.failHere "C stack overflow" s
  else if depthLimit ≤ m.topDepth then m.failHere "stack overflow" s
  else
    match resolve s 100 f args with
    | some (f, args) =>
      let e : Entry :=
        { name := if library then none else site.name, nesting, depth := m.topDepth + 1,
          role := .plain site.passable }
      m.enter fs e f args s
    | none =>
      .run m ((Operation.failType m.hereOf "call" f site.name : Run (List Value)) s)

/-- Begins a call that catches errors. -/
def beginGuarded (fs : Functions) (m : Machine) (f : Value) (args : List Value)
    (handler : Option Value) (passable : Bool) (s : Store) : Next :=
  let e : Entry :=
    { nesting := m.topNesting + 1, depth := m.topDepth + 1, role := .guarded handler passable }
  if e.nesting == nestingLimit then
    m.failInside e ((Run.failPlain "C stack overflow" : Run (List Value)) s)
  else
    match resolve s 100 f args with
    | some (f, args) => m.enter fs e f args s
    | none =>
      m.failInside e ((Operation.failType .library "call" f none : Run (List Value)) s)

/-- A call in place of the innermost one. -/
def replaceCall (fs : Functions) (m : Machine) (f : Value) (args : List Value) (site : Site)
    (s : Store) : Next :=
  match m.frames, resolve s 100 f args with
  | top :: rest, some (g, vs) =>
    match s.function g with
    | .closure .. =>
      let e : Entry := { nesting := top.nesting, depth := top.depth, role := top.role }
      enter fs { m with frames := rest } e g vs s
    | _ => m.beginCall fs f args site s
  | _, _ => m.beginCall fs f args site s

/-- Calls the handler of the nearest guarded call, or unwinds. -/
def handle (fs : Functions) (m : Machine) (v : Value) (s : Store) : Next :=
  match splitAtGuard m.frames with
  | some (_, some h, _) =>
    let e : Entry :=
      { nesting := m.topNesting + 1, depth := m.topDepth + 1, role := .handling }
    if handlingLimit ≤ e.nesting then m.unwind (.text "error in error handling") s
    else
      match resolve s 100 h [v] with
      | some (f, args) => m.enter fs e f args s
      | none => m.failInside e ((Operation.failType .library "call" h none : Run (List Value)) s)
  | _ => m.unwind v s

/-- Whether no library function waits in the calls but for a call that can be passed. -/
def passable : List Frame → Bool
  | f :: below :: rest =>
    let through :=
      match f.role with
      | .guarded _ through => through
      | .handling => false
      | .plain true => true
      | _ => below.chunk.isSome
    through && passable (below :: rest)
  | _ => true

def canYield (m : Machine) : Bool := !m.isMain && passable m.frames

/-- Whether a thread can be stopped where it is. One that does not run has nothing in the way, unless
it waits for another one in a call that cannot be passed. -/
def canStop (m : Machine) (t : ThreadId) : Bool :=
  if t == m.current then m.canYield
  else
    t.index != 0 &&
      match (m.threads.getD t.index default).state with
      | .normal frames => passable frames
      | _ => true

def resume (fs : Functions) (m : Machine) (t : ThreadId) (args : List Value) (s : Store) : Next :=
  let refuse (why : String) : Next := m.deliver [.bool false, .text why] s
  let nesting := m.topNesting + 1
  let start (frames : List Frame) : Machine :=
    let m := m.setState m.current (.normal m.frames)
    let m := m.setThread t fun _ => { state := .running, resumer := m.current }
    { m with frames, current := t }
  if m.current == t then refuse "cannot resume non-suspended coroutine"
  else
    match (m.threads.getD t.index default).state with
    | .fresh f =>
      if nestingLimit ≤ nesting then refuse "C stack overflow"
      else
        let e : Entry := { nesting, depth := 0, role := .entry }
        match resolve s 100 f args with
        | some (f, args) => (start []).enter fs e f args s
        | none =>
          (start []).failInside e
            ((Operation.failType .library "call" f none : Run (List Value)) s)
    | .suspended frames =>
      if nestingLimit ≤ nesting then refuse "C stack overflow"
      else deliver (start frames) args s
    | .running | .normal _ => refuse "cannot resume non-suspended coroutine"
    | .finished | .failed .. => refuse "cannot resume dead coroutine"

def statusText (m : Machine) (t : ThreadId) : String :=
  if m.current == t then "running"
  else
    match (m.threads.getD t.index default).state with
    | .fresh _ | .suspended _ => "suspended"
    | .running | .normal _ => "normal"
    | .finished | .failed .. => "dead"

/-- Closes a thread: answers true, or false and the error. -/
def closeThread (m : Machine) (t : ThreadId) (s : Store) : Next :=
  let (failed, e, deferred) :=
    match (m.threads.getD t.index default).state with
    | .suspended frames => (false, Value.nil, deferredOf frames)
    | .failed e deferred => (true, e, deferred)
    | _ => (false, .nil, [])
  let m := m.setState t .finished
  match m.frames with
  | f :: _ =>
    let rest : Run (List Value) := do
      let (failed, e) ← closeAll false deferred failed e
      f.resume (if failed then [.bool false, e] else [.bool true])
    .run m (rest s)
  | [] => m.deliver [.bool true] s

def answer (fs : Functions) (m : Machine) (q : Request) (s : Store) : Next :=
  match q with
  | .call f args site => m.beginCall fs f args site s
  | .tailCall f args site => m.replaceCall fs f args site s
  | .protectedCall f args handler passable => m.beginGuarded fs f args handler passable s
  | .defer v =>
    match m.frames with
    | f :: rest =>
      deliver { m with frames := { f with deferred := v :: f.deferred } :: rest } [] s
    | [] => m.deliver [] s
  | .closeLast line =>
    match m.frames with
    | f :: rest =>
      match f.deferred with
      | v :: deferred =>
        let m := { m with frames := { f with deferred } :: rest }
        let site : Site := { line, name := some ⟨"metamethod", ofText "close"⟩ }
        m.beginCall fs (s.metamethod v "__close") [v, .nil] site s
      | [] => m.deliver [] s
    | [] => m.deliver [] s
  | .spawn f =>
    let t : ThreadId := ⟨m.threads.size⟩
    deliver { m with threads := m.threads.push ⟨.fresh f, ⟨0⟩⟩ } [.thread t] s
  | .resume t args => m.resume fs t args s
  | .yield vs =>
    if m.canYield then m.switchBack (.suspended m.frames) (.bool true :: vs) s
    else
      let why :=
        if m.isMain then "attempt to yield from outside a coroutine"
        else "attempt to yield across a C-call boundary"
      .run m ((Run.failPlain why : Run (List Value)) s)
  | .status t => m.deliver [.text (m.statusText t)] s
  | .running => m.deliver [.thread m.current, .bool m.isMain] s
  | .isYieldable t => m.deliver [.bool (m.canStop (t.getD m.current))] s
  | .closeThread t => m.closeThread t s

/-- The line of the innermost call while it waits. -/
def siteLine? : Request → Option Nat
  | .call _ _ site | .tailCall _ _ site => some site.line
  | .closeLast line => some line
  | _ => none

/-- The innermost call waits for an answer. -/
def park (m : Machine) (q : Request) (k : List Value → Store → Res (List Value)) : Machine :=
  match m.frames with
  | f :: rest =>
    { m with frames := { f with resume := k, line := (siteLine? q).getD f.line } :: rest }
  | [] => m

/-- The innermost call has ended. -/
def leave (m : Machine) (vs : List Value) (s : Store) : Next :=
  match m.frames with
  | [] => .stop (.returned vs s m.threads)
  | f :: below =>
    let m := { m with frames := below }
    match f.role with
    | .plain _ => m.deliver vs s
    | .guarded .. => m.deliver (.bool true :: vs) s
    | .handling => m.unwind (Run.first vs) s
    | .entry =>
      if m.isMain then .stop (.returned vs s m.threads)
      else m.switchBack .finished (.bool true :: vs) s

def step (fs : Functions) (m : Machine) (r : Res (List Value)) : Next :=
  match r with
  | .done vs s => m.leave vs s
  | .raise e s =>
    match errorValue? s m.frames e with
    | some v => m.handle fs v s
    | none => .stop (.exhausted s m.threads)
  | .ask q s k => (m.park q k).answer fs q s

def run (fs : Functions) : Nat → Machine → Res (List Value) → Outcome
  | 0, m, r =>
    match r with
    | .done _ s | .raise _ s | .ask _ s _ => .exhausted s m.threads
  | n + 1, m, r =>
    match m.step fs r with
    | .run m r => run fs n m r
    | .stop o => o

/-- How many steps a run may take. -/
def stepLimit : Nat := Nat.pow 2 62

/-- Runs on the main thread. -/
def start (fs : Functions) (threads : Array Thread) (r : Run (List Value)) (s : Store) : Outcome :=
  let base : Frame :=
    { function := .nil, chunk := none, line := 0, name := none, deferred := [], nesting := 0,
      depth := 0, role := .entry, resume := fun vs s => .done vs s }
  run fs stepLimit { frames := [base], current := ⟨0⟩, threads } (r s)

end Machine

end Enclosure.Lua
