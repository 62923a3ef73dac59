import Enclosure.Lua.Library.Argument

/-!
# The library `table`

Elements are read and written through metamethods, so anything that can be indexed and has a length
does for a table. Sorting is a quicksort with the median of three as pivot; the order of comparisons
is fixed.
-/

namespace Enclosure.Lua.Library.List

open Run

def getAt (t : Value) (i : Int64) : Run Value := Operation.index .library none t (.int i)

def setAt (t : Value) (i : Int64) (v : Value) : Run Unit := Operation.setIndex .library none t (.int i) v

/-- The length as an integer. -/
def lengthOf (t : Value) : Run Int64 := do
  match ← Operation.length .library ⟨t, none⟩ with
  | .int n => return n
  | .float d =>
    match d.toInt64? with
    | some n => return n
    | none => fail "object length is not an integer"
  | .str s =>
    match (Numeral.ofBytes? s).bind Numeral.toInt64? with
    | some n => return n
    | none => fail "object length is not an integer"
  | _ => fail "object length is not an integer"

/-- The argument numbered `n` if it is a table or has the metamethods asked for. -/
def tableLike (args : Args) (n : Nat) (events : List String) : Run Value := do
  match args.arg n with
  | .table t => return .table t
  | v =>
    let hs ← events.mapM fun e => metamethod v e
    if (← metatable v).isSome && hs.all (!·.isNil) then return v
    args.failType n "table"

def readable : List String := ["__index", "__len"]
def changeable : List String := ["__index", "__newindex", "__len"]

/-- Moves the elements from `i - 1` down to `place` one place up. -/
def shiftUp (t : Value) (place : Int64) : Nat → Int64 → Run Unit
  | 0, _ => pure ()
  | n + 1, i => do
    if i ≤ place then return ()
    setAt t i (← getAt t (i - 1))
    shiftUp t place n (i - 1)

def insert (args : Args) : Run (List Value) := do
  let t ← tableLike args 1 changeable
  let free := (← lengthOf t) + 1
  match args with
  | [_, v] =>
    setAt t free v
    return []
  | [_, _, v] =>
    let place ← args.integer 2
    if free.toUInt64 ≤ place.toUInt64 - 1 then badArgument 2 "position out of bounds"
    shiftUp t place (free.toInt - place.toInt).toNat free
    setAt t place v
    return []
  | _ => fail "wrong number of arguments to 'insert'"

/-- Moves the elements after `i` up to `size` one place down. -/
def shiftDown (t : Value) : Nat → Int64 → Run Unit
  | 0, _ => pure ()
  | n + 1, i => do
    setAt t i (← getAt t (i + 1))
    shiftDown t n (i + 1)

def remove (args : Args) : Run (List Value) := do
  let t ← tableLike args 1 changeable
  let size ← lengthOf t
  let place ← args.integerOr 2 size
  if args.length ≥ 2 && place != size && size.toUInt64 < place.toUInt64 - 1 then
    badArgument 2 "position out of bounds"
  let v ← getAt t place
  let count := (size.toInt - place.toInt).toNat
  shiftDown t count place
  setAt t (place + Int64.ofNat count) .nil
  return [v]

/-- Copies `n` elements, upwards from the first. -/
def copyUp (a b : Value) (source target : Int64) : Nat → Run Unit
  | 0 => pure ()
  | n + 1 => do
    setAt b target (← getAt a source)
    copyUp a b (source + 1) (target + 1) n

/-- Copies `n` elements, downwards from the last. -/
def copyDown (a b : Value) (source target : Int64) : Nat → Run Unit
  | 0 => pure ()
  | n + 1 => do
    setAt b (target + Int64.ofNat n) (← getAt a (source + Int64.ofNat n))
    copyDown a b source target n

def move (args : Args) : Run (List Value) := do
  let source ← args.integer 2
  let stop ← args.integer 3
  let target ← args.integer 4
  let other := !args.absent 5
  let a ← tableLike args 1 ["__index"]
  let b ← tableLike args (if other then 5 else 1) ["__newindex"]
  if source ≤ stop then
    if !(0 < source || stop < Int64.maxValue + source) then
      badArgument 3 "too many elements to move"
    let n := stop.toInt - source.toInt + 1
    if Int64.maxValue.toInt - n + 1 < target.toInt then badArgument 4 "destination wrap around"
    let apart ←
      if stop < target || target ≤ source then pure true
      else if other then do pure !(← Operation.equal .library a b)
      else pure false
    if apart then copyUp a b source target n.toNat else copyDown a b source target n.toNat
  return [b]

/-- The text of an element. -/
def elementText (t : Value) (i : Int64) : Run Bytes := do
  let v ← getAt t i
  match v.bytes? with
  | some b => return b
  | none =>
    fail ("invalid value (" ++ v.typeName ++ ") at index " ++ toString i.toInt
      ++ " in table for 'concat'")

def concat (args : Args) : Run (List Value) := do
  let t ← tableLike args 1 readable
  let size ← lengthOf t
  let sep ← args.stringOr 2 .empty
  let start ← args.integerOr 3 1
  let stop ← args.integerOr 4 size
  if stop < start then return [.str .empty]
  let out ← loopWith (Bytes.ofText "", start) fun (acc, i) => do
    let piece ← elementText t i
    if i == stop then return .inr (acc ++ piece) else return .inl (acc ++ piece ++ sep, i + 1)
  return [.str out]

def pack (args : Args) : Run (List Value) := do
  let t ← step (·.newTable (Table.withRoom args.length 1))
  forCount args.length 1 fun i => rawSetInt t i (args.arg i)
  rawSetText t "n" (.nat args.length)
  return [.table t]

/-- How many values a call may give. -/
def maxResults : Nat := 999990

/-- The elements from `i` on, `n` of them. -/
def elements (t : Value) : Nat → Int64 → Run (List Value)
  | 0, _ => pure []
  | n + 1, i => do
    let v ← getAt t i
    let vs ← elements t n (i + 1)
    return v :: vs

def unpack (args : Args) : Run (List Value) := do
  let start ← args.integerOr 2 1
  let stop ← if args.absent 3 then lengthOf (args.arg 1) else args.integer 3
  if stop < start then return []
  let n := (stop.toInt - start.toInt + 1).toNat
  if maxResults ≤ n then fail "too many results to unpack"
  elements (args.arg 1) n start

/-! ## Sorting -/

/-- Compares two elements: by the function, or by `<` if it is nil. -/
def precedes (order : Value) (a b : Value) : Run Bool :=
  match order with
  | .nil => Operation.less .library a b
  | f => do return (first (← call f [a, b] {})).truthy

def getPlace (t : Value) (i : Nat) : Run Value := getAt t (Int64.ofNat i)

def setPlaces (t : Value) (i : Nat) (v : Value) (j : Nat) (w : Value) : Run Unit := do
  setAt t (Int64.ofNat i) v
  setAt t (Int64.ofNat j) w

def failOrder {α : Type} : Run α := fail "invalid order function for sorting"

/-- Splits `low .. up` around the pivot, which stands at `up - 1`. Answers its final place. -/
def partitionAt (t order pivot : Value) (low up : Nat) : Run Nat :=
  loopWith (low, up - 1) fun (i, j) => do
    let (i, vi) ← loopWith (i + 1) fun i => do
      let v ← getPlace t i
      if ← precedes order v pivot then
        if i == up - 1 then failOrder
        return .inl (i + 1)
      else return .inr (i, v)
    let (j, vj) ← loopWith (j - 1) fun j => do
      let v ← getPlace t j
      if ← precedes order pivot v then
        if j < i then failOrder
        return .inl (j - 1)
      else return .inr (j, v)
    if j < i then
      setPlaces t (up - 1) vi i pivot
      return .inr i
    setPlaces t i vj j vi
    return .inl (i, j)

/-- Sorts `low .. up`; each part is smaller than the whole. -/
def sortBetween (t order : Value) : Nat → Nat → Nat → Run Unit
  | 0, _, _ => pure ()
  | fuel + 1, low, up => do
    if up ≤ low then return ()
    let a ← getPlace t low
    let b ← getPlace t up
    if ← precedes order b a then setPlaces t low b up a
    if up - low == 1 then return ()
    let p := (low + up) / 2
    let m ← getPlace t p
    let a ← getPlace t low
    if ← precedes order m a then setPlaces t p a low m
    else
      let b ← getPlace t up
      if ← precedes order b m then setPlaces t p b up m
    if up - low == 2 then return ()
    let pivot ← getPlace t p
    let next ← getPlace t (up - 1)
    setPlaces t p next (up - 1) pivot
    let p ← partitionAt t order pivot low up
    if p - low < up - p then
      sortBetween t order fuel low (p - 1)
      sortBetween t order fuel (p + 1) up
    else
      sortBetween t order fuel (p + 1) up
      sortBetween t order fuel low (p - 1)

def sort (args : Args) : Run (List Value) := do
  let t ← tableLike args 1 changeable
  let n ← lengthOf t
  if 1 < n then
    if 2147483647 ≤ n then badArgument 1 "array too big"
    let order ← if args.absent 2 then pure Value.nil else args.function 2
    let n := n.toInt.toNat
    sortBetween t order (n + 1) 1 n
  return []

def run (f : TableFunction) (args : Args) : Run (List Value) :=
  match f with
  | .concat => concat args
  | .insert => insert args
  | .move => move args
  | .pack => pack args
  | .remove => remove args
  | .sort => sort args
  | .unpack => unpack args

end Enclosure.Lua.Library.List
