import Enclosure.Lua.Value
import Std.Data.HashMap

/-!
# Tables

A table maps keys to values. The content is `slots`; the rest decides two things only that scripts
can see of a table's layout: the order of traversal and, where an array has holes, which border its
length is.

Keys `1` to `arraySize` form the array part and are traversed first, in order; the others follow in
the order in which they were first set. A key that was set to nil keeps its place. When the hash part
is full, the sizes of both parts are chosen anew: the array part gets the largest power of two such
that more than half of its keys are in use.
-/

namespace Enclosure.Lua

structure Table where
  /-- The value at a key, with the place of the key in `order`. -/
  slots : Std.HashMap Value (Nat × Value) := {}
  order : Array Value := #[]
  arraySize : Nat := 0
  hashSize : Nat := 0
  hashUsed : Nat := 0
  metatable : Option TableId := none

namespace Table

instance : Inhabited Table := ⟨{}⟩

/-- The value at a key; nil if there is none. -/
def get (t : Table) (k : Value) : Value :=
  match t.slots[k]? with
  | some (_, v) => v
  | none => .nil

def getInt (t : Table) (n : Nat) : Value := t.get (Value.nat n)

/-- The place of a key in the array part. -/
def arrayIndex? (size : Nat) : Value → Option Nat
  | .int n =>
    let i := n.toInt
    if 1 ≤ i && i ≤ size then some i.toNat else none
  | _ => none

/-- The smallest `i` with `n ≤ 2 ^ i`. -/
def ceilLog2 (n : Nat) : Nat := if n ≤ 1 then 0 else (n - 1).log2 + 1

/-- The size of the hash part made for `n` keys. -/
def hashRoom (n : Nat) : Nat := if n == 0 then 0 else Nat.pow 2 (ceilLog2 n)

/-- A table made for so many array and hash entries. -/
def withRoom (array hash : Nat) : Table := { arraySize := array, hashSize := hashRoom hash }

/-- Counts of integer keys by size: place `i` counts those in `(2 ^ (i - 1), 2 ^ i]`. -/
def countKey (counts : Array Nat) : Value → Array Nat
  | .int n =>
    let i := n.toInt
    if 1 ≤ i && i ≤ Int.pow 2 27 then counts.modify (ceilLog2 i.toNat) (· + 1) else counts
  | _ => counts

/-- The array size for the keys counted, of which `total` are candidates: the largest `2 ^ i` more
than half of which is in use, and how many keys it holds. -/
def bestArraySize (counts : Array Nat) (total : Nat) : Nat × Nat := go 28 0 0 0 0
where
  go : Nat → Nat → Nat → Nat → Nat → Nat × Nat
    | 0, _, _, size, held => (size, held)
    | fuel + 1, i, seen, size, held =>
      if Nat.pow 2 i / 2 < total then
        let seen := seen + counts.getD i 0
        if Nat.pow 2 i / 2 < seen then go fuel (i + 1) seen (Nat.pow 2 i) seen
        else go fuel (i + 1) seen size held
      else (size, held)

/-- The keys whose value is not nil, in the order of `order`. -/
def liveKeys (t : Table) : Array Value := t.order.filter fun k => !(t.get k).isNil

/-- Both sizes chosen anew, with room for the key `extra`. -/
def relayout (t : Table) (extra : Value) : Table :=
  let keys := t.liveKeys.push extra
  let counts := keys.foldl countKey (Array.replicate 28 0)
  let total := counts.foldl (· + ·) 0
  let (size, held) := bestArraySize counts total
  let rest := keys.size - held
  { t with arraySize := size, hashSize := hashRoom rest, hashUsed := rest }

/-- A key that is not in `slots` yet, set to a value that is not nil. -/
def insertNew (t : Table) (k v : Value) : Table :=
  let place := t.order.size
  let t :=
    if (arrayIndex? t.arraySize k).isSome then t
    else if t.hashUsed < t.hashSize then { t with hashUsed := t.hashUsed + 1 }
    else t.relayout k
  { t with slots := t.slots.insert k (place, v), order := t.order.push k }

def set (t : Table) (k v : Value) : Table :=
  match t.slots[k]? with
  | some (place, _) => { t with slots := t.slots.insert k (place, v) }
  | none => if v.isNil then t else t.insertNew k v

/-- A border between `i`, which is zero or in use, and `j`, which is not. -/
def borderBetween (t : Table) : Nat → Nat → Nat → Nat
  | 0, i, _ => i
  | fuel + 1, i, j =>
    if j - i ≤ 1 then i
    else
      let m := (i + j) / 2
      if (t.getInt m).isNil then borderBetween t fuel i m else borderBetween t fuel m j

/-- A border past the array part, doubling from `j`, where `j + 1` is in use. -/
def borderBeyond (t : Table) : Nat → Nat → Nat
  | 0, j => j
  | fuel + 1, i =>
    if i ≤ (Nat.pow 2 63 - 1) / 2 then
      let j := i * 2
      if (t.getInt j).isNil then borderBetween t 64 i j else borderBeyond t fuel j
    else
      let j := Nat.pow 2 63 - 1
      if (t.getInt j).isNil then borderBetween t 64 i j else j

/-- The length of the table without metamethods: a number `n` that is zero or in use while `n + 1` is
not. -/
def length (t : Table) : Nat :=
  let limit := t.arraySize
  if limit > 0 && (t.getInt limit).isNil then
    if limit ≥ 2 && !(t.getInt (limit - 1)).isNil then limit - 1
    else borderBetween t 64 0 limit
  else if (t.getInt (limit + 1)).isNil then limit
  else borderBeyond t 64 (if limit == 0 then 1 else limit)

/-- The first entry of the array part past place `i`. -/
def nextInArray (t : Table) : Nat → Nat → Option (Value × Value)
  | 0, _ => none
  | fuel + 1, i =>
    if i < t.arraySize then
      let v := t.getInt (i + 1)
      if v.isNil then nextInArray t fuel (i + 1) else some (Value.nat (i + 1), v)
    else none

/-- The first entry at or past place `i` of `order` that is not in the array part. -/
def nextInOrder (t : Table) : Nat → Nat → Option (Value × Value)
  | 0, _ => none
  | fuel + 1, i =>
    match t.order[i]? with
    | none => none
    | some k =>
      let v := t.get k
      if v.isNil || (arrayIndex? t.arraySize k).isSome then nextInOrder t fuel (i + 1)
      else some (k, v)

/-- What follows a key in traversal. -/
inductive Step
  | entry (k v : Value)
  | done
  | unknownKey

/-- The entry after the key `k`, or the first one after nil. -/
def next (t : Table) (k : Value) : Step :=
  let fromOrder (i : Nat) : Step :=
    match t.nextInOrder (t.order.size + 1 - i) i with
    | some (k, v) => .entry k v
    | none => .done
  let fromArray (i : Nat) : Step :=
    match t.nextInArray (t.arraySize + 1 - i) i with
    | some (k, v) => .entry k v
    | none => fromOrder 0
  match k with
  | .nil => fromArray 0
  | k =>
    match k.asKey? with
    | none => .unknownKey
    | some k =>
      match arrayIndex? t.arraySize k with
      | some i => fromArray i
      | none =>
        match t.slots[k]? with
        | some (place, _) => fromOrder (place + 1)
        | none => .unknownKey

/-- All entries, array part first. -/
def entries (t : Table) : List (Value × Value) :=
  let first := (List.range t.arraySize).filterMap fun i =>
    let v := t.getInt (i + 1)
    if v.isNil then none else some (Value.nat (i + 1), v)
  let rest := t.order.toList.filterMap fun k =>
    let v := t.get k
    if v.isNil || (arrayIndex? t.arraySize k).isSome then none else some (k, v)
  first ++ rest

end Table

end Enclosure.Lua
