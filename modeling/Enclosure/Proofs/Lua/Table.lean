import Mathlib.Algebra.Group.Int.Defs
import Mathlib.Data.String.Basic
import Mathlib.Tactic.Common
import Mathlib.Tactic.SplitIfs
import Enclosure.Lua.Table

/-!
# Tables by their content

What a table holds after a key was set is told by `get`, whatever became of the layout. Keys and values
of a table come from what was put into it.
-/

namespace Enclosure.Lua

namespace Value

theorem isNil_iff {v : Value} : v.isNil ↔ v = .nil := by
  cases v <;> simp [isNil]

@[simp] theorem isNil_nil : nil.isNil = true := rfl

@[simp] theorem isNil_table (t : TableId) : (table t).isNil = false := rfl

@[simp] theorem isNil_func (f : FuncId) : (func f).isNil = false := rfl

/-- Whether a value is no object. -/
def isPlain : Value → Bool
  | nil | bool _ | int _ | float _ | str _ => true
  | _ => false

end Value

namespace Table

variable {t : Table} {k k' v w : Value}

@[simp] theorem get_default (k : Value) : (default : Table).get k = .nil := by
  have h : (default : Table).slots[k]? = none := Std.HashMap.getElem?_empty
  simp only [get, h]

@[simp] theorem slots_relayout (t : Table) (extra : Value) : (t.relayout extra).slots = t.slots := rfl

@[simp] theorem order_relayout (t : Table) (extra : Value) : (t.relayout extra).order = t.order := rfl

@[simp] theorem metatable_relayout (t : Table) (extra : Value) :
    (t.relayout extra).metatable = t.metatable := rfl

theorem slots_insertNew (t : Table) (k v : Value) :
    (t.insertNew k v).slots = t.slots.insert k (t.order.size, v) := by
  unfold insertNew
  split_ifs <;> rfl

theorem order_insertNew (t : Table) (k v : Value) : (t.insertNew k v).order = t.order.push k := by
  unfold insertNew
  split_ifs <;> rfl

theorem metatable_insertNew (t : Table) (k v : Value) :
    (t.insertNew k v).metatable = t.metatable := by
  unfold insertNew
  split_ifs <;> rfl

@[simp] theorem metatable_set (t : Table) (k v : Value) : (t.set k v).metatable = t.metatable := by
  unfold set
  split
  · rfl
  · split_ifs
    · rfl
    · exact metatable_insertNew t k v

theorem get_set (t : Table) (k v k' : Value) :
    (t.set k v).get k' = if k' = k then v else t.get k' := by
  unfold set
  split
  · rename_i place old hk
    by_cases h : k = k'
    · simp [get, h]
    · simp [get, Std.HashMap.getElem?_insert, h, Ne.symm h]
  · rename_i hk
    split_ifs with hv h h
    · subst h
      simp [get, hk, Value.isNil_iff.1 hv]
    · rfl
    · simp [get, slots_insertNew, h]
    · simp [get, slots_insertNew, Std.HashMap.getElem?_insert, Ne.symm h]

theorem get_set_self (t : Table) (k v : Value) : (t.set k v).get k = v := by
  rw [get_set, if_pos rfl]

theorem get_set_of_ne (t : Table) (h : k' ≠ k) (v : Value) : (t.set k v).get k' = t.get k' := by
  rw [get_set, if_neg h]

/-! ## What a table holds -/

/-- All keys and values of a table have a property, keys that were set to nil included. -/
structure All (P : Value → Prop) (t : Table) : Prop where
  slot : ∀ k place v, t.slots[k]? = some (place, v) → P k ∧ P v
  order : ∀ k ∈ t.order, P k

namespace All

variable {P Q : Value → Prop}

theorem empty {t : Table} (hs : t.slots = {}) (ho : t.order = #[]) : All P t :=
  ⟨fun k place v h => by simp [hs] at h, fun k h => by simp [ho] at h⟩

theorem default : All P default := empty rfl rfl

theorem mono (h : All P t) (hPQ : ∀ v, P v → Q v) : All Q t :=
  ⟨fun k place v hk => ⟨hPQ k (h.slot k place v hk).1, hPQ v (h.slot k place v hk).2⟩,
    fun k hk => hPQ k (h.order k hk)⟩

theorem get (h : All P t) (hnil : P .nil) (k : Value) : P (t.get k) := by
  unfold Table.get
  split
  · rename_i place v hk
    exact (h.slot k place v hk).2
  · exact hnil

/-- What has a value is a key. -/
theorem key (h : All P t) {k : Value} (hk : t.get k ≠ .nil) : P k := by
  unfold Table.get at hk
  split at hk
  · rename_i place v hslot
    exact (h.slot k place v hslot).1
  · exact absurd rfl hk

theorem set (h : All P t) (hk : P k) (hv : P v) : All P (t.set k v) := by
  have slot : ∀ place k' place' v', (t.slots.insert k (place, v))[k']? = some (place', v') →
      P k' ∧ P v' := by
    intro place k' place' v' hget
    rw [Std.HashMap.getElem?_insert] at hget
    split_ifs at hget with he
    · obtain ⟨-, rfl⟩ := Prod.mk.inj (Option.some.inj hget)
      exact ⟨eq_of_beq he ▸ hk, hv⟩
    · exact h.slot k' place' v' hget
  unfold Table.set
  split
  · exact ⟨slot _, h.order⟩
  · split_ifs
    · exact h
    · refine ⟨fun k' place' v' hget => ?_, fun k' hk' => ?_⟩
      · rw [slots_insertNew] at hget
        exact slot _ k' place' v' hget
      · rw [order_insertNew, Array.mem_push] at hk'
        rcases hk' with hk' | rfl
        · exact h.order k' hk'
        · exact hk

theorem nextInArray (h : All P t) (hnil : P .nil) (hint : ∀ n, P (.int n)) :
    ∀ fuel i, ∀ q, t.nextInArray fuel i = some q → P q.1 ∧ P q.2
  | 0, i, q, hq => by simp [Table.nextInArray] at hq
  | fuel + 1, i, q, hq => by
    unfold Table.nextInArray at hq
    dsimp only at hq
    split_ifs at hq
    · exact nextInArray h hnil hint fuel (i + 1) q hq
    · obtain rfl := Option.some.inj hq
      exact ⟨hint _, h.get hnil _⟩

theorem nextInOrder (h : All P t) (hnil : P .nil) :
    ∀ fuel i, ∀ q, t.nextInOrder fuel i = some q → P q.1 ∧ P q.2
  | 0, i, q, hq => by simp [Table.nextInOrder] at hq
  | fuel + 1, i, q, hq => by
    unfold Table.nextInOrder at hq
    split at hq
    · cases hq
    · rename_i k hk
      dsimp only at hq
      split_ifs at hq
      · exact nextInOrder h hnil fuel (i + 1) q hq
      · obtain rfl := Option.some.inj hq
        exact ⟨h.order k (Array.mem_of_getElem? hk), h.get hnil _⟩

/-- Traversal hands out what the table holds. -/
theorem next (h : All P t) (hnil : P .nil) (hint : ∀ n, P (.int n)) {k v : Value}
    (hnext : t.next w = .entry k v) : P k ∧ P v := by
  unfold Table.next at hnext
  extract_lets fromOrder fromArray at hnext
  have order (i : Nat) (hi : fromOrder i = .entry k v) : P k ∧ P v := by
    dsimp only [fromOrder] at hi
    split at hi
    · rename_i hq
      obtain ⟨rfl, rfl⟩ := Step.entry.inj hi
      exact h.nextInOrder hnil _ _ _ hq
    · cases hi
  have array (i : Nat) (hi : fromArray i = .entry k v) : P k ∧ P v := by
    dsimp only [fromArray] at hi
    split at hi
    · rename_i hq
      obtain ⟨rfl, rfl⟩ := Step.entry.inj hi
      exact h.nextInArray hnil hint _ _ _ hq
    · exact order 0 hi
  split at hnext
  · exact array 0 hnext
  · split at hnext
    · cases hnext
    · split at hnext
      · exact array _ hnext
      · split at hnext
        · exact order _ hnext
        · cases hnext

end All

end Table

end Enclosure.Lua
