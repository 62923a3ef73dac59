import Enclosure.Lua.Store
import Enclosure.Proofs.Lua.Table

/-!
# Tables of a store

A step changes one table or makes one, and every other table is as before.
-/

namespace Enclosure.Lua.Store

variable {s : Store} {t u : TableId}

theorem text_injective {a b : String} (h : Value.text a = Value.text b) : a = b :=
  String.toByteArray_inj.1 (Value.str.inj h)

theorem text_inj {a b : String} : Value.text a = Value.text b ↔ a = b :=
  ⟨text_injective, congrArg Value.text⟩

@[simp] theorem size_modifyTable (s : Store) (t : TableId) (f : Table → Table) :
    (s.modifyTable t f).tables.size = s.tables.size := by
  simp [modifyTable]

theorem table_modifyTable (s : Store) (t : TableId) (f : Table → Table) (u : TableId) :
    (s.modifyTable t f).table u
      = if u = t ∧ t.index < s.tables.size then f (s.table t) else s.table u := by
  simp only [table, modifyTable, Array.getD_eq_getD_getElem?, Array.getElem?_modify]
  by_cases h : u = t
  · subst h
    by_cases hu : u.index < s.tables.size <;> simp [hu]
  · have hi : t.index ≠ u.index := fun he => h (by cases t; cases u; simp_all)
    simp [h, hi]

theorem table_modifyTable_self (ht : t.index < s.tables.size) (f : Table → Table) :
    (s.modifyTable t f).table t = f (s.table t) := by
  rw [table_modifyTable, if_pos ⟨rfl, ht⟩]

theorem table_modifyTable_of_ne (h : u ≠ t) (f : Table → Table) :
    (s.modifyTable t f).table u = s.table u := by
  rw [table_modifyTable, if_neg (fun he => h he.1)]

@[simp] theorem size_newTable (s : Store) (t : Table) :
    (s.newTable t).2.tables.size = s.tables.size + 1 := by
  simp [newTable]

theorem table_newTable (s : Store) (t : Table) (u : TableId) :
    (s.newTable t).2.table u = if u.index = s.tables.size then t else s.table u := by
  simp only [table, newTable, Array.getD_eq_getD_getElem?, Array.getElem?_push]
  split_ifs <;> simp_all

/-! What one kind of step leaves alone. -/

section Frame

variable (s : Store) (t u : TableId) (T : Table) (f : Table → Table) (o : FunctionObject) (g : FuncId)

@[simp] theorem functions_modifyTable : (s.modifyTable t f).functions = s.functions := rfl

@[simp] theorem function_modifyTable : (s.modifyTable t f).function g = s.function g := rfl

@[simp] theorem functions_newTable : (s.newTable T).2.functions = s.functions := rfl

@[simp] theorem function_newTable : (s.newTable T).2.function g = s.function g := rfl

@[simp] theorem size_newFunction : (s.newFunction o).2.functions.size = s.functions.size + 1 := by
  simp [newFunction]

/-- Everything but tables and functions. -/
def rest (s : Store) : Array Value × Array HostObject × Option TableId × Option TableId × TableId :=
  (s.cells, s.objects, s.stringMeta, s.failureMeta, s.globals)

@[simp] theorem rest_modifyTable : (s.modifyTable t f).rest = s.rest := rfl

@[simp] theorem rest_newTable : (s.newTable T).2.rest = s.rest := rfl

@[simp] theorem rest_newFunction : (s.newFunction o).2.rest = s.rest := rfl

end Frame

theorem table_of_le (h : s.tables.size ≤ t.index) : s.table t = default := by
  simp [table, Array.getD_eq_getD_getElem?, h]

/-- No table in a place before `n` is changed, and none is lost. -/
structure Keeps (n : Nat) (s s' : Store) : Prop where
  size : s.tables.size ≤ s'.tables.size
  table : ∀ t : TableId, t.index < n → s'.table t = s.table t

namespace Keeps

variable {n : Nat} {s₁ s' : Store}

theorem refl (n : Nat) (s : Store) : Keeps n s s := ⟨Nat.le_refl _, fun _ _ => rfl⟩

theorem trans (h : Keeps n s s₁) (h' : Keeps n s₁ s') : Keeps n s s' :=
  ⟨Nat.le_trans h.size h'.size, fun t ht => (h'.table t ht).trans (h.table t ht)⟩

theorem mono {m : Nat} (h : Keeps n s s') (hm : m ≤ n) : Keeps m s s' :=
  ⟨h.size, fun t ht => h.table t (by omega)⟩

theorem modifyTable (h : n ≤ t.index) (f : Table → Table) : Keeps n s (s.modifyTable t f) :=
  ⟨by simp, fun u hu => table_modifyTable_of_ne (fun he => by subst he; omega) f⟩

theorem newTable (h : n ≤ s.tables.size) (t : Table) : Keeps n s (s.newTable t).2 :=
  ⟨by simp, fun u hu => by rw [table_newTable, if_neg (by omega)]⟩

theorem newFunction (s : Store) (o : FunctionObject) : Keeps n s (s.newFunction o).2 :=
  ⟨Nat.le_refl _, fun _ _ => rfl⟩

end Keeps

/-! ## Functions, objects and variables -/

theorem function_newFunction (s : Store) (o : FunctionObject) (f : FuncId) :
    (s.newFunction o).2.function f = if f.index = s.functions.size then o else s.function f := by
  simp only [function, newFunction, Array.getD_eq_getD_getElem?, Array.getElem?_push]
  split_ifs <;> simp_all

/-- A store with a new function of the library under a name in a table. -/
def addFunction (s : Store) (t : TableId) (name : String) (b : Builtin) (captured : Array Value) :
    Store :=
  (s.newFunction (.builtin b captured)).2.modifyTable t
    (·.set (.text name) (.func ⟨s.functions.size⟩))

section AddFunction

variable (s : Store) (t u : TableId) (name : String) (b : Builtin) (captured : Array Value) (f : FuncId)

theorem table_addFunction : (s.addFunction t name b captured).table u
    = if u = t ∧ t.index < s.tables.size then (s.table t).set (.text name) (.func ⟨s.functions.size⟩)
      else s.table u :=
  table_modifyTable ..

@[simp] theorem tables_size_addFunction :
    (s.addFunction t name b captured).tables.size = s.tables.size :=
  size_modifyTable ..

theorem function_addFunction : (s.addFunction t name b captured).function f
    = if f.index = s.functions.size then .builtin b captured else s.function f :=
  function_newFunction ..

@[simp] theorem functions_size_addFunction :
    (s.addFunction t name b captured).functions.size = s.functions.size + 1 :=
  size_newFunction ..

@[simp] theorem rest_addFunction : (s.addFunction t name b captured).rest = s.rest := rfl

end AddFunction

theorem function_modify (s : Store) (f g : FuncId) (u : FunctionObject → FunctionObject) :
    { s with functions := s.functions.modify f.index u }.function g = s.function g ∨
      { s with functions := s.functions.modify f.index u }.function g = u (s.function g) := by
  simp only [function, Array.getD_eq_getD_getElem?, Array.getElem?_modify]
  split_ifs
  · rcases s.functions[g.index]? with _ | o
    · exact .inl rfl
    · exact .inr rfl
  · exact .inl rfl

theorem function_modify_of_ne {f g : FuncId} (h : g ≠ f) (u : FunctionObject → FunctionObject) :
    { s with functions := s.functions.modify f.index u }.function g = s.function g := by
  have hi : f.index ≠ g.index := fun he => h (by cases f; cases g; simp_all)
  simp only [function, Array.getD_eq_getD_getElem?, Array.getElem?_modify, if_neg hi]

theorem object_newObject (s : Store) (h : HostObject) (o : ObjectId) :
    (s.newObject h).2.object o = if o.index = s.objects.size then h else s.object o := by
  simp only [object, newObject, Array.getD_eq_getD_getElem?, Array.getElem?_push]
  split_ifs <;> simp_all

theorem cell_newCell (s : Store) (v : Value) (c : CellId) :
    (s.newCell v).2.cell c = if c.index = s.cells.size then v else s.cell c := by
  simp only [cell, newCell, Array.getD_eq_getD_getElem?, Array.getElem?_push]
  split_ifs <;> simp_all

theorem function_of_le {f : FuncId} (h : s.functions.size ≤ f.index) : s.function f = default := by
  simp [function, Array.getD_eq_getD_getElem?, h]

theorem object_of_le {o : ObjectId} (h : s.objects.size ≤ o.index) : s.object o = default := by
  simp [object, Array.getD_eq_getD_getElem?, h]

theorem cell_of_le {c : CellId} (h : s.cells.size ≤ c.index) : s.cell c = .nil := by
  simp [cell, Array.getD_eq_getD_getElem?, h]

/-- A variable holds what it held or what was put into it. -/
theorem cell_setCell (s : Store) (c c' : CellId) (v : Value) :
    (s.setCell c v).cell c' = s.cell c' ∨ c' = c ∧ (s.setCell c v).cell c' = v := by
  simp only [cell, setCell, Array.getD_eq_getD_getElem?, Array.getElem?_setIfInBounds]
  split_ifs with h hlt
  · exact .inr ⟨by cases c; cases c'; simp_all, rfl⟩
  · exact .inl (by rw [Array.getElem?_eq_none (by omega)])
  · exact .inl rfl

theorem rawGet_text (s : Store) (t : TableId) (name : String) :
    s.rawGet t (.text name) = (s.table t).get (.text name) := rfl

theorem rawGet_set_self (ht : t.index < s.tables.size) (name : String) (v : Value) :
    (s.modifyTable t (·.set (.text name) v)).rawGet t (.text name) = v := by
  rw [rawGet_text, table_modifyTable_self ht, Table.get_set_self]

end Enclosure.Lua.Store
