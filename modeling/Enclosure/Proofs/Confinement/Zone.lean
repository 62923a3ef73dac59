import Enclosure.Proofs.Lua.Store

/-!
# Zones

A zone says what scripts may hold of a store that they find: some of its tables and functions, and
everything made later. A metatable of the zone that they may not hold is a lock. Its handlers are
functions that scripts may not hold either, and its `__index` may be a table that they only read. A
window is a lock whose `__pairs` gives away what scripts may not hold.

A store is confined to the zone as long as what scripts may hold leads to nothing else, and all other
tables and functions are as they were.
-/

namespace Enclosure.Lua

structure Zone where
  /-- The store that scripts find. -/
  base : Store
  tables : List TableId
  functions : List FuncId
  locks : List TableId
  windows : List TableId
  /-- Tables behind the locks. -/
  behind : List TableId
  /-- Functions that handle events of the locks. -/
  gates : List FuncId
  /-- What the functions are that scripts may hold. -/
  allows : Builtin → Prop
  closures : Prop

namespace Zone

variable {Z : Zone} {s : Store} {t u m : TableId} {T : Table} {v k w : Value}

/-- What scripts may hold. -/
def Public (Z : Zone) : Value → Prop
  | .table t => Z.base.tables.size ≤ t.index ∨ t ∈ Z.tables
  | .func f => Z.base.functions.size ≤ f.index ∨ f ∈ Z.functions
  | .object o => Z.base.objects.size ≤ o.index
  | .thread _ => False
  | _ => True

def Publics (Z : Zone) (vs : List Value) : Prop := ∀ v ∈ vs, Z.Public v

/-- What is called on behalf of scripts. -/
def Callable (Z : Zone) (v : Value) : Prop := Z.Public v ∨ ∃ g ∈ Z.gates, v = .func g

/-- What is indexed on behalf of scripts. -/
def Indexable (Z : Zone) (v : Value) : Prop := Z.Callable v ∨ ∃ b ∈ Z.behind, v = .table b

/-- A variable that closures of scripts may have. -/
def OwnCell (Z : Zone) (c : CellId) : Prop := Z.base.cells.size ≤ c.index

theorem public_of_isPlain (h : v.isPlain) : Z.Public v := by
  cases v <;> trivial

@[simp] theorem public_nil : Z.Public .nil := trivial

@[simp] theorem public_str (b : Bytes) : Z.Public (.str b) := trivial

@[simp] theorem public_nat (n : Nat) : Z.Public (.nat n) := trivial

theorem public_number (n : Numeral) : Z.Public (.number n) := by
  cases n <;> trivial

@[simp] theorem publics_nil : Z.Publics [] := fun _ h => nomatch h

theorem publics_cons {vs : List Value} : Z.Publics (v :: vs) ↔ Z.Public v ∧ Z.Publics vs := by
  simp [Publics]

theorem publics_one (h : Z.Public v) : Z.Publics [v] := publics_cons.2 ⟨h, publics_nil⟩

theorem Publics.append {vs ws : List Value} (h : Z.Publics vs) (h' : Z.Publics ws) :
    Z.Publics (vs ++ ws) := fun v hv => (List.mem_append.1 hv).elim (h v) (h' v)

theorem Publics.headD {vs : List Value} (h : Z.Publics vs) : Z.Public (vs.headD .nil) := by
  cases vs
  · trivial
  · exact h _ (List.mem_cons_self ..)

theorem Publics.drop {vs : List Value} (h : Z.Publics vs) (n : Nat) : Z.Publics (vs.drop n) :=
  fun v hv => h v (List.mem_of_mem_drop hv)

theorem Publics.getD {vs : List Value} (h : Z.Publics vs) (n : Nat) {d : Value} (hd : Z.Public d) :
    Z.Public (vs.getD n d) := by
  rw [List.getD_eq_getElem?_getD]
  rcases hn : vs[n]? with _ | v
  · exact hd
  · exact h v (List.mem_of_getElem? hn)

theorem Public.callable (h : Z.Public v) : Z.Callable v := .inl h

theorem Public.indexable (h : Z.Public v) : Z.Indexable v := .inl (.inl h)

theorem Callable.public_of_ne (h : Z.Callable v) (hv : ∀ f, v ≠ .func f) : Z.Public v := by
  rcases h with h | ⟨g, -, rfl⟩
  · exact h
  · exact absurd rfl (hv g)

/-- The key that a value is in a table is as public as the value. -/
theorem Public.asKey? (h : Z.Public v) (hk : v.asKey? = some k) : Z.Public k := by
  cases v <;> simp only [Value.asKey?, reduceCtorEq, Option.some.injEq] at hk
  case float d =>
    split at hk
    · obtain rfl := Option.some.inj hk
      trivial
    · split at hk
      · cases hk
      · obtain rfl := Option.some.inj hk
        trivial
  all_goals exact hk ▸ h

/-! ## Confined stores -/

/-- What may be in a place for tables that scripts may hold. A lock stays where it is and is put
nowhere else. -/
structure Holds (Z : Zone) (t : TableId) (T : Table) : Prop where
  entries : T.All Z.Public
  metatable : ∀ m, T.metatable = some m → Z.Public (.table m) ∨ m ∈ Z.locks
  locked : ∀ m ∈ Z.locks, T.metatable = some m ↔ (Z.base.table t).metatable = some m

/-- What may be in a place for functions that scripts may hold. -/
inductive Runs (Z : Zone) : FunctionObject → Prop
  | builtin {b : Builtin} {captured : Array Value} (hb : Z.allows b)
    (hc : Z.Publics captured.toList) : Runs Z (.builtin b captured)
  | closure {body : FuncBody} {env : List CellId} {chunk : Bytes} (h : Z.closures)
    (henv : ∀ c ∈ env, Z.OwnCell c) : Runs Z (.closure body env chunk)

structure Confined (Z : Zone) (s : Store) : Prop where
  tables_size : Z.base.tables.size ≤ s.tables.size
  functions_size : Z.base.functions.size ≤ s.functions.size
  objects_size : Z.base.objects.size ≤ s.objects.size
  cells_size : Z.base.cells.size ≤ s.cells.size
  hidden : ∀ t, ¬ Z.Public (.table t) → s.table t = Z.base.table t
  hiddenFunction : ∀ f, ¬ Z.Public (.func f) → s.function f = Z.base.function f
  table : ∀ t, Z.Public (.table t) → Z.Holds t (s.table t)
  function : ∀ f, Z.Public (.func f) → Z.Runs (s.function f)
  object : ∀ o, Z.Public (.object o) → ∃ text, s.object o = .failure text
  cell : ∀ c, Z.OwnCell c → Z.Public (s.cell c)
  stringMeta : s.stringMeta = Z.base.stringMeta
  failureMeta : s.failureMeta = Z.base.failureMeta
  globals : s.globals = Z.base.globals
  loaded : s.loaded = Z.base.loaded

/-- A zone out of which its locks do not lead. -/
structure Sound (Z : Zone) : Prop where
  base : Z.Confined Z.base
  assert : Z.allows (.base .assert)
  lock : ∀ m ∈ Z.locks, ¬ Z.Public (.table m)
  index : ∀ m ∈ Z.locks, Z.Indexable (Z.base.rawGet m (.text "__index"))
  pairs : ∀ m ∈ Z.locks, m ∉ Z.windows → Z.Callable (Z.base.rawGet m (.text "__pairs"))
  handler : ∀ m ∈ Z.locks, ∀ event, event ≠ "__index" → event ≠ "__pairs" →
    Z.Callable (Z.base.rawGet m (.text event))
  behind : ∀ b ∈ Z.behind, ¬ Z.Public (.table b) ∧ (Z.base.table b).metatable = none
    ∧ (Z.base.table b).All Z.Public
  stringMeta : ∀ m, Z.base.stringMeta = some m → Z.Public (.table m) ∨ m ∈ Z.locks ∧ m ∉ Z.windows
  failureMeta : ∀ m, Z.base.failureMeta = some m →
    Z.Public (.table m) ∨ m ∈ Z.locks ∧ m ∉ Z.windows

/-- What is found is confined if nothing that scripts may hold of it leads to what they may not hold. -/
theorem confined_base (assert : Z.allows (.base .assert))
    (entries : ∀ t ∈ Z.tables, (Z.base.table t).All Z.Public)
    (metatable : ∀ t ∈ Z.tables, ∀ m, (Z.base.table t).metatable = some m →
      Z.Public (.table m) ∨ m ∈ Z.locks)
    (function : ∀ f ∈ Z.functions, Z.Runs (Z.base.function f)) : Z.Confined Z.base where
  tables_size := Nat.le_refl _
  functions_size := Nat.le_refl _
  objects_size := Nat.le_refl _
  cells_size := Nat.le_refl _
  hidden _ _ := rfl
  hiddenFunction _ _ := rfl
  -- an index past the end reads as an empty table, and so it is confined
  table t ht := by
    obtain hnew | ht := ht
    · rw [Store.table_of_le hnew]
      refine ⟨.default, ?_, fun m _ => ?_⟩
      · rintro _ ⟨⟩
      · rw [Store.table_of_le hnew]
    · exact ⟨entries t ht, metatable t ht, fun m _ => Iff.rfl⟩
  function f hf := by
    obtain hnew | hf := hf
    · rw [Store.function_of_le hnew]
      exact .builtin assert fun _ hv => absurd hv List.not_mem_nil
    · exact function f hf
  object o ho := ⟨.empty, by rw [Store.object_of_le ho]; rfl⟩
  cell c hc := by
    rw [Store.cell_of_le hc]
    trivial
  stringMeta := rfl
  failureMeta := rfl
  globals := rfl
  loaded := rfl

namespace Confined

theorem rawGet (h : Z.Confined s) (ht : Z.Public (.table t)) (k : Value) : Z.Public (s.rawGet t k) := by
  unfold Store.rawGet
  split
  · exact (h.table t ht).entries.get trivial _
  · trivial

theorem rawGet_hidden (h : Z.Confined s) (ht : ¬ Z.Public (.table t)) (k : Value) :
    s.rawGet t k = Z.base.rawGet t k := by
  simp only [Store.rawGet, h.hidden t ht]

theorem rawGet_behind (h : Z.Confined s) (sound : Z.Sound) {b : TableId} (hb : b ∈ Z.behind)
    (k : Value) : Z.Public (s.rawGet b k) := by
  obtain ⟨hidden, -, entries⟩ := sound.behind b hb
  rw [h.rawGet_hidden hidden]
  unfold Store.rawGet
  split
  · exact entries.get trivial _
  · trivial

/-- The metatable of what scripts hold: held by them too, or a lock. -/
theorem metatable (h : Z.Confined s) (sound : Z.Sound) (hv : Z.Public v)
    (hm : s.metatable v = some m) : Z.Public (.table m) ∨ m ∈ Z.locks := by
  cases v <;> simp only [Store.metatable, reduceCtorEq] at hm
  case table t => exact (h.table t hv).metatable m hm
  case str b =>
    rw [h.stringMeta] at hm
    exact (sound.stringMeta m hm).imp_right And.left
  case object o =>
    obtain ⟨text, ho⟩ := h.object o hv
    simp only [ho, h.failureMeta] at hm
    exact (sound.failureMeta m hm).imp_right And.left

theorem metamethod (h : Z.Confined s) (sound : Z.Sound) (hv : Z.Public v) {event : String}
    (hi : event ≠ "__index") (hp : event ≠ "__pairs") : Z.Callable (s.metamethod v event) := by
  unfold Store.metamethod
  split
  · rename_i m hm
    by_cases hpub : Z.Public (.table m)
    · exact .inl (h.rawGet hpub _)
    · rw [h.rawGet_hidden hpub]
      exact sound.handler m ((h.metatable sound hv hm).resolve_left hpub) event hi hp
  · exact .inl trivial

theorem metamethod_index (h : Z.Confined s) (sound : Z.Sound) (hv : Z.Public v) :
    Z.Indexable (s.metamethod v "__index") := by
  unfold Store.metamethod
  split
  · rename_i m hm
    by_cases hpub : Z.Public (.table m)
    · exact (h.rawGet hpub _).indexable
    · rw [h.rawGet_hidden hpub]
      exact sound.index m ((h.metatable sound hv hm).resolve_left hpub)
  · exact public_nil.indexable

/-- Nothing stands behind what stands behind a lock. -/
theorem metamethod_behind (h : Z.Confined s) (sound : Z.Sound) {b : TableId} (hb : b ∈ Z.behind)
    (event : String) : s.metamethod (.table b) event = .nil := by
  obtain ⟨hidden, bare, -⟩ := sound.behind b hb
  simp only [Store.metamethod, Store.metatable, h.hidden b hidden, bare]

/-- What is iterated on behalf of scripts, which must not be behind a window. -/
theorem metamethod_pairs (h : Z.Confined s) (sound : Z.Sound) (hv : Z.Public v)
    (hw : ∀ t, v = .table t → ∀ m ∈ Z.windows, (Z.base.table t).metatable ≠ some m) :
    Z.Callable (s.metamethod v "__pairs") := by
  unfold Store.metamethod
  split
  · rename_i m hm
    by_cases hpub : Z.Public (.table m)
    · exact .inl (h.rawGet hpub _)
    · rw [h.rawGet_hidden hpub]
      have hlock := (h.metatable sound hv hm).resolve_left hpub
      refine sound.pairs m hlock fun hwin => ?_
      cases v <;> simp only [Store.metatable, reduceCtorEq] at hm
      case table t => exact hw t rfl m hwin (((h.table t hv).locked m hlock).1 hm)
      case str b =>
        rw [h.stringMeta] at hm
        exact ((sound.stringMeta m hm).resolve_left hpub).2 hwin
      case object o =>
        obtain ⟨text, ho⟩ := h.object o hv
        simp only [ho, h.failureMeta] at hm
        exact ((sound.failureMeta m hm).resolve_left hpub).2 hwin
  · exact .inl trivial

/-! ## Steps -/

theorem modifyTable (h : Z.Confined s) (ht : Z.Public (.table t)) {f : Table → Table}
    (hf : Z.Holds t (s.table t) → Z.Holds t (f (s.table t))) : Z.Confined (s.modifyTable t f) where
  tables_size := by simpa using h.tables_size
  functions_size := h.functions_size
  objects_size := h.objects_size
  cells_size := h.cells_size
  hidden u hu := by
    have hne : u ≠ t := by
      rintro rfl
      exact hu ht
    rw [Store.table_modifyTable_of_ne hne, h.hidden u hu]
  hiddenFunction := h.hiddenFunction
  table u hu := by
    rw [Store.table_modifyTable]
    split_ifs with he
    · rw [he.1]
      exact hf (h.table t ht)
    · exact h.table u hu
  function := h.function
  object := h.object
  cell := h.cell
  stringMeta := h.stringMeta
  failureMeta := h.failureMeta
  globals := h.globals
  loaded := h.loaded

theorem set (h : Z.Confined s) (ht : Z.Public (.table t)) (hk : Z.Public k) (hv : Z.Public v) :
    Z.Confined (s.modifyTable t (·.set k v)) :=
  h.modifyTable ht fun holds =>
    ⟨holds.entries.set hk hv, by simpa using holds.metatable, by simpa using holds.locked⟩

theorem setMetatable (h : Z.Confined s) (ht : Z.Public (.table t)) {m : Option TableId}
    (hm : ∀ e, m = some e → Z.Public (.table e) ∧ e ∉ Z.locks)
    (hl : ∀ e ∈ Z.locks, (s.table t).metatable ≠ some e) :
    Z.Confined (s.modifyTable t fun T => { T with metatable := m }) :=
  h.modifyTable ht fun holds =>
    ⟨⟨holds.entries.slot, holds.entries.order⟩, fun e he => .inl (hm e he).1, fun e he =>
      ⟨fun hme => absurd he (hm e hme).2, fun hb => absurd ((holds.locked e he).2 hb) (hl e he)⟩⟩

theorem newTable (h : Z.Confined s) (hT : T.All Z.Public) (hm : T.metatable = none) :
    Z.Confined (s.newTable T).2 where
  tables_size := by
    rw [Store.size_newTable]
    exact Nat.le_succ_of_le h.tables_size
  functions_size := h.functions_size
  objects_size := h.objects_size
  cells_size := h.cells_size
  hidden u hu := by
    have hne : u.index ≠ s.tables.size := fun he => hu (.inl (by rw [he]; exact h.tables_size))
    rw [Store.table_newTable, if_neg hne, h.hidden u hu]
  hiddenFunction := h.hiddenFunction
  table u hu := by
    rw [Store.table_newTable]
    split_ifs with he
    · refine ⟨hT, fun m he => by simp [hm] at he, fun m _ => ?_⟩
      rw [hm, Store.table_of_le (he ▸ h.tables_size)]
      rfl
    · exact h.table u hu
  function := h.function
  object := h.object
  cell := h.cell
  stringMeta := h.stringMeta
  failureMeta := h.failureMeta
  globals := h.globals
  loaded := h.loaded

theorem newFunction (h : Z.Confined s) {o : FunctionObject} (ho : Z.Runs o) :
    Z.Confined (s.newFunction o).2 :=
  { h with
    functions_size := by
      show _ ≤ (s.functions.push o).size
      rw [Array.size_push]
      exact Nat.le_succ_of_le h.functions_size
    hiddenFunction := fun f hf => by
      have hne : f.index ≠ s.functions.size :=
        fun he => hf (.inl (by rw [he]; exact h.functions_size))
      rw [Store.function_newFunction, if_neg hne, h.hiddenFunction f hf]
    function := fun f hf => by
      rw [Store.function_newFunction]
      split_ifs
      · exact ho
      · exact h.function f hf }

theorem setCaptured (h : Z.Confined s) {f : FuncId} (hf : Z.Public (.func f)) {captured : Array Value}
    (hc : Z.Publics captured.toList) :
    Z.Confined { s with functions := s.functions.modify f.index fun
      | .builtin b _ => .builtin b captured
      | o => o } :=
  { h with
    functions_size := by
      rw [Array.size_modify]
      exact h.functions_size
    hiddenFunction := fun g hg => by
      have hne : g ≠ f := by
        rintro rfl
        exact hg hf
      rw [Store.function_modify_of_ne hne, h.hiddenFunction g hg]
    function := fun g hg => by
      rcases Store.function_modify s f g _ with he | he <;> rw [he]
      · exact h.function g hg
      · have hruns := h.function g hg
        generalize s.function g = o at hruns
        cases hruns with
        | builtin hb _ => exact .builtin hb hc
        | closure hcl henv => exact .closure hcl henv }

theorem newObject (h : Z.Confined s) (text : Bytes) :
    Z.Confined (s.newObject (.failure text)).2 :=
  { h with
    objects_size := by
      show _ ≤ (s.objects.push _).size
      rw [Array.size_push]
      exact Nat.le_succ_of_le h.objects_size
    object := fun o ho => by
      rw [Store.object_newObject]
      split_ifs
      · exact ⟨text, rfl⟩
      · exact h.object o ho }

theorem newCell (h : Z.Confined s) (hv : Z.Public v) : Z.Confined (s.newCell v).2 :=
  { h with
    cells_size := by
      show _ ≤ (s.cells.push v).size
      rw [Array.size_push]
      exact Nat.le_succ_of_le h.cells_size
    cell := fun c hc => by
      rw [Store.cell_newCell]
      split_ifs
      · exact hv
      · exact h.cell c hc }

theorem setCell (h : Z.Confined s) (c : CellId) (hv : Z.Public v) : Z.Confined (s.setCell c v) :=
  { h with
    cells_size := by
      show _ ≤ (s.cells.setIfInBounds c.index v).size
      rw [Array.size_setIfInBounds]
      exact h.cells_size
    cell := fun c' hc => by
      rcases Store.cell_setCell s c c' v with he | ⟨-, he⟩ <;> rw [he]
      · exact h.cell c' hc
      · exact hv }

end Confined

end Zone

end Enclosure.Lua
