import Mathlib.Data.Set.Insert
import Enclosure.Proofs.Lua.Store

/-!
# Realms

A realm is what running code can get at: tables, functions, and the functions of the host behind some
of these. A store is closed over a realm if nothing in the realm leads out of it. A realm only grows,
and only by what is made on the way; so what is outside of it when code begins to run is as it was when
the code has ended (`Passage.table`).
-/

namespace Enclosure.Lua

structure Realm where
  tables : Set TableId
  functions : Set FuncId
  /-- Functions of the host, by number. -/
  callbacks : Set Nat

/-- What a store says of the opening of native modules and the search for script modules. No code
changes it by itself. -/
structure Ledger where
  natives : List (String × TableId)
  opened : List String
  tried : List String

def Store.ledger (s : Store) : Ledger := ⟨s.natives, s.opened, s.tried⟩

/-- All of a store that leads to tables or functions, and its ledger. -/
def Store.core (s : Store) : Array Table × Array FunctionObject × Array Value × Option TableId
    × Option TableId × Option TableId × TableId × TableId × TableId × Ledger :=
  (s.tables, s.functions, s.cells, s.stringMeta, s.failureMeta, s.fileMeta, s.globals, s.loaded,
    s.preload, s.ledger)

namespace Realm

instance : LE Realm :=
  ⟨fun R R' => R.tables ⊆ R'.tables ∧ R.functions ⊆ R'.functions ∧ R.callbacks ⊆ R'.callbacks⟩

instance : Preorder Realm where
  le_refl _ := ⟨Set.Subset.rfl, Set.Subset.rfl, Set.Subset.rfl⟩
  le_trans _ _ _ h h' := ⟨h.1.trans h'.1, h.2.1.trans h'.2.1, h.2.2.trans h'.2.2⟩

/-- Everything. -/
def all : Realm := ⟨Set.univ, Set.univ, Set.univ⟩

/-- The realm with a table more. -/
def withTable (R : Realm) (t : TableId) : Realm := { R with tables := insert t R.tables }

/-- The realm with a function more. -/
def withFunction (R : Realm) (f : FuncId) : Realm := { R with functions := insert f R.functions }

variable {R R' : Realm} {v k : Value} {vs ws : List Value} {t : TableId} {f : FuncId}

theorem le_withTable (R : Realm) (t : TableId) : R ≤ R.withTable t :=
  ⟨Set.subset_insert _ _, Set.Subset.rfl, Set.Subset.rfl⟩

theorem le_withFunction (R : Realm) (f : FuncId) : R ≤ R.withFunction f :=
  ⟨Set.Subset.rfl, Set.subset_insert _ _, Set.Subset.rfl⟩

/-- The realm has a value. -/
def Has (R : Realm) : Value → Prop
  | .table t => t ∈ R.tables
  | .func f => f ∈ R.functions
  | _ => True

def HasAll (R : Realm) (vs : List Value) : Prop := ∀ v ∈ vs, R.Has v

theorem Has.up (h : R.Has v) (hR : R ≤ R') : R'.Has v := by
  cases v <;> first | trivial | exact hR.1 h | exact hR.2.1 h

theorem HasAll.up (h : R.HasAll vs) (hR : R ≤ R') : R'.HasAll vs := fun v hv => (h v hv).up hR

theorem all_has (v : Value) : all.Has v := by
  cases v <;> trivial

theorem all_hasAll (vs : List Value) : all.HasAll vs := fun v _ => all_has v

theorem has_of_isPlain (h : v.isPlain) : R.Has v := by
  cases v <;> trivial

@[simp] theorem has_nil : R.Has .nil := trivial

@[simp] theorem has_bool (b : Bool) : R.Has (.bool b) := trivial

@[simp] theorem has_int (n : Int64) : R.Has (.int n) := trivial

@[simp] theorem has_float (d : Double) : R.Has (.float d) := trivial

@[simp] theorem has_str (b : Bytes) : R.Has (.str b) := trivial

@[simp] theorem has_text (a : String) : R.Has (.text a) := trivial

@[simp] theorem has_nat (n : Nat) : R.Has (.nat n) := trivial

@[simp] theorem has_thread (t : ThreadId) : R.Has (.thread t) := trivial

@[simp] theorem has_object (o : ObjectId) : R.Has (.object o) := trivial

theorem has_number (n : Numeral) : R.Has (.number n) := by
  cases n <;> trivial

@[simp] theorem hasAll_nil : R.HasAll [] := fun _ h => nomatch h

@[simp] theorem hasAll_cons : R.HasAll (v :: vs) ↔ R.Has v ∧ R.HasAll vs := by
  simp [HasAll]

theorem hasAll_one (h : R.Has v) : R.HasAll [v] := hasAll_cons.2 ⟨h, hasAll_nil⟩

theorem HasAll.cons (h : R.Has v) (hs : R.HasAll vs) : R.HasAll (v :: vs) := hasAll_cons.2 ⟨h, hs⟩

theorem HasAll.headD (h : R.HasAll vs) : R.Has (vs.headD .nil) := by
  cases vs
  · trivial
  · exact h _ (List.mem_cons_self ..)

theorem HasAll.drop (h : R.HasAll vs) (n : Nat) : R.HasAll (vs.drop n) := fun v hv =>
  h v (List.mem_of_mem_drop hv)

theorem HasAll.getD (h : R.HasAll vs) (n : Nat) {d : Value} (hd : R.Has d) :
    R.Has (vs.getD n d) := by
  rw [List.getD_eq_getElem?_getD]
  rcases hn : vs[n]? with _ | v
  · exact hd
  · exact h v (List.mem_of_getElem? hn)

/-- The key that a value is in a table leads no further than the value. -/
theorem Has.asKey? (h : R.Has v) (hk : v.asKey? = some k) : R.Has k := by
  cases v <;> simp only [Value.asKey?, reduceCtorEq, Option.some.injEq] at hk
  case float d =>
    split at hk
    · obtain rfl := Option.some.inj hk
      trivial
    · split at hk
      · cases hk
      · obtain rfl := Option.some.inj hk
        trivial
  all_goals exact hk ▸ h

/-! ## Closed stores -/

/-- What may be in the place of a function of the realm. -/
inductive Runs (R : Realm) : FunctionObject → Prop
  | closure (body : FuncBody) (env : List CellId) (chunk : Bytes) : Runs R (.closure body env chunk)
  | builtin (b : Builtin) {captured : Array Value} (h : R.HasAll captured.toList) :
    Runs R (.builtin b captured)
  | callback {n : Nat} (h : n ∈ R.callbacks) : Runs R (.callback n)

theorem Runs.up {o : FunctionObject} (h : R.Runs o) (hR : R ≤ R') : R'.Runs o := by
  cases h with
  | closure body env chunk => exact .closure body env chunk
  | builtin b h => exact .builtin b (h.up hR)
  | callback h => exact .callback (hR.2.2 h)

/-- Nothing in the realm leads out of it, and all variables are in it. -/
structure Closed (R : Realm) (s : Store) : Prop where
  entries : ∀ t ∈ R.tables, (s.table t).All R.Has
  metatable : ∀ t ∈ R.tables, ∀ m, (s.table t).metatable = some m → m ∈ R.tables
  function : ∀ f ∈ R.functions, R.Runs (s.function f)
  cell : ∀ c, R.Has (s.cell c)
  stringMeta : ∀ m, s.stringMeta = some m → m ∈ R.tables
  failureMeta : ∀ m, s.failureMeta = some m → m ∈ R.tables
  fileMeta : ∀ m, s.fileMeta = some m → m ∈ R.tables
  globals : s.globals ∈ R.tables
  loaded : s.loaded ∈ R.tables
  preload : s.preload ∈ R.tables

theorem all_closed (s : Store) : all.Closed s where
  entries _ _ := ⟨fun _ _ _ _ => ⟨all_has _, all_has _⟩, fun _ _ => all_has _⟩
  metatable _ _ _ _ := Set.mem_univ _
  function f _ := by
    cases s.function f with
    | closure body env chunk => exact .closure body env chunk
    | builtin b captured => exact .builtin b (all_hasAll _)
    | callback n => exact .callback (Set.mem_univ _)
  cell _ := all_has _
  stringMeta _ _ := Set.mem_univ _
  failureMeta _ _ := Set.mem_univ _
  fileMeta _ _ := Set.mem_univ _
  globals := Set.mem_univ _
  loaded := Set.mem_univ _
  preload := Set.mem_univ _

namespace Closed

variable {s : Store}

theorem rawGet (h : R.Closed s) (ht : t ∈ R.tables) (k : Value) : R.Has (s.rawGet t k) := by
  unfold Store.rawGet
  split
  · exact (h.entries t ht).get trivial _
  · trivial

theorem metatableOf (h : R.Closed s) (hv : R.Has v) {m : TableId} (hm : s.metatable v = some m) :
    m ∈ R.tables := by
  cases v <;> simp only [Store.metatable, reduceCtorEq] at hm
  case table t => exact h.metatable t hv m hm
  case str b => exact h.stringMeta m hm
  case object o =>
    split at hm
    · exact h.failureMeta m hm
    · exact h.fileMeta m hm

theorem metamethod (h : R.Closed s) (hv : R.Has v) (event : String) :
    R.Has (s.metamethod v event) := by
  unfold Store.metamethod
  split
  · exact h.rawGet (h.metatableOf hv ‹_›) _
  · trivial

end Closed

end Realm

/-! ## Passages -/

/-- What a run does to a store: the realm grows by what is made, and what is outside of it stays. -/
structure Passage (R : Realm) (s : Store) (R' : Realm) (s' : Store) : Prop where
  tables_subset : R.tables ⊆ R'.tables
  functions_subset : R.functions ⊆ R'.functions
  callbacks : R'.callbacks = R.callbacks
  closed : R'.Closed s'
  tables_size : s.tables.size ≤ s'.tables.size
  functions_size : s.functions.size ≤ s'.functions.size
  tables_new : ∀ t ∈ R'.tables,
    t ∈ R.tables ∨ s.tables.size ≤ t.index ∧ t.index < s'.tables.size
  functions_new : ∀ f ∈ R'.functions,
    f ∈ R.functions ∨ s.functions.size ≤ f.index ∧ f.index < s'.functions.size
  table : ∀ t ∉ R.tables, t.index < s.tables.size → s'.table t = s.table t
  function : ∀ f ∉ R.functions, f.index < s.functions.size → s'.function f = s.function f
  ledger : s'.ledger = s.ledger

namespace Passage

variable {R R₁ R₂ : Realm} {s s₁ s₂ : Store} {t : TableId} {f : FuncId} {k v : Value}

theorem le (h : Passage R s R₁ s₁) : R ≤ R₁ :=
  ⟨h.tables_subset, h.functions_subset, h.callbacks.ge⟩

/-- A step that makes nothing and stays in the realm. -/
theorem within (closed : R.Closed s₁) (tables_size : s₁.tables.size = s.tables.size)
    (functions_size : s₁.functions.size = s.functions.size)
    (table : ∀ t ∉ R.tables, s₁.table t = s.table t)
    (function : ∀ f ∉ R.functions, s₁.function f = s.function f)
    (ledger : s₁.ledger = s.ledger) : Passage R s R s₁ where
  tables_subset := Set.Subset.rfl
  functions_subset := Set.Subset.rfl
  callbacks := rfl
  closed := closed
  tables_size := tables_size.ge
  functions_size := functions_size.ge
  tables_new _ := .inl
  functions_new _ := .inl
  table t ht _ := table t ht
  function f hf _ := function f hf
  ledger := ledger

theorem refl (closed : R.Closed s) : Passage R s R s :=
  within closed rfl rfl (fun _ _ => rfl) (fun _ _ => rfl) rfl

theorem trans (h : Passage R s R₁ s₁) (h' : Passage R₁ s₁ R₂ s₂) : Passage R s R₂ s₂ where
  tables_subset := h.tables_subset.trans h'.tables_subset
  functions_subset := h.functions_subset.trans h'.functions_subset
  callbacks := h'.callbacks.trans h.callbacks
  closed := h'.closed
  tables_size := Nat.le_trans h.tables_size h'.tables_size
  functions_size := Nat.le_trans h.functions_size h'.functions_size
  tables_new t ht := by
    have := h.tables_size
    have := h'.tables_size
    rcases h'.tables_new t ht with ht | ht
    · rcases h.tables_new t ht with ht | ht
      · exact .inl ht
      · exact .inr (by omega)
    · exact .inr (by omega)
  functions_new f hf := by
    have := h.functions_size
    have := h'.functions_size
    rcases h'.functions_new f hf with hf | hf
    · rcases h.functions_new f hf with hf | hf
      · exact .inl hf
      · exact .inr (by omega)
    · exact .inr (by omega)
  table t ht hlt := by
    have hout : t ∉ R₁.tables := fun hin => (h.tables_new t hin).elim ht fun hge => by omega
    exact (h'.table t hout (Nat.lt_of_lt_of_le hlt h.tables_size)).trans (h.table t ht hlt)
  function f hf hlt := by
    have hout : f ∉ R₁.functions := fun hin => (h.functions_new f hin).elim hf fun hge => by omega
    exact (h'.function f hout (Nat.lt_of_lt_of_le hlt h.functions_size)).trans (h.function f hf hlt)
  ledger := h'.ledger.trans h.ledger

/-! ### Steps -/

section Steps

variable (closed : R.Closed s)

include closed

/-- A table of the realm may be changed to one that leads nowhere else. -/
theorem modifyTable (ht : t ∈ R.tables) {F : Table → Table} (entries : (F (s.table t)).All R.Has)
    (metatable : ∀ m, (F (s.table t)).metatable = some m → m ∈ R.tables) :
    Passage R s R (s.modifyTable t F) := by
  refine within ?_ (Store.size_modifyTable ..) rfl (fun u hu => ?_) (fun _ _ => rfl) rfl
  · refine { closed with entries := fun u hu => ?_, metatable := fun u hu => ?_ }
    all_goals
      rw [Store.table_modifyTable]
      split_ifs
    · exact entries
    · exact closed.entries u hu
    · exact metatable
    · exact closed.metatable u hu
  · refine Store.table_modifyTable_of_ne ?_ F
    rintro rfl
    exact hu ht

theorem set (ht : t ∈ R.tables) (hk : R.Has k) (hv : R.Has v) :
    Passage R s R (s.modifyTable t (·.set k v)) :=
  modifyTable closed ht ((closed.entries t ht).set hk hv) (by simpa using closed.metatable t ht)

theorem setMetatable (ht : t ∈ R.tables) {m : Option TableId} (hm : ∀ e, m = some e → e ∈ R.tables) :
    Passage R s R (s.modifyTable t fun T => { T with metatable := m }) :=
  modifyTable closed ht ⟨(closed.entries t ht).slot, (closed.entries t ht).order⟩ hm

theorem newTable {T : Table} (entries : T.All R.Has) (bare : T.metatable = none) :
    Passage R s (R.withTable ⟨s.tables.size⟩) (s.newTable T).2 := by
  have up := R.le_withTable ⟨s.tables.size⟩
  -- a table is the new one, which has the contents given, or is what it was
  have made (u : TableId) : u.index = s.tables.size ∧ (s.newTable T).2.table u = T ∨
      u ≠ ⟨s.tables.size⟩ ∧ (s.newTable T).2.table u = s.table u := by
    rw [Store.table_newTable]
    by_cases h : u.index = s.tables.size
    · exact .inl ⟨h, if_pos h⟩
    · exact .inr ⟨fun he => h (congrArg TableId.index he), if_neg h⟩
  constructor
  case tables_subset => exact up.1
  case functions_subset => exact up.2.1
  case callbacks => rfl
  case closed =>
    constructor
    case entries =>
      intro u hu
      rcases made u with ⟨-, h⟩ | ⟨hne, h⟩
      · rw [h]
        exact entries.mono fun v hv => hv.up up
      · rw [h]
        exact (closed.entries u (hu.resolve_left hne)).mono fun v hv => hv.up up
    case metatable =>
      intro u hu m
      rcases made u with ⟨-, h⟩ | ⟨hne, h⟩
      · rw [h, bare]
        rintro ⟨⟩
      · rw [h]
        exact fun hm => .inr (closed.metatable u (hu.resolve_left hne) m hm)
    case function => exact fun f hf => (closed.function f hf).up up
    case cell => exact fun c => (closed.cell c).up up
    case stringMeta => exact fun m hm => .inr (closed.stringMeta m hm)
    case failureMeta => exact fun m hm => .inr (closed.failureMeta m hm)
    case fileMeta => exact fun m hm => .inr (closed.fileMeta m hm)
    case globals => exact .inr closed.globals
    case loaded => exact .inr closed.loaded
    case preload => exact .inr closed.preload
  case tables_size => simp
  case functions_size => exact Nat.le_refl _
  case tables_new =>
    rintro u (rfl | hu)
    · exact .inr ⟨Nat.le_refl _, by simp⟩
    · exact .inl hu
  case functions_new => exact fun _ => .inl
  case table => exact fun u _ hlt => by rw [Store.table_newTable, if_neg (by omega)]
  case function => exact fun _ _ _ => rfl
  case ledger => rfl

theorem newFunction {o : FunctionObject} (ho : R.Runs o) :
    Passage R s (R.withFunction ⟨s.functions.size⟩) (s.newFunction o).2 := by
  have up := R.le_withFunction ⟨s.functions.size⟩
  constructor
  case tables_subset => exact up.1
  case functions_subset => exact up.2.1
  case callbacks => rfl
  case closed =>
    refine
      { entries := fun t ht => (closed.entries t ht).mono fun v hv => hv.up up
        metatable := closed.metatable
        function := fun f hf => ?_
        cell := fun c => (closed.cell c).up up
        stringMeta := closed.stringMeta
        failureMeta := closed.failureMeta
        fileMeta := closed.fileMeta
        globals := closed.globals
        loaded := closed.loaded
        preload := closed.preload }
    rw [Store.function_newFunction]
    split_ifs with h
    · exact ho.up up
    · refine (closed.function f (hf.resolve_left ?_)).up up
      rintro rfl
      exact h rfl
  case tables_size => exact Nat.le_refl _
  case functions_size => simp
  case tables_new => exact fun _ => .inl
  case functions_new =>
    rintro f (rfl | hf)
    · exact .inr ⟨Nat.le_refl _, by simp⟩
    · exact .inl hf
  case table => exact fun _ _ _ => rfl
  case function => exact fun f _ hlt => by rw [Store.function_newFunction, if_neg (by omega)]
  case ledger => rfl

theorem newCell (hv : R.Has v) : Passage R s R (s.newCell v).2 := by
  refine within { closed with cell := fun c => ?_ } rfl rfl (fun _ _ => rfl) (fun _ _ => rfl) rfl
  rw [Store.cell_newCell]
  split_ifs
  · exact hv
  · exact closed.cell c

theorem setCell (c : CellId) (hv : R.Has v) : Passage R s R (s.setCell c v) := by
  refine within { closed with cell := fun c' => ?_ } rfl rfl (fun _ _ => rfl) (fun _ _ => rfl) rfl
  rcases Store.cell_setCell s c c' v with he | ⟨-, he⟩ <;> rw [he]
  · exact closed.cell c'
  · exact hv

theorem setCaptured (hf : f ∈ R.functions) {captured : Array Value}
    (hc : R.HasAll captured.toList) :
    Passage R s R { s with functions := s.functions.modify f.index fun
      | .builtin b _ => .builtin b captured
      | o => o } := by
  refine within { closed with function := fun g hg => ?_ } rfl (Array.size_modify ..)
    (fun _ _ => rfl) (fun g hg => ?_) rfl
  · rcases Store.function_modify s f g _ with he | he <;> rw [he]
    · exact closed.function g hg
    · have hruns := closed.function g hg
      generalize s.function g = o at hruns
      cases hruns with
      | closure body env chunk => exact .closure body env chunk
      | builtin b _ => exact .builtin b hc
      | callback h => exact .callback h
  · refine Store.function_modify_of_ne ?_ _
    rintro rfl
    exact hg hf

/-- A step that changes nothing that leads anywhere. -/
theorem aside {s' : Store} (h : s'.core = s.core) : Passage R s R s' := by
  simp only [Store.core, Prod.mk.injEq] at h
  obtain ⟨tables, functions, cells, stringMeta, failureMeta, fileMeta, globals, loaded, preload,
    ledger⟩ := h
  have table (t : TableId) : s'.table t = s.table t := by simp only [Store.table, tables]
  have function (f : FuncId) : s'.function f = s.function f := by
    simp only [Store.function, functions]
  refine within ?_ (by rw [tables]) (by rw [functions]) (fun t _ => table t) (fun f _ => function f)
    ledger
  exact
    { entries := fun t ht => by rw [table]; exact closed.entries t ht
      metatable := fun t ht => by rw [table]; exact closed.metatable t ht
      function := fun f hf => by rw [function]; exact closed.function f hf
      cell := fun c => by simp only [Store.cell, cells]; exact closed.cell c
      stringMeta := stringMeta ▸ closed.stringMeta
      failureMeta := failureMeta ▸ closed.failureMeta
      fileMeta := fileMeta ▸ closed.fileMeta
      globals := globals ▸ closed.globals
      loaded := loaded ▸ closed.loaded
      preload := preload ▸ closed.preload }

end Steps

end Passage

end Enclosure.Lua
