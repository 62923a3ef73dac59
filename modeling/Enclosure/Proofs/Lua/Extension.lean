import Enclosure.Lua.Library
import Enclosure.Proofs.Lua.Store

/-!
# Stores that are added to

Adding to a store leaves what is in it: functions stay what they are, and of the tables that are there
only some get new values, under some names. So what was put into a store is still there afterwards, and
a table that got functions of the library under their names has them (`addNames_stocks`).
-/

namespace Enclosure.Lua

namespace Store

/-- A function of the library with the values that it holds. -/
structure Offers (s : Store) (f : FuncId) (b : Builtin) (captured : Array Value) : Prop where
  lt : f.index < s.functions.size
  function : s.function f = .builtin b captured

/-- A value that is no object, one of some tables, or a function of some kind that holds no values. -/
inductive Gives (s : Store) (kind : Builtin → Prop) (inner : List TableId) : Value → Prop
  | plain {v : Value} (h : v.isPlain) : Gives s kind inner v
  | table {t : TableId} (h : t ∈ inner) : Gives s kind inner (.table t)
  | func {f : FuncId} {b : Builtin} (hb : kind b) (h : s.Offers f b #[]) : Gives s kind inner (.func f)

/-- A table without a metatable that has nothing else. -/
structure Shelf (s : Store) (kind : Builtin → Prop) (inner : List TableId) (t : TableId) : Prop where
  lt : t.index < s.tables.size
  bare : (s.table t).metatable = none
  entries : (s.table t).All (s.Gives kind inner)

/-- A table that has functions of the library under their names. -/
structure Stocks (s : Store) (t : TableId) (names : Library.Names) : Prop where
  lt : t.index < s.tables.size
  get : ∀ name b, (name, b) ∈ names → ∃ f, s.rawGet t (.text name) = .func f ∧ s.Offers f b #[]

/-- A store to which some tables and functions were added. Some of the tables that were there may have
other values under some names. -/
structure Extends (tables : List TableId) (names : List String) (s s' : Store) : Prop where
  tables_size : s.tables.size ≤ s'.tables.size
  functions_size : s.functions.size ≤ s'.functions.size
  function : ∀ f, f.index < s.functions.size → s'.function f = s.function f
  table : ∀ t, t.index < s.tables.size → t ∉ tables → s'.table t = s.table t
  metatable : ∀ t, t.index < s.tables.size → (s'.table t).metatable = (s.table t).metatable
  field : ∀ t, t.index < s.tables.size → ∀ name ∉ names,
    s'.rawGet t (.text name) = s.rawGet t (.text name)
  globals : s'.globals = s.globals
  loaded : s'.loaded = s.loaded
  cells : s'.cells = s.cells

/-- An extension that leaves alone what strings and errors of the host answer to. -/
structure Builds (tables : List TableId) (names : List String) (s s' : Store) : Prop
    extends Extends tables names s s' where
  stringMeta : s'.stringMeta = s.stringMeta
  failureMeta : s'.failureMeta = s.failureMeta

variable {tables inner : List TableId} {names names' : List String} {s s₁ s₂ : Store} {t : TableId}
  {f : FuncId} {b : Builtin} {kind : Builtin → Prop} {v : Value}

theorem Offers.extend {captured : Array Value} (h : s.Offers f b captured)
    (he : Extends tables names s s₁) : s₁.Offers f b captured :=
  ⟨Nat.lt_of_lt_of_le h.lt he.functions_size, (he.function f h.lt).trans h.function⟩

theorem Gives.extend (h : s.Gives kind inner v) (he : Extends tables names s s₁) :
    s₁.Gives kind inner v := by
  cases h with
  | plain h => exact .plain h
  | table h => exact .table h
  | func hb h => exact .func hb (h.extend he)

theorem Gives.mono {inner' : List TableId} (h : s.Gives kind inner v) (hi : inner ⊆ inner') :
    s.Gives kind inner' v := by
  cases h with
  | plain h => exact .plain h
  | table h => exact .table (hi h)
  | func hb h => exact .func hb h

theorem Shelf.extend (h : s.Shelf kind inner t) (he : Extends tables names s s₁) (ht : t ∉ tables) :
    s₁.Shelf kind inner t where
  lt := Nat.lt_of_lt_of_le h.lt he.tables_size
  bare := (he.metatable t h.lt).trans h.bare
  entries := by
    rw [he.table t h.lt ht]
    exact h.entries.mono fun v hv => hv.extend he

/-- Only values under the names in the tables may be others. -/
theorem Extends.get (he : Extends tables names s s₁) (ht : t.index < s.tables.size) {name : String}
    (h : t ∉ tables ∨ name ∉ names) : s₁.rawGet t (.text name) = s.rawGet t (.text name) := by
  rcases h with h | h
  · simp only [rawGet, he.table t ht h]
  · exact he.field t ht name h

theorem Stocks.extend {shelf : Library.Names} (h : s.Stocks t shelf) (he : Extends tables names s s₁)
    (hn : t ∉ tables ∨ ∀ name ∈ shelf.map Prod.fst, name ∉ names) : s₁.Stocks t shelf := by
  refine ⟨Nat.lt_of_lt_of_le h.lt he.tables_size, fun name b hb => ?_⟩
  obtain ⟨f, hget, hf⟩ := h.get name b hb
  have hname := hn.imp_right fun h => h name (List.mem_map_of_mem hb)
  exact ⟨f, (he.get h.lt hname).trans hget, hf.extend he⟩

/-- What is added later may also go into tables that are new. -/
theorem Extends.follow {tables' : List TableId} (h : Extends tables names s s₁)
    (h' : Extends tables' names' s₁ s₂)
    (ht : ∀ t ∈ tables', t ∈ tables ∨ s.tables.size ≤ t.index) :
    Extends tables (names ++ names') s s₂ where
  tables_size := Nat.le_trans h.tables_size h'.tables_size
  functions_size := Nat.le_trans h.functions_size h'.functions_size
  function f hf :=
    (h'.function f (Nat.lt_of_lt_of_le hf h.functions_size)).trans (h.function f hf)
  table t hlt hn := by
    have hn' : t ∉ tables' := fun hmem => (ht t hmem).elim hn (Nat.not_le_of_lt hlt)
    exact (h'.table t (Nat.lt_of_lt_of_le hlt h.tables_size) hn').trans (h.table t hlt hn)
  metatable t ht := (h'.metatable t (Nat.lt_of_lt_of_le ht h.tables_size)).trans (h.metatable t ht)
  field t ht name hn := by
    rw [List.mem_append, not_or] at hn
    exact (h'.field t (Nat.lt_of_lt_of_le ht h.tables_size) name hn.2).trans (h.field t ht name hn.1)
  globals := h'.globals.trans h.globals
  loaded := h'.loaded.trans h.loaded
  cells := h'.cells.trans h.cells

theorem Extends.trans (h : Extends tables names s s₁) (h' : Extends tables names' s₁ s₂) :
    Extends tables (names ++ names') s s₂ := h.follow h' fun _ => .inl

theorem Extends.mono {tables' : List TableId} (h : Extends tables names s s₁) (ht : tables ⊆ tables')
    (hn : names ⊆ names') : Extends tables' names' s s₁ :=
  { h with
    table := fun t hlt hmem => h.table t hlt fun hm => hmem (ht hm)
    field := fun t hlt name hmem => h.field t hlt name fun hm => hmem (hn hm) }

namespace Builds

theorem mono {tables' : List TableId} (h : Builds tables names s s₁) (ht : tables ⊆ tables')
    (hn : names ⊆ names') : Builds tables' names' s s₁ :=
  { h.toExtends.mono ht hn with
    stringMeta := h.stringMeta
    failureMeta := h.failureMeta }

theorem follow {tables' : List TableId} (h : Builds tables names s s₁)
    (h' : Builds tables' names' s₁ s₂)
    (ht : ∀ t ∈ tables', t ∈ tables ∨ s.tables.size ≤ t.index) :
    Builds tables (names ++ names') s s₂ :=
  { h.toExtends.follow h'.toExtends ht with
    stringMeta := h'.stringMeta.trans h.stringMeta
    failureMeta := h'.failureMeta.trans h.failureMeta }

theorem trans (h : Builds tables names s s₁) (h' : Builds tables names' s₁ s₂) :
    Builds tables (names ++ names') s s₂ := h.follow h' fun _ => .inl

theorem refl (tables : List TableId) (names : List String) (s : Store) : Builds tables names s s where
  tables_size := Nat.le_refl _
  functions_size := Nat.le_refl _
  function _ _ := rfl
  table _ _ _ := rfl
  metatable _ _ := rfl
  field _ _ _ _ := rfl
  globals := rfl
  loaded := rfl
  cells := rfl
  stringMeta := rfl
  failureMeta := rfl

theorem newTable (h : Builds tables names s s₁) : Builds tables names s (s₁.newTable {}).2 := by
  have hold : ∀ t : TableId, t.index < s.tables.size → (s₁.newTable {}).2.table t = s₁.table t :=
    fun t ht => by
      have := h.tables_size
      rw [table_newTable, if_neg (by omega)]
  exact { h with
    tables_size := by
      have := h.tables_size
      rw [size_newTable]
      omega
    table := fun t ht hn => (hold t ht).trans (h.table t ht hn)
    metatable := fun t ht => (congrArg Table.metatable (hold t ht)).trans (h.metatable t ht)
    field := fun t ht name hn => by
      rw [rawGet_text, hold t ht]
      exact h.field t ht name hn }

theorem newFunction (h : Builds tables names s s₁) (o : FunctionObject) :
    Builds tables names s (s₁.newFunction o).2 :=
  { h with
    functions_size := by
      have := h.functions_size
      rw [size_newFunction]
      omega
    function := fun f hf => by
      have := h.functions_size
      rw [function_newFunction, if_neg (by omega)]
      exact h.function f hf }

/-- A table that is new, or that may change at a key, may be given a value at the key. -/
theorem set (h : Builds tables names s s₁) {k : Value}
    (hk : s.tables.size ≤ t.index ∨ t ∈ tables ∧ ∀ name, .text name = k → name ∈ names) :
    Builds tables names s (s₁.modifyTable t (·.set k v)) :=
  { h with
    tables_size := by
      rw [size_modifyTable]
      exact h.tables_size
    table := fun u hu hn => by
      have hne : u ≠ t := by
        rintro rfl
        rcases hk with hk | ⟨hm, -⟩
        · omega
        · exact hn hm
      rw [table_modifyTable_of_ne hne, h.table u hu hn]
    metatable := fun u hu => by
      rw [table_modifyTable]
      split_ifs with he
      · obtain ⟨rfl, -⟩ := he
        rw [Table.metatable_set, h.metatable u hu]
      · exact h.metatable u hu
    field := fun u hu name hn => by
      rw [rawGet_text, table_modifyTable]
      split_ifs with he
      · obtain ⟨rfl, -⟩ := he
        have hne : Value.text name ≠ k := by
          rintro hname
          rcases hk with hk | ⟨-, hm⟩
          · omega
          · exact hn (hm name hname)
        rw [Table.get_set_of_ne _ hne]
        exact h.field u hu name hn
      · exact h.field u hu name hn }

theorem setText (h : Builds tables names s s₁) (name : String)
    (hk : s.tables.size ≤ t.index ∨ t ∈ tables ∧ name ∈ names) :
    Builds tables names s (s₁.modifyTable t (·.set (.text name) v)) :=
  h.set (hk.imp_right fun ⟨ht, hn⟩ => ⟨ht, fun _ he => text_injective he ▸ hn⟩)

theorem addFunction (h : Builds tables names s s₁) (name : String)
    (hk : s.tables.size ≤ t.index ∨ t ∈ tables ∧ name ∈ names) (b : Builtin)
    (captured : Array Value) : Builds tables names s (s₁.addFunction t name b captured) :=
  (h.newFunction _).setText name hk

end Builds

/-- A store with new functions of the library under their names in a table. -/
def addNames (s : Store) (t : TableId) : Library.Names → Store
  | [] => s
  | (name, b) :: rest => (s.addFunction t name b #[]).addNames t rest

theorem Builds.addNames : ∀ (shelf : Library.Names) {s₁ : Store}, Builds tables names s s₁ →
    (s.tables.size ≤ t.index ∨ t ∈ tables ∧ ∀ name ∈ shelf.map Prod.fst, name ∈ names) →
    Builds tables names s (s₁.addNames t shelf)
  | [], _, h, _ => h
  | (name, b) :: rest, _, h, hk => by
    refine addNames rest (h.addFunction name (hk.imp_right fun ⟨ht, hn⟩ => ⟨ht, ?_⟩) b #[])
      (hk.imp_right fun ⟨ht, hn⟩ => ⟨ht, fun n hm => ?_⟩)
    · exact hn name (List.mem_cons_self ..)
    · exact hn n (List.mem_cons_of_mem _ hm)

theorem addNames_builds (s : Store) (t : TableId) (shelf : Library.Names) :
    Builds [t] (shelf.map Prod.fst) s (s.addNames t shelf) :=
  (Builds.refl ..).addNames shelf (.inr ⟨List.mem_singleton.2 rfl, fun _ h => h⟩)

theorem addFunction_offers (s : Store) (t : TableId) (name : String) (b : Builtin)
    (captured : Array Value) :
    (s.addFunction t name b captured).Offers ⟨s.functions.size⟩ b captured :=
  ⟨by simp, by rw [function_addFunction, if_pos rfl]⟩

theorem newFunction_offers (s : Store) (b : Builtin) (captured : Array Value) :
    (s.newFunction (.builtin b captured)).2.Offers ⟨s.functions.size⟩ b captured :=
  ⟨by simp, by rw [function_newFunction, if_pos rfl]⟩

theorem addFunction_get (ht : t.index < s.tables.size) (name : String) (b : Builtin)
    (captured : Array Value) :
    (s.addFunction t name b captured).rawGet t (.text name) = .func ⟨s.functions.size⟩ := by
  rw [rawGet_text, table_addFunction, if_pos ⟨rfl, ht⟩, Table.get_set_self]

theorem addNames_stocks : ∀ (shelf : Library.Names) {s : Store}, (shelf.map Prod.fst).Nodup →
    t.index < s.tables.size → (s.addNames t shelf).Stocks t shelf
  | [], _, _, ht => ⟨ht, fun _ _ h => nomatch h⟩
  | (name, b) :: rest, s, hnodup, ht => by
    obtain ⟨hname, hrest⟩ := List.nodup_cons.1 hnodup
    have ht₁ : t.index < (s.addFunction t name b #[]).tables.size := by simpa using ht
    have builds := addNames_builds (s.addFunction t name b #[]) t rest
    have stocks := addNames_stocks rest hrest ht₁
    refine ⟨stocks.lt, fun n b' h => ?_⟩
    rcases List.mem_cons.1 h with h | h
    · obtain ⟨rfl, rfl⟩ := Prod.mk.inj h
      refine ⟨⟨s.functions.size⟩, ?_, (addFunction_offers s t n b' #[]).extend builds.toExtends⟩
      exact (builds.field t ht₁ n hname).trans (addFunction_get ht n b' #[])
    · exact stocks.get n b' h

theorem Shelf.addFunction (h : s.Shelf kind inner t) (hb : kind b) (name : String) :
    (s.addFunction t name b #[]).Shelf kind inner t := by
  have builds := (Builds.refl [t] [name] s).addFunction (t := t) name
    (.inr ⟨List.mem_singleton.2 rfl, List.mem_singleton.2 rfl⟩) b #[]
  refine ⟨Nat.lt_of_lt_of_le h.lt builds.tables_size, (builds.metatable t h.lt).trans h.bare, ?_⟩
  rw [table_addFunction, if_pos ⟨rfl, h.lt⟩]
  exact (h.entries.mono fun v hv => hv.extend builds.toExtends).set (.plain rfl)
    (.func hb (addFunction_offers s t name b #[]))

theorem Shelf.addNames : ∀ (shelf : Library.Names) {s : Store}, (∀ p ∈ shelf, kind p.2) →
    s.Shelf kind inner t → (s.addNames t shelf).Shelf kind inner t
  | [], _, _, h => h
  | (name, _) :: rest, _, hkind, h => by
    obtain ⟨hb, hrest⟩ := List.forall_mem_cons.1 hkind
    exact addNames rest hrest (h.addFunction hb name)

theorem shelf_newTable (s : Store) (kind : Builtin → Prop) (inner : List TableId) :
    (s.newTable {}).2.Shelf kind inner ⟨s.tables.size⟩ := by
  refine ⟨by simp, ?_, ?_⟩ <;> rw [table_newTable, if_pos rfl]
  exact .default

theorem Shelf.set (h : s.Shelf kind inner t) (name : String) (hv : s.Gives kind inner v) :
    (s.modifyTable t (·.set (.text name) v)).Shelf kind inner t := by
  have builds := (Builds.refl [t] [name] s).setText (t := t) (v := v) name
    (.inr ⟨List.mem_singleton.2 rfl, List.mem_singleton.2 rfl⟩)
  refine ⟨Nat.lt_of_lt_of_le h.lt builds.tables_size, (builds.metatable t h.lt).trans h.bare, ?_⟩
  rw [table_modifyTable_self h.lt]
  exact (h.entries.set (.plain rfl) hv).mono fun v hv => hv.extend builds.toExtends

end Store

end Enclosure.Lua
