import Enclosure.Lua.Fresh
import Enclosure.Proofs.Lua.Extension
import Enclosure.Proofs.Lua.Run

/-!
# What a fresh store holds

Filling the empty store only adds to it. So what one part of the library puts in is still there when
all are (`store_furnished`).
-/

namespace Enclosure.Lua

namespace Fresh

open Store

/-- A run that ends with a result and only adds to a store. -/
def Adds {α : Type} (tables : List TableId) (names : List String) (s : Store) (m : Run α)
    (P : α → Store → Prop) : Prop :=
  ∀ s₁, Builds tables names s s₁ → ∃ a s₂, m s₁ = .done a s₂ ∧ P a s₂ ∧ Builds tables names s s₂

variable {tables : List TableId} {names : List String} {s : Store} {t globals loaded : TableId}

namespace Adds

variable {α β : Type} {m : Run α} {g : α → Run β} {P : α → Store → Prop} {Q : β → Store → Prop}

theorem bind (h : Adds tables names s m P)
    (hg : ∀ a s₁, P a s₁ → Adds tables names s (g a) Q) : Adds tables names s (m >>= g) Q := by
  intro s₁ h₁
  obtain ⟨a, s₂, hm, ha, h₂⟩ := h s₁ h₁
  obtain ⟨b, s₃, hb, hq, h₃⟩ := hg a s₂ ha s₂ h₂
  exact ⟨b, s₃, (Run.bind_done hm).trans hb, hq, h₃⟩

theorem pure (a : α) (h : ∀ s₁, P a s₁) : Adds tables names s (pure a : Run α) P :=
  fun s₁ h₁ => ⟨a, s₁, rfl, h s₁, h₁⟩

theorem newTable : Adds tables names s Run.newTable fun t _ => s.tables.size ≤ t.index :=
  fun _ h => ⟨_, _, rfl, h.tables_size, h.newTable⟩

theorem newBuiltin (b : Builtin) (captured : List Value) :
    Adds tables names s (Run.newBuiltin b captured) fun _ _ => True :=
  fun _ h => ⟨_, _, rfl, trivial, h.newFunction _⟩

theorem rawGetText (t : TableId) (name : String) :
    Adds tables names s (Run.rawGetText t name) fun _ _ => True :=
  fun _ h => ⟨_, _, rfl, trivial, h⟩

theorem rawSetText {name : String} (hk : s.tables.size ≤ t.index ∨ t ∈ tables ∧ name ∈ names)
    (v : Value) : Adds tables names s (Run.rawSetText t name v) fun _ _ => True :=
  fun _ h => ⟨_, _, rfl, trivial, h.setText name hk⟩

theorem rawSetInt (ht : s.tables.size ≤ t.index) (n : Nat) (v : Value) :
    Adds tables names s (Run.rawSetInt t n v) fun _ _ => True :=
  fun _ h => ⟨_, _, rfl, trivial, h.set (.inl ht)⟩

theorem setFunction {name : String} (hk : s.tables.size ≤ t.index ∨ t ∈ tables ∧ name ∈ names)
    (b : Builtin) (captured : List Value) :
    Adds tables names s (setFunction t name b captured) fun _ _ => True :=
  .bind (.newBuiltin b captured) fun _ _ _ => .rawSetText hk _

theorem standardStream (readable writable : Bool) :
    Adds tables names s (standardStream readable writable) fun _ _ => True :=
  fun _ h => ⟨_, _, rfl, trivial, { h with }⟩

end Adds

theorem newTable_done (s : Store) : Run.newTable s = .done ⟨s.tables.size⟩ (s.newTable {}).2 := rfl

theorem rawSetText_done (t : TableId) (name : String) (v : Value) (s : Store) :
    Run.rawSetText t name v s = .done () (s.modifyTable t (·.set (.text name) v)) := rfl

theorem setFunction_done (t : TableId) (name : String) (b : Builtin) (captured : List Value)
    (s : Store) :
    setFunction t name b captured s = .done () (s.addFunction t name b captured.toArray) := rfl

theorem setNames_done (t : TableId) : ∀ (shelf : Library.Names) (s : Store),
    setNames t shelf s = .done () (s.addNames t shelf)
  | [], _ => rfl
  | (name, b) :: rest, s =>
    (Run.bind_done (setFunction_done t name b [] s)).trans (setNames_done t rest _)

theorem Adds.tableOf (shelf : Library.Names) :
    Adds tables names s (tableOf shelf) fun t _ => s.tables.size ≤ t.index :=
  .bind .newTable fun t _ ht => .bind (P := fun _ _ => True)
    (fun s₁ h => ⟨_, _, setNames_done t shelf s₁, trivial, h.addNames shelf (.inl ht)⟩)
    fun _ _ _ => .pure t fun _ => ht

/-! ## Modules -/

/-- A function is one of those that stand under some names. -/
def Among (shelf : Library.Names) (b : Builtin) : Prop := b ∈ shelf.map Prod.snd

/-- What the making of a table of functions does to a store. -/
structure Puts (tables : List TableId) (names : List String) (shelf : Library.Names)
    (inner : List TableId) (s s' : Store) (t : TableId) : Prop where
  builds : Builds tables names s s'
  le : s.tables.size ≤ t.index
  stocks : s'.Stocks t shelf
  shelf : s'.Shelf (Among shelf) inner t

theorem tableOf_puts (shelf : Library.Names) (hd : (shelf.map Prod.fst).Nodup)
    (inner : List TableId) (s : Store) :
    ∃ t s', tableOf shelf s = .done t s' ∧ Puts [] [] shelf inner s s' t :=
  ⟨_, _, Run.bind_done (setNames_done _ shelf _),
    (Builds.refl ..).newTable.addNames shelf (.inl (Nat.le_refl _)), Nat.le_refl _,
    addNames_stocks shelf hd (shelf_newTable s (Among shelf) inner).lt,
    (shelf_newTable s _ inner).addNames shelf fun _ h => List.mem_map_of_mem h⟩

theorem not_mem_globals (hg : globals.index < s.tables.size) (hl : loaded.index < s.tables.size)
    (ht : s.tables.size ≤ t.index) : t ∉ [globals, loaded] := by
  have hne : t ≠ globals ∧ t ≠ loaded := ⟨by rintro rfl; omega, by rintro rfl; omega⟩
  simp [hne]

/-- A module that is loaded: a table of its own, without a metatable, that has functions of the
library under their names. -/
structure Module (s : Store) (globals loaded : TableId) (name : String) (shelf : Library.Names)
    (t : TableId) : Prop where
  get : s.rawGet loaded (.text name) = .table t
  own : t ∉ [globals, loaded]
  bare : (s.table t).metatable = none
  stocks : s.Stocks t shelf

theorem Module.extend {s' : Store} {name : String} {shelf : Library.Names}
    (h : Module s globals loaded name shelf t) (he : Extends [globals, loaded] names s s')
    (hl : loaded.index < s.tables.size) (hn : name ∉ names) :
    Module s' globals loaded name shelf t :=
  ⟨(he.field _ hl _ hn).trans h.get, h.own, (he.metatable t h.stocks.lt).trans h.bare,
    h.stocks.extend he (.inl h.own)⟩

/-- What the loading of a module does to a store. -/
structure Loads (globals loaded : TableId) (names : List String) (name : String)
    (shelf : Library.Names) (s s' : Store) (t : TableId) : Prop where
  builds : Builds [globals, loaded] names s s'
  le : s.tables.size ≤ t.index
  module : Module s' globals loaded name shelf t

section

variable (hg : globals.index < s.tables.size) (hl : loaded.index < s.tables.size) (name : String)
  (shelf : Library.Names)

include hg hl

theorem addLibrary_loads (hd : (shelf.map Prod.fst).Nodup) :
    ∃ t s', addLibrary globals loaded name shelf s = .done t s' ∧
      Loads globals loaded [name] name shelf s s' t ∧ s'.Shelf (Among shelf) [] t := by
  obtain ⟨t, s₁, h₁, puts⟩ := tableOf_puts shelf hd [] s
  have own := not_mem_globals hg hl puts.le
  have hl₁ : loaded.index < (s₁.modifyTable globals (·.set (.text name) (.table t))).tables.size := by
    rw [size_modifyTable]
    exact Nat.lt_of_lt_of_le hl puts.builds.tables_size
  have fields {s₀ : Store} (h : Builds [globals, loaded] [name] s₀ s₁) :=
    (h.setText (t := globals) (v := .table t) name (.inr (by simp))).setText
      (t := loaded) (v := .table t) name (.inr (by simp))
  have after := (fields (.refl ..)).toExtends
  refine ⟨t, _, Run.bind_done h₁, ⟨fields (puts.builds.mono (by simp) (by simp)), puts.le, ?_⟩,
    puts.shelf.extend after own⟩
  refine ⟨?_, own, (after.metatable t puts.shelf.lt).trans puts.shelf.bare,
    puts.stocks.extend after (.inl own)⟩
  exact rawGet_set_self hl₁ name (.table t)

/-- A module into whose table more is put under other names. -/
theorem part_loads (hd : (shelf.map Prod.fst).Nodup) {names' : List String}
    {rest : TableId → Run Unit} {P : TableId → Store → Prop}
    (hrest : ∀ t s₁, globals.index < s₁.tables.size → t.index < s₁.tables.size →
      Adds [t, globals] names' s₁ (rest t) fun _ => P t)
    (hn : name ∉ names') (hs : ∀ n ∈ shelf.map Prod.fst, n ∉ names') :
    ∃ t s', (addLibrary globals loaded name shelf >>= rest) s = .done () s' ∧
      Loads globals loaded (name :: names') name shelf s s' t ∧ P t s' := by
  obtain ⟨t, s₁, h₁, loads, -⟩ := addLibrary_loads hg hl name shelf hd
  have hg₁ := Nat.lt_of_lt_of_le hg loads.builds.tables_size
  have hl₁ := Nat.lt_of_lt_of_le hl loads.builds.tables_size
  obtain ⟨_, s₂, h₂, hp, builds⟩ := hrest t s₁ hg₁ loads.module.stocks.lt s₁ (.refl ..)
  refine ⟨t, s₂, (Run.bind_done h₁).trans h₂, ⟨?_, loads.le, ?_⟩, hp⟩
  · refine loads.builds.follow builds fun u hu => ?_
    rcases List.mem_cons.1 hu with rfl | hu
    · exact .inr loads.le
    · exact .inl (List.mem_cons.2 (.inl (List.mem_singleton.1 hu)))
  · have later := builds.toExtends
    exact ⟨(later.field _ hl₁ _ hn).trans loads.module.get, loads.module.own,
      (later.metatable t loads.module.stocks.lt).trans loads.module.bare,
      loads.module.stocks.extend later (.inr hs)⟩

end

/-- The names under which the table of the library of numbers has more than functions. -/
def mathNames : List String := ["atan2", "pi", "huge", "maxinteger", "mininteger"]

/-- The numbers that a module has. -/
structure Constants (s : Store) (t : TableId) : Prop where
  pi : s.rawGet t (.text "pi") = .float Library.Math.pi
  huge : s.rawGet t (.text "huge") = .float .infinity

theorem setConstants_adds (ht : t.index < s.tables.size) : Adds [t, globals] mathNames s (do
      Run.rawSetText t "pi" (.float Library.Math.pi)
      Run.rawSetText t "huge" (.float .infinity)
      Run.rawSetText t "maxinteger" (.int Int64.maxValue)
      Run.rawSetText t "mininteger" (.int Int64.minValue)) fun _ s' => Constants s' t := by
  intro s₁ h
  let s₂ := s₁.modifyTable t (·.set (.text "pi") (.float Library.Math.pi))
  let s₃ := s₂.modifyTable t (·.set (.text "huge") (.float .infinity))
  let s₄ := s₃.modifyTable t (·.set (.text "maxinteger") (.int Int64.maxValue))
  let s₅ := s₄.modifyTable t (·.set (.text "mininteger") (.int Int64.minValue))
  have ht₁ : t.index < s₁.tables.size := Nat.lt_of_lt_of_le ht h.tables_size
  have ht₂ : t.index < s₂.tables.size := by simpa [s₂] using ht₁
  have ht₃ : t.index < s₃.tables.size := by simpa [s₃] using ht₂
  have pi : s₂.rawGet t (.text "pi") = .float Library.Math.pi := rawGet_set_self ht₁ ..
  have huge : s₃.rawGet t (.text "huge") = .float .infinity := rawGet_set_self ht₂ ..
  have limits : Builds [t] ["maxinteger", "mininteger"] s₃ s₅ :=
    ((Builds.refl ..).setText _ (.inr (by simp))).setText _ (.inr (by simp))
  have later : Builds [t] ["huge", "maxinteger", "mininteger"] s₂ s₅ :=
    (Builds.trans ((Builds.refl [t] ["huge"] s₂).setText _ (.inr (by simp))) limits)
  have all : Builds [t, globals] mathNames s s₅ :=
    (((h.setText _ (.inr (by simp [mathNames]))).setText _ (.inr (by simp [mathNames]))).setText _
      (.inr (by simp [mathNames]))).setText _ (.inr (by simp [mathNames]))
  exact ⟨(), s₅, rfl, ⟨(later.field t ht₂ _ (by decide)).trans pi,
    (limits.field t ht₃ _ (by decide)).trans huge⟩, all⟩

theorem addMath_loads (hg : globals.index < s.tables.size) (hl : loaded.index < s.tables.size) :
    ∃ t s', addMath globals loaded s = .done () s' ∧
      Loads globals loaded ("math" :: mathNames) "math" Library.math s s' t ∧ Constants s' t := by
  refine part_loads hg hl _ _ (by decide) (fun t s₁ _ ht => ?_) (by decide)
    (by decide)
  refine .bind (.rawGetText _ _) fun _ _ _ => .bind (.rawSetText (.inr (by simp [mathNames])) _)
    fun _ _ _ => setConstants_adds ht

theorem addUtf8_loads (hg : globals.index < s.tables.size) (hl : loaded.index < s.tables.size) :
    ∃ t s', addUtf8 globals loaded s = .done () s' ∧
      Loads globals loaded ["utf8", "charpattern"] "utf8" Library.utf8 s s' t ∧ True :=
  part_loads hg hl _ _ (by decide)
    (fun _ _ _ _ => .rawSetText (.inr (by simp)) _) (by decide) (by decide)

/-- The names of the standard streams. -/
def streamNames : List String := ["stdin", "stdout", "stderr"]

theorem addFiles_loads (hg : globals.index < s.tables.size) (hl : loaded.index < s.tables.size) :
    ∃ t s', addFiles globals loaded s = .done () s' ∧
      Loads globals loaded ("io" :: streamNames) "io" Library.io s s' t ∧ True := by
  refine part_loads hg hl _ _ (by decide) (fun t s₁ _ ht => ?_) (by decide)
    (by decide)
  have set {name : String} (hn : name ∈ streamNames) (v : Value) :
      Adds [t, globals] streamNames s₁ (Run.rawSetText t name v) fun _ _ => True :=
    .rawSetText (.inr ⟨List.mem_cons_self .., hn⟩) v
  refine .bind (.tableOf _) fun e _ he => .bind (.tableOf _) fun _ _ _ => ?_
  refine .bind (.rawSetText (.inl he) _) fun _ _ _ => .bind (.rawSetText (.inl he) _) fun _ _ _ => ?_
  refine .bind (.standardStream _ _) fun _ _ _ => .bind (.standardStream _ _) fun _ _ _ => ?_
  refine .bind (.standardStream _ _) fun _ _ _ => .bind (set (by decide) _) fun _ _ _ => ?_
  refine .bind (set (by decide) _) fun _ _ _ => .bind (set (by decide) _) fun _ _ _ => ?_
  exact fun _ h => ⟨_, _, rfl, trivial, { h with }⟩

/-- The names in the table of the module system, and of the global function that loads modules. -/
def packageNames : List String :=
  ["searchpath", "path", "cpath", "config", "loaded", "preload", "searchers", "require"]

/-- The global function that loads modules. -/
def Requires (s : Store) (globals : TableId) : Prop :=
  ∃ f captured, s.rawGet globals (.text "require") = .func f ∧ s.Offers f (.package .require) captured

theorem addPackage_loads (hg : globals.index < s.tables.size) (hl : loaded.index < s.tables.size) :
    ∃ t s', addPackage globals loaded s = .done () s' ∧ Loads globals loaded
      ("package" :: packageNames) "package" [("loadlib", .package .loadLib)] s s' t ∧
        Requires s' globals := by
  refine part_loads hg hl _ _ (by decide) (fun t s₁ hg₁ ht => ?_) (by decide)
    (by decide)
  have set {name : String} (hn : name ∈ packageNames) (v : Value) :
      Adds [t, globals] packageNames s₁ (Run.rawSetText t name v) fun _ _ => True :=
    .rawSetText (.inr ⟨List.mem_cons_self .., hn⟩) v
  refine .bind (.setFunction (.inr ⟨List.mem_cons_self .., by decide⟩) _ _) fun _ _ _ => ?_
  refine .bind (set (by decide) _) fun _ _ _ => .bind (set (by decide) _) fun _ _ _ => ?_
  refine .bind (set (by decide) _) fun _ _ _ => .bind (set (by decide) _) fun _ _ _ => ?_
  refine .bind .newTable fun _ _ _ => .bind (set (by decide) _) fun _ _ _ => ?_
  refine .bind .newTable fun u _ hu => ?_
  refine .bind (.newBuiltin _ _) fun _ _ _ => .bind (.rawSetInt hu _ _) fun _ _ _ => ?_
  refine .bind (.newBuiltin _ _) fun _ _ _ => .bind (.rawSetInt hu _ _) fun _ _ _ => ?_
  refine .bind (.newBuiltin _ _) fun _ _ _ => .bind (.rawSetInt hu _ _) fun _ _ _ => ?_
  refine .bind (set (by decide) _) fun _ _ _ => fun s₂ h => ?_
  have hg₂ := Nat.lt_of_lt_of_le hg₁ h.tables_size
  have builds := h.addFunction (t := globals) "require" (.inr (by simp [packageNames]))
    (.package .require) #[.table t]
  have offers := addFunction_offers s₂ globals "require" (.package .require) #[.table t]
  exact ⟨_, _, rfl, ⟨_, _, addFunction_get hg₂ .., { offers with }⟩, { builds with }⟩

/-! ## What strings and errors answer to -/

/-- What strings answer to: operators, and the functions of a library. Only the library is found where
strings are indexed. -/
structure Strings (s : Store) (m t : TableId) : Prop where
  stringMeta : s.stringMeta = some m
  events : s.Shelf (Among Library.stringEvents) [t] m
  index : s.rawGet m (.text "__index") = .table t
  operators : ∀ event, event ≠ "__index" →
    s.Gives (Among Library.stringEvents) [] (s.rawGet m (.text event))
  library : s.Shelf (Among Library.string) [] t

theorem Strings.extend {s' : Store} {m t : TableId} (h : Strings s m t)
    (he : Extends tables names s s') (hm : m ∉ tables) (ht : t ∉ tables)
    (hs : s'.stringMeta = s.stringMeta) : Strings s' m t where
  stringMeta := hs.trans h.stringMeta
  events := h.events.extend he hm
  index := (he.get h.events.lt (.inl hm)).trans h.index
  operators event hi := by
    rw [he.get h.events.lt (.inl hm)]
    exact (h.operators event hi).extend he
  library := h.library.extend he ht

theorem addString_done (hg : globals.index < s.tables.size) (hl : loaded.index < s.tables.size) :
    ∃ s', addString globals loaded s = .done () s' ∧ Extends [globals, loaded] ["string"] s s' ∧
      (∃ t, s.tables.size ≤ t.index ∧ Module s' globals loaded "string" Library.string t) ∧
      ∃ m t, s.tables.size ≤ m.index ∧ s.tables.size ≤ t.index ∧ Strings s' m t := by
  obtain ⟨t, s₁, h₁, loads, library⟩ :=
    addLibrary_loads hg hl "string" Library.string (by decide)
  obtain ⟨m, s₂, h₂, events⟩ := tableOf_puts Library.stringEvents (by decide) [] s₁
  let s₃ := s₂.modifyTable m (·.set (.text "__index") (.table t))
  -- to note whose strings they are changes no table, so what is known of `s₃` is known after it
  have hlast : (do
      Run.rawSetText m "__index" (.table t)
      Run.modify fun s => { s with stringMeta := some m }) s₂
        = .done () { s₃ with stringMeta := some m } := rfl
  have indexed : Builds [] [] s₁ s₃ := events.builds.setText _ (.inl events.le)
  have builds : Builds [globals, loaded] ["string"] s s₃ :=
    loads.builds.trans (indexed.mono (by simp) (by simp))
  have known {tables names s₀} (h : Builds tables names s₀ s₃) :
      Extends tables names s₀ { s₃ with stringMeta := some m } := { h.toExtends with }
  have hm : s.tables.size ≤ m.index := Nat.le_trans loads.builds.tables_size events.le
  have hl₁ := Nat.lt_of_lt_of_le hl loads.builds.tables_size
  refine ⟨_, (Run.bind_done h₁).trans ((Run.bind_done h₂).trans hlast), known builds,
    ⟨t, loads.le, ?_⟩, m, t, hm, loads.le, ?_⟩
  · exact loads.module.extend ((known indexed).mono (by simp) (by simp)) hl₁ List.not_mem_nil
  constructor
  case stringMeta => rfl
  case events =>
    have inner : s₂.Shelf (Among Library.stringEvents) [t] m :=
      { events.shelf with entries := events.shelf.entries.mono fun v hv => hv.mono (List.nil_subset _) }
    have shelf := inner.set "__index" (.table (List.mem_singleton.2 rfl))
    exact shelf.extend (known (.refl [] [] _)) List.not_mem_nil
  case index =>
    show (s₃.table m).get (.text "__index") = .table t
    rw [table_modifyTable_self events.shelf.lt, Table.get_set_self]
  case operators =>
    intro event hi
    show Gives _ _ _ ((s₃.table m).get (.text event))
    rw [table_modifyTable_self events.shelf.lt, Table.get_set_of_ne _ fun h => hi (text_injective h)]
    have builds := (Builds.refl [m] ["__index"] s₂).setText (t := m) (v := .table t) "__index"
      (.inr (by simp))
    exact (events.shelf.entries.get (.plain rfl) _).extend (known builds)
  case library => exact library.extend (known indexed) List.not_mem_nil

/-- What errors of the host answer to. -/
structure Failures (s : Store) (m : TableId) : Prop where
  failureMeta : s.failureMeta = some m
  events : s.Shelf (· = .guard .failureText) [] m

theorem addFailures_done (s : Store) : ∃ s', addFailures s = .done () s' ∧ Extends [] [] s s' ∧
    s'.stringMeta = s.stringMeta ∧ ∃ m, s.tables.size ≤ m.index ∧ Failures s' m := by
  have made := shelf_newTable s (· = .guard .failureText) []
  have shelf := (made.addFunction rfl "__tostring").set "__metatable" (v := .bool false) (.plain rfl)
  have builds := ((Builds.refl [] [] s).newTable.addFunction (t := ⟨s.tables.size⟩) "__tostring"
    (.inl (Nat.le_refl _)) (.guard .failureText) #[]).setText (t := ⟨s.tables.size⟩)
      (v := .bool false) "__metatable" (.inl (Nat.le_refl _))
  have known {s₀ s'} (h : Builds [] [] s₀ s') :
      Extends [] [] s₀ { s' with failureMeta := some ⟨s.tables.size⟩ } := { h.toExtends with }
  have hdone : addFailures s = .done () _ := (Run.bind_done (newTable_done s)).trans
    ((Run.bind_done (setFunction_done ..)).trans (Run.bind_done (rawSetText_done ..)))
  exact ⟨_, hdone, known builds, builds.stringMeta, _, Nat.le_refl _, rfl,
    shelf.extend (known (.refl ..)) List.not_mem_nil⟩

/-- The functions that iterate, and what they hand out. -/
structure Iteration (s : Store) (globals : TableId) (next step : FuncId) : Prop where
  nextFunction : s.rawGet globals (.text "next") = .func next ∧ s.Offers next (.base .next) #[]
  stepFunction : s.Offers step (.base .ipairsStep) #[]
  pairs : ∃ f, s.rawGet globals (.text "pairs") = .func f ∧ s.Offers f (.base .pairs) #[.func next]
  ipairs : ∃ f, s.rawGet globals (.text "ipairs") = .func f ∧ s.Offers f (.base .ipairs) #[.func step]

theorem Iteration.extend {s' : Store} {next step : FuncId} (h : Iteration s globals next step)
    (he : Extends tables names s s') (hg : globals.index < s.tables.size)
    (hn : ∀ name ∈ ["next", "pairs", "ipairs"], name ∉ names) : Iteration s' globals next step where
  nextFunction := ⟨(he.field _ hg _ (hn _ (by simp))).trans h.nextFunction.1,
    h.nextFunction.2.extend he⟩
  stepFunction := h.stepFunction.extend he
  pairs := by
    obtain ⟨f, hget, hf⟩ := h.pairs
    exact ⟨f, (he.field _ hg _ (hn _ (by simp))).trans hget, hf.extend he⟩
  ipairs := by
    obtain ⟨f, hget, hf⟩ := h.ipairs
    exact ⟨f, (he.field _ hg _ (hn _ (by simp))).trans hget, hf.extend he⟩

theorem setFunction_offers (ht : t.index < s.tables.size) (name : String) (b : Builtin)
    (captured : List Value) : ∃ f s', setFunction t name b captured s = .done () s' ∧
      Builds [t] [name] s s' ∧ s'.rawGet t (.text name) = .func f ∧ s'.Offers f b captured.toArray :=
  ⟨_, _, setFunction_done .., (Builds.refl ..).addFunction name (.inr (by simp)) b captured.toArray,
    addFunction_get ht name b captured.toArray, addFunction_offers s t name b captured.toArray⟩

theorem addIterators_done {next : FuncId} (hg : globals.index < s.tables.size)
    (hnext : s.rawGet globals (.text "next") = .func next) (hoffers : s.Offers next (.base .next) #[]) :
    ∃ s' step, addIterators globals s = .done () s' ∧
      Builds [globals] ["pairs", "ipairs"] s s' ∧ Iteration s' globals next step := by
  have hread : Run.rawGetText globals "next" s = .done (.func next) s :=
    congrArg (fun v => Res.done v s) hnext
  obtain ⟨pairs, s₁, h₁, builds₁, get₁, offers₁⟩ :=
    setFunction_offers hg "pairs" (.base .pairs) [.func next]
  let s₂ := (s₁.newFunction (.builtin (.base .ipairsStep) #[])).2
  have h₂ : Run.newBuiltin (.base .ipairsStep) [] s₁ = .done (.func ⟨s₁.functions.size⟩) s₂ := rfl
  have builds₂ : Builds [globals] [] s₁ s₂ := (Builds.refl ..).newFunction _
  have hg₂ : globals.index < s₂.tables.size :=
    Nat.lt_of_lt_of_le (Nat.lt_of_lt_of_le hg builds₁.tables_size) builds₂.tables_size
  obtain ⟨ipairs, s₃, h₃, builds₃, get₃, offers₃⟩ :=
    setFunction_offers hg₂ "ipairs" (.base .ipairs) [.func ⟨s₁.functions.size⟩]
  have later := builds₂.trans builds₃
  have all := builds₁.trans later
  refine ⟨s₃, ⟨s₁.functions.size⟩, (Run.bind_done hread).trans
    ((Run.bind_done h₁).trans ((Run.bind_done h₂).trans h₃)), all, ?_⟩
  constructor
  case nextFunction =>
    exact ⟨(all.field _ hg _ (by simp)).trans hnext, hoffers.extend all.toExtends⟩
  case stepFunction => exact (newFunction_offers s₁ _ _).extend builds₃.toExtends
  case pairs =>
    have hlt := Nat.lt_of_lt_of_le hg builds₁.tables_size
    exact ⟨pairs, (later.field _ hlt _ (by simp)).trans get₁, offers₁.extend later.toExtends⟩
  case ipairs => exact ⟨ipairs, get₃, offers₃⟩

/-- The modules of a fresh store, in the order in which they are loaded. -/
def modules : List (String × Library.Names) := [
  ("package", [("loadlib", .package .loadLib)]), ("coroutine", Library.coroutine),
  ("table", Library.table), ("io", Library.io), ("os", Library.os), ("string", Library.string),
  ("math", Library.math), ("utf8", Library.utf8)]

/-- Some modules are loaded. -/
def Modules (s : Store) (globals loaded : TableId) (made : List (String × Library.Names)) : Prop :=
  ∀ name shelf, (name, shelf) ∈ made → ∃ t, Module s globals loaded name shelf t

/-- A module more, which is put in under a name of its own. -/
theorem Modules.next {s' : Store} {made : List (String × Library.Names)} {name : String}
    {shelf : Library.Names} (h : Modules s globals loaded made)
    (he : Extends [globals, loaded] names s s') (hl : loaded.index < s.tables.size)
    (hn : ∀ name ∈ made.map Prod.fst, name ∉ names) (module : Module s' globals loaded name shelf t) :
    Modules s' globals loaded (made ++ [(name, shelf)]) := by
  intro name' shelf' hmem
  rcases List.mem_append.1 hmem with hmem | hmem
  · obtain ⟨u, hu⟩ := h name' shelf' hmem
    exact ⟨u, hu.extend he hl (hn name' (List.mem_map_of_mem hmem))⟩
  · obtain ⟨rfl, rfl⟩ := Prod.mk.inj (List.mem_singleton.1 hmem)
    exact ⟨t, module⟩

/-- The names under which the libraries are put in, or put something into their tables. -/
def libraryNames : List String :=
  "package" :: packageNames ++ ["coroutine"] ++ ["table"] ++ "io" :: streamNames ++ ["os"] ++ ["string"]
    ++ "math" :: mathNames ++ ["utf8", "charpattern"]

/-- What the libraries give a store. -/
structure Libraries (s : Store) (globals loaded : TableId) : Prop where
  modules : Modules s globals loaded modules
  require : Requires s globals
  constants : ∃ t, s.rawGet loaded (.text "math") = .table t ∧ Constants s t
  strings : ∃ m t, Strings s m t ∧ m ∉ [globals, loaded] ∧ t ∉ [globals, loaded]
  failures : ∃ m, Failures s m ∧ m ∉ [globals, loaded]

theorem libraries_done (hg : globals.index < s.tables.size) (hl : loaded.index < s.tables.size) :
    ∃ s', (do
        addPackage globals loaded
        let _ ← addLibrary globals loaded "coroutine" Library.coroutine
        let _ ← addLibrary globals loaded "table" Library.table
        addFiles globals loaded
        let _ ← addLibrary globals loaded "os" Library.os
        addString globals loaded
        addMath globals loaded
        addUtf8 globals loaded
        addFailures : Run Unit) s = .done () s' ∧
      Extends [globals, loaded] libraryNames s s' ∧ Libraries s' globals loaded := by
  -- each part is put into the store that the parts before it left, and takes nothing of them away
  have later {s₁ s₂ : Store} {names : List String} (he : Extends [globals, loaded] names s₁ s₂)
      (h : globals.index < s₁.tables.size ∧ loaded.index < s₁.tables.size) :
      globals.index < s₂.tables.size ∧ loaded.index < s₂.tables.size :=
    ⟨Nat.lt_of_lt_of_le h.1 he.tables_size, Nat.lt_of_lt_of_le h.2 he.tables_size⟩
  obtain ⟨_, s₁, h₁, package, require⟩ := addPackage_loads hg hl
  have lt₁ := later package.builds.toExtends ⟨hg, hl⟩
  obtain ⟨_, s₂, h₂, coroutine, -⟩ := addLibrary_loads lt₁.1 lt₁.2 "coroutine"
    Library.coroutine (by decide)
  have lt₂ := later coroutine.builds.toExtends lt₁
  obtain ⟨_, s₃, h₃, table, -⟩ := addLibrary_loads lt₂.1 lt₂.2 "table" Library.table
    (by decide)
  have lt₃ := later table.builds.toExtends lt₂
  obtain ⟨_, s₄, h₄, io, -⟩ := addFiles_loads lt₃.1 lt₃.2
  have lt₄ := later io.builds.toExtends lt₃
  obtain ⟨_, s₅, h₅, os, -⟩ := addLibrary_loads lt₄.1 lt₄.2 "os" Library.os
    (by decide)
  have lt₅ := later os.builds.toExtends lt₄
  obtain ⟨s₆, h₆, string, ⟨_, -, stringModule⟩, m, t, hm, ht, strings⟩ := addString_done lt₅.1 lt₅.2
  have lt₆ := later string lt₅
  obtain ⟨u, s₇, h₇, math, constants⟩ := addMath_loads lt₆.1 lt₆.2
  have lt₇ := later math.builds.toExtends lt₆
  obtain ⟨_, s₈, h₈, utf8, -⟩ := addUtf8_loads lt₇.1 lt₇.2
  obtain ⟨s₉, h₉, failuresExtends, stringMeta, e, he, failures⟩ := addFailures_done s₈
  -- what was put in before is still there afterwards
  have lt₈ := later utf8.builds.toExtends lt₇
  have after₈ := failuresExtends.mono (List.nil_subset [globals, loaded]) (List.Subset.refl [])
  have after₇ := utf8.builds.toExtends.trans after₈
  have after₆ := math.builds.toExtends.trans after₇
  have after₁ := coroutine.builds.toExtends.trans <| table.builds.toExtends.trans <|
    io.builds.toExtends.trans <| os.builds.toExtends.trans <| string.trans after₆
  refine ⟨s₉, ?_, (package.builds.toExtends.trans after₁).mono (List.Subset.refl _) (by decide), ?_⟩
  · rw [Run.bind_done h₁, Run.bind_done h₂, Run.bind_done h₃, Run.bind_done h₄, Run.bind_done h₅,
      Run.bind_done h₆, Run.bind_done h₇, Run.bind_done h₈, h₉]
  constructor
  case modules =>
    have made : Modules s globals loaded [] := nofun
    have made₁ := made.next package.builds.toExtends hl (by decide) package.module
    have made₂ := made₁.next coroutine.builds.toExtends lt₁.2 (by decide) coroutine.module
    have made₃ := made₂.next table.builds.toExtends lt₂.2 (by decide) table.module
    have made₄ := made₃.next io.builds.toExtends lt₃.2 (by decide) io.module
    have made₅ := made₄.next os.builds.toExtends lt₄.2 (by decide) os.module
    have made₆ := made₅.next string lt₅.2 (by decide) stringModule
    have made₇ := made₆.next math.builds.toExtends lt₆.2 (by decide) math.module
    have made₈ := made₇.next utf8.builds.toExtends lt₇.2 (by decide) utf8.module
    intro name shelf hmem
    obtain ⟨v, hv⟩ := made₈ name shelf hmem
    exact ⟨v, hv.extend after₈ lt₈.2 List.not_mem_nil⟩
  case require =>
    obtain ⟨f, captured, hget, offers⟩ := require
    exact ⟨f, captured, (after₁.field _ lt₁.1 _ (by decide)).trans hget, offers.extend after₁⟩
  case constants =>
    have hget : s₉.rawGet loaded (.text "math") = .table u :=
      (after₇.field _ lt₇.2 _ (by decide)).trans math.module.get
    have hlt := math.module.stocks.lt
    exact ⟨u, hget, (after₇.get hlt (.inl math.module.own)).trans constants.pi,
      (after₇.get hlt (.inl math.module.own)).trans constants.huge⟩
  case strings =>
    have own {u : TableId} := not_mem_globals (t := u) lt₅.1 lt₅.2
    have kept := stringMeta.trans (utf8.builds.stringMeta.trans math.builds.stringMeta)
    exact ⟨m, t, strings.extend after₆ (own hm) (own ht) kept, own hm, own ht⟩
  case failures => exact ⟨e, failures, not_mem_globals lt₈.1 lt₈.2 he⟩

/-- What a fresh store holds. -/
structure Furnished (s : Store) : Prop extends Libraries s s.globals s.loaded where
  globals : s.Stocks s.globals Library.globals
  iteration : ∃ next step, Iteration s s.globals next step
  loaded_lt : s.loaded.index < s.tables.size
  loaded_bare : (s.table s.loaded).metatable = none
  cells : s.cells = #[]

theorem fill_furnished (around : Surroundings) : ∃ s, fill (bare around) = .done () s ∧ Furnished s := by
  -- the store is followed from the first two tables on; each part extends what the parts before it left
  let g : TableId := ⟨0⟩
  let l : TableId := ⟨1⟩
  let s₁ : Store := { bare around with tables := #[{}, {}], globals := g, loaded := l }
  have hg : Run.newTable (bare around) = .done g { bare around with tables := #[{}] } := rfl
  have hl : Run.newTable { bare around with tables := #[{}] }
      = .done l { bare around with tables := #[{}, {}] } := rfl
  have h₁ : Run.modify (fun s => { s with globals := g, loaded := l })
      { bare around with tables := #[{}, {}] } = .done () s₁ := rfl
  have h₂ := setNames_done g Library.globals s₁
  have stocks₂ := addNames_stocks (t := g) Library.globals (s := s₁) (by decide) Nat.zero_lt_two
  have builds₂ := addNames_builds s₁ g Library.globals
  generalize s₁.addNames g Library.globals = s₂ at h₂ stocks₂ builds₂
  let s₃ := ((s₂.modifyTable g (·.set (.text globalsName) (.table g))).modifyTable g
    (·.set (.text "_VERSION") (.text "Lua 5.4"))).modifyTable l (·.set (.text globalsName) (.table g))
  have builds₃ : Builds [g, l] [globalsName, "_VERSION"] s₂ s₃ :=
    (((Builds.refl ..).setText _ (.inr (by simp))).setText _ (.inr (by simp))).setText _
      (.inr (by simp))
  have stocks₃ := stocks₂.extend builds₃.toExtends (.inr (by decide))
  obtain ⟨next, hnext, hoffers⟩ := stocks₃.get "next" (.base .next) (by decide)
  obtain ⟨s₄, step, h₄, builds₄, iteration⟩ := addIterators_done stocks₃.lt hnext hoffers
  have stocks₄ := stocks₃.extend builds₄.toExtends (.inr (by decide))
  have before : Extends [g, l] _ s₁ s₄ := ((builds₂.mono (by simp) (List.Subset.refl _)).trans
    (builds₃.trans (builds₄.mono (by simp) (List.Subset.refl _)))).toExtends
  have hl₄ : l.index < s₄.tables.size := Nat.lt_of_lt_of_le Nat.one_lt_two before.tables_size
  obtain ⟨s₅, h₅, extends₅, libraries⟩ := libraries_done stocks₄.lt hl₄
  have all := before.trans extends₅
  have globals : s₅.globals = g := all.globals
  have loaded : s₅.loaded = l := all.loaded
  refine ⟨s₅, ?_, ⟨?_, ?_, ?_, ?_, ?_, ?_⟩⟩
  · unfold fill
    rw [Run.bind_done hg, Run.bind_done hl, Run.bind_done h₁, Run.bind_done h₂,
      Run.bind_done (rawSetText_done ..), Run.bind_done (rawSetText_done ..),
      Run.bind_done (rawSetText_done ..), Run.bind_done h₄, h₅]
  · rw [globals, loaded]
    exact libraries
  · rw [globals]
    exact stocks₄.extend extends₅ (.inr (by decide))
  · rw [globals]
    exact ⟨next, step, iteration.extend extends₅ stocks₄.lt (by decide)⟩
  · rw [loaded]
    exact Nat.lt_of_lt_of_le hl₄ extends₅.tables_size
  · rw [loaded]
    exact all.metatable l Nat.one_lt_two
  · exact all.cells

theorem store_furnished (around : Surroundings) : Furnished (store around) := by
  obtain ⟨s, hfill, furnished⟩ := fill_furnished around
  unfold store
  rw [hfill]
  exact furnished

end Fresh

end Enclosure.Lua
