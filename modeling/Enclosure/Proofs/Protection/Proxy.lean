import Enclosure.Protection
import Enclosure.Proofs.Lua.Action

/-!
# What protection makes

Protecting a table makes an empty table, a metatable for it and three functions, and changes nothing
that was there (`protect_ok`).
-/

namespace Enclosure.Protection

open Lua Attempt

/-- What the metatable of a stand-in answers to an event. -/
def handler (t : TableId) (write length pairs : FuncId) (event : String) : Value :=
  if event = "__metatable" then .bool false
  else if event = "__pairs" then .func pairs
  else if event = "__len" then .func length
  else if event = "__newindex" then .func write
  else if event = "__index" then .table t
  else .nil

/-- What a store holds once a table of it has a stand-in: the metatable of the stand-in, and the
functions that refuse a write, tell the length and iterate. -/
structure Proxy (s s' : Store) (t p e : TableId) (write length pairs : FuncId)
    (next : Value) : Prop where
  keeps : Store.Keeps s.tables.size s s'
  tables_size : s'.tables.size = s.tables.size + 2
  functions_size : s'.functions.size = s.functions.size + 3
  objects : s'.objects = s.objects
  cells : s'.cells = s.cells
  stringMeta : s'.stringMeta = s.stringMeta
  failureMeta : s'.failureMeta = s.failureMeta
  proxy : p.index = s.tables.size
  proxyTable : s'.table p = { metatable := some e }
  events : e.index = s.tables.size + 1
  event : ∀ name, s'.rawGet e (.text name) = handler t write length pairs name
  function : ∀ f, f.index < s.functions.size → s'.function f = s.function f
  write_index : write.index = s.functions.size
  write : s'.function write = .builtin (.guard .refuseWrite) #[]
  length_index : length.index = s.functions.size + 1
  length : s'.function length = .builtin (.guard .length) #[.table t]
  pairs_index : pairs.index = s.functions.size + 2
  pairs : s'.function pairs = .builtin (.guard .pairs) #[.table t, next]

variable {st st' : State} {t p : TableId}

theorem nextFunction_ok {v : Value} (h : nextFunction.on st = (.ok v, st')) :
    ∃ f, v = .func f ∧ st' = st ∧ st.store.rawGet st.store.globals (.text "next") = .func f := by
  obtain ⟨g, st₁, hg, h⟩ := bind_ok h
  obtain rfl : st = st₁ := (Prod.mk.inj hg).2
  obtain rfl : st.store.globals = g := Except.ok.inj (Prod.mk.inj hg).1
  obtain ⟨w, st₂, hw, h⟩ := bind_ok h
  obtain rfl : st = st₂ := (Prod.mk.inj hw).2
  have hw : st.store.rawGet st.store.globals (.text "next") = w := Except.ok.inj (Prod.mk.inj hw).1
  split at h
  · obtain ⟨rfl, rfl⟩ := pure_ok h
    exact ⟨_, rfl, rfl, hw⟩
  · cases h

theorem step_ok {α : Type} {f : Store → α × Store} {a : α}
    (h : (Action.step f).on st = (.ok a, st')) :
    a = (f st.store).1 ∧ st' = { st with store := (f st.store).2 } :=
  ⟨(Except.ok.inj (Prod.mk.inj h).1).symm, (Prod.mk.inj h).2.symm⟩

theorem modify_ok {f : Store → Store} {u : Unit} (h : (Action.modify f).on st = (.ok u, st')) :
    st' = { st with store := f st.store } := (Prod.mk.inj h).2.symm

theorem newBuiltin_on (b : Builtin) (captured : List Value) (st : State) :
    (Action.newBuiltin b captured).on st = (.ok (.func ⟨st.store.functions.size⟩),
      { st with store := (st.store.newFunction (.builtin b captured.toArray)).2 }) := by
  have hrun : (do return [← Run.newBuiltin b captured] : Run (List Value)) st.store
      = .done [.func ⟨st.store.functions.size⟩]
        (st.store.newFunction (.builtin b captured.toArray)).2 := rfl
  exact Action.runFirst_done hrun

theorem newBuiltin_ok {b : Builtin} {captured : List Value} {v : Value}
    (h : (Action.newBuiltin b captured).on st = (.ok v, st')) : v = .func ⟨st.store.functions.size⟩
      ∧ st' = { st with store := (st.store.newFunction (.builtin b captured.toArray)).2 } := by
  rw [newBuiltin_on] at h
  exact ⟨(Except.ok.inj (Prod.mk.inj h).1).symm, (Prod.mk.inj h).2.symm⟩

/-! ## The store that protection leaves -/

/-- A store with a stand-in for a table of it. -/
def guarded (s : Store) (t : TableId) (next : Value) : Store :=
  let p : TableId := ⟨s.tables.size⟩
  let e : TableId := ⟨s.tables.size + 1⟩
  let made := ((s.newTable {}).2.newTable {}).2
  let read := made.modifyTable e (·.set (.text "__index") (.table t))
  let write := read.addFunction e "__newindex" (.guard .refuseWrite) #[]
  let length := write.addFunction e "__len" (.guard .length) #[.table t]
  let pairs := length.addFunction e "__pairs" (.guard .pairs) #[.table t, next]
  let locked := pairs.modifyTable e (·.set (.text "__metatable") (.bool false))
  locked.modifyTable p fun T => { T with metatable := some e }

section Guarded

variable (s : Store) (t u : TableId) (next : Value)

theorem guarded_tables_size : (guarded s t next).tables.size = s.tables.size + 2 := by
  simp [guarded]

theorem guarded_functions_size : (guarded s t next).functions.size = s.functions.size + 3 := by
  simp [guarded]

theorem guarded_rest : (guarded s t next).rest = s.rest := by
  simp [guarded]

theorem guarded_function (f : FuncId) : (guarded s t next).function f
    = if f.index = s.functions.size + 2 then .builtin (.guard .pairs) #[.table t, next]
      else if f.index = s.functions.size + 1 then .builtin (.guard .length) #[.table t]
      else if f.index = s.functions.size then .builtin (.guard .refuseWrite) #[]
      else s.function f := by
  unfold guarded
  dsimp only
  rw [Store.function_modifyTable, Store.function_modifyTable, Store.function_addFunction,
    Store.function_addFunction, Store.function_addFunction, Store.functions_size_addFunction,
    Store.functions_size_addFunction, Store.functions_modifyTable, Store.functions_newTable,
    Store.functions_newTable, Store.function_modifyTable, Store.function_newTable,
    Store.function_newTable]

theorem guarded_table_of_lt (h : u.index < s.tables.size) :
    (guarded s t next).table u = s.table u := by
  have hp : u ≠ ⟨s.tables.size⟩ := fun he => by simp [he] at h
  have he : u ≠ ⟨s.tables.size + 1⟩ := fun he => by simp [he] at h
  have h₁ : u.index ≠ s.tables.size + 1 := by omega
  simp [guarded, Store.table_addFunction, Store.table_modifyTable, Store.table_newTable, hp, he, h.ne, h₁]

theorem guarded_proxy_table :
    (guarded s t next).table ⟨s.tables.size⟩ = { metatable := some ⟨s.tables.size + 1⟩ } := by
  simp [guarded, Store.table_addFunction, Store.table_modifyTable, Store.table_newTable, Nat.add_assoc]

theorem guarded_events_get (name : String) :
    ((guarded s t next).table ⟨s.tables.size + 1⟩).get (.text name)
      = handler t ⟨s.functions.size⟩ ⟨s.functions.size + 1⟩ ⟨s.functions.size + 2⟩ name := by
  have hempty : ({} : Table).get (.text name) = .nil := Table.get_default _
  simp [guarded, Store.table_addFunction, Store.table_modifyTable, Store.table_newTable, Table.get_set,
    Store.text_inj, hempty, handler]

end Guarded

/-- Protection changes nothing but the store, and iterates with what the global `next` is by then. -/
theorem protect_store (h : (protect t).on st = (.ok p, st')) :
    ∃ next : FuncId, p = ⟨st.store.tables.size⟩ ∧ st' = { st with store := guarded st.store t (.func next) }
      ∧ (st.store.globals.index < st.store.tables.size →
          st.store.rawGet st.store.globals (.text "next") = .func next) := by
  -- step by step: `sᵢ` is the store after the step and `kᵢ` what is left to run
  obtain ⟨proxy, st₁, h₁, k₁⟩ := bind_ok h
  obtain ⟨rfl, s₁⟩ := step_ok h₁
  obtain ⟨events, st₂, h₂, k₂⟩ := bind_ok k₁
  obtain ⟨rfl, s₂⟩ := step_ok h₂
  obtain ⟨_, st₃, h₃, k₃⟩ := bind_ok k₂
  have s₃ := modify_ok h₃
  obtain ⟨write, st₄, h₄, k₄⟩ := bind_ok k₃
  obtain ⟨rfl, s₄⟩ := newBuiltin_ok h₄
  obtain ⟨_, st₅, h₅, k₅⟩ := bind_ok k₄
  have s₅ := modify_ok h₅
  obtain ⟨length, st₆, h₆, k₆⟩ := bind_ok k₅
  obtain ⟨rfl, s₆⟩ := newBuiltin_ok h₆
  obtain ⟨_, st₇, h₇, k₇⟩ := bind_ok k₆
  have s₇ := modify_ok h₇
  obtain ⟨_, st₈, h₈, k₈⟩ := bind_ok k₇
  obtain ⟨next, rfl, rfl, hnext⟩ := nextFunction_ok h₈
  obtain ⟨pairs, st₉, h₉, k₉⟩ := bind_ok k₈
  obtain ⟨rfl, s₉⟩ := newBuiltin_ok h₉
  obtain ⟨_, st₁₀, h₁₀, k₁₀⟩ := bind_ok k₉
  have s₁₀ := modify_ok h₁₀
  obtain ⟨_, st₁₁, h₁₁, k₁₁⟩ := bind_ok k₁₀
  have s₁₁ := modify_ok h₁₁
  obtain ⟨_, st₁₂, h₁₂, k₁₂⟩ := bind_ok k₁₁
  have s₁₂ := modify_ok h₁₂
  obtain ⟨rfl, rfl⟩ := pure_ok k₁₂
  have he : (st₁.store.newTable {}).1 = ⟨st.store.tables.size + 1⟩ := by
    rw [s₁]
    exact congrArg TableId.mk (Store.size_newTable ..)
  refine ⟨next, rfl, ?_, fun hg => ?_⟩
  · rw [s₁₂, s₁₁, s₁₀, s₉, s₇, s₆, s₅, s₄, s₃, s₂, he, s₁]
    rfl
  -- up to the lookup of `next` nothing that was there was touched
  · have keeps : Store.Keeps st.store.tables.size st.store st₈.store := by
      have old : st.store.tables.size ≤ ((st.store.newTable {}).2.newTable {}).1.index := by
        simp [Store.newTable]
      have tables := (Store.Keeps.newTable (Nat.le_refl _) {}).trans
        (Store.Keeps.newTable (s := (st.store.newTable {}).2) (by simp) {})
      rw [s₇, s₆, s₅, s₄, s₃, s₂, s₁]
      exact (tables.trans (.modifyTable old _)).trans ((Store.Keeps.newFunction _ _).trans <|
        (Store.Keeps.modifyTable old _).trans <| (Store.Keeps.newFunction _ _).trans (.modifyTable old _))
    have hglobals : st₈.store.globals = st.store.globals := by
      rw [s₇, s₆, s₅, s₄, s₃, s₂, s₁]
      rfl
    rw [hglobals, Store.rawGet_text, keeps.table _ hg] at hnext
    exact hnext

theorem guarded_proxy (s : Store) (t : TableId) (next : Value) :
    Proxy s (guarded s t next) t ⟨s.tables.size⟩ ⟨s.tables.size + 1⟩ ⟨s.functions.size⟩
      ⟨s.functions.size + 1⟩ ⟨s.functions.size + 2⟩ next := by
  have tables_size := guarded_tables_size s t next
  have functions_size := guarded_functions_size s t next
  have rest := guarded_rest s t next
  have function := guarded_function s t next
  have old := fun u => guarded_table_of_lt s t u next
  have proxyTable := guarded_proxy_table s t next
  have event := guarded_events_get s t next
  generalize guarded s t next = s' at tables_size functions_size rest function old proxyTable event ⊢
  constructor
  case keeps => exact ⟨by omega, old⟩
  case tables_size => exact tables_size
  case functions_size => exact functions_size
  case objects => exact congrArg (·.2.1) rest
  case cells => exact congrArg (·.1) rest
  case stringMeta => exact congrArg (·.2.2.1) rest
  case failureMeta => exact congrArg (·.2.2.2.1) rest
  case proxyTable => exact proxyTable
  case event => exact event
  case function =>
    intro f hf
    rw [function, if_neg (by omega), if_neg (by omega), if_neg (by omega)]
  case proxy | events | write_index | length_index | pairs_index => rfl
  case write | length | pairs => simp [function]

theorem protect_ok (h : (protect t).on st = (.ok p, st')) :
    ∃ e write length pairs next, Proxy st.store st'.store t p e write length pairs next := by
  obtain ⟨next, rfl, rfl, -⟩ := protect_store h
  exact ⟨_, _, _, _, _, guarded_proxy st.store t (.func next)⟩

/-! ## When a table can be protected -/

/-- The global `next` is a function, and the globals are one of the first `n` tables. -/
structure Iterates (n : Nat) (next : FuncId) (s : Store) : Prop where
  lt : s.globals.index < n
  le : n ≤ s.tables.size
  next : s.rawGet s.globals (.text "next") = .func next

/-- An action that ends with a result and leaves the global `next`. -/
abbrev Ends {α : Type} (n : Nat) (next : FuncId) (m : Lua.Action α) : (α → Prop) → Prop :=
  Succeeds (Iterates n next ·.store) m

variable {n : Nat} {next : FuncId} {s s' : Store}

theorem Iterates.globals_lt (h : Iterates n next s) : s.globals.index < s.tables.size := h.lt.trans_le h.le

theorem Iterates.of_keeps (h : Iterates n next s) (hk : Store.Keeps n s s')
    (hg : s'.globals = s.globals) : Iterates n next s' := by
  refine ⟨hg ▸ h.lt, Nat.le_trans h.le hk.size, ?_⟩
  rw [Store.rawGet_text, hg, hk.table _ h.lt]
  exact h.next

namespace Ends

theorem newTable : Ends n next Action.newTable fun t => n ≤ t.index :=
  fun _ hi => ⟨_, _, rfl, hi.le, hi.of_keeps (.newTable hi.le {}) rfl⟩

theorem modifyTable (ht : n ≤ t.index) (f : Table → Table) :
    Ends n next (Action.modify (·.modifyTable t f)) fun _ => True :=
  fun _ hi => ⟨_, _, rfl, trivial, hi.of_keeps (.modifyTable ht f) rfl⟩

theorem newBuiltin (b : Builtin) (captured : List Value) :
    Ends n next (Action.newBuiltin b captured) fun _ => True := by
  intro st hi
  exact ⟨_, _, newBuiltin_on b captured st, trivial, hi.of_keeps ⟨Nat.le_refl _, fun _ _ => rfl⟩ rfl⟩

theorem nextFunction : Ends n next nextFunction fun v => v = .func next := by
  intro st hi
  have hglobals : Action.globals.on st = (.ok st.store.globals, st) := rfl
  have hget : (Action.rawGetText st.store.globals "next").on st = (.ok (.func next), st) :=
    congrArg (fun v => (Except.ok v, st)) hi.next
  refine ⟨_, st, ?_, rfl, hi⟩
  unfold Protection.nextFunction
  rw [bind_on hglobals, bind_on hget]
  rfl

end Ends

/-- Where the global `next` is a function, every table can be protected. -/
theorem protect_ends (t : TableId) : Ends n next (protect t) fun p => n ≤ p.index := by
  refine .bind Ends.newTable fun p hp => .bind Ends.newTable fun e he => ?_
  refine .bind (Ends.modifyTable he _) fun _ _ => ?_
  refine .bind (Ends.newBuiltin _ _) fun _ _ => .bind (Ends.modifyTable he _) fun _ _ => ?_
  refine .bind (Ends.newBuiltin _ _) fun _ _ => .bind (Ends.modifyTable he _) fun _ _ => ?_
  refine .bind Ends.nextFunction fun _ _ => ?_
  refine .bind (Ends.newBuiltin _ _) fun _ _ => .bind (Ends.modifyTable he _) fun _ _ => ?_
  exact .bind (Ends.modifyTable he _) fun _ _ => .bind (Ends.modifyTable hp _) fun _ _ => .pure hp

end Enclosure.Protection
