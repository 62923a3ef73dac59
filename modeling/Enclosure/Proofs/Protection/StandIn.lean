import Enclosure.Proofs.Lua.Lookup
import Enclosure.Proofs.Protection.Proxy

/-!
# Stand-ins over time

A stand-in is intact as long as it is empty, its metatable answers what it was made to answer, and the
functions in it are the ones that were made. Nothing that is done to the stand-in through metamethods ends
that, nor does what the host does to the table behind it; only a function that a lookup on that table or a
write to it runs could (`History.intact`). A table without a metatable runs none (`exists_history`).
-/

namespace Enclosure.Lua

variable {s : Store} {p e t : TableId} {m : Option TableId}

theorem Store.rawGet_of_empty (h : s.table p = { metatable := m }) (key : Value) :
    s.rawGet p key = .nil := by
  unfold rawGet
  split
  · rw [h]
    exact Table.get_default _
  · rfl

theorem Operation.holds_of_empty (h : s.table p = { metatable := m }) (key : Value) :
    holds s key (.table p) = false := by
  rw [holds, Store.rawGet_of_empty h]
  rfl

/-- A lookup on an empty table with a table behind it is one on that table, with one table passed already. -/
theorem Operation.indexFrom_through (h : s.table p = { metatable := some e })
    (hindex : s.rawGet e (.text "__index") = .table t) (w : Where) (n : Nat) (o : Option Origin) (key : Value) :
    indexFrom w (n + 1) o (.table p) key s = indexFrom w n none (.table t) key s := by
  have hhandler : s.metamethod (.table p) "__index" = .table t := by
    rw [Store.metamethod, Store.metatable, h]
    exact hindex
  rw [indexFrom_follow w o (holds_of_empty h key), hhandler]
  rfl

end Enclosure.Lua

namespace Enclosure.Protection

open Lua

/-- A stand-in for the table behind it, with its metatable and the functions in there. -/
structure StandIn where
  behind : TableId
  proxy : TableId
  events : TableId
  write : FuncId
  length : FuncId
  pairs : FuncId
  /-- What it iterates with. -/
  next : Value
  ne_proxy : behind ≠ proxy
  ne_events : behind ≠ events

namespace StandIn

/-- The stand-in is as it was made. -/
structure Intact (g : StandIn) (s : Store) : Prop where
  proxyTable : s.table g.proxy = { metatable := some g.events }
  event : ∀ name, s.rawGet g.events (.text name) = handler g.behind g.write g.length g.pairs name
  write : s.function g.write = .builtin (.guard .refuseWrite) #[]
  length : s.function g.length = .builtin (.guard .length) #[.table g.behind]
  pairs : s.function g.pairs = .builtin (.guard .pairs) #[.table g.behind, g.next]

/-- The stand-in is in the second store what it was in the first. -/
structure Spared (g : StandIn) (s s' : Store) : Prop where
  proxy : s'.table g.proxy = s.table g.proxy
  events : s'.table g.events = s.table g.events
  function : ∀ f ∈ [g.write, g.length, g.pairs], s'.function f = s.function f

variable {g : StandIn} {s s' : Store}

theorem Spared.refl (g : StandIn) (s : Store) : g.Spared s s := ⟨rfl, rfl, fun _ _ => rfl⟩

theorem spared_modifyTable (g : StandIn) (s : Store) (f : Table → Table) :
    g.Spared s (s.modifyTable g.behind f) :=
  ⟨Store.table_modifyTable_of_ne g.ne_proxy.symm f, Store.table_modifyTable_of_ne g.ne_events.symm f,
    fun _ _ => rfl⟩

theorem spared_newObject (g : StandIn) (s : Store) (o : HostObject) : g.Spared s (s.newObject o).2 :=
  ⟨rfl, rfl, fun _ _ => rfl⟩

theorem Intact.spared (intact : g.Intact s) (h : g.Spared s s') : g.Intact s' where
  proxyTable := h.proxy.trans intact.proxyTable
  event name := by
    rw [Store.rawGet_text, h.events]
    exact intact.event name
  write := (h.function _ (by simp)).trans intact.write
  length := (h.function _ (by simp)).trans intact.length
  pairs := (h.function _ (by simp)).trans intact.pairs

/-- The stand-in that protection makes in a store for a table of it. -/
def made (s : Store) (t : TableId) (ht : t.index < s.tables.size) (next : Value) : StandIn where
  behind := t
  proxy := ⟨s.tables.size⟩
  events := ⟨s.tables.size + 1⟩
  write := ⟨s.functions.size⟩
  length := ⟨s.functions.size + 1⟩
  pairs := ⟨s.functions.size + 2⟩
  next := next
  ne_proxy := fun he => absurd ht (by simp [he])
  ne_events := fun he => absurd ht (by simp [he])

/-- Protection makes an intact stand-in, which iterates with the global `next`. -/
theorem of_protect {st st₀ : State} {t p : TableId} (ht : t.index < st.store.tables.size)
    (h : (protect t).on st = (.ok p, st₀)) : ∃ g : StandIn, g.behind = t ∧ g.proxy = p
      ∧ g.Intact st₀.store ∧ (st.store.globals.index < st.store.tables.size →
          st.store.rawGet st.store.globals (.text "next") = g.next) := by
  obtain ⟨next, rfl, rfl, hnext⟩ := protect_store h
  have proxy := guarded_proxy st.store t (.func next)
  exact ⟨made st.store t ht (.func next), rfl, rfl,
    ⟨proxy.proxyTable, proxy.event, proxy.write, proxy.length, proxy.pairs⟩, hnext⟩

namespace Intact

variable (intact : g.Intact s)

include intact

theorem rawGet_proxy (key : Value) : s.rawGet g.proxy key = .nil :=
  Store.rawGet_of_empty intact.proxyTable key

theorem metatable : s.metatable (.table g.proxy) = some g.events :=
  congrArg Table.metatable intact.proxyTable

theorem metamethod (event : String) :
    s.metamethod (.table g.proxy) event = handler g.behind g.write g.length g.pairs event := by
  rw [Store.metamethod, intact.metatable]
  exact intact.event event

theorem indexFrom_proxy (w : Where) (n : Nat) (o : Option Origin) (key : Value) :
    Operation.indexFrom w (n + 1) o (.table g.proxy) key s
      = Operation.indexFrom w n none (.table g.behind) key s :=
  Operation.indexFrom_through intact.proxyTable (intact.event "__index") w n o key

/-- All that a stand-in is made of is there. -/
theorem lt : g.proxy.index < s.tables.size ∧ g.events.index < s.tables.size
    ∧ ∀ f ∈ [g.write, g.length, g.pairs], f.index < s.functions.size := by
  have table {u : TableId} (h : s.table u ≠ default) : u.index < s.tables.size :=
    Nat.lt_of_not_le fun hle => h (Store.table_of_le hle)
  have function {f : FuncId} (h : s.function f ≠ default) : f.index < s.functions.size :=
    Nat.lt_of_not_le fun hle => h (Store.function_of_le hle)
  have hindex : (s.table g.events).get (.text "__index") = .table g.behind := intact.event "__index"
  refine ⟨table fun h => ?_, table fun h => ?_, ?_⟩
  · exact nomatch (congrArg Table.metatable h).symm.trans (congrArg Table.metatable intact.proxyTable)
  · rw [h, Table.get_default] at hindex
    cases hindex
  · simp only [List.forall_mem_cons, List.not_mem_nil, false_imp_iff, implies_true, and_true]
    exact ⟨function (intact.write ▸ nofun), function (intact.length ▸ nofun), function (intact.pairs ▸ nofun)⟩

end Intact

/-- Making another stand-in leaves one as it is. -/
theorem Intact.protect {st st' : State} {t p : TableId} (intact : g.Intact st.store)
    (h : (Protection.protect t).on st = (.ok p, st')) : g.Intact st'.store := by
  obtain ⟨_, _, _, _, _, proxy⟩ := protect_ok h
  obtain ⟨lt_proxy, lt_events, lt_functions⟩ := intact.lt
  exact intact.spared ⟨proxy.keeps.table _ lt_proxy, proxy.keeps.table _ lt_events,
    fun f hf => proxy.function f (lt_functions f hf)⟩

end StandIn

/-! ## Moves

Reading and setting a field are runs of their own here.
-/

def lookup (w : Where) (object key : Value) : Run (List Value) := do
  return [← Operation.index w none object key]

def assign (w : Where) (object key v : Value) : Run (List Value) := do
  Operation.setIndex w none object key v
  return []

/-- What is done to a stand-in, or by the host to the table behind it. -/
inductive Move
  | lookup (w : Where) (key : Value)
  | assign (w : Where) (key v : Value)
  /-- The host sets a field of the table behind, through metamethods. -/
  | write (w : Where) (key v : Value)
  /-- The host changes the table behind by itself. -/
  | change (f : Table → Table)

def Move.after (g : StandIn) (st : State) : Move → State
  | .lookup w key => (st.runRaw (Protection.lookup w (.table g.proxy) key)).2
  | .assign w key v => (st.runRaw (Protection.assign w (.table g.proxy) key v)).2
  | .write w key v => (st.runRaw (Protection.assign w (.table g.behind) key v)).2
  | .change f => { st with store := st.store.modifyTable g.behind f }

/-- Moves from one state to another. The functions that a lookup or a write runs, which are none of the
stand-in's, leave the stand-in alone. -/
inductive History (g : StandIn) : State → List Move → State → Prop
  | nil (st : State) : History g st [] st
  | lookup {st st' : State} {w : Where} {key : Value} {moves : List Move}
    (spared : g.Spared st.store (Move.after g st (.lookup w key)).store)
    (rest : History g (Move.after g st (.lookup w key)) moves st') :
    History g st (.lookup w key :: moves) st'
  | assign {st st' : State} {w : Where} {key v : Value} {moves : List Move}
    (rest : History g (Move.after g st (.assign w key v)) moves st') :
    History g st (.assign w key v :: moves) st'
  | write {st st' : State} {w : Where} {key v : Value} {moves : List Move}
    (spared : g.Spared st.store (Move.after g st (.write w key v)).store)
    (rest : History g (Move.after g st (.write w key v)) moves st') :
    History g st (.write w key v :: moves) st'
  | change {st st' : State} {f : Table → Table} {moves : List Move}
    (rest : History g (Move.after g st (.change f)) moves st') :
    History g st (.change f :: moves) st'

namespace StandIn

def refusal (g : StandIn) : Bytes :=
  Bytes.ofText "runtime error: table " ++ Operation.addressOf (.table g.proxy)
    ++ Bytes.ofText " is write protected"

/-- The state after a refused write: there is an error object more. -/
def refused (g : StandIn) (st : State) : State :=
  { st with store := (st.store.newObject (.failure g.refusal)).2 }

variable {g : StandIn} {st : State}

theorem Intact.assign_on (intact : g.Intact st.store) (w : Where) (key v : Value) :
    st.runRaw (assign w (.table g.proxy) key v)
      = (.error (some (.object ⟨st.store.objects.size⟩)), g.refused st) := by
  have hget : Run.rawGet g.proxy key st.store = .done .nil st.store :=
    congrArg (fun v => Res.done v st.store) (intact.rawGet_proxy key)
  have hread : Run.metamethod (.table g.proxy) "__newindex" st.store = .done (.func g.write) st.store :=
    congrArg (fun v => Res.done v st.store) (intact.metamethod "__newindex")
  -- the stand-in is empty, so that whatever the key is, the handler is asked
  have hrun : assign w (.table g.proxy) key v st.store
      = .ask (.call (.func g.write) [.table g.proxy, key, v] (Operation.siteOf w "newindex")) st.store
        fun _ s => .done [] s := by
    have hset : Operation.setIndex w none (.table g.proxy) key v st.store
        = .ask (.call (.func g.write) [.table g.proxy, key, v] (Operation.siteOf w "newindex")) st.store
          fun _ s => .done () s := by
      unfold Operation.setIndex
      rw [Operation.chainLimit_eq, Operation.setIndexFrom, Run.bind_done hget]
      show (Run.metamethod (.table g.proxy) "__newindex" >>= _) st.store = _
      rw [Run.bind_done hread]
      rfl
    rw [assign, Run.bind_apply, hset]
    rfl
  exact State.runRaw_call_raise hrun (.builtin intact.write)

end StandIn

theorem History.intact {g : StandIn} {st st' : State} {moves : List Move}
    (h : History g st moves st') (intact : g.Intact st.store) : g.Intact st'.store := by
  induction h with
  | nil => exact intact
  | lookup spared _ ih => exact ih (intact.spared spared)
  | assign _ ih =>
    refine ih ?_
    rw [Move.after, intact.assign_on]
    exact intact.spared (g.spared_newObject _ _)
  | write spared _ ih => exact ih (intact.spared spared)
  | change _ ih => exact ih (intact.spared (g.spared_modifyTable _ _))

/-! ## Tables without a metatable -/

/-- The move gives no metatable to a table that has none. -/
def Move.Plain : Move → Prop
  | .change f => ∀ T : Table, T.metatable = none → (f T).metatable = none
  | _ => True

section Bare

variable {g : StandIn} {st : State} (intact : g.Intact st.store)
  (bare : (st.store.table g.behind).metatable = none)

include bare

include intact in
theorem StandIn.Intact.lookup_bare (w : Where) (key : Value) : st.runRaw (lookup w (.table g.proxy) key)
    = (.ok [st.store.rawGet g.behind key], st) := by
  refine State.runRaw_done (Run.bind_done ?_)
  rw [Operation.index, Operation.chainLimit_eq, intact.indexFrom_proxy]
  exact Operation.indexFrom_bare bare w _ none key

theorem bare_modifyTable {f : Table → Table} (hf : ∀ T : Table, T.metatable = none → (f T).metatable = none) :
    ((st.store.modifyTable g.behind f).table g.behind).metatable = none := by
  rw [Store.table_modifyTable]
  split_ifs
  · exact hf _ bare
  · exact bare

/-- A write to a table without a metatable changes that table or nothing. -/
theorem assign_bare (w : Where) (key v : Value) :
    (∃ k, (st.runRaw (assign w (.table g.behind) key v)).2
        = { st with store := st.store.modifyTable g.behind (·.set k v) })
      ∨ (st.runRaw (assign w (.table g.behind) key v)).2 = st := by
  have hset : Operation.setIndex w none (.table g.behind) key v st.store = _ :=
    Operation.setIndexFrom_bare bare w _ none key v
  rcases Operation.rawSet_ends w g.behind key v st.store with ⟨k, hdone⟩ | ⟨e, hraise, he⟩
  · have hrun : assign w (.table g.behind) key v st.store = .done [] _ :=
      Run.bind_done (hset.trans hdone)
    exact .inl ⟨k, by rw [State.runRaw_done hrun]⟩
  · have hrun : assign w (.table g.behind) key v st.store = .raise e _ :=
      Run.bind_raise (hset.trans hraise)
    obtain ⟨_, h⟩ := State.runRaw_raises hrun he
    exact .inr (by rw [h])

include intact in
theorem Move.after_bare {move : Move} (plain : move.Plain) :
    g.Spared st.store (move.after g st).store
      ∧ ((move.after g st).store.table g.behind).metatable = none := by
  cases move with
  | lookup w key =>
    rw [Move.after, intact.lookup_bare bare]
    exact ⟨.refl g _, bare⟩
  | assign w key v =>
    rw [Move.after, intact.assign_on]
    exact ⟨g.spared_newObject _ _, bare⟩
  | write w key v =>
    rw [Move.after]
    rcases assign_bare bare w key v with ⟨k, h⟩ | h
    · rw [h]
      exact ⟨g.spared_modifyTable _ _, bare_modifyTable bare fun T hT => by rw [Table.metatable_set, hT]⟩
    · rw [h]
      exact ⟨.refl g _, bare⟩
  | change f => exact ⟨g.spared_modifyTable _ _, bare_modifyTable bare plain⟩

end Bare

/-- As long as the table behind has no metatable, nothing is asked of the moves. -/
theorem exists_history {g : StandIn} : ∀ (moves : List Move) {st : State}, g.Intact st.store →
    (st.store.table g.behind).metatable = none → (∀ move ∈ moves, move.Plain) →
    ∃ st', History g st moves st'
  | [], st, _, _, _ => ⟨st, .nil st⟩
  | move :: moves, st, intact, bare, plain => by
    obtain ⟨spared, bare'⟩ := Move.after_bare intact bare (plain move (List.mem_cons_self ..))
    obtain ⟨st', rest⟩ := exists_history moves (intact.spared spared) bare' fun m hm =>
      plain m (List.mem_cons_of_mem _ hm)
    refine ⟨st', ?_⟩
    cases move with
    | lookup => exact .lookup spared rest
    | assign => exact .assign rest
    | write => exact .write spared rest
    | change => exact .change rest

end Enclosure.Protection
