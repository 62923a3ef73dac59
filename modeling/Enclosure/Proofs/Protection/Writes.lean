import Enclosure.Proofs.Protection.Leak
import Enclosure.Proofs.Protection.StandIn

/-!
# Writing through a stand-in

However long a stand-in is in use, an assignment to it fails and changes no table, its metatable stays
hidden and locked, and a lookup gives what it gives on the table behind, unless that one goes as far as
lookups may go (`history_refuses`). All that rests on the stand-in being empty: a function that answers
lookups on the table behind may fill it, and then an assignment succeeds.
-/

namespace Enclosure.Lua

variable {α : Type} {s : Store}

theorem Operation.shownType_done (v : Value) (s : Store) : ∃ b, Operation.shownType v s = .done b s := by
  have hread : ∀ v, Run.metamethod v "__name" s = .done (s.metamethod v "__name") s := fun _ => rfl
  unfold Operation.shownType
  cases v with
  | table | object =>
    show ∃ b, (Run.metamethod _ "__name" >>= _) s = _
    rw [Run.bind_done (hread _)]
    generalize s.metamethod _ "__name" = named
    cases named <;> exact ⟨_, rfl⟩
  | _ => exact ⟨_, rfl⟩

theorem Args.failType_raises (args : Args) (n : Nat) (expected : String) (s : Store) :
    ∃ why, (args.failType n expected : Run α) s = .raise (.argument n why) s := by
  obtain ⟨got, hgot⟩ : ∃ b, args.gotText n s = .done b s := by
    unfold Args.gotText
    rcases args.get? n with _ | v
    · exact ⟨_, rfl⟩
    · exact Operation.shownType_done v s
  rw [Args.failType, Run.bind_done hgot]
  exact ⟨_, rfl⟩

end Enclosure.Lua

namespace Enclosure.Protection

open Lua

/-- What a stand-in does at some point of its life. -/
structure Refuses (g : StandIn) (st : State) : Prop where
  empty : ∀ key, st.store.rawGet g.proxy key = .nil
  /-- An assignment fails, whatever the key and the value, and all tables are as before. -/
  assign : ∀ w key v, ∃ o st', st.runRaw (assign w (.table g.proxy) key v)
      = (.error (some (.object o)), st') ∧ st'.store.object o = .failure g.refusal
        ∧ ∀ u, st'.store.table u = st.store.table u
  /-- A lookup gives and does what it does on the table behind. -/
  lookup : ∀ w key, ¬ Operation.Strains st.store key (.table g.behind) →
    st.runRaw (lookup w (.table g.proxy) key) = st.runRaw (Protection.lookup w (.table g.behind) key)
  /-- It fails if the one on the table behind has to go all the way. -/
  strained : ∀ w key, Operation.Strains st.store key (.table g.behind) →
    ∃ e, st.runRaw (Protection.lookup w (.table g.proxy) key) = (.error (some e), st)
  getMetatable : ∀ args, st.runRaw (Library.Base.getMetatable (.table g.proxy :: args))
    = (.ok [.bool false], st)
  setMetatable : ∀ args, ∃ e, st.runRaw (Library.Base.setMetatable (.table g.proxy :: args))
    = (.error (some e), st)

namespace StandIn.Intact

variable {g : StandIn} {st : State} (intact : g.Intact st.store)

include intact

theorem lookup_apply (w : Where) (key : Value) : lookup w (.table g.proxy) key st.store
    = (do return [← Operation.indexFrom w (Operation.chainLimit - 1) none (.table g.behind) key] :
        Run (List Value)) st.store := by
  have hlimit : Operation.chainLimit = Operation.chainLimit - 1 + 1 := rfl
  rw [lookup, Operation.index, hlimit, Run.bind_apply, intact.indexFrom_proxy, Run.bind_apply]
  rfl

theorem lookup_on (w : Where) (key : Value)
    (h : ¬ Operation.Strains st.store key (.table g.behind)) :
    st.runRaw (lookup w (.table g.proxy) key) = st.runRaw (lookup w (.table g.behind) key) := by
  refine State.runRaw_congr ?_
  rw [intact.lookup_apply, Run.bind_apply, Operation.indexFrom_pred w none h, lookup, Run.bind_apply]
  rfl

theorem strained_on (w : Where) (key : Value) (h : Operation.Strains st.store key (.table g.behind)) :
    ∃ e, st.runRaw (lookup w (.table g.proxy) key) = (.error (some e), st) := by
  obtain ⟨e, hraise, he⟩ := Operation.failLong_raises w st.store
  rw [← Operation.indexFrom_unsettled w _ none h.2] at hraise
  refine State.runRaw_raises (e := e) ?_ he
  rw [intact.lookup_apply]
  exact Run.bind_raise hraise

theorem getMetatable_on (args : Args) :
    st.runRaw (Library.Base.getMetatable (.table g.proxy :: args)) = (.ok [.bool false], st) := by
  have hany : Args.any (.table g.proxy :: args) 1 st.store = .done (.table g.proxy) st.store := rfl
  have hmeta : Run.metatable (.table g.proxy) st.store = .done (some g.events) st.store :=
    congrArg (fun m => Res.done m st.store) intact.metatable
  have hshown : Run.rawGetText g.events "__metatable" st.store = .done (.bool false) st.store :=
    congrArg (fun v => Res.done v st.store) (intact.event "__metatable")
  refine State.runRaw_done ?_
  rw [Library.Base.getMetatable, Run.bind_done hany, Run.bind_done hmeta]
  exact Run.bind_done hshown

theorem setMetatable_on (args : Args) : ∃ e,
    st.runRaw (Library.Base.setMetatable (.table g.proxy :: args)) = (.error (some e), st) := by
  have htable : Args.table (.table g.proxy :: args) 1 st.store = .done g.proxy st.store := rfl
  have hshown : Run.metamethod (.table g.proxy) "__metatable" st.store = .done (.bool false) st.store :=
    congrArg (fun v => Res.done v st.store) (intact.metamethod "__metatable")
  -- whatever is to be the metatable, it is either refused itself or stopped at the lock
  suffices ∃ e, Library.Base.setMetatable (.table g.proxy :: args) st.store = .raise e st.store
      ∧ e ≠ .exhausted by
    obtain ⟨e, hraise, he⟩ := this
    exact State.runRaw_raises hraise he
  rw [Library.Base.setMetatable, Run.bind_done htable]
  have hfail : ∀ m : Option TableId, (do
      let shown ← Run.metamethod (.table g.proxy) "__metatable"
      if !shown.isNil then Run.fail "cannot change a protected metatable"
      Run.setMetatable g.proxy m
      return [.table g.proxy] : Run (List Value)) st.store
        = .raise (.located 1 (Bytes.ofText "cannot change a protected metatable")) st.store := by
    intro m
    rw [Run.bind_done hshown]
    rfl
  obtain ⟨why, htype⟩ :=
    Args.failType_raises (α := Option TableId) (.table g.proxy :: args) 2 "nil or table" st.store
  rcases (Args.get? (.table g.proxy :: args) 2) with _ | m
  · exact ⟨_, Run.bind_raise htype, nofun⟩
  · cases m with
    | nil => exact ⟨_, hfail none, nofun⟩
    | table m => exact ⟨_, hfail (some m), nofun⟩
    | _ => exact ⟨_, Run.bind_raise htype, nofun⟩

theorem refuses : Refuses g st where
  empty := intact.rawGet_proxy
  assign w key v := ⟨_, _, intact.assign_on w key v, by simp [refused, Store.object_newObject], fun _ => rfl⟩
  lookup := intact.lookup_on
  strained := intact.strained_on
  getMetatable := intact.getMetatable_on
  setMetatable := intact.setMetatable_on

end StandIn.Intact

/-! ## A function that fills the stand-in -/

/-- An assignment to a key that the table has is no business of its metatable. -/
theorem assign_filled {st : State} {p : TableId} {key : Value} (h : st.store.rawGet p key ≠ .nil) (w : Where)
    (v : Value) : ∃ k, key.asKey? = some k ∧ st.runRaw (assign w (.table p) key v)
      = (.ok [], { st with store := st.store.modifyTable p (·.set k v) }) := by
  obtain ⟨k, hk⟩ : ∃ k, key.asKey? = some k := by
    unfold Store.rawGet at h
    split at h
    · exact ⟨_, ‹_›⟩
    · exact absurd rfl h
  have hget : Run.rawGet p key st.store = .done (st.store.rawGet p key) st.store := rfl
  have hset : Operation.setIndex w none (.table p) key v st.store
      = .done () (st.store.modifyTable p (·.set k v)) := by
    rw [Operation.setIndex, Operation.chainLimit_eq, Operation.setIndexFrom, Run.bind_done hget,
      if_neg (fun hnil => h (Value.isNil_iff.1 hnil)), Operation.rawSet, hk]
    rfl
  exact ⟨k, hk, State.runRaw_done (Run.bind_done hset)⟩

/-- A store with an empty table more, and a function of the host that answers lookups on it. -/
def answered (s : Store) : Store :=
  let made := (s.newFunction (.callback 0)).2.newTable { metatable := some ⟨s.tables.size + 1⟩ }
  (made.2.newTable (Table.set {} (.text "__index") (.func ⟨s.functions.size⟩))).2

/-- A state with such a table. The function sets a field of the table that is made next. -/
def meddling (s : Store) : State where
  store := answered s
  threads := (State.fresh {}).threads
  callbacks := #[fun _ => do
    Run.rawSetText ⟨s.tables.size + 2⟩ "x" (.int 1)
    return []]

theorem lookup_meddled {g : StandIn} {st : State} {w : Where} {key k v : Value} {f : FuncId} {n : Nat}
    (intact : g.Intact st.store) (absent : Operation.holds st.store key (.table g.behind) = false)
    (hindex : st.store.metamethod (.table g.behind) "__index" = .func f)
    (hf : st.store.function f = .callback n)
    (hn : st.functions.callback n = fun _ => do
      Run.rawSetKey g.proxy k v
      return []) :
    st.runRaw (lookup w (.table g.proxy) key)
      = (.ok [.nil], { st with store := st.store.modifyTable g.proxy (·.set k v) }) := by
  have hrun : lookup w (.table g.proxy) key st.store
      = .ask (.call (.func f) [.table g.behind, key] (Operation.siteOf w "index")) st.store
        fun vs s => .done [Run.first vs] s := by
    have hlimit : Operation.chainLimit - 1 = 1998 + 1 := rfl
    rw [intact.lookup_apply, Run.bind_apply, hlimit, Operation.indexFrom_follow w none absent, hindex]
    rfl
  have does : Machine.Does st.functions st.store f [.table g.behind, key] _ := .callback hf
  rw [hn] at does
  exact State.runRaw_call_done hrun does rfl

section Answered

variable (s : Store)

theorem size_answered : (answered s).tables.size = s.tables.size + 2 := by
  simp [answered, Store.newFunction]

theorem keeps_answered : Store.Keeps s.tables.size s (answered s) := by
  let s₁ := (s.newFunction (.callback 0)).2
  let s₂ := (s₁.newTable { metatable := some ⟨s.tables.size + 1⟩ }).2
  have size : s₂.tables.size = s.tables.size + 1 := Store.size_newTable ..
  have function : Store.Keeps s.tables.size s s₁ := .newFunction ..
  have table : Store.Keeps s.tables.size s₁ s₂ := .newTable (s := s₁) (Nat.le_refl _) _
  have events : Store.Keeps s.tables.size s₂ (answered s) := .newTable (by omega) _
  exact function.trans (table.trans events)

theorem table_answered :
    (answered s).table ⟨s.tables.size⟩ = { metatable := some ⟨s.tables.size + 1⟩ } := by
  simp [answered, Store.table_newTable, Store.newFunction]

theorem events_answered : (answered s).table ⟨s.tables.size + 1⟩
    = Table.set {} (.text "__index") (.func ⟨s.functions.size⟩) := by
  simp [answered, Store.table_newTable, Store.newFunction]

theorem function_answered : (answered s).function ⟨s.functions.size⟩ = .callback 0 := by
  simp [answered, Store.function_newFunction]

end Answered

/-- The state when the table has a stand-in, which is the table that was made next. -/
theorem protect_meddling {s : Store} {next : FuncId} (fresh : Iterates s.tables.size next s) :
    ∃ (g : StandIn) (st₀ : State), (protect ⟨s.tables.size⟩).on (meddling s) = (.ok g.proxy, st₀)
      ∧ g.Intact st₀.store ∧ g.proxy.index < st₀.store.tables.size
      ∧ (∀ key, Operation.holds st₀.store key (.table g.behind) = false)
      ∧ st₀.store.metamethod (.table g.behind) "__index" = .func ⟨s.functions.size⟩
      ∧ st₀.store.function ⟨s.functions.size⟩ = .callback 0
      ∧ st₀.functions.callback 0 = fun _ => do
        Run.rawSetKey g.proxy (.text "x") (.int 1)
        return [] := by
  -- what the callback fills is the table that the stand-in is going to be
  have callback : (meddling s).functions.callback 0 = fun _ => do
      Run.rawSetKey ⟨s.tables.size + 2⟩ (.text "x") (.int 1)
      return [] := rfl
  have store : (meddling s).store = answered s := rfl
  generalize meddling s = st at store callback ⊢
  have size : st.store.tables.size = s.tables.size + 2 := by rw [store, size_answered]
  have iterates : Iterates s.tables.size next st.store := by
    rw [store]
    exact fresh.of_keeps (keeps_answered s) rfl
  obtain ⟨p, st₀, hp, -⟩ := protect_ends ⟨s.tables.size⟩ st iterates
  obtain ⟨_, _, _, _, _, proxy⟩ := protect_ok hp
  obtain ⟨_, -, same, -⟩ := protect_store hp
  obtain ⟨g, hbehind, rfl, intact, -⟩ := StandIn.of_protect (by simp [size]) hp
  have htable : st₀.store.table g.behind = { metatable := some ⟨s.tables.size + 1⟩ } := by
    rw [hbehind, proxy.keeps.table _ (by simp [size]), store]
    exact table_answered s
  have hproxy : g.proxy = ⟨s.tables.size + 2⟩ := congrArg TableId.mk (proxy.proxy.trans size)
  refine ⟨g, st₀, hp, intact, ?_, fun key => Operation.holds_of_empty htable key, ?_, ?_, ?_⟩
  · rw [proxy.tables_size, proxy.proxy]
    omega
  · rw [Store.metamethod, Store.metatable, htable]
    show (st₀.store.table ⟨s.tables.size + 1⟩).get _ = _
    rw [proxy.keeps.table _ (by simp [size]), store, events_answered, Table.get_set_self]
  · rw [proxy.function _ (by simp [store, answered, Store.newFunction]), store]
    exact function_answered s
  · rw [hproxy, ← callback, same]
    rfl

/-- A lookup on the stand-in runs the function, which fills the stand-in. -/
theorem meddling_fills {s : Store} {next : FuncId} (fresh : Iterates s.tables.size next s) :
    ∃ t p st₀ st₁, t.index < (meddling s).store.tables.size ∧ (protect t).on (meddling s) = (.ok p, st₀)
      ∧ st₀.runRaw (lookup .library (.table p) (.text "x")) = (.ok [.nil], st₁)
      ∧ p.index < st₁.store.tables.size ∧ st₁.store.rawGet p (.text "x") = .int 1 := by
  have size : (meddling s).store.tables.size = s.tables.size + 2 := size_answered s
  obtain ⟨g, st₀, hp, intact, hlt, absent, hindex, hf, answer⟩ := protect_meddling fresh
  have first := lookup_meddled (w := .library) intact (absent (.text "x")) hindex hf answer
  refine ⟨⟨s.tables.size⟩, g.proxy, st₀, _, ?_, hp, first, ?_, Store.rawGet_set_self hlt ..⟩
  · rw [size]
    exact Nat.lt_add_of_pos_right Nat.two_pos
  · rw [Store.size_modifyTable]
    exact hlt

/-- **Writes are refused.** Whatever a table holds and whatever its metatable is, after any lookups on its
stand-in, assignments to it and changes of the table by the host, an assignment to the stand-in fails and
changes no table, a lookup gives what it gives on the table, and the metatable is neither shown nor replaced.
The functions that lookups and writes of the host run are to leave the stand-in alone, and a lookup that goes
all the way on the table goes too far on the stand-in. Where the stand-in has come to hold a key, an
assignment to that key succeeds. -/
theorem history_refuses {st st₀ : State} {t p : TableId} (ht : t.index < st.store.tables.size)
    (h : (protect t).on st = (.ok p, st₀)) : ∃ g : StandIn, g.behind = t ∧ g.proxy = p ∧
      g.Intact st₀.store ∧ (∀ moves st', History g st₀ moves st' → Refuses g st') ∧
      ∀ (st' : State) (key : Value), st'.store.rawGet p key ≠ .nil → ∀ w v, ∃ k, key.asKey? = some k ∧
        st'.runRaw (assign w (.table p) key v)
          = (.ok [], { st' with store := st'.store.modifyTable p (·.set k v) }) := by
  obtain ⟨g, rfl, rfl, intact, -⟩ := StandIn.of_protect ht h
  exact ⟨g, rfl, rfl, intact, fun _ _ history => (history.intact intact).refuses,
    fun _ _ held w v => assign_filled held w v⟩

theorem grove_refuses :
    (∃ t p st₀, t.index < grove.store.tables.size ∧ (protect t).on grove = (.ok p, st₀) ∧
      ∃ g : StandIn, g.behind = t ∧ g.proxy = p ∧ ∃ st', History g st₀
        [.lookup .library (.text "tree"), .assign .library (.text "tree") .nil,
          .write .library (.text "tree") (.text "ash"), .change (·.set (.text "size") (.int 7)),
          .lookup .library (.text "size")] st' ∧ Refuses g st')
    ∧ ∃ t p st₀ st₁ st₂, t.index < (meddling (Fresh.store {})).store.tables.size
      ∧ (protect t).on (meddling (Fresh.store {})) = (.ok p, st₀)
      ∧ st₀.runRaw (lookup .library (.table p) (.text "x")) = (.ok [.nil], st₁)
      ∧ st₁.runRaw (assign .library (.table p) (.text "x") (.int 2)) = (.ok [], st₂)
      ∧ st₂.store.rawGet p (.text "x") = .int 2 := by
  constructor
  · obtain ⟨t, p, st₀, _, ht, hp, htable, -⟩ := grove_protected
    obtain ⟨g, rfl, rfl, intact, refuses, -⟩ := history_refuses ht hp
    have bare : (st₀.store.table g.behind).metatable = none := by
      rw [htable]
      exact Table.metatable_set ..
    obtain ⟨st', history⟩ := exists_history [.lookup .library (.text "tree"),
      .assign .library (.text "tree") .nil, .write .library (.text "tree") (.text "ash"),
      .change (·.set (.text "size") (.int 7)), .lookup .library (.text "size")] intact bare (by
        simp only [List.forall_mem_cons, Move.Plain, Table.metatable_set]
        simp)
    exact ⟨_, _, st₀, ht, hp, g, rfl, rfl, st', history, refuses _ _ history⟩
  · obtain ⟨next, fresh⟩ := fresh_iterates
    obtain ⟨t, p, st₀, st₁, ht, hp, filled, hlt, holds⟩ := meddling_fills fresh
    obtain ⟨_, _, _, -, -, succeeds⟩ := history_refuses ht hp
    obtain ⟨k, hk, done⟩ := succeeds st₁ (.text "x") (by rw [holds]; exact nofun) .library (.int 2)
    obtain rfl : .text "x" = k := Option.some.inj hk
    exact ⟨t, p, st₀, st₁, _, ht, hp, filled, done, Store.rawGet_set_self hlt ..⟩

end Enclosure.Protection
