import Enclosure.Proofs.Protection.Leak
import Enclosure.Proofs.Protection.StandIn

/-!
# Reading through a stand-in

Length and iteration go through to what the table behind holds, and not to its metamethods. So a stand-in
for a table without `__len` and `__pairs` is as long as the table and iterates over what the table iterates
over (`history_reads`), but a stand-in for a stand-in, which is an empty table, is always empty
(`Reads.stacked`).
-/

namespace Enclosure.Lua

/-- From a key on, a traversal of the table gives these entries. -/
inductive Table.Traverses (T : Table) : Value → List (Value × Value) → Prop
  | done {c : Value} (h : T.next c = .done) : Traverses T c []
  | entry {c k v : Value} {rest : List (Value × Value)} (h : T.next c = .entry k v) (hk : k ≠ .nil)
    (more : Traverses T k rest) : Traverses T c ((k, v) :: rest)

theorem Table.set_empty (k : Value) {v : Value} (hv : v.isNil = false) :
    Table.set {} k v = Table.insertNew {} k v := by
  have h : ({} : Table).slots[k]? = none := Std.HashMap.getElem?_empty
  rw [set, h]
  exact if_neg (by simp [hv])

theorem Table.traverses_empty (m : Option TableId) : Table.Traverses { metatable := m } .nil [] := .done rfl

theorem Table.length_empty (m : Option TableId) : Table.length { metatable := m } = 0 := by
  have hfirst : ({ metatable := m } : Table).getInt 1 = .nil := Table.get_default _
  simp [length, hfirst]

theorem Operation.length_table (w : Where) (t : TableId) : length w { value := .table t } = do
    let h ← Run.metamethod (.table t) "__len"
    if !h.isNil then return Run.first (← Run.call h [.table t, .table t] (siteOf w "len"))
    return .nat (← Run.rawLength t) := rfl

theorem Library.Base.next_apply (t : TableId) (c : Value) (s : Store) :
    next [.table t, c] s = (match (s.table t).next c with
      | .entry k v => pure [k, v]
      | .done => pure [.nil]
      | .unknownKey => Run.failPlain "invalid key to 'next'" : Run (List Value)) s := by
  have htable : Args.table [.table t, c] 1 s = .done t s := rfl
  have hread : Run.read (fun s => (s.table t).next c) s = .done ((s.table t).next c) s := rfl
  rw [next, Run.bind_done htable]
  exact Run.bind_done hread

end Enclosure.Lua

namespace Enclosure.Protection

open Lua

def lengthOf (w : Where) (v : Value) : Run (List Value) := do
  return [← Operation.length w { value := v }]

/-- What a loop sees that calls `f` with `x` and the last key until there is no key: the entries, and the
state at the end. -/
inductive Visits (f x : Value) : Value → State → List (Value × Value) → State → Prop
  | stop {c : Value} {st st' : State} {vs : List Value}
    (made : st.runRaw (Run.call f [x, c] {}) = (.ok vs, st')) (last : Run.first vs = .nil) :
    Visits f x c st [] st'
  | step {c : Value} {st st₁ st' : State} {vs : List Value} {entries : List (Value × Value)}
    (made : st.runRaw (Run.call f [x, c] {}) = (.ok vs, st₁)) (more : Run.first vs ≠ .nil)
    (rest : Visits f x (Run.first vs) st₁ entries st') :
    Visits f x c st ((Run.first vs, Run.first (vs.drop 1)) :: entries) st'

/-- What a loop over `pairs` of a value sees, where `pairs` iterates over plain tables with `next`. -/
def Loops (next v : Value) (st : State) (entries : List (Value × Value)) (st' : State) : Prop :=
  ∃ f x c st₁, st.runRaw (Library.Base.pairs #[next] [v]) = (.ok [f, x, c], st₁)
    ∧ Visits f x c st₁ entries st'

/-- A loop over `pairs` of a value comes to its end, having seen just these entries and changed nothing. -/
def Sees (next v : Value) (st : State) (entries : List (Value × Value)) : Prop :=
  ∀ seen st', Loops next v st seen st' ↔ seen = entries ∧ st' = st

variable {st st₁ st₂ : State} {f x c : Value}

theorem Visits.unique {entries entries' : List (Value × Value)} (h : Visits f x c st entries st₁) :
    Visits f x c st entries' st₂ → entries = entries' ∧ st₁ = st₂ := by
  -- both loops begin with the same call, so that they go on from one state with one key or both stop
  induction h generalizing entries' with
  | stop made last =>
    intro h'
    cases h' with
    | stop made' _ =>
      obtain ⟨-, rfl⟩ := Prod.mk.inj (made.symm.trans made')
      exact ⟨rfl, rfl⟩
    | step made' more _ =>
      obtain ⟨hvs, -⟩ := Prod.mk.inj (made.symm.trans made')
      exact absurd (Except.ok.inj hvs ▸ last) more
  | step made more _ ih =>
    intro h'
    cases h' with
    | stop made' last =>
      obtain ⟨hvs, -⟩ := Prod.mk.inj (made.symm.trans made')
      exact absurd (Except.ok.inj hvs ▸ last) more
    | step made' _ rest =>
      obtain ⟨hvs, rfl⟩ := Prod.mk.inj (made.symm.trans made')
      obtain rfl := Except.ok.inj hvs
      obtain ⟨rfl, rfl⟩ := ih rest
      exact ⟨rfl, rfl⟩

/-- A loop with the `next` of the library sees the traversal of the table and changes nothing. -/
theorem visits_of_traverses {n : FuncId} {t : TableId} {entries : List (Value × Value)}
    (hn : st.store.function n = .builtin (.base .next) #[])
    (h : (st.store.table t).Traverses c entries) : Visits (.func n) (.table t) c st entries st := by
  have answer : ∀ {c vs}, Library.Base.next [.table t, c] st.store = .done vs st.store →
      st.runRaw (Run.call (.func n) [.table t, c] {}) = (.ok vs, st) := by
    intro c vs hvs
    have hrun : st.functions.builtin (.base .next) n #[] [.table t, c] st.store = .done vs st.store := hvs
    have does : Machine.Does st.functions st.store n [.table t, c] _ := .builtin hn
    rw [hrun] at does
    exact State.runRaw_call_done (k := fun vs s => .done vs s) rfl does rfl
  induction h with
  | done h => exact .stop (answer (by rw [Library.Base.next_apply, h]; rfl)) rfl
  | @entry c k v rest h hk _ ih =>
    have made : st.runRaw (Run.call (.func n) [.table t, c] {}) = (.ok [k, v], st) :=
      answer (by rw [Library.Base.next_apply, h]; rfl)
    exact .step made hk ih

theorem sees_of_loops_iff {next v w : Value} {n : FuncId} {t : TableId} {entries : List (Value × Value)}
    (loops : ∀ seen st', Loops next v st seen st' ↔ Visits w (.table t) .nil st seen st') (hw : w = .func n)
    (hn : st.store.function n = .builtin (.base .next) #[])
    (h : (st.store.table t).Traverses .nil entries) : Sees next v st entries := by
  subst hw
  have all := visits_of_traverses hn h
  intro seen st'
  rw [loops]
  constructor
  · intro visits
    obtain ⟨rfl, rfl⟩ := visits.unique all
    exact ⟨rfl, rfl⟩
  · rintro ⟨rfl, rfl⟩
    exact all

/-- What reading through a stand-in gives at some point of its life. -/
structure Reads (g : StandIn) (st : State) : Prop where
  length : ∀ w, st.runRaw (lengthOf w (.table g.proxy))
    = (.ok [.nat (st.store.table g.behind).length], st)
  pairs : ∀ captured args, st.runRaw (Library.Base.pairs captured (.table g.proxy :: args))
    = (.ok [g.next, .table g.behind, .nil], st)
  /-- With the `next` of the library a loop sees what the table behind holds. -/
  lists : ∀ n entries, g.next = .func n → st.store.function n = .builtin (.base .next) #[] →
    (st.store.table g.behind).Traverses .nil entries → Sees g.next (.table g.proxy) st entries
  /-- Without metamethods that is what the table behind itself gives. -/
  length_eq : st.store.metamethod (.table g.behind) "__len" = .nil → ∀ w,
    st.runRaw (lengthOf w (.table g.proxy)) = st.runRaw (lengthOf w (.table g.behind))
  loops_iff : st.store.metamethod (.table g.behind) "__pairs" = .nil → ∀ entries st',
    Loops g.next (.table g.proxy) st entries st' ↔ Loops g.next (.table g.behind) st entries st'
  /-- But a stand-in for a stand-in is empty, whatever the inner one gives. -/
  stacked : ∀ inner : StandIn, inner.Intact st.store → inner.proxy = g.behind →
    (∀ w, st.runRaw (lengthOf w (.table g.proxy)) = (.ok [.nat 0], st)
      ∧ st.runRaw (lengthOf w (.table g.behind))
        = (.ok [.nat (st.store.table inner.behind).length], st))
    ∧ ∀ n, g.next = .func n → inner.next = .func n →
      st.store.function n = .builtin (.base .next) #[] → Sees g.next (.table g.proxy) st []
        ∧ ∀ entries, (st.store.table inner.behind).Traverses .nil entries →
          Sees g.next (.table g.behind) st entries

namespace StandIn.Intact

variable {g : StandIn} {st : State} (intact : g.Intact st.store)

include intact

theorem length_on (w : Where) : st.runRaw (lengthOf w (.table g.proxy))
    = (.ok [.nat (st.store.table g.behind).length], st) := by
  have hread : Run.metamethod (.table g.proxy) "__len" st.store = .done (.func g.length) st.store :=
    congrArg (fun v => Res.done v st.store) (intact.metamethod "__len")
  have hrun : lengthOf w (.table g.proxy) st.store
      = .ask (.call (.func g.length) [.table g.proxy, .table g.proxy] (Operation.siteOf w "len"))
        st.store fun vs s => .done [Run.first vs] s := by
    rw [lengthOf, Run.bind_apply, Operation.length_table, Run.bind_done hread]
    rfl
  exact State.runRaw_call_done hrun (.builtin intact.length) rfl

theorem pairs_on (captured : Array Value) (args : List Value) :
    st.runRaw (Library.Base.pairs captured (.table g.proxy :: args))
      = (.ok [g.next, .table g.behind, .nil], st) :=
  State.runRaw_call_done (pairs_run (intact.metamethod "__pairs") captured args)
    (.builtin intact.pairs) rfl

theorem loops_proxy_iff {entries : List (Value × Value)} {st' : State} {next : Value} :
    Loops next (.table g.proxy) st entries st'
      ↔ Visits g.next (.table g.behind) .nil st entries st' := by
  constructor
  · rintro ⟨f, x, c, st₁, made, visits⟩
    obtain ⟨he, rfl⟩ := Prod.mk.inj ((intact.pairs_on _ _).symm.trans made)
    cases Except.ok.inj he
    exact visits
  · exact fun visits => ⟨_, _, _, _, intact.pairs_on _ _, visits⟩

end StandIn.Intact

/-- Without `__len` the length of a table is that of what it holds. -/
theorem length_bare {st : State} {t : TableId} (h : st.store.metamethod (.table t) "__len" = .nil)
    (w : Where) : st.runRaw (lengthOf w (.table t)) = (.ok [.nat (st.store.table t).length], st) := by
  have hread : Run.metamethod (.table t) "__len" st.store = .done .nil st.store :=
    congrArg (fun v => Res.done v st.store) h
  refine State.runRaw_done (Run.bind_done (a := Value.nat (st.store.table t).length) ?_)
  rw [Operation.length_table, Run.bind_done hread]
  rfl

theorem pairs_bare {st : State} {t : TableId} (h : st.store.metamethod (.table t) "__pairs" = .nil)
    (next : Value) : st.runRaw (Library.Base.pairs #[next] [.table t])
      = (.ok [next, .table t, .nil], st) := by
  have hany : Args.any [.table t] 1 st.store = .done (.table t) st.store := rfl
  have hread : Run.metamethod (.table t) "__pairs" st.store = .done .nil st.store :=
    congrArg (fun v => Res.done v st.store) h
  refine State.runRaw_done ?_
  rw [Library.Base.pairs, Run.bind_done hany, Run.bind_done hread]
  rfl

theorem loops_bare_iff {st st' : State} {t : TableId} {entries : List (Value × Value)} {next : Value}
    (h : st.store.metamethod (.table t) "__pairs" = .nil) :
    Loops next (.table t) st entries st' ↔ Visits next (.table t) .nil st entries st' := by
  constructor
  · rintro ⟨f, x, c, st₁, made, visits⟩
    obtain ⟨he, rfl⟩ := Prod.mk.inj ((pairs_bare h next).symm.trans made)
    cases Except.ok.inj he
    exact visits
  · exact fun visits => ⟨_, _, _, _, pairs_bare h next, visits⟩

theorem StandIn.Intact.reads {g : StandIn} {st : State} (intact : g.Intact st.store) : Reads g st where
  length := intact.length_on
  pairs := intact.pairs_on
  lists n entries hn hf lists := sees_of_loops_iff (fun _ _ => intact.loops_proxy_iff) hn hf lists
  length_eq h w := (intact.length_on w).trans (length_bare h w).symm
  loops_iff h entries st' := intact.loops_proxy_iff.trans (loops_bare_iff h).symm
  stacked inner hinner hbehind := by
    have hempty : st.store.table g.behind = { metatable := some inner.events } := by
      rw [← hbehind]
      exact hinner.proxyTable
    refine ⟨fun w => ⟨?_, ?_⟩, fun n hn hn' hf => ⟨?_, fun entries lists => ?_⟩⟩
    · rw [intact.length_on, hempty, Table.length_empty]
    · rw [← hbehind]
      exact hinner.length_on w
    · exact sees_of_loops_iff (fun _ _ => intact.loops_proxy_iff) hn hf (hempty ▸ Table.traverses_empty _)
    · rw [← hbehind]
      exact sees_of_loops_iff (fun _ _ => hinner.loops_proxy_iff) hn' hf lists

/-- **Reads go through to what the table holds.** Whatever a table holds and whatever its metatable is,
after any lookups on its stand-in, assignments to it and changes of the table by the host, the stand-in is
as long as what the table holds and iterates over that. So it is as long as the table and iterates over what
the table iterates over if the table has no `__len` and no `__pairs` by then; with a stand-in for a stand-in
it is not so. -/
theorem history_reads {st st₀ : State} {t p : TableId} (ht : t.index < st.store.tables.size)
    (h : (protect t).on st = (.ok p, st₀)) : ∃ g : StandIn, g.behind = t ∧ g.proxy = p ∧
      g.Intact st₀.store ∧ (st.store.globals.index < st.store.tables.size →
        st.store.rawGet st.store.globals (.text "next") = g.next) ∧
      ∀ moves st', History g st₀ moves st' → Reads g st' := by
  obtain ⟨g, rfl, rfl, intact, hnext⟩ := StandIn.of_protect ht h
  exact ⟨g, rfl, rfl, intact, hnext, fun _ _ history => (history.intact intact).reads⟩

theorem oak_traverses : oak.Traverses .nil [(.text "tree", .text "oak")] := by
  have made : oak = Table.insertNew {} (.text "tree") (.text "oak") := Table.set_empty _ rfl
  have array : oak.arraySize = 0 := by rw [made]; rfl
  have order : oak.order = #[.text "tree"] := by rw [made, Table.order_insertNew]; rfl
  have slot : oak.slots[Value.text "tree"]? = some (0, .text "oak") := by
    rw [made, Table.slots_insertNew]
    simp
  have value : oak.get (.text "tree") = .text "oak" := Table.get_set_self ..
  refine .entry (k := .text "tree") (v := .text "oak") ?_ nofun (.done ?_)
  · simp only [Value.text] at value order ⊢
    simp [Table.next, Table.nextInArray, Table.nextInOrder, array, order, value, Value.isNil,
      Table.arrayIndex?]
  · simp only [Value.text] at slot order ⊢
    simp [Table.next, Table.nextInOrder, Value.asKey?, order, slot, Table.arrayIndex?]

/-- A table with an array of one birch. -/
def birches : Table := Table.set {} (.int 1) (.text "birch")

theorem birches_get (k : Value) : birches.get k = if k = .int 1 then .text "birch" else .nil := by
  have h : ({} : Table).get k = .nil := Table.get_default k
  rw [birches, Table.get_set, h]

theorem birches_made : birches = Table.insertNew {} (.int 1) (.text "birch") := Table.set_empty _ rfl

theorem birches_arraySize : birches.arraySize = 1 := by
  rw [birches_made]
  rfl

theorem birches_length : birches.length = 1 := by
  have first : birches.getInt 1 = .text "birch" := birches_get _
  have second : birches.getInt 2 = .nil := birches_get _
  simp [Table.length, birches_arraySize, first, second, Value.isNil, Value.text]

theorem birches_traverses : birches.Traverses .nil [(.int 1, .text "birch")] := by
  have order : birches.order = #[.int 1] := by
    rw [birches_made]
    rfl
  have first : birches.getInt 1 = .text "birch" := birches_get _
  have place : Table.arrayIndex? 1 (.int 1) = some 1 := by decide
  refine .entry (k := .int 1) (v := .text "birch") ?_ nofun (.done ?_)
  · simp [Table.next, Table.nextInArray, birches_arraySize, first, Value.isNil, Value.text, Value.nat]
  · simp [Table.next, Table.nextInArray, Table.nextInOrder, birches_arraySize, place, order, Value.asKey?]

/-- A fresh state with such a table. -/
def wood : State := { State.fresh {} with store := ((Fresh.store {}).newTable birches).2 }

theorem grove_reads :
    (∃ t p st₀, t.index < grove.store.tables.size ∧ (protect t).on grove = (.ok p, st₀)
      ∧ ∃ g : StandIn, g.behind = t ∧ g.proxy = p
        ∧ Sees g.next (.table p) st₀ [(.text "tree", .text "oak")]
        ∧ ∃ st', History g st₀ [.assign .library (.text "tree") .nil,
          .write .library (.text "tree") (.text "ash"), .change (·.set (.int 1) (.text "birch"))] st'
          ∧ Reads g st')
    ∧ ∃ t p q st₀ st₁ next, t.index < wood.store.tables.size ∧ (protect t).on wood = (.ok p, st₀)
      ∧ p.index < st₀.store.tables.size ∧ (protect p).on st₀ = (.ok q, st₁)
      ∧ st₁.runRaw (lengthOf .library (.table p)) = (.ok [.nat 1], st₁)
      ∧ st₁.runRaw (lengthOf .library (.table q)) = (.ok [.nat 0], st₁)
      ∧ Sees next (.table p) st₁ [(.int 1, .text "birch")] ∧ Sees next (.table q) st₁ [] := by
  constructor
  · obtain ⟨t, p, st₀, next, ht, hp, htable, ⟨n, iterates, -⟩, hf⟩ := grove_protected
    obtain ⟨g, rfl, rfl, intact, made, reads⟩ := history_reads ht hp
    have bare : (st₀.store.table g.behind).metatable = none := by
      rw [htable]
      exact Table.metatable_set ..
    obtain ⟨st', history⟩ := exists_history [.assign .library (.text "tree") .nil,
      .write .library (.text "tree") (.text "ash"), .change (·.set (.int 1) (.text "birch"))] intact bare
      (by simp only [List.forall_mem_cons, Move.Plain, Table.metatable_set]; simp)
    have hnext : g.next = .func next := (made iterates.globals_lt).symm.trans iterates.next
    exact ⟨_, _, st₀, ht, hp, g, rfl, rfl, (reads [] st₀ (.nil st₀)).lists next _ hnext hf
      (htable ▸ oak_traverses), st', history, reads _ _ history⟩
  · have store : wood.store = ((Fresh.store {}).newTable birches).2 := rfl
    obtain ⟨t, p, st₀, next, ht, hp, htable, ⟨n, iterates, iterates₀⟩, hf⟩ :=
      newTable_protected birches (Fresh.store_furnished {}) store
    obtain ⟨_, _, _, _, _, proxy₀⟩ := protect_ok hp
    obtain ⟨inner, rfl, rfl, intact₀, made, -⟩ := history_reads ht hp
    have hlt := intact₀.lt.1
    obtain ⟨q, st₁, hq, -⟩ := protect_ends inner.proxy st₀ iterates₀
    obtain ⟨_, _, _, _, _, proxy⟩ := protect_ok hq
    obtain ⟨outer, hbehind, rfl, -, made₀, reads⟩ := history_reads hlt hq
    have hinner : inner.next = .func next := (made iterates.globals_lt).symm.trans iterates.next
    have houter : outer.next = .func next := (made₀ iterates₀.globals_lt).symm.trans iterates₀.next
    have hf₁ : st₁.store.function next = .builtin (.base .next) #[] :=
      (proxy.function next (Nat.lt_of_not_le fun h => nomatch hf.symm.trans (Store.function_of_le h))).trans hf
    have htable₁ : st₁.store.table inner.behind = birches :=
      (proxy.keeps.table _ (ht.trans_le proxy₀.keeps.size)).trans htable
    obtain ⟨lengths, loops⟩ :=
      (reads [] st₁ (.nil st₁)).stacked inner (intact₀.protect hq) hbehind.symm
    obtain ⟨nothing, all⟩ := loops next houter hinner hf₁
    obtain ⟨hlength, hlength_inner⟩ := lengths .library
    rw [htable₁, birches_length] at hlength_inner
    rw [houter] at nothing all
    rw [hbehind] at hlength_inner all
    exact ⟨_, _, _, st₀, st₁, .func next, ht, hp, hlt, hq, hlength_inner, hlength,
      all _ (htable₁ ▸ birches_traverses), nothing⟩

end Enclosure.Protection
