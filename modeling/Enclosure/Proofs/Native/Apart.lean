import Enclosure.Proofs.Native.Openers
import Enclosure.Proofs.Reach.Discreet

/-!
# Openings out of reach

An opener that makes a table of its own and leaves everything else alone does nothing in the realm of
the full environment, and nothing there leads to its table. Nor does taking entry points out of that
table. So a table that is opened with success is out of reach in all its parts, and gives nil for every
name that its module disables (`openModule_apart`).
-/

namespace Enclosure

open Lua

variable {R R' : Realm} {st st' : State} {K : Pledge}

/-- The second state has kept the tables and functions of the first, and everything that leads to any. -/
structure Lua.State.Leaves (st st' : State) : Prop where
  tables : Store.Keeps st.store.tables.size st.store st'.store
  functions_size : st.store.functions.size ≤ st'.store.functions.size
  function : ∀ f : FuncId, f.index < st.store.functions.size →
    st'.store.function f = st.store.function f
  callbacks_size : st.callbacks.size ≤ st'.callbacks.size
  callback : ∀ n < st.callbacks.size, st'.callbacks[n]? = st.callbacks[n]?
  threads : st'.threads = st.threads
  aside : { st'.store with tables := st.store.tables, functions := st.store.functions }.core
    = st.store.core

namespace Lua.State.Leaves

theorem of_store {s : Store} (h : st.store.Leaves st.store.tables.size s) :
    st.Leaves { st with store := s } where
  tables := h.toKeeps
  functions_size := h.functions_size
  function := h.function
  callbacks_size := Nat.le_refl _
  callback _ _ := rfl
  threads := rfl
  aside := congrArg Store.core h.aside

theorem natives (h : st.Leaves st') : st'.store.natives = st.store.natives := by
  have aside := h.aside
  simp only [Store.core, Store.ledger, Prod.mk.injEq, Ledger.mk.injEq] at aside
  exact aside.2.2.2.2.2.2.2.2.2.1

/-- In a realm nothing has happened. -/
theorem progress (h : st.Leaves st') (hst : st.Sound R) (holds : st.Holds R) :
    State.Progress ∅ R st R st' := by
  have aside := h.aside
  simp only [Store.core, Prod.mk.injEq, true_and] at aside
  obtain ⟨cells, stringMeta, failureMeta, fileMeta, globals, loaded, preload, -⟩ := aside
  -- the realm stands on tables and functions that were there, which are all as they were
  have table (t : TableId) (ht : t ∈ R.tables) := h.tables.table t (holds.table t ht)
  have closed : R.Closed st'.store :=
    { entries := fun t ht => table t ht ▸ hst.closed.entries t ht
      metatable := fun t ht => table t ht ▸ hst.closed.metatable t ht
      function := fun f hf => h.function f (holds.function f hf) ▸ hst.closed.function f hf
      cell := fun c => by
        unfold Store.cell
        rw [cells]
        exact hst.closed.cell c
      stringMeta := stringMeta ▸ hst.closed.stringMeta
      failureMeta := failureMeta ▸ hst.closed.failureMeta
      fileMeta := fileMeta ▸ hst.closed.fileMeta
      globals := globals ▸ hst.closed.globals
      loaded := loaded ▸ hst.closed.loaded
      preload := preload ▸ hst.closed.preload }
  refine {
    le := le_refl R
    sound := ⟨closed, h.threads ▸ hst.threads, fun n hn => ?_⟩
    tables_size := h.tables.size
    functions_size := h.functions_size
    callbacks_size := h.callbacks_size
    tables_new := fun _ => .inl
    functions_new := fun _ => .inl
    callbacks_new := fun _ => .inl
    table := fun t _ _ => h.tables.table t
    function := fun f _ => h.function f
    callback := h.callback }
  have same : st'.functions.callback n = st.functions.callback n := by
    show st'.callbacks.getD n _ = st.callbacks.getD n _
    rw [Array.getD_eq_getD_getElem?, h.callback n (holds.callback n hn), Array.getD_eq_getD_getElem?]
  rw [same]
  exact hst.callback n hn

end Lua.State.Leaves

/-- An opener that makes a table with at most a plain table behind it, new in all its parts, and leaves
everything else alone. -/
structure BuildsApart (opener : Lua.Action TableId) : Prop where
  leaves : ∀ st : State, st.Leaves (opener.on st).2
  settled : ∀ {st st' t}, opener.on st = (.ok t, st') → ∃ behind, st'.store.Settled t behind
    ∧ ∀ u, st'.store.Part t behind u → st.store.tables.size ≤ u.index

theorem Opener.Makes.apart {opener : Lua.Action TableId} (h : Makes opener) : BuildsApart opener := by
  refine ⟨fun st => ?_, fun {st st' t} hrun => ?_⟩
  all_goals
    obtain ⟨answer, s, h₁, leaves, made⟩ := h st
  · rw [h₁]
    exact .of_store leaves
  · obtain ⟨rfl, rfl⟩ := Prod.mk.inj (h₁.symm.trans hrun)
    exact made t rfl

namespace NativeLoader

open Attempt

variable {t : TableId} {behind : Option TableId} {m : NativeModule} {name : String}

/-- Taking out entry points writes to the table alone. -/
theorem each_disable_apart {module : String} (ht : t ∉ R.tables) : ∀ {entries : List String}
    {st : State}, st.Sound R → st.store.Settled t behind →
      (each (disable module t) entries).on st = (.ok (), st') →
      State.Progress {t} R st R st' ∧ st'.store.natives = st.store.natives
        ∧ (st'.store.table t).metatable = (st.store.table t).metatable
  | [], st, hst, _, hrun => by
    obtain ⟨-, rfl⟩ := pure_ok hrun
    exact ⟨.refl hst, rfl, rfl⟩
  | entry :: rest, st, hst, settled, hrun => by
    obtain ⟨_, st₁, hentry, hrun⟩ := bind_ok hrun
    rw [disable_on module settled, Prod.mk.injEq] at hentry
    obtain ⟨-, rfl⟩ := hentry
    have first : State.Progress {t} R st R (without st t entry) := .write hst ht _
    have settled₁ : (without st t entry).store.Settled t behind := (settled.erase entry).1
    obtain ⟨progress, natives, metatable⟩ := each_disable_apart ht first.sound settled₁ hrun
    refine ⟨first.trans progress fun _ => .inl, natives, metatable.trans ?_⟩
    have self := Store.table_modifyTable_self settled.lt (·.set (.text entry) .nil)
    exact (congrArg Table.metatable self).trans (Table.metatable_set ..)

/-- A module whose table was opened with success and is then kept. -/
theorem openModule_apart (builds : BuildsApart m.opener) (hst : st.Footing K R)
    (h : (openModule m name).on st = (.ok t, st')) :
    ∃ st₁ behind, st' = keep st₁ name t ∧ State.Progress ∅ R st R st₁
      ∧ st₁.store.natives = st.store.natives ∧ st₁.store.Settled t behind
      ∧ (∀ u, st₁.store.Part t behind u → st.store.tables.size ≤ u.index)
      ∧ ∀ entry ∈ m.disabled, st₁.store.getThrough t behind (.text entry) = .nil := by
  obtain ⟨st₁, st₂, opened, disabled, rfl⟩ := openModule_made h
  -- one after the other: noted as opened, made by the opener, and rid of what is disabled
  have noted : State.Progress ∅ R st R (beginOpening m st) := .note hst.sound _ _ _
  have leaves := builds.leaves (beginOpening m st)
  rw [opened] at leaves
  obtain ⟨behind, settled₁, new⟩ := builds.settled opened
  have progress₁ := leaves.progress noted.sound (noted.holds hst.holds)
  have hidden : t ∉ R.tables := fun ht =>
    Nat.not_lt_of_le (new t .self) (hst.holds.table t ht)
  obtain ⟨progress₂, natives, metatable⟩ :=
    each_disable_apart hidden progress₁.sound settled₁ disabled
  obtain ⟨settled₂, reads⟩ := each_disable_ok settled₁ disabled
  have progress := (noted.trans progress₁ fun _ => .inl).trans progress₂ fun u hu => by
    obtain rfl := hu
    exact .inr (new u .self)
  refine ⟨st₂, behind, rfl, progress, natives.trans leaves.natives, settled₂, fun u hu => ?_,
    fun entry hentry => ?_⟩
  · exact new u (hu.of_metatable metatable)
  · rw [reads, if_pos hentry]

end NativeLoader

end Enclosure
