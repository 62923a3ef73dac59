import Enclosure.Proofs.Native.Apart
import Enclosure.Proofs.Native.Require

/-!
# What stands behind a module

A field that the table of a module does not have is looked for in what stands behind the table. Nothing
may stand there, a plain table or a function that only ever fails (`Backed`); openers of fields make
tables of all three kinds and leave alone all that there was (`Opener.fields_opensAfresh`).
-/

namespace Enclosure

open Lua

variable {st st₁ st' : State}

theorem Lua.Action.runFirst_congr {m m' : Run (List Value)} (h : m st.store = m' st.store) :
    (Action.runFirst m).on st = (Action.runFirst m').on st := by
  have hraw := State.runRaw_congr h
  have hrun : (Action.run m).on st = (Action.run m').on st := by
    show st.run m = st.run m'
    unfold State.run
    rw [hraw]
  unfold Action.runFirst
  rw [Attempt.on_bind, hrun, Attempt.on_bind]

namespace NativeLoader

open Attempt

variable {t : TableId}

/-! ## Reading what a table does not have -/

/-- What a lookup does with a function that stands behind the table. -/
def askBehind (g : FuncId) (t : TableId) (key : Value) : Lua.Action Value :=
  Action.runFirst do return [Run.first (← Run.call (.func g) [.table t, key] {})]

/-- Whenever it is asked for a field, now or later and whatever the fields of the table are then, the
function ends with an error and changes nothing that is there. -/
def AlwaysRaises (st : State) (t : TableId) (g : FuncId) : Prop :=
  ∀ st₁ key, st.Retains {t} st₁ →
    ∃ f st', (askBehind g t key).on st₁ = (.error f, st') ∧ st₁.Retains ∅ st'

/-- What may stand behind a table: nothing, a plain table, or a function that only ever fails. -/
inductive Backed (st : State) (t : TableId) : Value → Prop
  | nothing : Backed st t .nil
  | plain {b : TableId} (h : (st.store.table b).metatable = none) : Backed st t (.table b)
  | raising {g : FuncId} (h : AlwaysRaises st t g) : Backed st t (.func g)

/-- An opener that leaves alone all that is there and fails, or makes a table of its own that has any
fields and something of these kinds behind it. -/
structure OpensAfresh (opener : Lua.Action TableId) (st : State) : Prop where
  retains : st.Retains ∅ (opener.on st).2
  made : ∀ {t st'}, opener.on st = (.ok t, st') → st.store.tables.size ≤ t.index
    ∧ t.index < st'.store.tables.size ∧ Backed st' t (st'.store.metamethod (.table t) "__index")

/-- A field that the table itself does not have is looked for in what stands behind it. -/
theorem index_missing {key : Value} (raw : st.store.rawGet t key = .nil) :
    Operation.index .library none (.table t) key st.store
      = Operation.follow .library (1998 + 1) (.table t) key none
        (st.store.metamethod (.table t) "__index") st.store := by
  rw [Operation.index, Operation.chainLimit_eq]
  exact Operation.indexFrom_follow .library none (by simp [Operation.holds, raw]) _

/-- A table is read in one run, which gives the one value. -/
theorem get_done {key v : Value}
    (h : Operation.index .library none (.table t) key st.store = .done v st.store) :
    (Action.get (.table t) key).on st = (.ok v, st) := by
  have hrun : (do return [← Operation.index .library none (.table t) key] : Run (List Value)) st.store
      = .done [v] st.store := Run.bind_done h
  exact Action.runFirst_done hrun

theorem get_of_nothing {key : Value} (raw : st.store.rawGet t key = .nil)
    (h : st.store.metamethod (.table t) "__index" = .nil) :
    (Action.get (.table t) key).on st = (.ok .nil, st) := by
  refine get_done ?_
  rw [index_missing raw, h]
  rfl

theorem get_of_plain {key : Value} (raw : st.store.rawGet t key = .nil) {b : TableId}
    (h : st.store.metamethod (.table t) "__index" = .table b) (plain : (st.store.table b).metatable = none) :
    (Action.get (.table t) key).on st = (.ok (st.store.rawGet b key), st) := by
  refine get_done ?_
  rw [index_missing raw, h]
  exact Operation.indexFrom_bare plain .library 1998 none key

theorem get_of_func {key : Value} (raw : st.store.rawGet t key = .nil) {g : FuncId}
    (h : st.store.metamethod (.table t) "__index" = .func g) :
    (Action.get (.table t) key).on st = (askBehind g t key).on st := by
  have hrun : (do return [← Operation.index .library none (.table t) key] : Run (List Value)) st.store
      = (do return [Run.first (← Run.call (.func g) [.table t, key] {})] : Run (List Value)) st.store := by
    rw [Run.bind_apply, index_missing raw, h]
    rfl
  exact Action.runFirst_congr hrun

end NativeLoader

/-! ## Openers of fields -/

namespace Lua

theorem Failure.describe_failure {o : ObjectId} {text : Bytes} {s : Store} (h : s.object o = .failure text) :
    Failure.describe (.object o) s = .done (.object o) s := by
  unfold describe
  rw [show describeLimit = 199 + 1 from rfl, describeFrom]
  · simp [Run.bind_apply, Run.read, Res.bind, Run.pure_apply, h]
  · rintro _ ⟨⟩

namespace State

theorem Retains.of_leaves {n : Nat} {s : Store} (h : st.store.Leaves n s) :
    st.Retains {t | n ≤ t.index} { st with store := s } where
  tables_size := h.size
  table t _ ht := h.table t (Nat.lt_of_not_le ht)
  cells := (congrArg (·.cells.toList) h.aside.symm :) ▸ List.prefix_rfl
  functions := by
    refine List.prefix_iff_getElem.2 ⟨by simpa using h.functions_size, fun i hi => ?_⟩
    have hi : i < st.store.functions.size := by simpa using hi
    have hi' := hi.trans_le h.functions_size
    simpa [Store.function, Array.getD_eq_getD_getElem?, hi, hi'] using (h.function ⟨i⟩ hi).symm
  objects := (congrArg (·.objects.toList) h.aside.symm :) ▸ List.prefix_rfl
  threads := List.prefix_rfl
  callbacks := List.prefix_rfl
  aside := congrArg (fun s' : Store => { s' with
    cells := st.store.cells, objects := st.store.objects }) h.aside

/-- A function of the host that raises an error of its own makes the host's call end with that error. -/
theorem run_call_failing {m : Run (List Value)} {g : FuncId} {args : List Value} {site : Site}
    {k : List Value → Store → Res (List Value)} {n : Nat} {message : String}
    (hm : m st.store = .ask (.call (.func g) args site) st.store k)
    (hg : st.store.function g = .callback n)
    (hn : st.callbacks[n]? = some fun _ => (Failure.runtime message).raise) :
    ∃ f st', st.run m = (.error f, st') ∧ st.Retains ∅ st' := by
  let text := Bytes.ofText (Failure.runtime message).message
  let made := st.store.newObject (.failure text)
  have does : Machine.Does st.functions st.store g args (.raise (.value (.object made.1)) made.2) := by
    have called : st.functions.callback n args st.store = .raise (.value (.object made.1)) made.2 := by
      simp only [functions, Array.getD_eq_getD_getElem?, hn]
      rfl
    exact called ▸ .callback hg
  have object : made.2.object made.1 = .failure text :=
    (Store.object_newObject ..).trans (if_pos rfl)
  have told : (do return [← Failure.describe (.object made.1)] : Run (List Value)) made.2
      = .done [.object made.1] made.2 := Run.bind_done (Failure.describe_failure object)
  have retains : st.Retains ∅ { st with store := made.2 } :=
    { Retains.refl ∅ st with objects := by simp [made, Store.newObject] }
  have hrun : st.run m
      = (.error (Failure.ofDescribed made.2 (.object made.1)), { st with store := made.2 }) := by
    unfold run
    rw [runRaw_call_raise hm does]
    dsimp only
    rw [runRaw_done told]
    rfl
  exact ⟨_, _, hrun, retains⟩

end State

end Lua

namespace Opener

open NativeLoader

theorem Makes.opensAfresh {opener : Lua.Action TableId} (h : Makes opener) (st : State) :
    OpensAfresh opener st := by
  obtain ⟨answer, s, hopener, leaves, made⟩ := h st
  have retains : st.Retains ∅ { st with store := s } :=
    (State.Retains.refl ∅ st).trans (.of_leaves leaves) fun _ => .inr
  refine ⟨by rw [hopener]; exact retains, fun {t st'} hrun => ?_⟩
  obtain ⟨rfl, rfl⟩ := Prod.mk.inj (hopener.symm.trans hrun)
  obtain ⟨behind, settled, new⟩ := made t rfl
  refine ⟨new t .self, settled.lt, ?_⟩
  rcases settled.reads with hnone | ⟨hsome, hindex, bare⟩
  · have hhandler : s.metamethod (.table t) "__index" = .nil := by
      simp [Store.metamethod, Store.metatable, hnone]
    rw [hhandler]
    exact .nothing
  · rename_i e b
    have hhandler : s.metamethod (.table t) "__index" = .table b := by
      simp [Store.metamethod, Store.metatable, hsome, hindex]
    rw [hhandler]
    exact .plain bare

theorem alwaysRaises_failing {t : TableId} {g : FuncId} {n : Nat} {message : String}
    (hg : g.index < st.store.functions.size) (hfunction : st.store.function g = .callback n)
    (hn : st.callbacks[n]? = some fun _ => (Failure.runtime message).raise) : AlwaysRaises st t g := by
  intro st₁ key later
  have hlt : n < st.callbacks.size := (Array.getElem?_eq_some_iff.1 hn).1
  let m : Run (List Value) := do return [Run.first (← Run.call (.func g) [.table t, key] {})]
  have asks : m st₁.store = .ask (.call (.func g) [.table t, key] {}) st₁.store
      fun vs s => .done [Run.first vs] s := rfl
  obtain ⟨f, st', hrun, retains⟩ := State.run_call_failing asks
    ((later.function hg).trans hfunction) ((later.callback hlt).trans hn)
  refine ⟨f, st', ?_, retains⟩
  have hrun : (Action.run m).on st₁ = (.error f, st') := hrun
  unfold askBehind Action.runFirst
  rw [Attempt.on_bind, hrun]

theorem metamethod_indexed {t : TableId} (ht : t.index < st.store.tables.size) (index : Value) :
    (indexed st t index).store.metamethod (.table t) "__index" = index := by
  let events : TableId := ⟨st.store.tables.size⟩
  let made := (st.store.newTable {}).2
  have hne : events ≠ t := by
    rintro rfl
    exact Nat.lt_irrefl _ ht
  have hevents : (indexed st t index).store.table events = (made.table events).set (.text "__index") index :=
    (Store.table_modifyTable_of_ne hne _).trans
      (Store.table_modifyTable_self (by rw [Store.size_newTable]; exact Nat.lt_succ_self _) _)
  have hsome : (indexed st t index).store.metatable (.table t) = some events := metatable_indexed ht index
  rw [Store.metamethod, hsome]
  dsimp only
  rw [Store.rawGet_text, hevents, Table.get_set_self]

theorem fields_failing_opensAfresh (fs : List (String × Datum)) (message : String) (st : State) :
    OpensAfresh (fields fs (.failing message)) st := by
  obtain ⟨answer, s, hmade, grows, made⟩ := tableOf_on fs st
  have retains : st.Retains ∅ { st with store := s } :=
    (State.Retains.refl ∅ st).trans (.of_leaves grows.toLeaves) fun _ => .inr
  -- a field may have no room, and then nothing but tables was made
  rcases answer with e | t
  · have hopener : (fields fs (.failing message)).on st = (.error e, { st with store := s }) := by
      unfold fields
      rw [Attempt.on_bind, hmade]
    refine ⟨by rw [hopener]; exact retains, fun {t st'} hrun => ?_⟩
    rw [hopener] at hrun
    cases hrun
  · obtain ⟨rfl, hlt⟩ := made t rfl
    let st₂ : State :=
      { st with
        store := (s.newFunction (.callback st.callbacks.size)).2
        callbacks := st.callbacks.push fun _ => (Failure.runtime message).raise }
    have hopener : (fields fs (.failing message)).on st
        = (.ok ⟨st.store.tables.size⟩,
          indexed st₂ ⟨st.store.tables.size⟩ (.func ⟨s.functions.size⟩)) := by
      unfold fields
      rw [Attempt.on_bind, hmade]
      rfl
    have added : State.Retains ∅ { st with store := s } st₂ :=
      { State.Retains.refl ∅ { st with store := s } with
        functions := by simp [st₂, Store.newFunction]
        callbacks := by simp [st₂] }
    have written := State.Retains.of_leaves
      (indexed_leaves st₂ (t := ⟨st.store.tables.size⟩) (Nat.le_refl _) grows.size (.func ⟨s.functions.size⟩))
    refine ⟨?_, fun {t st'} hrun => ?_⟩
    · rw [hopener]
      exact (retains.trans added fun _ => False.elim).trans written fun _ => .inr
    · rw [hopener] at hrun
      obtain ⟨⟨⟩, rfl⟩ := Prod.mk.inj hrun
      refine ⟨Nat.le_refl _, hlt.trans_le written.tables_size, ?_⟩
      rw [metamethod_indexed hlt]
      have called : st₂.callbacks[st.callbacks.size]? = some fun _ => (Failure.runtime message).raise :=
        Array.getElem?_push_size
      refine .raising (alwaysRaises_failing ?_ ?_ called)
      · show s.functions.size < (s.newFunction _).2.functions.size
        simp
      · exact (Store.function_newFunction s _ _).trans (if_pos rfl)

/-- Openers of fields open afresh, whatever stands behind the fields. -/
theorem fields_opensAfresh (fs : List (String × Datum)) : ∀ (backing : Backing) (st : State),
    OpensAfresh (fields fs backing) st
  | .none, st => (fields_makes fs).opensAfresh st
  | .fields more, st => (fields_behind_makes fs more).opensAfresh st
  | .failing message, st => fields_failing_opensAfresh fs message st

end Opener

end Enclosure
