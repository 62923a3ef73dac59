import Enclosure.Proofs.Lua.Lookup
import Enclosure.Proofs.Lua.Sealed
import Enclosure.Proofs.Native.Apart

/-!
# Looking for modules

A state that has got more, while all that it had is as it was, gives the same to lookups of what it had.
So a script that asks for a module by name gets what it got before: the same that is loaded, the same
error, or the same searcher to be asked (`require_starts`).
-/

namespace Enclosure.Lua

variable {W : Set TableId} {st st₁ st' : State}

/-- The second state has all that is in the first, and maybe more; just the tables in `W` may have
changed. -/
structure State.Retains (W : Set TableId) (st st' : State) : Prop where
  tables_size : st.store.tables.size ≤ st'.store.tables.size
  table : ∀ t : TableId, t.index < st.store.tables.size → t ∉ W → st'.store.table t = st.store.table t
  cells : st.store.cells.toList <+: st'.store.cells.toList
  functions : st.store.functions.toList <+: st'.store.functions.toList
  objects : st.store.objects.toList <+: st'.store.objects.toList
  threads : st.threads.toList <+: st'.threads.toList
  callbacks : st.callbacks.toList <+: st'.callbacks.toList
  aside : { st'.store with
    tables := st.store.tables, cells := st.store.cells, functions := st.store.functions,
    objects := st.store.objects } = st.store

/-- The state with other notes of the native modules that are kept and of those that were opened. -/
def State.withNotes (st : State) (natives : List (String × TableId)) (opened : List String) : State :=
  { st with store := { st.store with natives, opened } }

namespace State.Retains

theorem refl (W : Set TableId) (st : State) : st.Retains W st :=
  ⟨Nat.le_refl _, fun _ _ _ => rfl, List.prefix_rfl, List.prefix_rfl, List.prefix_rfl, List.prefix_rfl,
    List.prefix_rfl, rfl⟩

/-- What changes in tables that are new does not count as a change. -/
theorem trans {W' : Set TableId} (h : st.Retains W st₁) (h' : st₁.Retains W' st')
    (new : ∀ t ∈ W', t ∈ W ∨ st.store.tables.size ≤ t.index) : st.Retains W st' where
  tables_size := h.tables_size.trans h'.tables_size
  table t ht hW := by
    have hW' : t ∉ W' := fun hmem => (new t hmem).elim hW (Nat.not_le_of_lt ht)
    exact (h'.table t (ht.trans_le h.tables_size) hW').trans (h.table t ht hW)
  cells := h.cells.trans h'.cells
  functions := h.functions.trans h'.functions
  objects := h.objects.trans h'.objects
  threads := h.threads.trans h'.threads
  callbacks := h.callbacks.trans h'.callbacks
  aside := (congrArg (fun s : Store => { s with
    tables := st.store.tables, cells := st.store.cells, functions := st.store.functions,
    objects := st.store.objects }) h'.aside).trans h.aside

theorem modifyTable {t : TableId} (ht : t ∈ W) (st : State) (f : Table → Table) :
    st.Retains W { st with store := st.store.modifyTable t f } :=
  { refl W st with
    tables_size := (Store.size_modifyTable ..).ge
    table := fun u _ hu => Store.table_modifyTable_of_ne (by rintro rfl; exact hu ht) f }

/-- What is noted of native modules can be replaced in both. -/
theorem withNotes (h : st.Retains W st') (natives : List (String × TableId)) (opened : List String) :
    (st.withNotes natives opened).Retains W (st'.withNotes natives opened) :=
  { h with aside := congrArg (fun s : Store => { s with natives, opened }) h.aside }

theorem function (h : st.Retains W st') {f : FuncId} (hf : f.index < st.store.functions.size) :
    st'.store.function f = st.store.function f := by
  obtain ⟨more, hmore⟩ := h.functions
  simp only [Store.function, Array.getD_eq_getD_getElem?, ← Array.getElem?_toList, ← hmore]
  rw [List.getElem?_append_left (by simpa using hf)]

theorem callback (h : st.Retains W st') {n : Nat} (hn : n < st.callbacks.size) :
    st'.callbacks[n]? = st.callbacks[n]? := by
  obtain ⟨more, hmore⟩ := h.callbacks
  rw [← Array.getElem?_toList, ← hmore, List.getElem?_append_left (by simpa using hn),
    Array.getElem?_toList]

end State.Retains

/-! ## Lookups of what was there -/

/-- Two runs from two stores begin alike: with the same answer, the same error or the same request, and
with nothing changed before. -/
inductive Res.Starts {α : Type} (s s' : Store) (P : α → Prop) : Res α → Res α → Prop
  | done {a : α} (h : P a) : Starts s s' P (.done a s) (.done a s')
  | raise (e : Raise) : Starts s s' P (.raise e s) (.raise e s')
  | ask (q : Request) (k k' : List Value → Store → Res α) : Starts s s' P (.ask q s k) (.ask q s' k')

/-- A run begins alike from both stores. -/
def Run.Starts {α : Type} (s s' : Store) (P : α → Prop) (m : Run α) : Prop := (m s).Starts s s' P (m s')

namespace Run.Starts

variable {α β : Type} {s s' : Store} {P : α → Prop} {Q : β → Prop} {m : Run α} {f : α → Run β}

theorem pure {a : α} (h : P a) : (pure a : Run α).Starts s s' P := .done h

theorem throw (e : Raise) : (throw e : Run α).Starts s s' P := .raise e

theorem call (f : Value) (args : List Value) (site : Site) (P : List Value → Prop) :
    (call f args site).Starts s s' P := .ask _ _ _

theorem read {f : Store → α} (same : f s' = f s) (h : P (f s)) : (read f).Starts s s' P := by
  unfold Run.Starts Run.read
  rw [same]
  exact .done h

theorem bind (h : m.Starts s s' P) (hf : ∀ a, P a → (f a).Starts s s' Q) :
    (m >>= f).Starts s s' Q := by
  unfold Run.Starts at h ⊢
  rw [Run.bind_apply, Run.bind_apply]
  generalize m s = r, m s' = r' at h
  cases h with
  | done ha => exact hf _ ha
  | raise e => exact .raise e
  | ask q k k' => exact .ask q _ _

end Run.Starts

namespace State.Retains

variable {s : Store} {v key : Value} {α : Type}

theorem object (h : st.Retains W st') {o : ObjectId} (ho : o.index < st.store.objects.size) :
    st'.store.object o = st.store.object o := by
  obtain ⟨more, hmore⟩ := h.objects
  simp only [Store.object, Array.getD_eq_getD_getElem?, ← Array.getElem?_toList, ← hmore]
  rw [List.getElem?_append_left (by simpa using ho)]

end State.Retains

/-- What a lookup reads of a store. -/
structure Store.Agrees (s s' : Store) : Prop where
  sealed : s.Sealed
  table : ∀ t : TableId, t.index < s.tables.size → s'.table t = s.table t
  object : ∀ o : ObjectId, o.index < s.objects.size → s'.object o = s.object o
  stringMeta : s'.stringMeta = s.stringMeta
  failureMeta : s'.failureMeta = s.failureMeta
  fileMeta : s'.fileMeta = s.fileMeta
  loaded : s'.loaded = s.loaded
  preload : s'.preload = s.preload

/-- No lookup reads what is noted of native modules. -/
theorem State.Retains.agrees {natives : List (String × TableId)} {opened : List String}
    (h : (st.withNotes natives opened).Retains ∅ st') (sealed : st.store.Sealed) :
    st.store.Agrees st'.store :=
  { sealed
    table := fun t ht => h.table t ht (Set.notMem_empty t)
    object := fun _ => h.object
    stringMeta := (congrArg Store.stringMeta h.aside :)
    failureMeta := (congrArg Store.failureMeta h.aside :)
    fileMeta := (congrArg Store.fileMeta h.aside :)
    loaded := (congrArg Store.loaded h.aside :)
    preload := (congrArg Store.preload h.aside :) }

namespace Store.Agrees

variable {s s' : Store} {v key : Value} {t : TableId} {α β : Type}

theorem rawGet (h : s.Agrees s') (ht : t.index < s.tables.size) (key : Value) :
    s'.rawGet t key = s.rawGet t key ∧ s.Knows (s.rawGet t key) := by
  refine ⟨by simp only [Store.rawGet, h.table t ht], ?_⟩
  unfold Store.rawGet
  split
  · exact h.sealed.value _ _
  · trivial

theorem metatable (h : s.Agrees s') (hv : s.Knows v) : s'.metatable v = s.metatable v
    ∧ ∀ m, s.metatable v = some m → m.index < s.tables.size := by
  cases v with
  | table t => exact ⟨congrArg Table.metatable (h.table t hv), h.sealed.metatable t⟩
  | str => exact ⟨h.stringMeta, h.sealed.stringMeta⟩
  | object o =>
    simp only [Store.metatable, h.object o hv]
    cases s.object o with
    | failure => exact ⟨h.failureMeta, h.sealed.failureMeta⟩
    | file => exact ⟨h.fileMeta, h.sealed.fileMeta⟩
  | _ => exact ⟨rfl, fun _ h => by cases h⟩

theorem metamethod (h : s.Agrees s') (hv : s.Knows v) (event : String) :
    s'.metamethod v event = s.metamethod v event ∧ s.Knows (s.metamethod v event) := by
  obtain ⟨same, known⟩ := h.metatable hv
  unfold Store.metamethod
  rw [same]
  rcases hm : s.metatable v with _ | m
  · exact ⟨rfl, trivial⟩
  · exact h.rawGet (known m hm) _

open Operation Library

section Lookups

variable (w : Where) {o : Option Origin} {P : α → Prop}

theorem failAt_starts (message : Bytes) : (failAt w message : Run α).Starts s s' P := by
  cases w <;> exact .throw _

variable (h : s.Agrees s')

include h

theorem rawGet_starts (ht : t.index < s.tables.size) : (Run.rawGet t key).Starts s s' s.Knows :=
  .read (h.rawGet ht key).1 (h.rawGet ht key).2

theorem metamethod_starts (hv : s.Knows v) (event : String) :
    (Run.metamethod v event).Starts s s' s.Knows :=
  .read (h.metamethod hv event).1 (h.metamethod hv event).2

theorem shownType_starts (hv : s.Knows v) : (shownType v).Starts s s' fun _ => True := by
  unfold shownType
  dsimp only
  split
  case' h_1 | h_2 => refine .bind (h.metamethod_starts hv _) fun named _ => ?_
  case' h_3 => refine .bind (.pure (P := fun _ => True) trivial) fun named _ => ?_
  all_goals split <;> exact .pure trivial

theorem failType_starts (action : String) (hv : s.Knows v) : (failType w action v o : Run α).Starts s s' P :=
  .bind (h.shownType_starts hv) fun _ _ => failAt_starts w _

theorem indexFrom_starts (n : Nat) (hv : s.Knows v) : (indexFrom w n o v key).Starts s s' s.Knows := by
  -- on the links that are left; a link is a table, or a function that the run stops to call
  induction n generalizing o v with
  | zero =>
    unfold indexFrom indexLast
    split
    · refine .bind (h.rawGet_starts hv) fun x hx => ?_
      split_ifs
      · exact failAt_starts w _
      · exact .pure hx
    · exact failAt_starts w _
  | succ n ih =>
    have called (handler : Value) :
        (do return Run.first (← Run.call handler [v, key] (siteOf w "index")) : Run Value).Starts s s'
          s.Knows := .bind (.call _ _ _ fun vs => s.Knows (Run.first vs)) fun _ hvs => .pure hvs
    unfold indexFrom
    dsimp only
    split
    · refine .bind (h.rawGet_starts hv) fun x hx => ?_
      split_ifs
      · refine .bind (h.metamethod_starts hv _) fun handler hh => ?_
        split_ifs
        · exact .pure trivial
        · split
          · exact called _
          · exact ih hh
      · exact .pure hx
    · refine .bind (h.metamethod_starts hv _) fun handler hh => ?_
      split_ifs
      · exact h.failType_starts w _ hv
      · split
        · exact called _
        · exact ih hh

theorem index_starts (hv : s.Knows v) : (index w o v key).Starts s s' s.Knows :=
  h.indexFrom_starts w chainLimit hv

end Lookups

variable (h : s.Agrees s') {args : Args} {captured : Array Value}

include h

theorem string_starts (hargs : ∀ v ∈ args, s.Knows v) (n : Nat) :
    (args.string n).Starts s s' fun _ => True := by
  unfold Args.string
  split
  · exact .pure trivial
  · refine .bind (P := fun _ => True) ?_ fun _ _ => .throw _
    unfold Args.gotText
    split
    · exact .pure trivial
    · rename_i v hv
      exact h.shownType_starts (hargs v (List.mem_of_getElem? hv))

/-- The first searcher that is asked is the same; what it answers is left open. -/
theorem askSearchers_starts {searchers : TableId} (ht : searchers.index < s.tables.size) (name : Bytes)
    (n i : Nat) (message : Bytes) :
    (Package.askSearchers searchers name n i message).Starts s s' fun _ => False := by
  cases n with
  | zero => exact .throw _
  | succ n =>
    unfold Package.askSearchers
    refine .bind (h.rawGet_starts ht) fun searcher _ => ?_
    split_ifs
    · exact .bind (P := fun _ => False) (.throw _) fun _ impossible => impossible.elim
    · exact .bind (.call _ _ _ fun _ => False) fun _ impossible => impossible.elim

/-- Asking for a module begins as before. -/
theorem require_starts (hargs : ∀ v ∈ args, s.Knows v) (hcaptured : s.Knows (Package.packageOf captured)) :
    (Package.require captured args).Starts s s' fun _ => True := by
  unfold Package.require
  refine .bind (h.string_starts hargs 1) fun name _ => ?_
  refine .bind (P := s.Knows) (.read (congrArg Value.table h.loaded) h.sealed.loaded) fun loaded hl => ?_
  refine .bind (h.index_starts .library hl) fun v _ => ?_
  split_ifs
  · exact .pure trivial
  · refine .bind (h.index_starts .library hcaptured) fun searchers hs => ?_
    split
    · exact .bind (h.askSearchers_starts hs _ _ _ _) fun _ impossible => impossible.elim
    · exact .throw _

/-- So does asking for a preloaded one. -/
theorem preloadSearcher_starts (hargs : ∀ v ∈ args, s.Knows v) :
    (Package.preloadSearcher args).Starts s s' fun _ => True := by
  unfold Package.preloadSearcher
  refine .bind (h.string_starts hargs 1) fun name _ => ?_
  refine .bind (P := s.Knows) (.read (congrArg Value.table h.preload) h.sealed.preload) fun preload hp => ?_
  refine .bind (h.index_starts .library hp) fun v _ => ?_
  split_ifs <;> exact .pure trivial

end Store.Agrees

end Enclosure.Lua
