import Enclosure.Environment
import Enclosure.Proofs.Attempt
import Enclosure.Proofs.Reach.Library
import Enclosure.Proofs.Reach.Machine

/-!
# The host in a realm

A state is sound in a realm if nothing in the realm leads out of it, and whatever its threads wait for
and its functions of the host do is tame. What the host then runs leaves a state that is sound in what
the realm has grown to, and leaves alone what is outside (`Attempt.Tame.run`).
-/

namespace Enclosure.Lua

variable {R R' R₁ R₂ : Realm} {st st' st₁ st₂ : State} {s s' : Store}

structure State.Sound (R : Realm) (st : State) : Prop where
  closed : R.Closed st.store
  threads : TameThreads R st.threads
  callback : ∀ n ∈ R.callbacks, ∀ (R' : Realm) (args : List Value), R ≤ R' → R'.HasAll args →
    (st.functions.callback n args).Tame R' Realm.HasAll

theorem State.Sound.serves (h : st.Sound R) : R.Serves st.functions :=
  ⟨fun b _ _ _ _ hf hc hargs => Library.run_tame b hf hc hargs, h.callback⟩

/-- All of the realm is there. -/
structure State.Holds (R : Realm) (st : State) : Prop where
  table : ∀ t ∈ R.tables, t.index < st.store.tables.size
  function : ∀ f ∈ R.functions, f.index < st.store.functions.size
  callback : ∀ n ∈ R.callbacks, n < st.callbacks.size

/-- What the host does to a state: the realm grows by what is made, and of the tables outside only some
are written. -/
structure State.Progress (W : Set TableId) (R : Realm) (st : State) (R' : Realm) (st' : State) :
    Prop where
  le : R ≤ R'
  sound : st'.Sound R'
  tables_size : st.store.tables.size ≤ st'.store.tables.size
  functions_size : st.store.functions.size ≤ st'.store.functions.size
  callbacks_size : st.callbacks.size ≤ st'.callbacks.size
  tables_new : ∀ t ∈ R'.tables,
    t ∈ R.tables ∨ st.store.tables.size ≤ t.index ∧ t.index < st'.store.tables.size
  functions_new : ∀ f ∈ R'.functions,
    f ∈ R.functions ∨ st.store.functions.size ≤ f.index ∧ f.index < st'.store.functions.size
  callbacks_new : ∀ n ∈ R'.callbacks,
    n ∈ R.callbacks ∨ st.callbacks.size ≤ n ∧ n < st'.callbacks.size
  table : ∀ t ∉ R.tables, t ∉ W → t.index < st.store.tables.size →
    st'.store.table t = st.store.table t
  function : ∀ f ∉ R.functions, f.index < st.store.functions.size →
    st'.store.function f = st.store.function f
  callback : ∀ n < st.callbacks.size, st'.callbacks[n]? = st.callbacks[n]?

namespace State.Progress

variable {W W' : Set TableId} {t : TableId}

theorem refl (h : st.Sound R) : Progress W R st R st where
  le := le_refl R
  sound := h
  tables_size := Nat.le_refl _
  functions_size := Nat.le_refl _
  callbacks_size := Nat.le_refl _
  tables_new _ := .inl
  functions_new _ := .inl
  callbacks_new _ := .inl
  table _ _ _ _ := rfl
  function _ _ _ := rfl
  callback _ _ := rfl

theorem not_mem (h : Progress W R st R' st') (ht : t ∉ R.tables)
    (hlt : t.index < st.store.tables.size) : t ∉ R'.tables := fun hin =>
  (h.tables_new t hin).elim ht fun hge => by omega

theorem not_mem_function (h : Progress W R st R' st') {f : FuncId} (hf : f ∉ R.functions)
    (hlt : f.index < st.store.functions.size) : f ∉ R'.functions := fun hin =>
  (h.functions_new f hin).elim hf fun hge => by omega

theorem holds (h : Progress W R st R' st') (hs : st.Holds R) : st'.Holds R' where
  table t ht := (h.tables_new t ht).elim
    (fun ht => Nat.lt_of_lt_of_le (hs.table t ht) h.tables_size) fun hnew => hnew.2
  function f hf := (h.functions_new f hf).elim
    (fun hf => Nat.lt_of_lt_of_le (hs.function f hf) h.functions_size) fun hnew => hnew.2
  callback n hn := (h.callbacks_new n hn).elim
    (fun hn => Nat.lt_of_lt_of_le (hs.callback n hn) h.callbacks_size) fun hnew => hnew.2

/-- Further tables may be written that were not there before. -/
theorem trans (h : Progress W R st R₁ st₁) (h' : Progress W' R₁ st₁ R₂ st₂)
    (hW : ∀ t ∈ W', t ∈ W ∨ st.store.tables.size ≤ t.index) : Progress W R st R₂ st₂ where
  le := h.le.trans h'.le
  sound := h'.sound
  tables_size := Nat.le_trans h.tables_size h'.tables_size
  functions_size := Nat.le_trans h.functions_size h'.functions_size
  callbacks_size := Nat.le_trans h.callbacks_size h'.callbacks_size
  tables_new t ht := by
    have := h.tables_size
    have := h'.tables_size
    rcases h'.tables_new t ht with ht | ht
    · exact (h.tables_new t ht).imp_right fun ht => by omega
    · exact .inr (by omega)
  functions_new f hf := by
    have := h.functions_size
    have := h'.functions_size
    rcases h'.functions_new f hf with hf | hf
    · exact (h.functions_new f hf).imp_right fun hf => by omega
    · exact .inr (by omega)
  callbacks_new n hn := by
    have := h.callbacks_size
    have := h'.callbacks_size
    rcases h'.callbacks_new n hn with hn | hn
    · exact (h.callbacks_new n hn).imp_right fun hn => by omega
    · exact .inr (by omega)
  -- what the second part may write besides is new to the first state
  table t ht hw hlt := by
    have hw' : t ∉ W' := fun hmem => (hW t hmem).elim hw (Nat.not_le_of_lt hlt)
    exact (h'.table t (h.not_mem ht hlt) hw' (Nat.lt_of_lt_of_le hlt h.tables_size)).trans
      (h.table t ht hw hlt)
  function f hf hlt :=
    (h'.function f (h.not_mem_function hf hlt) (Nat.lt_of_lt_of_le hlt h.functions_size)).trans
      (h.function f hf hlt)
  callback n hn :=
    (h'.callback n (Nat.lt_of_lt_of_le hn h.callbacks_size)).trans (h.callback n hn)

theorem mono (h : Progress W R st R' st') (hW : W ⊆ W') : Progress W' R st R' st' :=
  { h with table := fun t ht hw => h.table t ht fun hmem => hw (hW hmem) }

theorem of_passage (h : Passage R st.store R' s') (hst : st.Sound R) {threads : Array Thread}
    (hthreads : TameThreads R' threads) :
    Progress ∅ R st R' { st with store := s', threads } where
  le := h.le
  sound := ⟨h.closed, hthreads, (hst.serves.later h).callback⟩
  tables_size := h.tables_size
  functions_size := h.functions_size
  callbacks_size := Nat.le_refl _
  tables_new := h.tables_new
  functions_new := h.functions_new
  callbacks_new _ hn := .inl (h.callbacks ▸ hn)
  table t ht _ := h.table t ht
  function := h.function
  callback _ _ := rfl

/-! ### Out of the realm -/

section

variable (hst : st.Sound R)

include hst

/-- A table that is not in the realm may be written in any way. -/
theorem write (ht : t ∉ R.tables) (F : Table → Table) :
    Progress {t} R st R { st with store := st.store.modifyTable t F } := by
  have other {u : TableId} (hu : u ≠ t) : (st.store.modifyTable t F).table u = st.store.table u :=
    Store.table_modifyTable_of_ne hu F
  have inside {u : TableId} (hu : u ∈ R.tables) :
      (st.store.modifyTable t F).table u = st.store.table u := other fun he => ht (he ▸ hu)
  have closed : R.Closed (st.store.modifyTable t F) :=
    { hst.closed with
      entries := fun u hu => by
        rw [inside hu]
        exact hst.closed.entries u hu
      metatable := fun u hu => by
        rw [inside hu]
        exact hst.closed.metatable u hu }
  exact { refl (W := ∅) hst with
    sound := ⟨closed, hst.threads, hst.callback⟩
    tables_size := (Store.size_modifyTable ..).ge
    tables_new := fun _ => .inl
    table := fun u _ hu _ => other hu }

/-- What the host notes about openings and files. -/
theorem note (natives : List (String × TableId)) (opened tried : List String) :
    Progress W R st R { st with store := { st.store with natives, opened, tried } } :=
  { refl hst with sound := ⟨{ hst.closed with }, hst.threads, hst.callback⟩ }

variable (holds : st.Holds R)

include holds

theorem newTable : Progress W R st R { st with store := (st.store.newTable {}).2 } := by
  have old {u : TableId} (hu : u.index < st.store.tables.size) :
      (st.store.newTable {}).2.table u = st.store.table u := by
    rw [Store.table_newTable, if_neg (Nat.ne_of_lt hu)]
  have closed : R.Closed (st.store.newTable {}).2 :=
    { hst.closed with
      entries := fun u hu => by
        rw [old (holds.table u hu)]
        exact hst.closed.entries u hu
      metatable := fun u hu => by
        rw [old (holds.table u hu)]
        exact hst.closed.metatable u hu }
  exact { refl (W := ∅) hst with
    sound := ⟨closed, hst.threads, hst.callback⟩
    tables_size := by simp
    tables_new := fun _ => .inl
    table := fun u _ _ hlt => old hlt }

/-- A new function of the host is whatever it is: nothing in the realm leads to it. -/
theorem newCallback (f : Callback) : Progress W R st R ((Action.newCallback f).on st).2 := by
  have old {g : FuncId} (hg : g.index < st.store.functions.size) :
      (st.store.newFunction (.callback st.callbacks.size)).2.function g = st.store.function g := by
    rw [Store.function_newFunction, if_neg (Nat.ne_of_lt hg)]
  have closed : R.Closed (st.store.newFunction (.callback st.callbacks.size)).2 :=
    { hst.closed with
      function := fun g hg => by
        rw [old (holds.function g hg)]
        exact hst.closed.function g hg }
  have callbacks {n : Nat} (hn : n < st.callbacks.size) :
      (st.callbacks.push f)[n]? = st.callbacks[n]? := by
    rw [Array.getElem?_push, if_neg (Nat.ne_of_lt hn)]
  exact { refl hst with
    sound := by
      refine ⟨closed, hst.threads, fun n hn => ?_⟩
      have hsame : (State.functions ((Action.newCallback f).on st).2).callback n
          = st.functions.callback n := by
        show (st.callbacks.push f).getD n _ = st.callbacks.getD n _
        rw [Array.getD_eq_getD_getElem?, callbacks (holds.callback n hn), Array.getD_eq_getD_getElem?]
      rw [hsame]
      exact hst.callback n hn
    functions_size := by
      show st.store.functions.size ≤ (st.store.functions.push _).size
      simp
    callbacks_size := by
      show st.callbacks.size ≤ (st.callbacks.push f).size
      simp
    functions_new := fun _ => .inl
    callbacks_new := fun _ => .inl
    function := fun g _ hlt => old hlt
    callback := fun n hn => callbacks hn }

end

end State.Progress

end Enclosure.Lua

namespace Enclosure.Attempt

open Lua

variable {R R' : Realm} {ε ε' α β : Type} {P : Realm → α → Prop} {Q : Realm → β → Prop} {st : State}

/-- An attempt that stays in the realm and what it makes, and hands on nothing else. -/
def Tame (R : Realm) (P : Realm → α → Prop) (m : Attempt State ε α) : Prop :=
  ∀ st, st.Sound R → ∃ R', State.Progress ∅ R st R' (m.on st).2
    ∧ (m.on st).2.store.ledger = st.store.ledger ∧ ∀ a, (m.on st).1 = .ok a → P R' a

namespace Tame

variable {m : Attempt State ε α} {f : α → Attempt State ε β}

theorem pure {a : α} (ha : P R a) : Tame R P (Pure.pure a : Attempt State ε α) := by
  refine fun st hst => ⟨R, .refl hst, rfl, ?_⟩
  rintro _ ⟨⟩
  exact ha

theorem fail (e : ε) : Tame R P (Attempt.fail e : Attempt State ε α) :=
  fun _ hst => ⟨R, .refl hst, rfl, nofun⟩

theorem bind (h : m.Tame R P) (hf : ∀ a R', R ≤ R' → P R' a → (f a).Tame R' Q) :
    Tame R Q (m >>= f) := by
  intro st hst
  obtain ⟨R₁, h₁, ledger₁, ha⟩ := h st hst
  rw [on_bind]
  generalize m.on st = r at h₁ ledger₁ ha
  obtain ⟨e | a, st₁⟩ := r
  · exact ⟨R₁, h₁, ledger₁, nofun⟩
  · obtain ⟨R₂, h₂, ledger₂, hb⟩ := hf a R₁ h₁.le (ha a rfl) st₁ h₁.sound
    exact ⟨R₂, h₁.trans h₂ fun _ ht => .inl ht, ledger₂.trans ledger₁, hb⟩

theorem mapError {g : ε → ε'} (h : m.Tame R P) : Tame R P (m.mapError g) := by
  intro st hst
  obtain ⟨R₁, h₁, ledger₁, ha⟩ := h st hst
  rw [on_mapError]
  refine ⟨R₁, h₁, ledger₁, fun a hm => ha a ?_⟩
  dsimp only at hm
  cases hr : (m.on st).1 with
  | error e =>
    rw [hr] at hm
    cases hm
  | ok b =>
    rw [hr] at hm
    cases hm
    rfl

/-- An answer that is read off the state. -/
theorem answer {f : State → Except ε α} (h : ∀ st a, st.Sound R → f st = .ok a → P R a) :
    Tame R P (Attempt.of fun st => (f st, st)) :=
  fun st hst => ⟨R, .refl hst, rfl, fun a => h st a hst⟩

theorem read {f : Store → α} (h : ∀ s, R.Closed s → P R (f s)) : Tame R P (Action.read f) := by
  refine answer fun st a hst ha => ?_
  obtain rfl := Except.ok.inj ha
  exact h _ hst.closed

/-! ## Runs -/

/-- What the machine answers: results of the realm, or such an error. -/
def Answered (R : Realm) : Except (Option Value) (List Value) → Prop
  | .ok vs => R.HasAll vs
  | .error e => ∀ v, e = some v → R.Has v

theorem runRaw (hst : st.Sound R) {m : Run (List Value)} (hm : m.Tame R Realm.HasAll) :
    ∃ R', State.Progress ∅ R st R' (st.runRaw m).2
      ∧ (st.runRaw m).2.store.ledger = st.store.ledger ∧ Answered R' (st.runRaw m).1 := by
  have h := Machine.start_tame hst.serves hst.threads hm hst.closed
  unfold State.runRaw
  generalize Machine.start st.functions st.threads m st.store = o at h
  cases o with
  | returned vs store threads =>
    obtain ⟨R', hp, hvs, hthreads⟩ := h
    exact ⟨R', .of_passage hp hst hthreads, hp.ledger, hvs⟩
  | raised v store threads =>
    obtain ⟨R', hp, hv, hthreads⟩ := h
    refine ⟨R', .of_passage hp hst hthreads, hp.ledger, ?_⟩
    rintro _ ⟨⟩
    exact hv
  | exhausted store threads =>
    obtain ⟨R', hp, hthreads⟩ := h
    exact ⟨R', .of_passage hp hst hthreads, hp.ledger, nofun⟩

/-- The text of an error may be found by a function of the realm, which is run in turn. -/
theorem run {m : Run (List Value)} (hm : m.Tame R Realm.HasAll) :
    Tame R Realm.HasAll (Action.run m) := by
  intro st hst
  obtain ⟨R₁, h₁, ledger₁, hanswer⟩ := runRaw hst hm
  show ∃ R', State.Progress ∅ R st R' (st.run m).2 ∧ (st.run m).2.store.ledger = st.store.ledger
    ∧ ∀ vs, (st.run m).1 = .ok vs → R'.HasAll vs
  unfold State.run
  generalize st.runRaw m = r at h₁ ledger₁ hanswer
  obtain ⟨answer, st₁⟩ := r
  match answer with
  | .ok vs =>
    refine ⟨R₁, h₁, ledger₁, ?_⟩
    rintro _ ⟨⟩
    exact hanswer
  | .error none => exact ⟨R₁, h₁, ledger₁, nofun⟩
  | .error (some v) =>
    have htext : (do return [← Failure.describe v] : Run (List Value)).Tame R₁ Realm.HasAll :=
      .bind (Failure.describe_tame (hanswer v rfl)) fun _ _ _ h => .pure (Realm.hasAll_one h)
    obtain ⟨R₂, h₂, ledger₂, -⟩ := runRaw h₁.sound htext
    have h := h₁.trans h₂ fun _ ht => .inl ht
    have ledger := ledger₂.trans ledger₁
    dsimp only
    generalize st₁.runRaw _ = r at h ledger
    obtain ⟨_ | _, st₂⟩ := r
    · exact ⟨R₂, h, ledger, nofun⟩
    · exact ⟨R₂, h, ledger, nofun⟩

theorem runFirst {m : Run (List Value)} (hm : m.Tame R Realm.HasAll) :
    Tame R Realm.Has (Action.runFirst m) :=
  .bind (run hm) fun _ _ _ h => .pure (Evaluate.first_has h)

theorem call {f : Value} {args : List Value} (hf : R.Has f) (hargs : R.HasAll args) :
    Tame R Realm.HasAll (Action.call f args) := run (.call hf hargs _)

theorem get {object k : Value} (ho : R.Has object) (hk : R.Has k) :
    Tame R Realm.Has (Action.get object k) :=
  runFirst (.bind (Operation.index_tame _ _ ho hk) fun _ _ _ h => .pure (Realm.hasAll_one h))

theorem newBuiltin (b : Builtin) {captured : List Value} (hc : R.HasAll captured) :
    Tame R Realm.Has (Action.newBuiltin b captured) :=
  runFirst (.bind (.newBuiltin b hc) fun _ _ _ h => .pure (Realm.hasAll_one h))

/-! ## Tables of the realm -/

theorem globals : Tame R (fun R' t => t ∈ R'.tables) Action.globals := read fun _ hs => hs.globals

theorem rawGetText {t : TableId} (ht : t ∈ R.tables) (k : String) :
    Tame R Realm.Has (Action.rawGetText t k) := read fun _ hs => hs.rawGet ht _

theorem rawSetText {t : TableId} (ht : t ∈ R.tables) (k : String) {v : Value} (hv : R.Has v) :
    Tame R (fun _ _ => True) (Action.rawSetText t k v) := by
  intro st hst
  have h := Passage.set hst.closed (k := .text k) ht trivial hv
  exact ⟨R, .of_passage h hst hst.threads, h.ledger, fun _ _ => trivial⟩

/-! ## Sources -/

theorem load (source name mode : Bytes) {env : TableId} (henv : env ∈ R.tables) :
    Tame R Realm.Has (Action.load source name mode env) := by
  intro st hst
  have h := Chunk.load_tame source name mode (show R.Has (.table env) from henv) 0 _ hst.closed
  unfold Action.load on
  dsimp only
  split
  · exact ⟨R, .refl hst, rfl, nofun⟩
  · generalize Chunk.load source name mode (.table env) 0 st.store = r at h
    cases h with
    | @done _ R' _ s' a hp ha =>
      have progress := State.Progress.of_passage hp hst (hst.threads.up hp.le)
      cases a with
      | ok f =>
        refine ⟨R', progress, hp.ledger, ?_⟩
        rintro _ ⟨⟩
        exact ha _ rfl
      | error e => exact ⟨R', progress, hp.ledger, nofun⟩
    | @raise _ R' _ s' e hp _ =>
      exact ⟨R', .of_passage hp hst (hst.threads.up hp.le), hp.ledger, nofun⟩
    | @ask _ R' _ s' q k hp _ _ =>
      exact ⟨R', .of_passage hp hst (hst.threads.up hp.le), hp.ledger, nofun⟩

theorem loadEither (source name mode : Bytes) {env : TableId} (henv : env ∈ R.tables) :
    Tame R Realm.Has (Action.loadEither source name mode env) := by
  intro st hst
  obtain ⟨R₁, h₁, ledger₁, hf⟩ := load (Action.asExpression source) name Action.textMode henv st hst
  unfold Action.loadEither on
  dsimp only
  change State.Progress ∅ R st R₁ (Action.load _ _ _ _ st).2 at h₁
  change (Action.load _ _ _ _ st).2.store.ledger = _ at ledger₁
  change ∀ a, (Action.load _ _ _ _ st).1 = _ → _ at hf
  generalize Action.load (Action.asExpression source) name Action.textMode env st = r
    at h₁ ledger₁ hf
  obtain ⟨e | f, st₁⟩ := r
  · obtain ⟨R₂, h₂, ledger₂, hf₂⟩ := load source name mode (h₁.le.1 henv) st₁ h₁.sound
    exact ⟨R₂, h₁.trans h₂ fun _ ht => .inl ht, ledger₂.trans ledger₁, hf₂⟩
  · exact ⟨R₁, h₁, ledger₁, hf⟩

theorem evaluate (source name mode : Bytes) :
    Tame R Realm.HasAll (Action.evaluate source name mode) :=
  .bind globals fun _ _ _ henv => .bind (loadEither source name mode henv) fun _ _ _ hf =>
    call hf Realm.hasAll_nil

end Tame

end Enclosure.Attempt

namespace Enclosure.Environment

open Lua

variable {R : Realm}

theorem present_has {v w : Value} (hv : R.Has v) (h : present v = some w) : R.Has w := by
  unfold present at h
  split_ifs at h
  obtain rfl := Option.some.inj h
  exact hv

theorem global_tame (name : String) :
    (global name).Tame R fun R' v? => ∀ v, v? = some v → R'.Has v :=
  .mapError (.bind .globals fun _ _ _ hg => .bind (.rawGetText hg name) fun _ _ _ hv =>
    .pure fun _ => present_has hv)

theorem require_tame (module : String) : (require module).Tame R fun R' t => t ∈ R'.tables := by
  have hread : Attempt.Tame R Realm.Has
      (attempt do Action.rawGetText (← Action.globals) "require") :=
    .mapError (.bind .globals fun _ _ _ hg => .rawGetText hg _)
  refine .bind hread fun f R₁ _ hf => ?_
  split
  · refine .bind (.mapError (.call hf (Realm.hasAll_one (Realm.has_text module)))) fun vs R₂ _ hvs => ?_
    have hfirst := Evaluate.first_has hvs
    split
    · rename_i t ht
      rw [ht] at hfirst
      exact .pure hfirst
    · exact .fail _
  · exact .fail _

theorem field_tame {t : TableId} (ht : t ∈ R.tables) (name : String) :
    (field t name).Tame R fun R' v? => ∀ v, v? = some v → R'.Has v :=
  .mapError (.bind (.get (show R.Has (.table t) from ht) (Realm.has_text name)) fun _ _ _ hv =>
    .pure fun _ => present_has hv)

end Enclosure.Environment
