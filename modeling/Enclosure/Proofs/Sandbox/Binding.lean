import Enclosure.Proofs.Policy.Sound
import Enclosure.Proofs.Sandbox.Filling
import Enclosure.Sandbox

/-!
# Binding in an environment

Each step of building a sandbox does something in the realm of the full environment and then binds one
field of the restricted one, which is out of reach. What the value is depends on the step: a function
calls one of the host, the arguments are listed in a table of their own, and a script module is the
table that its file answered.
-/

namespace Enclosure

open Lua Attempt

variable {K : List String → Pledge} {R R' R₁ : Realm} {st st' st₁ : State} {ns : TableId}

/-- An attempt in the realm binds what it likes. -/
theorem Attempt.Tame.widened {ε α : Type} {P : Realm → α → Prop} {m : Attempt State ε α} {a : α}
    (h : m.Tame R P) (hK : Widens K) (names : List String) (name : String)
    (hst : st.Footing (K names) R) (hm : m.on st = (.ok a, st')) :
    ∃ R', State.Advance ∅ R st R' st' ∧ st'.Footing (K (names ++ [name])) R' ∧ P R' a := by
  obtain ⟨R', advance, footing, ha⟩ := h.discreet.ok hst hm
  exact ⟨R', advance, footing.mono (hK names name), ha⟩

/-! ## Rules of the policy -/

namespace Sandbox

open Assembly (copyField copyFields expose)

theorem present_ne {v w : Value} (h : Environment.present v = some w) : w ≠ .nil := by
  unfold Environment.present at h
  split_ifs at h with hn
  obtain rfl := Option.some.inj h
  rintro rfl
  exact hn rfl

/-- Binding a value that is present, wherever it comes from. -/
theorem bind_present {R₀ : Realm} {name : String} {m : Attempt State Fault (Option Value)} {e : Fault}
    {P : Realm → Option Value → Prop} (hK : Widens K) (hm : ∀ R, R₀ ≤ R → m.Tame R P)
    (hpresent : ∀ st st' v, m.on st = (.ok (some v), st') → v ≠ .nil) :
    Binds K R₀ ns name (fun _ _ _ _ => True) (do
      let value ← m
      let value ← Attempt.orFail e value
      (Environment.bind ns name value).mapError .host) := by
  intro names R st st' hR hst _ _ hrun
  obtain ⟨v?, st₁, hvalue, hrun⟩ := bind_ok hrun
  obtain ⟨v, st₂, hsome, hrun⟩ := bind_ok hrun
  obtain ⟨rfl, rfl⟩ := orFail_ok hsome
  obtain ⟨R₁, advance, footing, -⟩ := (hm R hR).widened hK names name hst hvalue
  exact ⟨R₁, st₂, v, advance, footing, hpresent _ _ v hvalue, trivial, (Prod.mk.inj hrun).2.symm⟩

theorem field_ok {t : TableId} {name : String} {st st' : State} {v : Value}
    (h : ((Environment.field t name).mapError Fault.host).on st = (.ok (some v), st')) :
    (Action.get (.table t) (.text name)).on st = (.ok v, st') ∧ v ≠ .nil := by
  obtain ⟨w, st₁, hget, h⟩ := bind_ok (mapError_ok (mapError_ok h))
  obtain ⟨hpresent, rfl⟩ := pure_ok h
  have hv := present_ne hpresent
  unfold Environment.present at hpresent
  split_ifs at hpresent
  obtain rfl := Option.some.inj hpresent
  exact ⟨hget, hv⟩

theorem global_present {name : String} {st st' : State} {v : Value}
    (h : ((Environment.global name).mapError Fault.host).on st = (.ok (some v), st')) : v ≠ .nil := by
  replace h := mapError_ok h
  unfold Environment.global Environment.attempt at h
  obtain ⟨g, st₁, -, h⟩ := bind_ok (mapError_ok h)
  obtain ⟨w, st₂, -, h⟩ := bind_ok h
  exact present_ne (pure_ok h).1

/-- The state with a new table. -/
def withTable (st : State) : State := { st with store := (st.store.newTable {}).2 }

theorem newTable_progress {L : Pledge} (hst : st.Footing L R) :
    State.Progress ∅ R st R (withTable st) := .newTable hst.sound hst.holds

theorem newTable_hidden {L : Pledge} (hst : st.Footing L R) :
    (⟨st.store.tables.size⟩ : TableId) ∉ R.tables := fun hmem =>
  absurd (hst.holds.table _ hmem) (Nat.lt_irrefl _)

/-- A new table is out of reach and empty. -/
theorem filled_new (hst : st.Footing (K []) R) :
    Filled K R (withTable st) ⟨st.store.tables.size⟩ [] := by
  have made : (withTable st).store.table ⟨st.store.tables.size⟩ = default := by
    show (st.store.newTable {}).2.table _ = _
    rw [Store.table_newTable, if_pos rfl]
    rfl
  exact ⟨hst.progress (newTable_progress hst) rfl, newTable_hidden hst, by simp [withTable],
    made ▸ Table.exact_default⟩

theorem newNamespace_ok {t : TableId}
    (h : (Environment.host.newNamespace.mapError Fault.host).on st = (.ok t, st')) :
    t = ⟨st.store.tables.size⟩ ∧ st' = withTable st := by
  cases h
  exact ⟨rfl, rfl⟩

/-- The fields of a module in the realm are copied to a new table out of reach. -/
theorem copyFields_copies {L : Pledge} {module : String} {source copy : TableId} {fields : List String}
    (hsource : source ∈ R.tables) (hst : st.Footing L R) (hlt : ns.index < st.store.tables.size)
    (hnodup : fields.Nodup)
    (h : (copyFields Environment.host module source fields).on st = (.ok copy, st')) :
    ∃ R', State.Advance ∅ R st R' st' ∧ st'.Footing L R'
      ∧ Apart ns (·.Exact fields) R' st' copy := by
  obtain ⟨t, st₁, hnew, h⟩ := bind_ok h
  obtain ⟨_, st₂, hcopy, h⟩ := bind_ok h
  obtain ⟨rfl, rfl⟩ := pure_ok h
  obtain ⟨rfl, rfl⟩ := newNamespace_ok hnew
  have advance : State.Advance ∅ R st R (withTable st) := .of_progress (newTable_progress hst) rfl
  have binds : ∀ name ∈ fields, Binds (fun _ => L) R ⟨st.store.tables.size⟩ name
      (fun _ _ _ _ => True)
      (copyField Environment.host module source ⟨st.store.tables.size⟩ name) := fun name _ =>
    bind_present (widens_const L) (fun R₁ hR => (Environment.field_tame (hR.1 hsource) name).mapError)
      fun _ _ _ h => (field_ok h).2
  obtain ⟨R', filled, fills, -⟩ := each_fills id (fun _ _ _ _ _ => True) binds
    (fun _ _ _ _ _ _ _ _ _ => trivial) (by simpa using hnodup) (fun _ _ => List.not_mem_nil)
    (le_refl R) (filled_new hst) hcopy
  refine ⟨R', advance.trans fills.advance ?_, filled.footing, filled.hidden, ?_, filled.lt, ?_⟩
  · rintro _ rfl
    exact .inr (Nat.le_refl _)
  · rintro rfl
    exact Nat.lt_irrefl _ hlt
  · simpa using filled.exact

/-- What a rule binds: if it copies fields, a table of exactly those. -/
def RuleValue (ns : TableId) (r : Rule) (R : Realm) (st : State) (v : Value) : Prop :=
  r.copies → ∃ t, v = .table t ∧ Apart ns (·.Exact r.names) R st t

theorem ruleValue_lasts (ns : TableId) (r : Rule) : Lasts ns (RuleValue ns r) :=
  fun _ _ _ _ _ advance h hr => Apart.lasts ns _ advance (h hr)

/-- A module that is found in the realm is bound as a copy of its fields. -/
theorem expose_binds {R₀ : Realm} {module : String} {fields : List String} (hK : Widens K)
    {m : Attempt State Fault TableId} (hm : ∀ names R, m.Discreet (K names) R Opener.InRealm)
    (hnodup : fields.Nodup) :
    Binds K R₀ ns module (fun _ R st v => ∃ t, v = .table t ∧ Apart ns (·.Exact fields) R st t) (do
      let source ← m
      expose Environment.host ns module source fields) := by
  intro names R st st' _ hst _ hlt hrun
  obtain ⟨source, st₁, hsource, hrun⟩ := bind_ok hrun
  obtain ⟨R₁, advance₁, footing₁, hmem⟩ := (hm names R).ok hst hsource
  obtain ⟨copy, st₂, hcopy, hrun⟩ := bind_ok hrun
  obtain ⟨R₂, advance₂, footing₂, apart⟩ := copyFields_copies hmem footing₁
    (Nat.lt_of_lt_of_le hlt advance₁.tables_size) hnodup hcopy
  exact ⟨R₂, st₂, .table copy, advance₁.trans advance₂ fun _ => .inl, footing₂.mono (hK names module),
    nofun, ⟨copy, rfl, apart⟩, (Prod.mk.inj hrun).2.symm⟩

/-- Rules bind what they are to bind if those for native modules do. -/
theorem apply_binds {R₀ : Realm} {load : NativeLoad State TableId} (hK : Widens K) {r : Rule}
    (hr : r.Sound) (hnative : ∀ module fields, r = .native module fields →
      Binds K R₀ ns module (fun _ => RuleValue ns r) (Assembly.apply Environment.host load ns r)) :
    Binds K R₀ ns r.target (fun _ => RuleValue ns r) (Assembly.apply Environment.host load ns r) := by
  cases r with
  | bare name =>
    refine (bind_present hK (fun R _ => (Environment.global_tame name).mapError)
      fun _ _ _ => global_present).mono fun _ _ _ _ _ hcopies => ?_
    cases hcopies
  | library module fields =>
    exact (expose_binds hK (fun _ R => (Environment.require_tame module).mapError.discreet)
      hr.names_nodup).mono fun _ _ _ _ h _ => h
  | native module fields => exact hnative module fields rfl

end Sandbox

/-! ## Arguments -/

namespace Lua.Table

/-- The table with texts at the keys from `i` on. -/
def setTexts (T : Table) : Nat → List String → Table
  | _, [] => T
  | i, s :: rest => setTexts (T.set (.nat i) (.text s)) (i + 1) rest

theorem nat_injective {i j : Nat} (hi : i < 2 ^ 63) (hj : j < 2 ^ 63) (h : Value.nat i = Value.nat j) :
    i = j := by
  have h : (Int64.ofNat i).toInt = (Int64.ofNat j).toInt := congrArg Int64.toInt (Value.int.inj h)
  rw [Int64.toInt_ofNat_of_lt hi, Int64.toInt_ofNat_of_lt hj] at h
  exact Int.ofNat_inj.1 h

@[simp] theorem metatable_setTexts : ∀ (T : Table) (i : Nat) (texts : List String),
    (T.setTexts i texts).metatable = T.metatable
  | _, _, [] => rfl
  | T, i, s :: rest => by rw [setTexts, metatable_setTexts, metatable_set]

/-- Keys that are not among those set keep their values. -/
theorem get_setTexts_of_ne {k : Value} : ∀ (texts : List String) (T : Table) (i : Nat),
    (∀ j < texts.length, k ≠ .nat (i + j)) → (T.setTexts i texts).get k = T.get k
  | [], _, _, _ => rfl
  | s :: rest, T, i, h => by
    have hfirst : k ≠ .nat i := h 0 (by simp)
    have hrest : ∀ j < rest.length, k ≠ .nat (i + 1 + j) := fun j hj => by
      have hne := h (j + 1) (by simpa using hj)
      rwa [show i + 1 + j = i + (j + 1) by omega]
    rw [setTexts, get_setTexts_of_ne rest _ _ hrest, get_set_of_ne _ hfirst]

/-- The texts stand at their keys, if keys do not run over. -/
theorem get_setTexts : ∀ (texts : List String) (T : Table) (i : Nat), i + texts.length ≤ 2 ^ 63 →
    ∀ j (h : j < texts.length), (T.setTexts i texts).get (.nat (i + j)) = .text texts[j]
  | [], _, _, _, _, h => absurd h (Nat.not_lt_zero _)
  | s :: rest, T, i, hroom, 0, _ => by
    rw [List.length_cons] at hroom
    rw [setTexts, get_setTexts_of_ne rest, Nat.add_zero, get_set_self]
    · rfl
    · intro j hj he
      have := nat_injective (by omega) (by omega) he
      omega
  | s :: rest, T, i, hroom, j + 1, h => by
    rw [List.length_cons] at hroom h
    have ih := get_setTexts rest (T.set (.nat i) (.text s)) (i + 1) (by omega) j (by omega)
    rw [setTexts, show i + (j + 1) = i + 1 + j by omega, ih]
    rfl

theorem keys_setTexts : ∀ (texts : List String) (T : Table) (i : Nat),
    (T.setTexts i texts).keys = T.keys ∪ {k | ∃ j < texts.length, k = .nat (i + j)}
  | [], T, i => by simp [setTexts]
  | s :: rest, T, i => by
    have hs : Value.text s ≠ .nil := nofun
    rw [setTexts, keys_setTexts rest, keys_set hs]
    ext k
    simp only [Set.mem_union, Set.mem_insert_iff, Set.mem_ofPred_eq, List.length_cons]
    constructor
    · rintro ((rfl | hk) | ⟨j, hj, rfl⟩)
      · exact .inr ⟨0, by omega, rfl⟩
      · exact .inl hk
      · exact .inr ⟨j + 1, by omega, by rw [show i + 1 + j = i + (j + 1) by omega]⟩
    · rintro (hk | ⟨_ | j, hj, rfl⟩)
      · exact .inl (.inr hk)
      · exact .inl (.inl rfl)
      · exact .inr ⟨j, by omega, by rw [show i + 1 + j = i + (j + 1) by omega]⟩

/-- A table that has the texts in order from the key 1 on, and nothing else. -/
structure Lists (T : Table) (texts : List String) : Prop where
  bare : T.metatable = none
  get : ∀ j (h : j < texts.length), T.get (.nat (j + 1)) = .text texts[j]
  keys : T.keys = {k | ∃ j < texts.length, k = .nat (j + 1)}

theorem lists_setTexts {texts : List String} (h : texts.length < 2 ^ 63) :
    (Table.setTexts default 1 texts).Lists texts where
  bare := by
    rw [metatable_setTexts]
    rfl
  get j hj := by
    rw [Nat.add_comm j 1]
    exact get_setTexts texts default 1 (by omega) j hj
  keys := by
    rw [keys_setTexts, keys_default, Set.empty_union]
    simp only [Nat.add_comm]

end Lua.Table

namespace Sandbox

/-- Texts are set in a table out of reach. -/
theorem setTexts_progress {t : TableId} (ht : t ∉ R.tables) : ∀ (texts : List String) (i : Nat)
    {st : State}, st.Sound R → t.index < st.store.tables.size →
      ∃ st', (setTexts t i texts).on st = (.ok (), st') ∧ State.Progress {t} R st R st'
        ∧ st'.store.natives = st.store.natives
        ∧ st'.store.table t = (st.store.table t).setTexts i texts
  | [], _, st, hst, _ => ⟨st, rfl, .refl hst, rfl, rfl⟩
  | s :: rest, i, st, hst, hlt => by
    let st₁ : State := { st with store := st.store.modifyTable t (·.set (.nat i) (.text s)) }
    have hset : (Action.modify (·.modifyTable t (·.set (.nat i) (.text s)))).on st = (.ok (), st₁) := rfl
    have progress : State.Progress {t} R st R st₁ := .write hst ht _
    obtain ⟨st', hrest, progress', natives, same⟩ := setTexts_progress ht rest (i + 1) progress.sound
      (Nat.lt_of_lt_of_le hlt progress.tables_size)
    refine ⟨st', (bind_on hset).trans hrest, progress.trans progress' fun _ => .inl, natives, ?_⟩
    rw [same, Store.table_modifyTable_self hlt]
    rfl

/-- A function that does what a function of the host does, and that the realm does not have. -/
structure Calls (f : HostFunction) (R : Realm) (st : State) (g : FuncId) : Prop where
  hidden : g ∉ R.functions
  lt : g.index < st.store.functions.size
  calls : ∃ n, st.store.function g = .callback n ∧ st.callbacks[n]? = some f.run

theorem calls_lasts (ns : TableId) (f : HostFunction) :
    Lasts ns fun R st v => ∃ g, v = .func g ∧ Calls f R st g := by
  rintro R st R' st' v advance ⟨g, rfl, hidden, lt, n, hfunction, hcallback⟩
  refine ⟨g, rfl, advance.not_mem_function hidden lt, Nat.lt_of_lt_of_le lt advance.functions_size, n, ?_, ?_⟩
  · rw [advance.function g hidden lt, hfunction]
  · obtain ⟨hn, -⟩ := Array.getElem?_eq_some_iff.1 hcallback
    rw [advance.callback n hn, hcallback]

/-- A function of the host needs no promise: nothing that runs while the sandbox is built reaches it. -/
theorem bindFunction_binds {R₀ : Realm} (hK : Widens K) (f : HostFunction) :
    Binds K R₀ ns f.name (fun _ R st v => ∃ g, v = .func g ∧ Calls f R st g) (bindFunction ns f) := by
  intro names R st st' _ hst _ _ hrun
  have progress : State.Progress ∅ R st R ((Action.newCallback f.run).on st).2 :=
    .newCallback hst.sound hst.holds f.run
  refine ⟨R, _, .func ⟨st.store.functions.size⟩, .of_progress progress rfl,
    (hst.progress progress rfl).mono (hK names f.name), nofun, ⟨_, rfl, fun hmem => ?_, ?_, ?_⟩,
    (Prod.mk.inj hrun).2.symm⟩
  · exact absurd (hst.holds.function _ hmem) (Nat.lt_irrefl _)
  · show st.store.functions.size < (st.store.functions.push _).size
    simp
  · refine ⟨st.callbacks.size, ?_, ?_⟩
    · show (st.store.newFunction _).2.function _ = _
      rw [Store.function_newFunction, if_pos rfl]
    · show (st.callbacks.push f.run)[st.callbacks.size]? = _
      simp

/-- The table of a script module, once its file was read or could not be. -/
def scriptContent (directory name : String) : Except FileError Bytes → Attempt State Fault TableId
  | .error e => Attempt.fail (.scriptModule name (scriptPath directory name ++ ": " ++ e.message))
  | .ok source => do
    let vs ← (Action.evaluate source (Bytes.ofText ("@" ++ scriptPath directory name))
      Action.textMode).mapError fun f => .scriptModule name f.message
    match Run.first vs with
    | .table t => return t
    | v =>
      Attempt.fail (.scriptModule name ("returned a " ++ v.fineTypeName ++ " instead of a table"))

/-- What the file of a script module answers, after it was noted that it is tried. -/
def scriptAnswer (directory name : String) : Attempt State Fault TableId := do
  let content ← hosted (Action.read fun s => s.files.read (scriptPath directory name))
  scriptContent directory name content

theorem scriptTable_eq (directory name : String) : scriptTable directory name = (do
    hosted (Action.modify fun s => { s with tried := scriptPath directory name :: s.tried })
    scriptAnswer directory name) := rfl

theorem scriptAnswer_tame (directory name : String) :
    (scriptAnswer directory name).Tame R Opener.InRealm := by
  have hread : (hosted (Action.read fun s =>
      s.files.read (scriptPath directory name))).Tame R fun _ _ => True :=
    .mapError (.read fun _ _ => trivial)
  refine .bind hread fun content R₁ _ _ => ?_
  cases content with
  | error e => exact .fail _
  | ok source =>
    have hrun : ((Action.evaluate source (Bytes.ofText ("@" ++ scriptPath directory name))
        Action.textMode).mapError fun f => Fault.scriptModule name f.message).Tame R₁ Realm.HasAll :=
      .mapError (.evaluate _ _ _)
    refine .bind hrun fun vs R₂ _ hvs => ?_
    have hfirst := Evaluate.first_has hvs
    split
    · rename_i t ht
      rw [ht] at hfirst
      exact .pure hfirst
    · exact .fail _

theorem scriptTable_discreet {L : Pledge} (directory name : String) :
    (scriptTable directory name).Discreet L R Opener.InRealm := by
  have htried : (hosted (Action.modify fun s =>
      { s with tried := scriptPath directory name :: s.tried })).Discreet L R fun _ _ => True := by
    intro st hst
    have noted : State.Progress ∅ R st R { st with store := { st.store with
        tried := scriptPath directory name :: st.store.tried } } := .note hst.sound _ _ _
    exact ⟨R, .of_progress noted rfl, hst.progress noted rfl, fun _ _ => trivial⟩
  rw [scriptTable_eq]
  exact .bind htried fun _ _ _ _ => (scriptAnswer_tame directory name).discreet

/-- The value of a script module is the table that its file answered, when it was its turn. -/
theorem bindScript_binds {R₀ : Realm} (hK : Widens K) (directory name : String) :
    Binds K R₀ ns name (fun st _ _ v => ∃ t st₁, v = .table t
      ∧ (scriptTable directory name).on st = (.ok t, st₁)) (bindScript directory ns name) := by
  intro names R st st' _ hst _ _ hrun
  obtain ⟨t, st₁, htable, hrun⟩ := bind_ok hrun
  obtain ⟨R₁, advance, footing, -⟩ := (scriptTable_discreet directory name).ok hst htable
  exact ⟨R₁, st₁, .table t, advance, footing.mono (hK names name), nofun, ⟨t, st₁, rfl, htable⟩,
    (Prod.mk.inj hrun).2.symm⟩

/-- The arguments are set one by one in a table of their own. -/
theorem bindArgs_binds {R₀ : Realm} (hK : Widens K) {args : List String} (hne : args ≠ []) :
    Binds K R₀ ns Config.argsName
      (fun _ R st v => ∃ t, v = .table t ∧ Apart ns (· = Table.setTexts default 1 args) R st t)
      (bindArgs ns args) := by
  intro names R st st' _ hst _ hlt hrun
  -- the table is made, filled while nothing refers to it, and put in last
  have made : (withTable st).store.table ⟨st.store.tables.size⟩ = default := by
    show (st.store.newTable {}).2.table _ = _
    rw [Store.table_newTable, if_pos rfl]
    rfl
  have progress₁ := newTable_progress hst
  have hidden := newTable_hidden hst
  have lt : st.store.tables.size < (withTable st).store.tables.size := by
    simp [withTable]
  obtain ⟨st₂, hset, progress₂, natives, same⟩ := setTexts_progress hidden args 1 progress₁.sound lt
  have hbind : (bindArgs ns args).on st
      = (.ok (), st₂.setField ns Config.argsName (.table ⟨st.store.tables.size⟩)) := by
    unfold bindArgs
    rw [if_neg (by simpa using hne), hosted, on_mapError]
    have hnew : Action.newTable.on st
        = (.ok ⟨st.store.tables.size⟩, withTable st) := rfl
    rw [bind_on hnew, bind_on hset]
    rfl
  obtain ⟨-, rfl⟩ := Prod.mk.inj (hbind.symm.trans hrun)
  have progress : State.Progress ∅ R st R st₂ := progress₁.trans progress₂ (by
    rintro _ rfl
    exact .inr (Nat.le_refl _))
  refine ⟨R, st₂, .table ⟨st.store.tables.size⟩, .of_progress progress natives,
    (hst.progress progress natives).mono (hK names _), nofun, ⟨_, rfl, hidden, ?_,
    Nat.lt_of_lt_of_le lt progress₂.tables_size, ?_⟩, rfl⟩
  · rintro rfl
    exact Nat.lt_irrefl _ hlt
  · rw [same, made]

end Sandbox

end Enclosure
