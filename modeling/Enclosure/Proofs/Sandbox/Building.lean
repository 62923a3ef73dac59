import Enclosure.Proofs.Lua.Action
import Enclosure.Proofs.Sandbox.Ground
import Enclosure.Sandbox

/-!
# Sandboxes of the standard policy

With the standard policy and nothing on top of it but arguments, building a sandbox succeeds. From the
ground on every step of it puts only what the policy grants into tables of its own, so that the sandbox
begins confined (`create_standard`).
-/

namespace Enclosure.Sandbox

open Lua

/-- The standard policy with arguments and no native modules, script modules or functions of the host. -/
def standardConfig (args : List String) (capturesOutput : Bool) (modulePath : String)
    (allowed : Option (List String)) : Config :=
  { args, capturesOutput, modulePath, allowed }

/-- An attempt that succeeds in every confined state and leaves a confined one. -/
abbrev Succeeds {ε α : Type} (Z : Zone) (m : Attempt State ε α) : (α → Prop) → Prop :=
  Attempt.Succeeds (Z.Confined ·.store) m

variable {Z : Zone} {ε α : Type} {P : α → Prop}

/-! ## Actions -/

namespace Succeeds

theorem read {f : Store → α} (h : ∀ s, Z.Confined s → P (f s)) : Succeeds Z (Action.read f) P :=
  fun st hs => ⟨_, st, rfl, h _ hs, hs⟩

theorem modify {f : Store → Store} (h : ∀ s, Z.Confined s → Z.Confined (f s)) :
    Succeeds Z (Action.modify f) fun _ => True := fun _ hs => ⟨(), _, rfl, trivial, h _ hs⟩

theorem newTable : Succeeds Z Action.newTable fun t => Z.Public (.table t) :=
  fun _ hs => ⟨_, _, rfl, .inl hs.tables_size, hs.newTable Table.All.default rfl⟩

theorem rawSetText {t : TableId} (ht : Z.Public (.table t)) (name : String) {v : Value}
    (hv : Z.Public v) : Succeeds Z (Action.rawSetText t name v) fun _ => True :=
  .modify fun _ hs => hs.set ht trivial hv

theorem globals : Succeeds Z Action.globals (· = Z.base.globals) := .read fun _ hs => hs.globals

/-- What is hidden from scripts is read as it was. -/
theorem rawGetText {t : TableId} (ht : ¬ Z.Public (.table t)) (name : String) :
    Succeeds Z (Action.rawGetText t name) (· = Z.base.rawGet t (.text name)) :=
  read (f := fun s => s.rawGet t (.text name)) fun _ hs => hs.rawGet_hidden ht _

theorem attempt {m : Lua.Action α} (h : Succeeds Z m P) : Succeeds Z (Environment.attempt m) P :=
  h.mapError

theorem bindName {t : TableId} (ht : Z.Public (.table t)) (name : String) {v : Value}
    (hv : Z.Public v) : Succeeds Z (Environment.bind t name v) fun _ => True :=
  .attempt (.rawSetText ht name hv)

end Succeeds

/-! ## What the policy finds -/

theorem require_loaded {s : Store} {captured : Array Value} {module : String} {t : TableId}
    (hbare : (s.table s.loaded).metatable = none)
    (hget : s.rawGet s.loaded (.text module) = .table t) :
    Library.Package.require captured [.text module] s = .done [.table t] s := by
  have hname : Args.string [.text module] 1 s = .done (Bytes.ofText module) s := rfl
  have hloaded : Run.read (fun s => Value.table s.loaded) s = .done (.table s.loaded) s := rfl
  have hindex := Operation.index_behind (.nothing hbare) .library none (.text module)
  have hfound : s.getThrough s.loaded none (.text module) = .table t := by
    unfold Store.getThrough
    rw [hget]
    rfl
  rw [hfound] at hindex
  exact (Run.bind_done hname).trans ((Run.bind_done hloaded).trans ((Run.bind_done hindex).trans rfl))

section

variable {s : Store} {u lib e t : TableId} (ground : Ground s)

include ground

theorem global_succeeds (name : String) :
    Succeeds (zone s u lib e) (Environment.global name)
      (· = Environment.present (s.rawGet s.globals (.text name))) := by
  refine Succeeds.attempt (.bind Succeeds.globals ?_)
  rintro _ rfl
  refine .bind (Succeeds.rawGetText (table_hidden ground.globals_lt) name) ?_
  rintro _ rfl
  exact .pure rfl

theorem require_succeeds {module : String} (hget : s.rawGet s.loaded (.text module) = .table t) :
    Succeeds (zone s u lib e) (Environment.require module) (· = t) := by
  obtain ⟨f, captured, hf, offers⟩ := ground.require
  have hcall : Succeeds (zone s u lib e) (Environment.attempt (Action.call (.func f) [.text module]))
      (· = [.table t]) := by
    refine Succeeds.attempt fun st hs => ⟨_, st, ?_, rfl, hs⟩
    have hsame : st.store.loaded = s.loaded := hs.loaded
    have hhidden : ¬ (zone s u lib e).Public (.table s.loaded) := table_hidden ground.loaded_lt
    have hbare : (st.store.table st.store.loaded).metatable = none := by
      rw [hsame, hs.hidden _ hhidden]
      exact ground.loaded_bare
    have hloaded : st.store.rawGet st.store.loaded (.text module) = .table t := by
      rw [hsame, hs.rawGet_hidden hhidden]
      exact hget
    -- scripts do not have the function that loads modules, so it is what it was
    have hfunction : st.store.function f = .builtin (.package .require) captured :=
      (hs.hiddenFunction f (function_hidden offers rfl)).trans offers.function
    have hstart : Machine.start st.functions st.threads (Run.call (.func f) [.text module] {}) st.store
        = .returned [.table t] st.store st.threads :=
      Machine.start_call rfl hfunction (require_loaded hbare hloaded) rfl
    show st.run (Run.call (.func f) [.text module] {}) = _
    unfold State.run State.runRaw
    rw [hstart]
  have hread : Succeeds (zone s u lib e)
      (Environment.attempt do Action.rawGetText (← Action.globals) "require") (· = .func f) := by
    refine Succeeds.attempt (.bind Succeeds.globals ?_)
    rintro _ rfl
    exact (Succeeds.rawGetText (table_hidden ground.globals_lt) _).mono fun _ h => h.trans hf
  refine .bind hread ?_
  rintro _ rfl
  refine .bind hcall ?_
  rintro _ rfl
  exact .pure rfl

omit ground in
/-- A field of a table without a metatable, which scripts do not have. -/
theorem field_succeeds (hlt : t.index < s.tables.size) (hbare : (s.table t).metatable = none)
    (name : String) : Succeeds (zone s u lib e) (Environment.field t name)
      (· = Environment.present (s.rawGet t (.text name))) := by
  have hget : Succeeds (zone s u lib e) (Action.get (.table t) (.text name))
      (· = s.rawGet t (.text name)) := by
    intro st hs
    have hhidden : ¬ (zone s u lib e).Public (.table t) := table_hidden hlt
    have hbehind : st.store.Behind t none := .nothing (by rw [hs.hidden t hhidden]; exact hbare)
    refine ⟨_, st, Action.get_behind hbehind _, ?_, hs⟩
    unfold Store.getThrough
    rw [hs.rawGet_hidden hhidden]
    split_ifs with hn
    · exact (Value.isNil_iff.1 hn).symm
    · rfl
  refine Succeeds.attempt (.bind hget ?_)
  rintro _ rfl
  exact .pure rfl

/-! ## Filling the environment -/

omit ground in
theorem copyFields_succeeds {module : String} (hlt : t.index < s.tables.size)
    (hbare : (s.table t).metatable = none) {names : List String}
    (hnames : ∀ name ∈ names, Grants s (s.rawGet t (.text name))) :
    Succeeds (zone s u lib e) (Assembly.copyFields Environment.host module t names)
      fun copy => (zone s u lib e).Public (.table copy) := by
  refine .bind (.mapError (Succeeds.attempt Succeeds.newTable)) fun copy hcopy => ?_
  refine .bind (.each fun name hname => ?_) fun _ _ => .pure hcopy
  have granted := hnames name hname
  refine .bind (.mapError (field_succeeds hlt hbare name)) ?_
  rintro _ rfl
  refine .bind (P := (· = s.rawGet t (.text name))) (.orFail ?_ rfl) ?_
  · unfold Environment.present
    rw [granted.isNil]
    rfl
  · rintro _ rfl
    exact .mapError (Succeeds.bindName hcopy name (public_of_grants granted))

theorem apply_succeeds (load : NativeLoad State TableId) {env : TableId}
    (henv : (zone s u lib e).Public (.table env)) {r : Rule} (hr : Granted s r) :
    Succeeds (zone s u lib e) (Assembly.apply Environment.host load env r) fun _ => True := by
  cases r with
  | bare name =>
    refine .bind (.mapError (global_succeeds ground name)) ?_
    rintro _ rfl
    refine .bind (P := (· = s.rawGet s.globals (.text name))) (.orFail ?_ rfl) ?_
    · unfold Environment.present
      rw [Grants.isNil hr]
      rfl
    · rintro _ rfl
      exact .mapError (Succeeds.bindName henv name (public_of_grants hr))
  | library module names =>
    obtain ⟨t, hget, hlt, -, hbare, hnames⟩ := hr
    refine .bind (.mapError (require_succeeds ground hget)) ?_
    rintro _ rfl
    refine .bind (copyFields_succeeds hlt hbare hnames) fun copy hcopy => ?_
    exact .mapError (Succeeds.bindName henv module hcopy)
  | native module names => exact hr.elim

theorem assemble_succeeds (load : NativeLoad State TableId) :
    Succeeds (zone s u lib e) (Assembly.assemble Environment.host load .standard)
      fun env => (zone s u lib e).Public (.table env) :=
  .bind (.mapError (Succeeds.attempt Succeeds.newTable)) fun _ henv =>
    .bind (.each fun r hr => apply_succeeds ground load henv (ground.granted r hr)) fun _ _ =>
      .pure henv

end

/-! ## The arguments -/

theorem setTexts_succeeds {t : TableId} (ht : Z.Public (.table t)) :
    ∀ (i : Nat) (args : List String), Succeeds Z (setTexts t i args) fun _ => True
  | _, [] => .pure trivial
  | i, _ :: rest => .bind (Succeeds.modify fun _ hs => hs.set ht trivial trivial) fun _ _ =>
    setTexts_succeeds ht (i + 1) rest

theorem bindArgs_succeeds {env : TableId} (henv : Z.Public (.table env)) (args : List String) :
    Succeeds Z (bindArgs env args) fun _ => True := by
  unfold bindArgs
  split_ifs
  · exact .pure trivial
  · refine .mapError (.bind Succeeds.newTable fun t ht => ?_)
    refine .bind (setTexts_succeeds ht 1 args) fun _ _ => ?_
    exact Succeeds.rawSetText henv _ ht

/-! ## The whole -/

/-- Where the output is captured, the function that prints holds the one that gives texts. -/
theorem capturePrint_on (st : State) (ground : Ground st.store) :
    ∃ st', capturePrint.on st = (.ok (), st') ∧ Ground st'.store := by
  let s := st.store
  let toText := s.rawGet s.globals (.text "tostring")
  have hmade : (Action.newBuiltin (.guard .print) [toText]).on st = (.ok (.func ⟨s.functions.size⟩),
      { st with store := (s.newFunction (.builtin (.guard .print) #[toText])).2 }) :=
    Action.runFirst_done (m := do return [← Run.newBuiltin (.guard .print) [toText]]) rfl
  have hon : capturePrint.on st = (.ok (), { st with
      store := s.addFunction s.globals "print" (.guard .print) #[toText] }) := by
    have hread : (Action.rawGetText s.globals "tostring").on st = (.ok toText, st) := rfl
    have hglobals : Action.globals.on st = (.ok s.globals, st) := rfl
    unfold capturePrint hosted
    rw [Attempt.on_mapError, Attempt.bind_on hglobals, Attempt.bind_on hread, Attempt.bind_on hmade]
    rfl
  have builds : Store.Builds [s.globals] ["print"] s _ :=
    (Store.Builds.refl ..).addFunction (t := s.globals) "print" (.inr (by simp)) (.guard .print)
      #[toText]
  refine ⟨_, hon, ground.extend builds ?_⟩
  show Grants _ (Store.rawGet _ s.globals _)
  rw [Store.addFunction_get ground.globals_lt]
  refine .func ⟨rfl, Store.addFunction_offers s s.globals "print" _ _, fun v hv => ?_⟩
  obtain rfl := List.mem_singleton.1 hv
  exact ground.toText.extend builds.toExtends

theorem defect_standard (args : List String) (capturesOutput : Bool) (modulePath : String)
    (allowed : Option (List String)) :
    (standardConfig args capturesOutput modulePath allowed).defect = none := by
  cases args with
  | nil => rfl
  | cons =>
    show Config.bindingDefect Policy.standard.targets [⟨Config.argsName, false⟩] = none
    decide

/-- A state of which scripts are confined to a zone that has none of the tables of its ground. -/
structure Enclosed (s : Store) (u lib e : TableId) (st : State) (env : TableId) : Prop where
  ground : Ground s
  strings : Fresh.Strings s u lib
  failures : Fresh.Failures s e
  confined : (zone s u lib e).Confined st.store
  env : (zone s u lib e).Public (.table env)

theorem build_standard (args : List String) (capturesOutput : Bool) (modulePath : String)
    (allowed : Option (List String)) {st : State} (ground : Ground st.store) :
    ∃ env st' s u lib e, (build (standardConfig args capturesOutput modulePath allowed)).on st
      = (.ok env, st') ∧ Enclosed s u lib e st' env := by
  let c := standardConfig args capturesOutput modulePath allowed
  let rest : Attempt State Fault TableId := do
    let env ← Assembly.assemble Environment.host c.loader.native c.policy
    Attempt.each (bindTrusted c.loader env) c.trusted
    Attempt.each (bindFunction env) c.functions
    Attempt.each (bindScript c.modulePath env) c.scriptModules
    bindArgs env c.args
    return env
  obtain ⟨st₁, ground₁, hbuild⟩ :
      ∃ st₁, Ground st₁.store ∧ (build c).on st = rest.on st₁ := by
    cases capturesOutput with
    | false => exact ⟨st, ground, rfl⟩
    | true =>
      obtain ⟨st₁, hprint, ground₁⟩ := capturePrint_on st ground
      exact ⟨st₁, ground₁, Attempt.bind_on hprint⟩
  obtain ⟨u, lib, strings, -⟩ := ground₁.strings
  obtain ⟨e, failures, -⟩ := ground₁.failures
  have succeeds : Succeeds (zone st₁.store u lib e) rest
      fun env => (zone st₁.store u lib e).Public (.table env) :=
    .bind (assemble_succeeds ground₁ _) fun env henv => .bind (.each nofun) fun _ _ =>
      .bind (.each nofun) fun _ _ => .bind (.each nofun) fun _ _ =>
        .bind (bindArgs_succeeds henv args) fun _ _ => .pure henv
  obtain ⟨env, st', hrest, henv, hs⟩ := succeeds st₁ (base_confined ..)
  exact ⟨env, st', st₁.store, u, lib, e, hbuild.trans hrest, ground₁, strings, failures, hs, henv⟩

/-- Building a sandbox of the standard policy succeeds. -/
theorem create_standard (args : List String) (capturesOutput : Bool) (modulePath : String)
    (allowed : Option (List String)) (around : Surroundings) : ∃ sb s u lib e,
      create (standardConfig args capturesOutput modulePath allowed) around = (.ok sb, sb.state)
        ∧ Enclosed s u lib e sb.state sb.env := by
  obtain ⟨env, st, s, u, lib, e, hbuild, enclosed⟩ :=
    build_standard args capturesOutput modulePath allowed (ground_fresh around)
  refine ⟨⟨st, env, capturesOutput⟩, s, u, lib, e, ?_, enclosed⟩
  unfold create
  rw [defect_standard]
  dsimp only
  rw [hbuild]
  rfl

end Enclosure.Sandbox
