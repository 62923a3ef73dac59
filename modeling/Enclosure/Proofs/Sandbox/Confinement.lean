import Enclosure.Proofs.Confinement.State
import Enclosure.Proofs.Sandbox.Building

/-!
# Confinement of scripts

Whatever scripts a sandbox of the standard policy runs, and whether they end or fail, the tables of the
full environment stay as they were: the globals, the loaded modules, and every library. No script gets
hold of one of them, and nothing that a script leaves behind or returns leads to one (`scripts_confined`).
-/

namespace Enclosure

open Lua

/-! ## What leads to what -/

namespace Lua.Store

/-- One value leads to another at once: by a table's entry or metatable, or by a variable that a
function of a script has. The metatable that all strings share is not followed. -/
inductive Leads (s : Store) : Value → Value → Prop
  | key {t : TableId} {k : Value} (h : (s.table t).get k ≠ .nil) : Leads s (.table t) k
  | entry {t : TableId} {k : Value} (h : (s.table t).get k ≠ .nil) :
    Leads s (.table t) ((s.table t).get k)
  | metatable {t m : TableId} (h : (s.table t).metatable = some m) : Leads s (.table t) (.table m)
  | upvalue {f : FuncId} {body : FuncBody} {env : List CellId} {chunk : Bytes} {c : CellId}
    (h : s.function f = .closure body env chunk) (hc : c ∈ env) : Leads s (.func f) (s.cell c)

/-- A value leads to another in some steps, or is the same. -/
def Reaches (s : Store) : Value → Value → Prop := Relation.ReflTransGen s.Leads

end Lua.Store

namespace Sandbox

/-! ## Turns -/

/-- What the host has a sandbox do. -/
inductive Turn
  | exec (source chunk : String)
  | eval (source chunk : String)
  /-- Calls a function of the environment with nil, booleans, numbers and strings. -/
  | call (function : String) (args : List Literal)

/-- The values that a turn returns. -/
def Turn.run : Turn → Use (List Value)
  | .exec source chunk => do
    Sandbox.exec source chunk
    return []
  | .eval source chunk => Sandbox.eval source chunk
  | .call function args => Sandbox.call function (args.map Literal.value)

/-- The sandbox after some turns, and all that they returned. A turn that fails returns nothing. -/
def play : List Turn → Sandbox → List Value × Sandbox
  | [], sb => ([], sb)
  | turn :: rest, sb =>
    let (answer, sb) := turn.run.on sb
    let (returned, sb) := play rest sb
    (answer.toOption.getD [] ++ returned, sb)

/-- The libraries of the full environment. -/
def libraries : List String :=
  ["package", "coroutine", "table", "io", "os", "string", "math", "utf8"]

/-- The tables of the full environment: the globals, the loaded modules, and the libraries. -/
def originals (s : Store) : List Value :=
  .table s.globals :: .table s.loaded :: libraries.map fun name => s.rawGet s.loaded (.text name)

variable {s : Store} {u lib e env t : TableId} {sb : Sandbox} {st : State} {ε α : Type} {v w : Value}

/-! ## What scripts reach -/

theorem Enclosed.public_of_leads (h : Enclosed s u lib e st env) (hv : (zone s u lib e).Public v)
    (hl : st.store.Leads v w) : (zone s u lib e).Public w := by
  cases hl with
  | key hk => exact (h.confined.table _ hv).entries.key hk
  | entry _ => exact (h.confined.table _ hv).entries.get trivial _
  | @metatable t m hm =>
    have holds := h.confined.table t hv
    -- no table of the ground is public, and a table made later does not have a lock
    have hnew : s.tables.size ≤ t.index := hv.resolve_right (nomatch ·)
    refine (holds.metatable m hm).resolve_right fun hlock => ?_
    have hbase : (s.table t).metatable = some m := (holds.locked m hlock).1 hm
    rw [Store.table_of_le hnew] at hbase
    cases hbase
  | upvalue hf hc =>
    have hruns := h.confined.function _ hv
    rw [hf] at hruns
    cases hruns with
    | closure _ henv => exact h.confined.cell _ (henv _ hc)

theorem Enclosed.public_of_reaches (h : Enclosed s u lib e st env)
    (hv : (zone s u lib e).Public v) (hr : st.store.Reaches v w) : (zone s u lib e).Public w := by
  induction hr with
  | refl => exact hv
  | tail _ hl ih => exact h.public_of_leads ih hl

theorem Enclosed.not_reaches (h : Enclosed s u lib e st env) (hv : (zone s u lib e).Public v)
    (ht : t.index < s.tables.size) : ¬ st.store.Reaches v (.table t) := fun hr =>
  table_hidden ht (h.public_of_reaches hv hr)

/-! ## What turns keep -/

theorem call_keeps {f : Value} {args : List Value} (hf : (zone s u lib e).Public f)
    (hargs : (zone s u lib e).Publics args) :
    Attempt.Keeps (Enclosed s u lib e · env) (Action.call f args) (zone s u lib e).Publics := by
  intro st h
  have hsafe := State.run_safe (zone_sound h.strings h.failures)
    (zone_serves h.strings h.failures h.ground.cells st) (.call hf.callable hargs {}) h.confined
  exact ⟨{ h with confined := hsafe.1 }, hsafe.2⟩

theorem load_keeps (source name : Bytes) :
    Attempt.Keeps (Enclosed s u lib e · env) (Action.load source name Action.textMode env)
      (zone s u lib e).Public := by
  intro st h
  have scripted := zone_scripted h.strings h.failures h.ground.cells
  have hload := Chunk.load_safe scripted.closures scripted.own source name h.env st.store h.confined
  unfold Action.load Attempt.on
  split
  · exact ⟨h, nofun⟩
  · dsimp only
    generalize Chunk.load source name Action.textMode (.table env) 0 st.store = r at hload
    cases hload with
    | @done a store hs hf =>
      cases a with
      | error => exact ⟨{ h with confined := hs }, nofun⟩
      | ok f =>
        refine ⟨{ h with confined := hs }, ?_⟩
        rintro _ ⟨⟩
        exact hf f rfl
    | raise hs => exact ⟨{ h with confined := hs }, nofun⟩
    | ask hs => exact ⟨{ h with confined := hs }, nofun⟩

/-- A result in any type is made of values that scripts may hold. -/
def Given (Z : Zone) {R : Type} [OfResults R] (a : R) : Prop :=
  ∃ vs s, Z.Publics vs ∧ OfResults.ofResults s vs = .ok a

variable {R : Type} [OfResults R]

theorem convert_keeps {vs : List Value} (hvs : (zone s u lib e).Publics vs) :
    Attempt.Keeps (Enclosed s u lib e · env) (convert vs : Lua.Action R) (Given (zone s u lib e)) :=
  fun st h => ⟨h, fun _ ha => ⟨vs, st.store, hvs, ha⟩⟩

/-- A sandbox whose scripts are confined. -/
structure Encloses (s : Store) (u lib e env : TableId) (sb : Sandbox) : Prop where
  same : sb.env = env
  state : Enclosed s u lib e sb.state env

theorem acting_on (fault : Failure → Fault) (m : Lua.Action α) (sb : Sandbox) :
    (acting fault m).on sb
      = ((m.on sb.state).1.mapError fault, { sb with state := (m.on sb.state).2 }) := by
  simp only [acting, Attempt.of, Attempt.on]
  rcases m sb.state with ⟨_ | _, _⟩ <;> rfl

theorem acting_keeps {fault : Failure → Fault} {m : Lua.Action α} {P : α → Prop}
    (hm : Attempt.Keeps (Enclosed s u lib e · env) m P) :
    Attempt.Keeps (Encloses s u lib e env) (acting fault m) P := by
  rintro sb ⟨rfl, h⟩
  obtain ⟨hstate, ha⟩ := hm sb.state h
  rw [acting_on]
  refine ⟨⟨rfl, hstate⟩, fun a he => ha a ?_⟩
  generalize (m.on sb.state).1 = answer at he
  cases answer <;> cases he
  rfl

theorem finish_keeps (chunk : String) {f : Value} {args : List Value}
    (hf : (zone s u lib e).Public f) (hargs : (zone s u lib e).Publics args) :
    Attempt.Keeps (Encloses s u lib e env) (finish chunk f args : Use R) (Given (zone s u lib e)) :=
  acting_keeps (.bind (call_keeps hf hargs) fun _ => convert_keeps)

theorem run_keeps (source name : Bytes) (chunk : String) :
    Attempt.Keeps (Encloses s u lib e env) (Sandbox.run source name chunk : Use R)
      (Given (zone s u lib e)) := by
  refine .bind (P := (· = env)) (.read fun _ h => h.same) ?_
  rintro _ rfl
  exact .bind (acting_keeps (load_keeps source name)) fun f hf =>
    finish_keeps chunk hf Zone.publics_nil

theorem callNamed_keeps (function : String) {args : List Value}
    (hargs : (zone s u lib e).Publics args) :
    Attempt.Keeps (Encloses s u lib e env) (Sandbox.call function args : Use R)
      (Given (zone s u lib e)) := by
  refine .bind (P := (zone s u lib e).Public) (.read fun sb h => ?_) fun v hv => ?_
  · exact h.state.confined.rawGet (h.same ▸ h.state.env) _
  · split
    · exact finish_keeps function hv hargs
    · exact .fail _

theorem turn_keeps (turn : Turn) :
    Attempt.Keeps (Encloses s u lib e env) turn.run (zone s u lib e).Publics := by
  have plain {m : Use (List Value)}
      (hm : Attempt.Keeps (Encloses s u lib e env) m (Given (zone s u lib e))) :
      Attempt.Keeps (Encloses s u lib e env) m (zone s u lib e).Publics := by
    refine hm.mono fun vs hvs => ?_
    obtain ⟨ws, _, hws, he⟩ := hvs
    cases he
    exact hws
  cases turn with
  | exec source chunk => exact .bind (run_keeps _ _ chunk) fun _ _ => .pure Zone.publics_nil
  | eval source chunk => exact plain (run_keeps _ _ chunk)
  | call function args =>
    refine plain (callNamed_keeps function fun v hv => ?_)
    obtain ⟨l, -, rfl⟩ := List.mem_map.1 hv
    exact Evaluate.literal_public l

theorem play_keeps : ∀ (turns : List Turn) {sb : Sandbox}, Encloses s u lib e env sb →
    (zone s u lib e).Publics (play turns sb).1 ∧ Encloses s u lib e env (play turns sb).2
  | [], _, h => ⟨Zone.publics_nil, h⟩
  | turn :: rest, sb, h => by
    obtain ⟨h₁, hreturned⟩ := turn_keeps turn sb h
    unfold play
    generalize turn.run.on sb = r at h₁ hreturned
    obtain ⟨hmore, h₂⟩ := play_keeps rest h₁
    refine ⟨Zone.Publics.append ?_ hmore, h₂⟩
    obtain ⟨_ | vs, sb₁⟩ := r
    · exact Zone.publics_nil
    · exact hreturned vs rfl

/-! ## The theorem -/

theorem libraries_eq : libraries = Fresh.modules.map Prod.fst := rfl

/-- The tables of the full environment are there from the ground on. -/
theorem table_of_mem_originals (ground : Ground s) (hv : v ∈ originals s) :
    ∃ t, v = .table t ∧ t.index < s.tables.size := by
  simp only [originals, List.mem_cons, List.mem_map] at hv
  obtain rfl | rfl | ⟨name, hname, rfl⟩ := hv
  · exact ⟨_, rfl, ground.globals_lt⟩
  · exact ⟨_, rfl, ground.loaded_lt⟩
  · obtain ⟨⟨_, shelf⟩, hmem, rfl⟩ := List.mem_map.1 (libraries_eq ▸ hname)
    obtain ⟨t, module⟩ := ground.modules _ shelf hmem
    exact ⟨t, module.get, module.stocks.lt⟩

/-- They are the same ones at any time. -/
theorem Enclosed.originals_eq (h : Enclosed s u lib e st env) : originals st.store = originals s := by
  have hglobals : st.store.globals = s.globals := h.confined.globals
  have hloaded : st.store.loaded = s.loaded := h.confined.loaded
  have hget (name : String) : st.store.rawGet s.loaded (.text name) = s.rawGet s.loaded (.text name) :=
    h.confined.rawGet_hidden (table_hidden h.ground.loaded_lt) _
  simp only [originals, hglobals, hloaded, hget]

/-- In a sandbox of the standard policy, with any arguments and its output captured or not, whatever
scripts are run and whichever functions of theirs are called: the tables of the full environment keep
their contents, and neither the environment of the scripts nor anything they returned leads to one. -/
theorem scripts_confined (args : List String) (capturesOutput : Bool) (modulePath : String)
    (allowed : Option (List String)) (around : Surroundings) :
    ∃ sb, create (standardConfig args capturesOutput modulePath allowed) around = (.ok sb, sb.state)
      ∧ ∀ turns, ∀ v ∈ originals sb.state.store, ∃ t, v = .table t
        ∧ v ∈ originals (play turns sb).2.state.store
        ∧ (play turns sb).2.state.store.table t = sb.state.store.table t
        ∧ ∀ w ∈ .table (play turns sb).2.env :: (play turns sb).1,
            ¬ (play turns sb).2.state.store.Reaches w v := by
  obtain ⟨sb, s, u, lib, e, hcreate, enclosed⟩ :=
    create_standard args capturesOutput modulePath allowed around
  refine ⟨sb, hcreate, fun turns v hv => ?_⟩
  rw [enclosed.originals_eq] at hv
  obtain ⟨t, rfl, ht⟩ := table_of_mem_originals enclosed.ground hv
  obtain ⟨hreturned, hsame, after⟩ := play_keeps turns ⟨rfl, enclosed⟩
  have hhidden : ¬ (zone s u lib e).Public (.table t) := table_hidden ht
  refine ⟨t, rfl, ?_, ?_, fun w hw => ?_⟩
  · rwa [after.originals_eq]
  · rw [after.confined.hidden t hhidden, enclosed.confined.hidden t hhidden]
  · refine after.not_reaches ?_ ht
    obtain rfl | hw := List.mem_cons.1 hw
    · exact hsame ▸ after.env
    · exact hreturned w hw

end Sandbox

end Enclosure
