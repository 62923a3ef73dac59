import Enclosure.Proofs.Assembly.Record
import Enclosure.Proofs.Sandbox.Path
import Enclosure.Proofs.Sandbox.Phases

/-!
# The files of script modules

Building can be made to write down each file that it reads for a script module and each script module
that it binds. The record stands beside the state, out of reach of all that runs in it, and changes
nothing (`createRecorded_eq`). So it says of any configuration which files were tried: those of the script
modules in order, up to the first that fails, each a component more than the directory, and none at all if
one of the names is no plain one (`create_reads_inside`).
-/

namespace Enclosure

open Lua Attempt

/-! ## Records -/

namespace Attempt

variable {σ ε α β E : Type}

/-- The attempt beside a record, to which it adds nothing. -/
def unrecorded (m : Attempt σ ε α) : Attempt (σ × List E) ε α :=
  of fun (s, es) => ((m.on s).1, ((m.on s).2, es))

theorem unrecorded_records (m : Attempt σ ε α) : Records (E := E) m.unrecorded m :=
  fun _ es => ⟨[], by rw [List.append_nil]; rfl⟩

/-- An attempt that fails in no state. -/
abbrev Unfailing (m : Attempt σ ε α) : Prop := Errs (fun _ => False) m

/-- From any state, an attempt adds these events to the record. If it fails, something holds of the error
and of what it has added by then. -/
def Adds (events : List E) (Fails : ε → List E → Prop) (m : Attempt (σ × List E) ε α) : Prop :=
  ∀ s es, ∃ new, (m.on (s, es)).2.2 = es ++ new
    ∧ match (m.on (s, es)).1 with
      | .ok _ => new = events
      | .error e => Fails e new

namespace Adds

variable {events more : List E} {Fails Fails' : ε → List E → Prop} {P : ε → Prop}
  {m : Attempt (σ × List E) ε α} {f : α → Attempt (σ × List E) ε β}

theorem unrecorded {m : Attempt σ ε α} (h : Errs P m) :
    Adds ([] : List E) (fun e new => P e ∧ new = []) m.unrecorded := by
  intro s es
  refine ⟨[], (List.append_nil es).symm, ?_⟩
  show match (m.on s).1 with | .ok _ => _ | .error e => _
  rcases hm : (m.on s).1 with e | a
  · exact ⟨h s e hm, rfl⟩
  · rfl

theorem pure (a : α) : Adds [] Fails (Pure.pure a : Attempt (σ × List E) ε α) :=
  fun _ es => ⟨[], (List.append_nil es).symm, rfl⟩

theorem mono (h : Adds events Fails m) (hF : ∀ e new, Fails e new → Fails' e new) :
    Adds events Fails' m := by
  intro s es
  obtain ⟨new, hnew, hend⟩ := h s es
  refine ⟨new, hnew, ?_⟩
  rcases hm : (m.on (s, es)).1 with e | a <;> rw [hm] at hend
  · exact hF e new hend
  · exact hend

/-- An attempt that fails in no state may be said to fail in any way. -/
theorem silent {m : Attempt σ ε α} (h : Unfailing m) : Adds [] Fails m.unrecorded :=
  (unrecorded h).mono fun _ _ hfails => hfails.1.elim

theorem event (event : E) {m : Attempt σ ε α} (h : Unfailing m) :
    Adds [event] Fails (m.recorded fun _ => event) := by
  intro s es
  refine ⟨[event], rfl, ?_⟩
  show match (m.on s).1 with | .ok _ => _ | .error e => _
  rcases hm : (m.on s).1 with e | a
  · exact (h s e hm).elim
  · rfl

/-- Where the second part fails, the first one has added all that it adds. -/
theorem bind (h : Adds events Fails m)
    (hf : ∀ a, Adds more (fun e new => Fails e (events ++ new)) (f a)) :
    Adds (events ++ more) Fails (m >>= f) := by
  intro s es
  obtain ⟨new, hnew, hend⟩ := h s es
  rw [on_bind]
  rcases hm : m.on (s, es) with ⟨e | a, s₁, es₁⟩ <;> rw [hm] at hnew hend
  · exact ⟨new, hnew, hend⟩
  · obtain rfl : new = events := hend
    obtain rfl : es₁ = es ++ new := hnew
    obtain ⟨rest, hrest, hend⟩ := hf a s₁ (es ++ new)
    refine ⟨new ++ rest, by rw [← List.append_assoc]; exact hrest, ?_⟩
    dsimp only
    rcases hb : ((f a).on (s₁, es ++ new)).1 with e | b <;> rw [hb] at hend
    · exact hend
    · exact congrArg (new ++ ·) hend

/-- Items in turn: where one fails, those before it have added all that they add. -/
theorem each {g : β → Attempt (σ × List E) ε Unit} {o : β → List E}
    {F : β → ε → List E → Prop} (h : ∀ b, Adds (o b) (F b) (g b)) : ∀ items : List β,
      Adds (items.flatMap o) (fun e new => ∃ before b after rest, items = before ++ b :: after
        ∧ F b e rest ∧ new = before.flatMap o ++ rest) (Attempt.each g items)
  | [] => pure ()
  | b :: rest => by
    refine ((h b).mono fun e new hfails => ?_).bind fun _ => (each h rest).mono ?_
    · exact ⟨[], b, rest, new, rfl, hfails, rfl⟩
    · rintro e _ ⟨before, b', after, new, rfl, hfails, rfl⟩
      exact ⟨b :: before, b', after, new, rfl, hfails, by rw [List.flatMap_cons, List.append_assoc]⟩

end Adds

end Attempt

/-! ## Building on record -/

namespace Sandbox

/-- What is written down while a sandbox is built. -/
inductive ScriptEvent
  /-- A file was read for a script module, or could not be. -/
  | tried (path : String)
  /-- The table of a script module was bound. -/
  | bound (name : String)
  deriving DecidableEq

abbrev Recorded (α : Type) := Attempt (State × List ScriptEvent) Fault α

/-- The table of a script module, with the reading of its file on record. -/
def scriptTableRecorded (directory name : String) : Recorded TableId := do
  let path := scriptPath directory name
  unrecorded (hosted (Action.modify fun s => { s with tried := path :: s.tried }))
  let content ← (hosted (Action.read fun s => s.files.read path)).recorded fun _ => .tried path
  unrecorded (scriptContent directory name content)

def bindScriptRecorded (directory : String) (env : TableId) (name : String) : Recorded Unit := do
  let t ← scriptTableRecorded directory name
  unrecorded (hosted (Action.rawSetText env name (.table t)))
  (pure () : Attempt State Fault Unit).recorded fun _ => .bound name

/-- The environment with all that is bound before the script modules. -/
def beforeScripts (c : Config) : Attempt State Fault TableId := do
  if c.capturesOutput then capturePrint
  let env ← Assembly.assemble Environment.host c.loader.native c.policy
  each (bindTrusted c.loader env) c.trusted
  each (bindFunction env) c.functions
  return env

/-- What `build` does, on record. -/
def buildRecorded (c : Config) : Recorded TableId := do
  let env ← unrecorded (beforeScripts c)
  each (bindScriptRecorded c.modulePath env) c.scriptModules
  unrecorded (bindArgs env c.args)
  return env

/-- What `create` does, on record. -/
def createRecorded (c : Config) (around : Surroundings) :
    Except Fault Sandbox × State × List ScriptEvent :=
  let st := State.fresh around
  match c.defect with
  | some d => (.error (.defect d), st, [])
  | none =>
    match (buildRecorded c).on (st, []) with
    | (.ok env, st, es) => (.ok ⟨st, env, c.capturesOutput⟩, st, es)
    | (.error e, st, es) => (.error e, st, es)

/-- The files that are read for script modules and the script modules that are bound when the sandbox of
a configuration is built, from first to last. -/
def scriptEvents (c : Config) (around : Surroundings) : List ScriptEvent := (createRecorded c around).2.2

/-- The file that was read, or could not be. -/
def ScriptEvent.path? : ScriptEvent → Option String
  | .tried path => some path
  | .bound _ => none

/-- The files that are tried, from first to last. -/
def triedPaths (c : Config) (around : Surroundings) : List String :=
  (scriptEvents c around).filterMap ScriptEvent.path?

/-- All that is to be done for script modules: the file of each is tried, and the module is bound before
the next one is tried. -/
def scriptSteps (directory : String) (names : List String) : List ScriptEvent :=
  names.flatMap fun name => [.tried (scriptPath directory name), .bound name]

/-- A script module failed: its file is the last one tried, after all is done for those before it. -/
def FailsAtScript (c : Config) (e : Fault) (events : List ScriptEvent) : Prop :=
  ∃ before name after message, c.scriptModules = before ++ name :: after
    ∧ e = .scriptModule name message
    ∧ events = scriptSteps c.modulePath before ++ [.tried (scriptPath c.modulePath name)]

/-! ### The record changes nothing -/

theorem bindScriptRecorded_records (directory : String) (env : TableId) (name : String) :
    Records (bindScriptRecorded directory env name) (bindScript directory env name) := by
  have table : Records (scriptTableRecorded directory name) (scriptTable directory name) :=
    (unrecorded_records _).bind fun _ => (recorded_records _ _).bind fun _ => unrecorded_records _
  refine table.bind fun t => ?_
  rw [← bind_pure_unit (x := hosted (Action.rawSetText env name (.table t)))]
  exact (unrecorded_records _).bind fun _ => recorded_records _ _

theorem build_eq_beforeScripts (c : Config) : build c = (do
    let env ← beforeScripts c
    each (bindScript c.modulePath env) c.scriptModules
    bindArgs env c.args
    return env) := by
  unfold build beforeScripts
  split_ifs <;> simp only [bind_assoc, pure_bind]

theorem buildRecorded_records (c : Config) : Records (buildRecorded c) (build c) := by
  rw [build_eq_beforeScripts]
  exact (unrecorded_records _).bind fun env =>
    (Records.each (bindScriptRecorded_records c.modulePath env) c.scriptModules).bind fun _ =>
      (unrecorded_records _).bind fun _ => Records.pure env

/-! ### What is on record -/

theorem hosted_unfailing {α : Type} {m : Lua.Action α} (h : Unfailing m) : Unfailing (hosted m) := by
  intro st e he
  rw [hosted, on_mapError] at he
  rcases hm : (m.on st).1 with f | a
  · exact h st f hm
  · rw [hm] at he
    cases he

theorem modify_unfailing (f : Store → Store) : Unfailing (Action.modify f) := fun _ _ h => nomatch h

theorem read_unfailing {α : Type} (f : Store → α) : Unfailing (Action.read f) := fun _ _ h => nomatch h

theorem setTexts_unfailing (t : TableId) :
    ∀ (i : Nat) (texts : List String), Unfailing (setTexts t i texts)
  | _, [] => .pure ()
  | i, _ :: rest => .bind (modify_unfailing _) fun _ => setTexts_unfailing t (i + 1) rest

theorem bindArgs_unfailing (env : TableId) (args : List String) : Unfailing (bindArgs env args) := by
  have newTable : Unfailing Action.newTable := fun _ _ h => nomatch h
  unfold bindArgs
  split_ifs
  · exact .pure ()
  · exact hosted_unfailing (.bind newTable fun t => .bind (setTexts_unfailing t 1 args) fun _ =>
      modify_unfailing _)

/-- A script module whose table is not found fails with a fault of its own. -/
theorem scriptContent_errs (directory name : String) (content : Except FileError Bytes) :
    Errs (fun e => ∃ message, e = .scriptModule name message) (scriptContent directory name content) := by
  cases content with
  | error e => exact .fail ⟨_, rfl⟩
  | ok source =>
    refine .bind (.mapError fun f => ⟨f.message, rfl⟩) fun vs => ?_
    split
    · exact .pure _
    · exact .fail ⟨_, rfl⟩

/-- A script module fails when its file is tried and it is not bound, or not at all. -/
theorem bindScriptRecorded_adds (directory : String) (env : TableId) (name : String) :
    Adds [.tried (scriptPath directory name), .bound name]
      (fun e new => (∃ message, e = .scriptModule name message)
        ∧ new = [.tried (scriptPath directory name)]) (bindScriptRecorded directory env name) := by
  have table : Adds ([] ++ ([.tried (scriptPath directory name)] ++ []))
      (fun e new => (∃ message, e = .scriptModule name message)
        ∧ new = [.tried (scriptPath directory name)]) (scriptTableRecorded directory name) := by
    refine (Adds.silent (hosted_unfailing (modify_unfailing _))).bind fun _ => ?_
    refine (Adds.event _ (hosted_unfailing (read_unfailing _))).bind fun content => ?_
    refine (Adds.unrecorded (scriptContent_errs directory name content)).mono ?_
    rintro e _ ⟨hfault, rfl⟩
    exact ⟨hfault, rfl⟩
  exact table.bind fun t =>
    (Adds.silent (hosted_unfailing (modify_unfailing _))).bind fun _ => .event _ (.pure ())

/-- Building fails before any file is tried, or at a script module. -/
theorem buildRecorded_adds (c : Config) : Adds (scriptSteps c.modulePath c.scriptModules)
    (fun e new => new = [] ∨ FailsAtScript c e new) (buildRecorded c) := by
  have early : Errs (fun _ => True) (beforeScripts c) := fun _ _ _ => trivial
  have built : Adds ([] ++ (scriptSteps c.modulePath c.scriptModules ++ ([] ++ [])))
      (fun e new => new = [] ∨ FailsAtScript c e new) (buildRecorded c) := by
    refine ((Adds.unrecorded early).mono fun e new h => .inl h.2).bind fun env => ?_
    refine ((Adds.each (bindScriptRecorded_adds c.modulePath env) c.scriptModules).mono ?_).bind
      fun _ => (Adds.silent (bindArgs_unfailing env c.args)).bind fun _ => .pure env
    rintro e _ ⟨before, name, after, _, hsplit, ⟨⟨message, he⟩, rfl⟩, rfl⟩
    exact .inr ⟨before, name, after, message, hsplit, he, rfl⟩
  simpa only [List.nil_append, List.append_nil] using built

/-- Creating with a record, by how it ends. -/
theorem createRecorded_spec (c : Config) (around : Surroundings) : ∃ es,
    createRecorded c around = ((create c around).1, (create c around).2, es)
      ∧ (∀ sb, (create c around).1 = .ok sb → es = scriptSteps c.modulePath c.scriptModules)
      ∧ (∀ e, (create c around).1 = .error e → es = [] ∨ FailsAtScript c e es)
      ∧ (c.defect ≠ none → es = []) := by
  unfold createRecorded create
  generalize State.fresh around = st
  rcases c.defect with _ | d
  · obtain ⟨es, hrecord⟩ := buildRecorded_records c st []
    obtain ⟨new, hnew, hend⟩ := buildRecorded_adds c st []
    rw [List.nil_append] at hrecord hnew
    rw [hrecord] at hnew hend
    obtain rfl : es = new := hnew
    dsimp only
    rw [hrecord]
    rcases hbuild : (build c).on st with ⟨e | env, st'⟩ <;> rw [hbuild] at hend
    · refine ⟨es, rfl, fun _ h => (nomatch h), ?_, fun h => absurd rfl h⟩
      rintro _ ⟨⟩
      exact hend
    · exact ⟨es, rfl, fun _ _ => hend, fun _ h => (nomatch h), fun h => absurd rfl h⟩
  · exact ⟨[], rfl, fun _ h => (nomatch h), fun _ _ => .inl rfl, fun _ => rfl⟩

theorem createRecorded_eq (c : Config) (around : Surroundings) :
    createRecorded c around = ((create c around).1, (create c around).2, scriptEvents c around) := by
  obtain ⟨es, hrecord, -⟩ := createRecorded_spec c around
  rw [scriptEvents, hrecord]

theorem scriptEvents_of_ok {c : Config} {around : Surroundings} {sb : Sandbox}
    (h : (create c around).1 = .ok sb) :
    scriptEvents c around = scriptSteps c.modulePath c.scriptModules := by
  obtain ⟨es, hrecord, hok, -⟩ := createRecorded_spec c around
  rw [scriptEvents, hrecord, ← hok sb h]

theorem scriptEvents_of_error {c : Config} {around : Surroundings} {e : Fault}
    (h : (create c around).1 = .error e) :
    scriptEvents c around = [] ∨ FailsAtScript c e (scriptEvents c around) := by
  obtain ⟨es, hrecord, -, herror, -⟩ := createRecorded_spec c around
  rw [scriptEvents, hrecord]
  exact herror e h

theorem scriptEvents_of_defect {c : Config} (around : Surroundings) (h : c.defect ≠ none) :
    scriptEvents c around = [] := by
  obtain ⟨es, hrecord, -, -, hdefect⟩ := createRecorded_spec c around
  rw [scriptEvents, hrecord, ← hdefect h]

/-- However building ends, it has done the first of the steps for script modules, in their order. -/
theorem scriptEvents_prefix_steps (c : Config) (around : Surroundings) :
    scriptEvents c around <+: scriptSteps c.modulePath c.scriptModules := by
  rcases hcreate : (create c around).1 with e | sb
  · obtain hnone | ⟨before, name, after, -, hsplit, -, hevents⟩ := scriptEvents_of_error hcreate
    · rw [hnone]
      exact List.nil_prefix
    · refine ⟨.bound name :: scriptSteps c.modulePath after, ?_⟩
      rw [hevents, hsplit]
      simp [scriptSteps]
  · exact ⟨[], by rw [List.append_nil, scriptEvents_of_ok hcreate]⟩

theorem scriptSteps_paths (directory : String) (names : List String) :
    (scriptSteps directory names).filterMap ScriptEvent.path? = names.map (scriptPath directory) := by
  rw [scriptSteps, List.filterMap_flatMap, List.map_eq_flatMap]
  rfl

theorem triedPaths_prefix_files (c : Config) (around : Surroundings) :
    triedPaths c around <+: c.scriptModules.map (scriptPath c.modulePath) := by
  rw [← scriptSteps_paths]
  exact (scriptEvents_prefix_steps c around).filterMap _

theorem mem_triedPaths {c : Config} {around : Surroundings} {path : String} :
    path ∈ triedPaths c around ↔ .tried path ∈ scriptEvents c around := by
  refine ⟨fun h => ?_, fun h => List.mem_filterMap.2 ⟨_, h, rfl⟩⟩
  obtain ⟨event, hevent, hpath⟩ := List.mem_filterMap.1 h
  cases event with
  | tried _ =>
    obtain rfl := Option.some.inj hpath
    exact hevent
  | bound _ => cases hpath

end Sandbox

/-! ## Names of script modules -/

namespace Config

/-- A plain name is one component, and no path to elsewhere. -/
theorem PlainFileName.single {name : String} (h : PlainFileName name) :
    SingleComponent (name ++ ".lua") := by
  have hlength : (name ++ ".lua").length = name.length + 4 := String.length_append ..
  have hlong {other : String} (hother : other.length < 4) : name ++ ".lua" ≠ other := by
    rintro rfl
    omega
  refine ⟨fun hmem => ?_, hlong (by decide), hlong (by decide), hlong (by decide)⟩
  rw [String.toList_append, List.mem_append] at hmem
  rcases hmem with hmem | hmem
  · exact absurd (h.chars '/' hmem) (by decide)
  · exact absurd hmem (by decide)

/-- Without a defect, script modules have plain names, all different. -/
theorem scripts_plain {c : Config} (h : c.defect = none) :
    (∀ name ∈ c.scriptModules, name ≠ "" ∧ PlainFileName name) ∧ c.scriptModules.Nodup := by
  obtain ⟨usable, -, -⟩ := (bindingDefect_eq_none_iff _ _).1 h
  refine ⟨fun name hname => ?_, ?_⟩
  · have hbinding : ⟨name, true⟩ ∈ c.bindings := by simp [bindings, hname]
    obtain ⟨husable, hplain⟩ := usable _ hbinding
    exact ⟨husable.1, hplain rfl⟩
  · obtain ⟨nodup, -, -⟩ := nodup_append_out (keys_nodup h)
    exact (nodup_append_out nodup).2.1

end Config

namespace Sandbox

open Config (PlainFileName)

theorem components_scriptPath (directory : String) {name : String} (h : PlainFileName name) :
    components (scriptPath directory name) = components directory ++ [.normal (name ++ ".lua")] :=
  components_joinPath directory h.single

/-- Files that stand at the same place have the same name. -/
theorem eq_of_components_scriptPath {directory name name' : String} (h : PlainFileName name)
    (h' : PlainFileName name')
    (he : components (scriptPath directory name) = components (scriptPath directory name')) :
    name = name' := by
  rw [components_scriptPath directory h, components_scriptPath directory h'] at he
  have hfile : name ++ ".lua" = name' ++ ".lua" := by simpa using List.append_cancel_left he
  exact (String.append_left_inj _).1 hfile

theorem defect_of_tried {c : Config} {around : Surroundings} {path : String}
    (h : .tried path ∈ scriptEvents c around) : c.defect = none := by
  by_contra hdefect
  rw [scriptEvents_of_defect around hdefect] at h
  cases h

/-- No file is tried twice, by whatever path. -/
theorem triedPaths_nodup (c : Config) (around : Surroundings) :
    ((triedPaths c around).map components).Nodup := by
  by_cases hdefect : c.defect = none
  · obtain ⟨plain, distinct⟩ := Config.scripts_plain hdefect
    have all : ((c.scriptModules.map (scriptPath c.modulePath)).map components).Nodup := by
      rw [List.map_map]
      exact distinct.map_on fun name hname name' hname' he =>
        eq_of_components_scriptPath (plain name hname).2 (plain name' hname').2 he
    exact all.sublist ((triedPaths_prefix_files c around).map components).sublist
  · rw [triedPaths, scriptEvents_of_defect around hdefect]
    exact .nil

example : scriptEvents { scriptModules := ["a", "../b"] } {} = [] := by decide +kernel

end Sandbox

end Enclosure
