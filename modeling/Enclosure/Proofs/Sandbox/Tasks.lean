import Enclosure.Proofs.Attempt
import Enclosure.Sandbox

/-!
# The tasks of building

The phases of building come to one list of tasks, known before anything is done (`Config.tasks`). To
build is to make the environment and to carry out the tasks on it one after another, up to the first
that fails (`build_eq`). All that a task asks of the loader is the table of a native module by its name,
and it asks for one at most (`Task.opens`).
-/

namespace Enclosure

open Lua

namespace Sandbox

open Attempt

/-- Something to bind in the environment. -/
inductive Task
  | rule (r : Rule)
  | trusted (name : String)
  | function (f : HostFunction)
  | script (name : String)
  | args

/-- The names of the native modules that a task asks the loader for. -/
def Task.opens : Task → List String
  | .rule (.native module _) => [module]
  | .trusted name => [name]
  | _ => []

/-- How tasks come by a native module. -/
abbrev Load := String → Attempt State LoadRefusal TableId

/-- Carries out a task of a configuration on its environment. -/
def Task.run (load : Load) (c : Config) (env : TableId) : Task → Attempt State Fault Unit
  | .rule r =>
    Assembly.apply Environment.host (fun name => (load name).mapError .refusal) env r
  | .trusted name => do
    let t ← (load name).mapError fun r => .restrictedLoad name (.refusal r)
    hosted (Action.rawSetText env name (.table t))
  | .function f => bindFunction env f
  | .script name => bindScript c.modulePath env name
  | .args => bindArgs env c.args

end Sandbox

open Sandbox

/-- What there is to do for a configuration, in order. -/
def Config.tasks (c : Config) : List Task :=
  c.policy.rules.map .rule ++ (c.trusted.map .trusted ++ (c.functions.map .function
    ++ (c.scriptModules.map .script ++ [.args])))

/-- The native modules that a configuration asks for: those of the policy, then those bound whole. -/
def Config.opens (c : Config) : List String := c.policy.natives ++ c.trusted

namespace Config

theorem flatMap_rule_opens : ∀ rules : List Rule,
    (rules.map Task.rule).flatMap Task.opens = (rules.filter Rule.isNative).map Rule.target
  | [] => rfl
  | r :: rest => by
    rw [List.map_cons, List.flatMap_cons, flatMap_rule_opens rest]
    cases r <;> rfl

theorem flatMap_trusted_opens (names : List String) :
    (names.map Task.trusted).flatMap Task.opens = names := by
  induction names with
  | nil => rfl
  | cons name rest ih => rw [List.map_cons, List.flatMap_cons, ih]; rfl

/-- The rules and the trusted modules ask for their modules, and nothing else asks for any. -/
theorem tasks_opens (c : Config) : c.tasks.flatMap Task.opens = c.opens := by
  have functions : (c.functions.map Task.function).flatMap Task.opens = [] := by
    simp [List.flatMap_map, Task.opens]
  have scripts : (c.scriptModules.map Task.script).flatMap Task.opens = [] := by
    simp [List.flatMap_map, Task.opens]
  simp only [tasks, List.flatMap_append, flatMap_rule_opens, flatMap_trusted_opens, functions, scripts]
  simp [opens, Policy.natives, Task.opens]

end Config

namespace Sandbox

open Attempt

/-- Makes the environment, after `print` was replaced if output is to be captured. -/
def prepare (c : Config) : Attempt State Fault TableId := do
  if c.capturesOutput then capturePrint
  Environment.host.newNamespace.mapError .host

/-- Makes the environment and carries out the tasks on it. -/
def carryOut (load : Load) (c : Config) : Attempt State Fault TableId := do
  let env ← prepare c
  each (Task.run load c env) c.tasks
  return env

theorem build_eq (c : Config) : build c = carryOut c.loader.load c := by
  have tasks (env : TableId) : each (Task.run c.loader.load c env) c.tasks = (do
      Assembly.assembleInto Environment.host c.loader.native env c.policy
      each (bindTrusted c.loader env) c.trusted
      each (bindFunction env) c.functions
      each (bindScript c.modulePath env) c.scriptModules
      bindArgs env c.args) := by
    simp only [Config.tasks, each_append, each_map, each_singleton]
    rfl
  unfold build carryOut prepare
  simp only [tasks, Assembly.assemble, bind_assoc, pure_bind]
  split_ifs <;> simp only [bind_assoc]

end Sandbox

end Enclosure
