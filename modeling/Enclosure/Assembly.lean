import Enclosure.Assembly.Host

/-!
# Assembly

A restricted namespace is filled rule by rule. The rule for a global binds its value; a rule for a
module copies the fields it names into a fresh namespace, which is installed when it is complete, so
that no module is ever bound itself. The first failure ends the assembly.
-/

namespace Enclosure.Assembly

variable {σ Value Module Namespace : Type}

def copyField (host : Host σ Value Module Namespace) (module : String) (source : Module)
    (copy : Namespace) (name : String) : Attempt σ Fault Unit := do
  let value ← (host.field source name).mapError .host
  let value ← Attempt.orFail (.unresolved (some module) name) value
  (host.bind copy name value).mapError .host

/-- A fresh namespace with the fields named. -/
def copyFields (host : Host σ Value Module Namespace) (module : String) (source : Module)
    (names : List String) : Attempt σ Fault Namespace := do
  let copy ← host.newNamespace.mapError .host
  Attempt.each (copyField host module source copy) names
  return copy

/-- Copies the fields named and installs the copy under the module's name. -/
def expose (host : Host σ Value Module Namespace) (ns : Namespace) (module : String)
    (source : Module) (names : List String) : Attempt σ Fault Unit := do
  let copy ← copyFields host module source names
  (host.install ns module copy).mapError .host

def apply (host : Host σ Value Module Namespace) (load : NativeLoad σ Module) (ns : Namespace) :
    Rule → Attempt σ Fault Unit
  | .bare name => do
    let value ← (host.global name).mapError .host
    let value ← Attempt.orFail (.unresolved none name) value
    (host.bind ns name value).mapError .host
  | .library module names => do
    let source ← (host.require module).mapError (.moduleLoad module)
    expose host ns module source names
  | .native module names => do
    let source ← (load module).mapError (.restrictedLoad module)
    expose host ns module source names

/-- Adds the bindings of a policy to a namespace. -/
def assembleInto (host : Host σ Value Module Namespace) (load : NativeLoad σ Module)
    (ns : Namespace) (p : Policy) : Attempt σ Fault Unit :=
  Attempt.each (apply host load ns) p.rules

/-- A new namespace with the bindings of a policy and nothing else. -/
def assemble (host : Host σ Value Module Namespace) (load : NativeLoad σ Module) (p : Policy) :
    Attempt σ Fault Namespace := do
  let ns ← host.newNamespace.mapError .host
  assembleInto host load ns p
  return ns

end Enclosure.Assembly
