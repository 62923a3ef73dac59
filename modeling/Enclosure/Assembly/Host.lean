import Enclosure.Attempt
import Enclosure.Fault

/-!
# Hosts

What assembly needs from an interpreter. It sees nothing of an interpreter but these primitives; native
modules come only from a loader, which may refuse.
-/

namespace Enclosure

/-- The primitives of an interpreter with states `σ`: its values, its modules and its namespaces. -/
structure Host (σ Value Module Namespace : Type) where
  /-- The value of a global; nothing if it is absent. -/
  global : String → Attempt σ Cause (Option Value)
  /-- A library module by the interpreter's own way to find modules. -/
  require : String → Attempt σ Cause Module
  /-- The value of a module's field; nothing if it is absent. -/
  field : Module → String → Attempt σ Cause (Option Value)
  newNamespace : Attempt σ Cause Namespace
  bind : Namespace → String → Value → Attempt σ Cause Unit
  /-- Binds a namespace inside of another. -/
  install : Namespace → String → Namespace → Attempt σ Cause Unit

/-- Loads native modules, as far as it may. -/
abbrev NativeLoad (σ Module : Type) := String → Attempt σ Cause Module

def noNatives {σ Module : Type} : NativeLoad σ Module := fun name =>
  Attempt.fail (.text ("native module " ++ name ++ " is not permitted"))

end Enclosure
