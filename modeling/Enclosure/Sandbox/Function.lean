import Enclosure.Lua.Datum
import Enclosure.Sandbox.Config

/-!
# Ready-made functions of the host
-/

namespace Enclosure.HostFunction

open Lua

/-- Answers its arguments. -/
def echo (name : String) : HostFunction := ⟨name, fun args => pure args⟩

/-- Answers how many arguments there are. -/
def count (name : String) : HostFunction := ⟨name, fun args => pure [.nat args.length]⟩

/-- Answers the name of each argument's type. -/
def types (name : String) : HostFunction :=
  ⟨name, fun args => pure (args.map fun v => .text v.fineTypeName)⟩

/-- Answers always the same. -/
def constant (name : String) (values : List Datum) : HostFunction :=
  ⟨name, fun _ => Datum.buildAll values⟩

/-- Fails as a script does. -/
def failing (name message : String) : HostFunction :=
  ⟨name, fun _ => (Failure.runtime message).raise⟩

/-- Fails with an error of the host's own. -/
def failingOutside (name message : String) : HostFunction :=
  ⟨name, fun _ => (Failure.host message).raise⟩

/-- Calls its first argument with the others. -/
def apply (name : String) : HostFunction :=
  ⟨name, fun args =>
    match args with
    | .func f :: rest => Failure.callFromHost (.func f) rest
    | _ => (Failure.runtime "function expected").raise⟩

end Enclosure.HostFunction
