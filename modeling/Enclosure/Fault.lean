import Enclosure.Policy

/-!
# Faults

Everything that can go wrong while a restricted environment is built or used, with its message and
with the rule that it points at.
-/

namespace Enclosure

/-- Why a native module was not loaded. -/
inductive LoadRefusal
  | notPermitted (name : String)
  | notRegistered (name : String)
  /-- The module's opener failed, or left in reach what should be out of it. -/
  | opening (module : String) (message : String)
  deriving DecidableEq, Repr

def LoadRefusal.message : LoadRefusal → String
  | .notPermitted name => "native module " ++ name ++ " is not permitted"
  | .notRegistered name => "native module " ++ name ++ " is not registered"
  | .opening module m => "failed to open native module " ++ module ++ ": " ++ m

/-- What lies behind a fault. -/
inductive Cause
  | text (message : String)
  | refusal (r : LoadRefusal)
  deriving DecidableEq, Repr

def Cause.message : Cause → String
  | .text m => m
  | .refusal r => r.message

inductive Fault
  /-- A name of the policy that its source does not have. -/
  | unresolved (module : Option String) (name : String)
  | moduleLoad (module : String) (cause : Cause)
  | restrictedLoad (module : String) (cause : Cause)
  /-- Rules or bindings that cannot be used together. -/
  | defect (d : Defect)
  | host (cause : Cause)
  /-- A text that is no policy. -/
  | policy (message : String)
  | file (message : String)
  | scriptModule (module : String) (message : String)
  | scriptLoad (chunk : String) (message : String)
  | scriptRuntime (chunk : String) (message : String)
  | notFunction (name : String)
  deriving DecidableEq, Repr

namespace Fault

/-- A name with the module that it belongs to. -/
def qualified (module : Option String) (name : String) : String :=
  match module with
  | some m => m ++ "." ++ name
  | none => name

def message : Fault → String
  | .unresolved module name => "unresolved name: " ++ qualified module name
  | .moduleLoad module cause => "cannot load module " ++ module ++ ": " ++ cause.message
  | .restrictedLoad module cause =>
    "restricted load of native module " ++ module ++ " failed: " ++ cause.message
  | .defect (.duplicate scope name) => "duplicate binding " ++ qualified scope name
  | .defect (.noNames module) => "module " ++ module ++ " declares no names to expose"
  | .defect (.invalidName name) => "invalid name: " ++ Quoted.quote name
  | .host cause => "host error: " ++ cause.message
  | .policy m => "policy error: " ++ m
  | .file m => "I/O error: " ++ m
  | .scriptModule module m => "cannot load script module " ++ module ++ ": " ++ m
  | .scriptLoad chunk m => "error loading script " ++ chunk ++ ": " ++ m
  | .scriptRuntime chunk m => "error executing " ++ chunk ++ ": " ++ m
  | .notFunction name => name ++ " is not a function"

/-- The rule or name that the fault points at. -/
def entry? : Fault → Option String
  | .unresolved module name => some (qualified module name)
  | .moduleLoad module _ => some module
  | .restrictedLoad module _ => some module
  | .defect (.duplicate scope name) => some (qualified scope name)
  | .defect (.noNames module) => some module
  | .scriptModule module _ => some module
  | _ => none

/-- The message of what lies behind the fault. -/
def source? : Fault → Option String
  | .moduleLoad _ cause => some cause.message
  | .restrictedLoad _ cause => some cause.message
  | .host cause => some cause.message
  | .file m => some m
  | _ => none

def isUnresolved : Fault → Bool
  | .unresolved .. => true
  | _ => false

def isRestrictedLoad : Fault → Bool
  | .restrictedLoad .. => true
  | _ => false

def isDuplicate : Fault → Bool
  | .defect (.duplicate ..) => true
  | _ => false

/-- Whether the fault lies in what was asked for and not in carrying it out. -/
def isConfiguration : Fault → Bool
  | .defect _ => true
  | .policy _ => true
  | _ => false

end Fault

end Enclosure
