/-!
# Functions of the standard library

Every function that a fresh state provides has a name here, so that function objects in the store are
plain data. What each does is said in the modules of the libraries. Some functions are handed out by
others and have no place in a library table: the steps of iterators and the methods of strings in
arithmetic.
-/

namespace Enclosure.Lua

inductive BaseFunction
  | assert | collectGarbage | doFile | error | getMetatable | ipairs | ipairsStep | load | loadFile
  | next | pairs | pcall | print | rawEqual | rawGet | rawLen | rawSet | select
  | setMetatable | toNumber | toString | type | warn | xpcall
  deriving DecidableEq, Repr

inductive MathFunction
  | abs | acos | asin | atan | ceil | cos | cosh | deg | exp | floor | fmod | frexp | ldexp | log
  | log10 | max | min | modf | pow | rad | random | randomSeed | sin | sinh | sqrt | tan | tanh
  | toInteger | type | ult
  deriving DecidableEq, Repr

inductive StringFunction
  | byte | char | dump | find | format | gmatch | gmatchStep | gsub | len | lower | match | pack
  | packSize | rep | reverse | sub | unpack | upper
  deriving DecidableEq, Repr

/-- Arithmetic on strings that spell numbers. -/
inductive StringOperator
  | add | sub | mul | mod | pow | div | idiv | unm
  deriving DecidableEq, Repr

inductive TableFunction
  | concat | insert | move | pack | remove | sort | unpack
  deriving DecidableEq, Repr

inductive OsFunction
  | clock | date | difftime | execute | exit | getenv | remove | rename | setLocale | time | tmpName
  deriving DecidableEq, Repr

inductive IoFunction
  | close | flush | input | lines | linesStep | open | output | popen | read | tmpFile | type | write
  | fileClose | fileFinish | fileFlush | fileLines | fileRead | fileSeek | fileSetBuffer | fileWrite
  | fileText
  deriving DecidableEq, Repr

inductive CoroutineFunction
  | close | create | isYieldable | resume | running | status | wrap | wrapped | yield
  deriving DecidableEq, Repr

inductive Utf8Function
  | char | codePoint | codes | codesStep | codesStepLax | len | offset
  deriving DecidableEq, Repr

inductive PackageFunction
  | loadLib | require | searchPath | preloadSearcher | fileSearcher | nativeSearcher
  deriving DecidableEq, Repr

/-- Functions that an enclosure adds to a state. -/
inductive GuardFunction
  /-- Writes its line into the captured output. -/
  | print
  /-- Refuses an assignment to a protected table. -/
  | refuseWrite
  /-- The length of the table behind a protected one. -/
  | length
  /-- The iterator over the table behind a protected one. -/
  | pairs
  /-- The text of an error that the host raised. -/
  | failureText
  /-- Answers the values that it holds. -/
  | constant
  deriving DecidableEq, Repr

inductive Builtin
  | base (f : BaseFunction)
  | math (f : MathFunction)
  | string (f : StringFunction)
  | stringOperator (o : StringOperator)
  | table (f : TableFunction)
  | os (f : OsFunction)
  | files (f : IoFunction)
  | coroutine (f : CoroutineFunction)
  | utf8 (f : Utf8Function)
  | package (f : PackageFunction)
  | guard (f : GuardFunction)
  deriving DecidableEq, Repr

end Enclosure.Lua
