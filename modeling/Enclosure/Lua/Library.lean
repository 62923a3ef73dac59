import Enclosure.Lua.Library.Base
import Enclosure.Lua.Library.CodePoint
import Enclosure.Lua.Library.Guard
import Enclosure.Lua.Library.List
import Enclosure.Lua.Library.Math
import Enclosure.Lua.Library.Package
import Enclosure.Lua.Library.Stream
import Enclosure.Lua.Library.System
import Enclosure.Lua.Library.Text
import Enclosure.Lua.Library.Thread

/-!
# The standard library

What each function of the library does, and under which names the functions stand in a fresh state.
-/

namespace Enclosure.Lua.Library

/-- Runs a function of the library, which is the function `self` and holds the values `captured`. -/
def run (b : Builtin) (self : FuncId) (captured : Array Value) (args : Args) : Run (List Value) :=
  match b with
  | .base f => Base.run f captured args
  | .math f => Math.run f args
  | .string f => Text.run f self captured args
  | .stringOperator o => Text.applyOperator o args
  | .table f => List.run f args
  | .os f => System.run f args
  | .files f => Stream.run f captured args
  | .coroutine f => Thread.run f captured args
  | .utf8 f => CodePoint.run f args
  | .package f => Package.run f captured args
  | .guard f => Guard.run f captured args

/-- Functions under their names. -/
abbrev Names := List (String × Builtin)

/-- The global functions that hold no values. -/
def globals : Names := [
  ("assert", .base .assert), ("collectgarbage", .base .collectGarbage), ("dofile", .base .doFile),
  ("error", .base .error), ("getmetatable", .base .getMetatable), ("load", .base .load),
  ("loadfile", .base .loadFile), ("next", .base .next), ("pcall", .base .pcall),
  ("print", .base .print), ("rawequal", .base .rawEqual), ("rawget", .base .rawGet),
  ("rawlen", .base .rawLen), ("rawset", .base .rawSet), ("select", .base .select),
  ("setmetatable", .base .setMetatable), ("tonumber", .base .toNumber),
  ("tostring", .base .toString), ("type", .base .type), ("warn", .base .warn),
  ("xpcall", .base .xpcall)]

def math : Names := [
  ("abs", .math .abs), ("acos", .math .acos), ("asin", .math .asin), ("atan", .math .atan),
  ("ceil", .math .ceil), ("cos", .math .cos), ("cosh", .math .cosh), ("deg", .math .deg),
  ("exp", .math .exp), ("floor", .math .floor), ("fmod", .math .fmod), ("frexp", .math .frexp),
  ("ldexp", .math .ldexp), ("log", .math .log), ("log10", .math .log10), ("max", .math .max),
  ("min", .math .min), ("modf", .math .modf), ("pow", .math .pow), ("rad", .math .rad),
  ("random", .math .random), ("randomseed", .math .randomSeed), ("sin", .math .sin),
  ("sinh", .math .sinh), ("sqrt", .math .sqrt), ("tan", .math .tan), ("tanh", .math .tanh),
  ("tointeger", .math .toInteger), ("type", .math .type), ("ult", .math .ult)]

def string : Names := [
  ("byte", .string .byte), ("char", .string .char), ("dump", .string .dump),
  ("find", .string .find), ("format", .string .format), ("gmatch", .string .gmatch),
  ("gsub", .string .gsub), ("len", .string .len), ("lower", .string .lower),
  ("match", .string .match), ("pack", .string .pack), ("packsize", .string .packSize),
  ("rep", .string .rep), ("reverse", .string .reverse), ("sub", .string .sub),
  ("unpack", .string .unpack), ("upper", .string .upper)]

def table : Names := [
  ("concat", .table .concat), ("insert", .table .insert), ("move", .table .move),
  ("pack", .table .pack), ("remove", .table .remove), ("sort", .table .sort),
  ("unpack", .table .unpack)]

def os : Names := [
  ("clock", .os .clock), ("date", .os .date), ("difftime", .os .difftime),
  ("execute", .os .execute), ("exit", .os .exit), ("getenv", .os .getenv),
  ("remove", .os .remove), ("rename", .os .rename), ("setlocale", .os .setLocale),
  ("time", .os .time), ("tmpname", .os .tmpName)]

def io : Names := [
  ("close", .files .close), ("flush", .files .flush), ("input", .files .input),
  ("lines", .files .lines), ("open", .files .open), ("output", .files .output),
  ("popen", .files .popen), ("read", .files .read), ("tmpfile", .files .tmpFile),
  ("type", .files .type), ("write", .files .write)]

def fileMethods : Names := [
  ("close", .files .fileClose), ("flush", .files .fileFlush), ("lines", .files .fileLines),
  ("read", .files .fileRead), ("seek", .files .fileSeek), ("setvbuf", .files .fileSetBuffer),
  ("write", .files .fileWrite)]

def fileEvents : Names := [
  ("__gc", .files .fileFinish), ("__close", .files .fileFinish), ("__tostring", .files .fileText)]

def stringEvents : Names := [
  ("__add", .stringOperator .add), ("__sub", .stringOperator .sub),
  ("__mul", .stringOperator .mul), ("__mod", .stringOperator .mod),
  ("__pow", .stringOperator .pow), ("__div", .stringOperator .div),
  ("__idiv", .stringOperator .idiv), ("__unm", .stringOperator .unm)]

def coroutine : Names := [
  ("close", .coroutine .close), ("create", .coroutine .create),
  ("isyieldable", .coroutine .isYieldable), ("resume", .coroutine .resume),
  ("running", .coroutine .running), ("status", .coroutine .status), ("wrap", .coroutine .wrap),
  ("yield", .coroutine .yield)]

def utf8 : Names := [
  ("char", .utf8 .char), ("codepoint", .utf8 .codePoint), ("codes", .utf8 .codes),
  ("len", .utf8 .len), ("offset", .utf8 .offset)]

/-- The pattern that matches one character in UTF-8. -/
def charPattern : Bytes :=
  Bytes.ofList [0x5B, 0x00, 0x2D, 0x7F, 0xC2, 0x2D, 0xFD, 0x5D, 0x5B, 0x80, 0x2D, 0xBF, 0x5D, 0x2A]

def path : String :=
  "/usr/local/share/lua/5.4/?.lua;/usr/local/share/lua/5.4/?/init.lua;/usr/local/lib/lua/5.4/?.lua;"
    ++ "/usr/local/lib/lua/5.4/?/init.lua;./?.lua;./?/init.lua"

def nativePath : String :=
  "/usr/local/lib/lua/5.4/?.so;/usr/local/lib/lua/5.4/loadall.so;./?.so"

end Enclosure.Lua.Library
