import Enclosure.FileSystem
import Enclosure.Number.Double

/-!
# What the host lends

A state sees files and asks clocks, and its random numbers start from somewhere. Nothing is known of what
a clock tells: each question has an answer of its own.
-/

namespace Enclosure.Lua

structure RandomState where
  s0 : UInt64
  s1 : UInt64
  s2 : UInt64
  s3 : UInt64

/-- What a state cannot foresee. The questions are numbered in the order in which they are asked. -/
structure Chance where
  random : RandomState := ⟨1, 2, 3, 4⟩
  /-- Seconds since the beginning of 1970. -/
  time : Nat → Int64 := fun _ => 1700000000
  /-- Seconds of work. -/
  work : Nat → Double := fun _ => .zero
  /-- What a generator of random numbers is to start from. -/
  seed : Nat → UInt64 × UInt64 := fun _ => (1, 0)
  asked : Nat := 0

/-- The answer to the next question. -/
def Chance.ask {α : Type} (answers : Chance → Nat → α) (c : Chance) : α × Chance :=
  (answers c c.asked, { c with asked := c.asked + 1 })

structure Surroundings where
  files : FileSystem := {}
  chance : Chance := {}

instance : Coe FileSystem Surroundings := ⟨fun files => { files }⟩

end Enclosure.Lua
