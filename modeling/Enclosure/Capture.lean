import Enclosure.Text.Utf8

/-!
# Captured output

Output goes into buffers that are reached through handles. A copy of a handle reaches the same buffer;
the handles of one buffer are a family, and a family has nothing to do with any other.
-/

namespace Enclosure

structure Capture where
  buffer : Nat
  deriving DecidableEq, Repr

structure Captures where
  buffers : Array Bytes := #[]

namespace Captures

/-- What is in the buffer of a handle. -/
def content (s : Captures) (c : Capture) : Bytes := s.buffers.getD c.buffer .empty

def setContent (s : Captures) (c : Capture) (b : Bytes) : Captures :=
  ⟨s.buffers.setIfInBounds c.buffer b⟩

/-- A handle on a buffer of its own. -/
def new (s : Captures) : Capture × Captures := (⟨s.buffers.size⟩, ⟨s.buffers.push .empty⟩)

/-- Another handle on the same buffer. -/
def clone (s : Captures) (c : Capture) : Capture × Captures := (c, s)

/-- Writes at the end; answers how many bytes were written. -/
def write (s : Captures) (c : Capture) (b : Bytes) : Nat × Captures :=
  (b.size, s.setContent c (s.content c ++ b))

def text (s : Captures) (c : Capture) : String := (s.content c).textLossy

/-- The content as text, with the buffer left empty. -/
def take (s : Captures) (c : Capture) : String × Captures := (s.text c, s.setContent c .empty)

def clear (s : Captures) (c : Capture) : Captures := s.setContent c .empty

def length (s : Captures) (c : Capture) : Nat := (s.content c).size

end Captures

end Enclosure
