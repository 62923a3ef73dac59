import Enclosure.Text.Bytes

/-!
# Reading bytes as text

A byte string is cut from the left into sequences. `first` says how long the next one is and which
character it stands for, if it is well formed; an ill-formed one is the longest beginning of some
well-formed sequence, or a single byte. Lossy decoding writes U+FFFD once for each ill-formed
sequence.
-/

namespace Enclosure.Utf8

def isTail (b : UInt8) : Bool := 0x80 ≤ b && b ≤ 0xBF

/-- Whether `b` may follow the lead byte `a` of a sequence of three or four bytes; this keeps out
overlong forms, surrogates and what lies past U+10FFFF. -/
def secondOk (a b : UInt8) : Bool :=
  if a == 0xE0 then 0xA0 ≤ b && b ≤ 0xBF
  else if a == 0xED then 0x80 ≤ b && b ≤ 0x9F
  else if a == 0xF0 then 0x90 ≤ b && b ≤ 0xBF
  else if a == 0xF4 then 0x80 ≤ b && b ≤ 0x8F
  else isTail b

/-- The number of bytes that a lead byte announces; zero if it leads nothing. -/
def announced (a : UInt8) : Nat :=
  if a < 0x80 then 1
  else if 0xC2 ≤ a && a ≤ 0xDF then 2
  else if 0xE0 ≤ a && a ≤ 0xEF then 3
  else if 0xF0 ≤ a && a ≤ 0xF4 then 4
  else 0

def low (b : UInt8) : Nat := b.toNat % 64

/-- What the next bytes are. `cut` says that the input ended inside the sequence. -/
inductive Sequence
  | char (c : Char) (length : Nat)
  | bad (length : Nat) (cut : Bool)
  deriving DecidableEq, Repr

def Sequence.length : Sequence → Nat
  | .char _ n => n
  | .bad n _ => n

/-- The sequence at the front of `a :: rest`. -/
def first (a : UInt8) (rest : List UInt8) : Sequence :=
  match announced a, rest with
  | 1, _ => .char (Char.ofNat a.toNat) 1
  | 2, [] => .bad 1 true
  | 2, b :: _ =>
    if isTail b then .char (Char.ofNat (a.toNat % 32 * 64 + low b)) 2 else .bad 1 false
  | 3, [] => .bad 1 true
  | 3, b :: rest =>
    if secondOk a b then
      match rest with
      | [] => .bad 2 true
      | c :: _ =>
        if isTail c then .char (Char.ofNat ((a.toNat % 16 * 64 + low b) * 64 + low c)) 3
        else .bad 2 false
    else .bad 1 false
  | 4, [] => .bad 1 true
  | 4, b :: rest =>
    if secondOk a b then
      match rest with
      | [] => .bad 2 true
      | c :: rest =>
        if isTail c then
          match rest with
          | [] => .bad 3 true
          | d :: _ =>
            if isTail d then
              .char (Char.ofNat (((a.toNat % 8 * 64 + low b) * 64 + low c) * 64 + low d)) 4
            else .bad 3 false
        else .bad 2 false
    else .bad 1 false
  | _, _ => .bad 1 false

/-- What stands for an ill-formed sequence. -/
def replacement : Char := Char.ofNat 0xFFFD

/-- The characters of the bytes, with `replacement` for each ill-formed sequence. -/
def decodeLossy : List UInt8 → List Char
  | [] => []
  | a :: rest =>
    match first a rest with
    | .char c n => c :: decodeLossy (rest.drop (n - 1))
    | .bad n _ => replacement :: decodeLossy (rest.drop (n - 1))
termination_by bs => bs.length
decreasing_by all_goals simp only [List.length_drop, List.length_cons]; omega

/-- Where text stops being well formed. -/
structure Defect where
  /-- Offset of the ill-formed sequence. -/
  index : Nat
  length : Nat
  /-- The input ended inside the sequence. -/
  cut : Bool
  deriving DecidableEq, Repr

def Defect.message (d : Defect) : String :=
  if d.cut then "incomplete utf-8 byte sequence from index " ++ toString d.index
  else "invalid utf-8 sequence of " ++ toString d.length ++ " bytes from index " ++ toString d.index

/-- The characters of well-formed bytes, or the first defect; `index` counts the bytes before. -/
def decodeFrom (index : Nat) : List UInt8 → Except Defect (List Char)
  | [] => .ok []
  | a :: rest =>
    match first a rest with
    | .char c n =>
      match decodeFrom (index + n) (rest.drop (n - 1)) with
      | .ok cs => .ok (c :: cs)
      | .error d => .error d
    | .bad n cut => .error ⟨index, n, cut⟩
termination_by bs => bs.length
decreasing_by simp only [List.length_drop, List.length_cons]; omega

end Enclosure.Utf8

namespace Enclosure.Bytes

/-- The text of the bytes; ill-formed sequences become U+FFFD. -/
def textLossy (b : Bytes) : String := String.ofList (Utf8.decodeLossy b.asList)

/-- The text of the bytes if they are well formed, or the first defect. -/
def text (b : Bytes) : Except Utf8.Defect String :=
  (Utf8.decodeFrom 0 b.asList).map String.ofList

def text? (b : Bytes) : Option String :=
  match b.text with
  | .ok s => some s
  | .error _ => none

end Enclosure.Bytes

