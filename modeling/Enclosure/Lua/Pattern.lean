import Enclosure.Text.Bytes

/-!
# Patterns

Matching a pattern at a place of a subject. Every step goes forward in the pattern, so the length of
the pattern bounds the steps; repetitions try their counts one by one. What is wrong with a pattern is
found only when the match gets there.
-/

namespace Enclosure.Lua

/-- What a capture holds. -/
inductive Capture
  | text (start stop : Nat)
  | position (place : Nat)
  /-- Begun and not yet ended. -/
  | unfinished (start : Nat)
  deriving DecidableEq

namespace Pattern

structure Subject where
  text : Bytes
  pattern : Bytes

/-- The end of a match and its captures; nothing where there is no match. -/
abbrev Result := Except String (Option (Nat × List Capture))

def escape : UInt8 := 37

def maxCaptures : Nat := 32

/-- How many matches may be inside one another. -/
def maxDepth : Nat := 200

/-- Whether a byte is of the class of a letter; an upper-case letter stands for the complement. -/
def inClass (c letter : UInt8) : Bool :=
  let holds? : Option Bool :=
    match Ascii.toLower letter with
    | 97 => some (Ascii.isAlpha c)
    | 99 => some (Ascii.isControl c)
    | 100 => some (Ascii.isDigit c)
    | 103 => some (Ascii.isGraph c)
    | 108 => some (Ascii.isLower c)
    | 112 => some (Ascii.isPunct c)
    | 115 => some (Ascii.isSpace c)
    | 117 => some (Ascii.isUpper c)
    | 119 => some (Ascii.isAlnum c)
    | 120 => some (Ascii.isHexDigit c)
    | 122 => some (c == 0)
    | _ => none
  match holds? with
  | some b => if Ascii.isUpper letter then !b else b
  | none => letter == c

/-- The end of a set that begins at `[`, whose first item is looked at next. -/
def setEnd (pat : Bytes) : Nat → Nat → Bool → Except String Nat
  | 0, _, _ => .error "malformed pattern (missing ']')"
  | fuel + 1, p, first =>
    if pat.size ≤ p then .error "malformed pattern (missing ']')"
    else if pat.at0 p == 93 && !first then .ok (p + 1)
    else if pat.at0 p == escape then setEnd pat fuel (p + 2) false
    else setEnd pat fuel (p + 1) false

/-- The place after the single item of a pattern that begins at `p`. -/
def classEnd (pat : Bytes) (p : Nat) : Except String Nat :=
  if pat.at0 p == escape then
    if pat.size ≤ p + 1 then .error "malformed pattern (ends with '%')" else .ok (p + 2)
  else if pat.at0 p == 91 then
    let start := if pat.at0 (p + 1) == 94 then p + 2 else p + 1
    setEnd pat (pat.size + 1) start true
  else .ok (p + 1)

/-- Whether a byte is among the items of a set from `p` up to its closing bracket at `stop`. -/
def inItems (pat : Bytes) (c : UInt8) (stop : Nat) : Nat → Nat → Bool
  | 0, _ => false
  | fuel + 1, p =>
    if stop ≤ p then false
    else if pat.at0 p == escape then
      inClass c (pat.at0 (p + 1)) || inItems pat c stop fuel (p + 2)
    else if pat.at0 (p + 1) == 45 && p + 2 < stop then
      (pat.at0 p ≤ c && c ≤ pat.at0 (p + 2)) || inItems pat c stop fuel (p + 3)
    else pat.at0 p == c || inItems pat c stop fuel (p + 1)

/-- Whether a byte is in the set between `[` at `p` and `]` at `stop`. -/
def inSet (pat : Bytes) (c : UInt8) (p stop : Nat) : Bool :=
  if pat.at0 (p + 1) == 94 then !inItems pat c stop (pat.size + 1) (p + 2)
  else inItems pat c stop (pat.size + 1) (p + 1)

/-- Whether the item of the pattern from `p` to `stop` matches the byte at `i`. -/
def matchesItem (s : Subject) (i p stop : Nat) : Bool :=
  if s.text.size ≤ i then false
  else
    let c := s.text.at0 i
    let k := s.pattern.at0 p
    if k == 46 then true
    else if k == escape then inClass c (s.pattern.at0 (p + 1))
    else if k == 91 then inSet s.pattern c p (stop - 1)
    else k == c

/-- How many bytes from `i` on match the item. -/
def runLength (s : Subject) (p stop : Nat) : Nat → Nat → Nat
  | 0, _ => 0
  | fuel + 1, i => if matchesItem s i p stop then runLength s p stop fuel (i + 1) + 1 else 0

/-- The place after a balanced text between two bytes that begins at `i`. -/
def balancedEnd (text : Bytes) (opener closer : UInt8) : Nat → Nat → Nat → Option Nat
  | 0, _, _ => none
  | fuel + 1, i, level =>
    if text.size ≤ i then none
    else
      let c := text.at0 i
      if c == closer then
        if level == 1 then some (i + 1) else balancedEnd text opener closer fuel (i + 1) (level - 1)
      else if c == opener then balancedEnd text opener closer fuel (i + 1) (level + 1)
      else balancedEnd text opener closer fuel (i + 1) level

/-- Tries the counts from `n` down to zero. -/
def tryDown (f : Nat → Result) : Nat → Result
  | 0 => f 0
  | n + 1 =>
    match f (n + 1) with
    | .ok none => tryDown f n
    | r => r

/-- Tries the counts from `k` up as long as one more byte matches. -/
def tryUp (f : Nat → Result) (more : Nat → Bool) : Nat → Nat → Result
  | 0, _ => .ok none
  | fuel + 1, k =>
    match f k with
    | .ok none => if more k then tryUp f more fuel (k + 1) else .ok none
    | r => r

/-- Ends the capture begun last. -/
def endCapture (caps : List Capture) (i : Nat) : Except String (List Capture) :=
  match go caps.reverse with
  | some cs => .ok cs.reverse
  | none => .error "invalid pattern capture"
where
  go : List Capture → Option (List Capture)
    | [] => none
    | .unfinished start :: rest => some (.text start i :: rest)
    | c :: rest => (go rest).map (c :: ·)

/-- The text of the capture that a digit of the pattern refers to; a position has none. -/
def backText (s : Subject) (caps : List Capture) (digit : UInt8) : Except String (Option Bytes) :=
  if digit == 48 then .error "invalid capture index %0"
  else
    let n := digit.toNat - 49
    match caps[n]? with
    | some (.text start stop) => .ok (some (s.text.slice start stop))
    | some (.position _) => .ok none
    | _ => .error ("invalid capture index %" ++ toString (n + 1))

/-- Matches the pattern from `p` at place `i`. -/
def matchFrom (s : Subject) : Nat → Nat → Nat → Nat → List Capture → Result
  | 0, _, _, _, _ => .ok none
  | fuel + 1, depth, i, p, caps =>
    let pat := s.pattern
    -- a match inside this one
    let inner (i p : Nat) (caps : List Capture) : Result :=
      match depth with
      | 0 => .error "pattern too complex"
      | d + 1 => matchFrom s fuel d i p caps
    let item : Result :=
      match classEnd pat p with
      | .error e => .error e
      | .ok stop =>
        let k := if stop < pat.size then pat.at0 stop else 0
        if k == 63 then
          if matchesItem s i p stop then
            match inner (i + 1) (stop + 1) caps with
            | .ok none => matchFrom s fuel depth i (stop + 1) caps
            | r => r
          else matchFrom s fuel depth i (stop + 1) caps
        else if k == 43 then
          if matchesItem s i p stop then
            let n := runLength s p stop (s.text.size + 1) (i + 1)
            tryDown (fun n => inner (i + 1 + n) (stop + 1) caps) n
          else .ok none
        else if k == 42 then
          let n := runLength s p stop (s.text.size + 1) i
          tryDown (fun n => inner (i + n) (stop + 1) caps) n
        else if k == 45 then
          tryUp (fun n => inner (i + n) (stop + 1) caps) (fun n => matchesItem s (i + n) p stop)
            (s.text.size + 2) 0
        else if matchesItem s i p stop then matchFrom s fuel depth (i + 1) stop caps
        else .ok none
    if pat.size ≤ p then .ok (some (i, caps))
    else if pat.at0 p == 40 then
      if maxCaptures ≤ caps.length then .error "too many captures"
      else if pat.at0 (p + 1) == 41 then inner i (p + 2) (caps ++ [.position i])
      else inner i (p + 1) (caps ++ [.unfinished i])
    else if pat.at0 p == 41 then
      match endCapture caps i with
      | .error e => .error e
      | .ok caps => inner i (p + 1) caps
    else if pat.at0 p == 36 && p + 1 == pat.size then
      if i == s.text.size then .ok (some (i, caps)) else .ok none
    else if pat.at0 p == escape && p + 1 < pat.size then
      let k := pat.at0 (p + 1)
      if k == 98 then
        if pat.size ≤ p + 3 then .error "malformed pattern (missing arguments to '%b')"
        else if i < s.text.size && s.text.at0 i == pat.at0 (p + 2) then
          match balancedEnd s.text (pat.at0 (p + 2)) (pat.at0 (p + 3)) (s.text.size + 1) (i + 1) 1 with
          | some i => matchFrom s fuel depth i (p + 4) caps
          | none => .ok none
        else .ok none
      else if k == 102 then
        if pat.at0 (p + 2) != 91 then .error "missing '[' after '%f' in pattern"
        else
          match classEnd pat (p + 2) with
          | .error e => .error e
          | .ok stop =>
            let before := if i == 0 then 0 else s.text.at0 (i - 1)
            let here := s.text.at0 i
            if !inSet pat before (p + 2) (stop - 1) && inSet pat here (p + 2) (stop - 1) then
              matchFrom s fuel depth i stop caps
            else .ok none
      else if Ascii.isDigit k then
        match backText s caps k with
        | .error e => .error e
        | .ok none => .ok none
        | .ok (some t) =>
          if s.text.hasAt t i then matchFrom s fuel depth (i + t.size) (p + 2) caps else .ok none
      else item
    else item

/-- Matches the pattern from `p` on at place `i`. -/
def matchAt (s : Subject) (i p : Nat) : Result :=
  matchFrom s (s.pattern.size + 1) (maxDepth - 1) i p []

/-- The first place from `i` on where the pattern matches, with the end and the captures. -/
def search (s : Subject) (p : Nat) (anchored : Bool) :
    Nat → Nat → Except String (Option (Nat × Nat × List Capture))
  | 0, _ => .ok none
  | fuel + 1, i =>
    match matchAt s i p with
    | .error e => .error e
    | .ok (some (stop, caps)) => .ok (some (i, stop, caps))
    | .ok none =>
      if anchored || s.text.size ≤ i then .ok none else search s p anchored fuel (i + 1)

/-- Whether a pattern has no byte with a meaning of its own. -/
def isPlain (pat : Bytes) : Bool :=
  pat.asList.all fun b => !("^$*+?.([%-".toUTF8.data.contains b)

end Pattern

end Enclosure.Lua
