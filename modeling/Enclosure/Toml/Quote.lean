/-!
# Strings in TOML

A string stands between double quotes, where a backslash begins an escape, or between apostrophes,
where nothing does. Three of the same quotes open a form that may go over several lines and that ends
at the next three; one or two quotes more before the end belong to the string.

Writing takes the first form that can hold the string as it is, and escapes only if none can.
-/

namespace Enclosure.Toml.Quote

/-- Characters that stand for themselves: tab and all but the controls. -/
def isPlain (c : Char) : Bool := c == '\t' || (0x20 ≤ c.toNat && c.toNat != 0x7F)

def isBlank (c : Char) : Bool := c == ' ' || c == '\t'

def hexValue? (c : Char) : Option Nat :=
  if '0' ≤ c && c ≤ '9' then some (c.toNat - 48)
  else if 'a' ≤ c && c ≤ 'f' then some (c.toNat - 87)
  else if 'A' ≤ c && c ≤ 'F' then some (c.toNat - 55)
  else none

/-- A number in so many hexadecimal digits. -/
def hexNumber : Nat → Nat → List Char → Option (Nat × List Char)
  | 0, value, cs => some (value, cs)
  | n + 1, value, c :: cs =>
    match hexValue? c with
    | some d => hexNumber n (value * 16 + d) cs
    | none => none
  | _ + 1, _, [] => none

/-- The character with a code point; surrogates have none. -/
def charAt? (n : Nat) : Option Char :=
  if n.isValidChar then some (Char.ofNat n) else none

/-- The character that a letter after a backslash stands for. -/
def escaped? : Char → Option Char
  | 'b' => some '\x08'
  | 't' => some '\t'
  | 'n' => some '\n'
  | 'f' => some '\x0c'
  | 'r' => some '\r'
  | '"' => some '"'
  | '\\' => some '\\'
  | _ => none

/-- What follows a backslash: the character and the rest. -/
def takeEscape : List Char → Option (Char × List Char)
  | 'u' :: cs =>
    match hexNumber 4 0 cs with
    | some (n, rest) => (charAt? n).map (·, rest)
    | none => none
  | 'U' :: cs =>
    match hexNumber 8 0 cs with
    | some (n, rest) => (charAt? n).map (·, rest)
    | none => none
  | c :: cs => (escaped? c).map (·, cs)
  | [] => none

/-- The end of a line, if one is here. -/
def takeNewline : List Char → Option (List Char)
  | '\n' :: cs => some cs
  | '\r' :: '\n' :: cs => some cs
  | _ => none

/-- After a backslash at the end of a line: all blanks and lines up to the next other character. -/
def skipLines : Nat → List Char → List Char
  | 0, cs => cs
  | fuel + 1, cs =>
    let cs := cs.dropWhile isBlank
    match takeNewline cs with
    | some rest => skipLines fuel rest
    | none => cs

/-! ## Reading -/

/-- Up to the closing double quote. -/
def readBasic : Nat → List Char → Option (List Char × List Char)
  | 0, _ => none
  | fuel + 1, cs =>
    match cs with
    | '"' :: rest => some ([], rest)
    | '\\' :: rest => do
      let (c, rest) ← takeEscape rest
      let (s, rest) ← readBasic fuel rest
      return (c :: s, rest)
    | c :: rest =>
      if isPlain c then do
        let (s, rest) ← readBasic fuel rest
        return (c :: s, rest)
      else none
    | [] => none

/-- Up to the closing apostrophe. -/
def readLiteral : List Char → Option (List Char × List Char)
  | '\'' :: rest => some ([], rest)
  | c :: rest =>
    if isPlain c then do
      let (s, rest) ← readLiteral rest
      return (c :: s, rest)
    else none
  | [] => none

/-- Whether three quotes stand here; up to two more before them belong to the string. -/
def closing (quote : Char) (cs : List Char) : Option (List Char × List Char) :=
  let run := (cs.takeWhile (· == quote)).length
  if run < 3 then none
  else
    let n := min run 5
    some (List.replicate (n - 3) quote, cs.drop n)

/-- Up to three closing double quotes. -/
def readLongBasic : Nat → List Char → Option (List Char × List Char)
  | 0, _ => none
  | fuel + 1, cs =>
    match closing '"' cs with
    | some r => some r
    | none =>
      match takeNewline cs with
      | some rest => do
        let (s, rest) ← readLongBasic fuel rest
        return ('\n' :: s, rest)
      | none =>
        match cs with
        | '\\' :: rest =>
          match takeNewline (rest.dropWhile isBlank) with
          | some rest => readLongBasic fuel (skipLines rest.length rest)
          | none => do
            let (c, rest) ← takeEscape rest
            let (s, rest) ← readLongBasic fuel rest
            return (c :: s, rest)
        | c :: rest =>
          if isPlain c then do
            let (s, rest) ← readLongBasic fuel rest
            return (c :: s, rest)
          else none
        | [] => none

/-- Up to three closing apostrophes. -/
def readLongLiteral : Nat → List Char → Option (List Char × List Char)
  | 0, _ => none
  | fuel + 1, cs =>
    match closing '\'' cs with
    | some r => some r
    | none =>
      match takeNewline cs with
      | some rest => do
        let (s, rest) ← readLongLiteral fuel rest
        return ('\n' :: s, rest)
      | none =>
        match cs with
        | c :: rest =>
          if isPlain c then do
            let (s, rest) ← readLongLiteral fuel rest
            return (c :: s, rest)
          else none
        | [] => none

/-- A line end right after the opening quotes is no part of the string. -/
def skipFirstLine (cs : List Char) : List Char := (takeNewline cs).getD cs

/-- A string in any form; nothing if none begins here. -/
def read (cs : List Char) : Option (String × List Char) :=
  let found :=
    match cs with
    | '"' :: '"' :: '"' :: rest =>
      let rest := skipFirstLine rest
      readLongBasic (rest.length + 1) rest
    | '"' :: rest => readBasic (rest.length + 1) rest
    | '\'' :: '\'' :: '\'' :: rest =>
      let rest := skipFirstLine rest
      readLongLiteral (rest.length + 1) rest
    | '\'' :: rest => readLiteral rest
    | _ => none
  found.map fun (s, rest) => (String.ofList s, rest)

/-- A string on one line, as keys have it. -/
def readShort (cs : List Char) : Option (String × List Char) :=
  let found :=
    match cs with
    | '"' :: rest => readBasic (rest.length + 1) rest
    | '\'' :: rest => readLiteral rest
    | _ => none
  found.map fun (s, rest) => (String.ofList s, rest)

/-! ## Writing -/

/-- Whether a character comes three times in a row. -/
def hasTriple (c : Char) : List Char → Bool
  | a :: b :: d :: rest => (a == c && b == c && d == c) || hasTriple c (b :: d :: rest)
  | _ => false

/-- Quotes and backslashes behind a backslash. -/
def escape : List Char → List Char
  | [] => []
  | c :: rest => if c == '"' || c == '\\' then '\\' :: c :: escape rest else c :: escape rest

/-- A string in the first form that holds it. -/
def write (s : List Char) : List Char :=
  if !s.contains '"' && !s.contains '\\' then ['"'] ++ s ++ ['"']
  else if !s.contains '\'' then ['\''] ++ s ++ ['\'']
  else if !s.contains '\\' && !hasTriple '"' s then ['"', '"', '"'] ++ s ++ ['"', '"', '"']
  else if !hasTriple '\'' s then ['\'', '\'', '\''] ++ s ++ ['\'', '\'', '\'']
  else ['"'] ++ escape s ++ ['"']

end Enclosure.Toml.Quote
