import Enclosure.Number.Numeral
import Enclosure.Toml.Node
import Enclosure.Toml.Quote

/-!
# Reading TOML

A document is read line by line: blank lines and comments, headers, and keys with values. Every reader
takes the characters that are left and answers what it read with the rest, or nothing if the text is
not well formed.
-/

namespace Enclosure.Toml.Reader

abbrev Text := List Char

def isDigit (c : Char) : Bool := '0' ≤ c && c ≤ '9'

def isKeyChar (c : Char) : Bool :=
  isDigit c || ('a' ≤ c && c ≤ 'z') || ('A' ≤ c && c ≤ 'Z') || c == '_' || c == '-'

def skipBlanks (cs : Text) : Text := cs.dropWhile Quote.isBlank

/-- Past a comment, if one is here. -/
def skipComment : Text → Text
  | '#' :: cs => cs.dropWhile Quote.isPlain
  | cs => cs

/-- Past what may stand after the last thing of a line, and the end of the line. -/
def endLine (cs : Text) : Option Text :=
  match skipComment (skipBlanks cs) with
  | [] => some []
  | cs => Quote.takeNewline cs

/-- Blanks, comments and line ends, as they may stand between the items of an array. -/
def skipSpace : Nat → Text → Text
  | 0, cs => cs
  | fuel + 1, cs =>
    let cs := skipComment (skipBlanks cs)
    match Quote.takeNewline cs with
    | some rest => skipSpace fuel rest
    | none => cs

/-! ## Keys -/

def simpleKey (cs : Text) : Option (String × Text) :=
  match cs with
  | '"' :: _ | '\'' :: _ => Quote.readShort cs
  | _ =>
    let word := cs.takeWhile isKeyChar
    if word.isEmpty then none else some (String.ofList word, cs.drop word.length)

/-- How many parts a key may have less one, and how deep values may be nested. -/
def depthLimit : Nat := 79

/-- The parts of a key, blanks around each skipped. -/
def keyParts : Nat → Text → Option (List String × Text)
  | 0, _ => none
  | fuel + 1, cs => do
    let (k, cs) ← simpleKey (skipBlanks cs)
    match skipBlanks cs with
    | '.' :: cs =>
      let (ks, cs) ← keyParts fuel cs
      return (k :: ks, cs)
    | cs => return ([k], cs)

def key (cs : Text) : Option (List String × Text) := keyParts depthLimit cs

/-! ## Numbers -/

/-- Digits of a base with single underscores between them. -/
def digits (ok : Char → Bool) : Nat → Text → Option (List Char × Text)
  | 0, _ => none
  | fuel + 1, cs =>
    match cs with
    | c :: '_' :: rest =>
      if ok c then do
        let (ds, rest) ← digits ok fuel rest
        return (c :: ds, rest)
      else none
    | c :: rest =>
      if ok c then
        match rest with
        | d :: _ =>
          if ok d then do
            let (ds, rest) ← digits ok fuel rest
            return (c :: ds, rest)
          else some ([c], rest)
        | [] => some ([c], [])
      else none
    | [] => none

def digitsOf (ok : Char → Bool) (cs : Text) : Option (List Char × Text) :=
  digits ok (cs.length + 1) cs

def valueIn (base : Nat) (ds : List Char) : Nat :=
  ds.foldl (fun n c => n * base + (Quote.hexValue? c).getD 0) 0

/-- An integer that fits in 64 bits. -/
def integerNode (n : Int) : Option Node :=
  if -Int.pow 2 63 ≤ n && n < Int.pow 2 63 then some (.integer n) else none

def inBase (base : Nat) (ok : Char → Bool) (cs : Text) : Option (Node × Text) := do
  let (ds, cs) ← digitsOf ok cs
  let node ← integerNode (valueIn base ds)
  return (node, cs)

def isHexDigit (c : Char) : Bool := (Quote.hexValue? c).isSome

def isOctalDigit (c : Char) : Bool := '0' ≤ c && c ≤ '7'

def isBinaryDigit (c : Char) : Bool := c == '0' || c == '1'

def takeSign : Text → Bool × Text
  | '-' :: cs => (true, cs)
  | '+' :: cs => (false, cs)
  | cs => (false, cs)

/-- The digits before a point: no zero in front of others. -/
def wholePart (cs : Text) : Option (List Char × Text) :=
  match cs with
  | '0' :: rest => some (['0'], rest)
  | _ => digitsOf isDigit cs

/-- What makes a number a float: the digits after the point and the exponent. -/
def fractionPart (cs : Text) : Option (List Char × Text) :=
  match cs with
  | '.' :: rest => digitsOf isDigit rest
  | _ => some ([], cs)

def exponentPart (cs : Text) : Option (Option Int × Text) :=
  let read (rest : Text) : Option (Option Int × Text) := do
    let (negative, rest) := takeSign rest
    let (ds, rest) ← digitsOf isDigit rest
    let n : Int := valueIn 10 ds
    return (some (if negative then -n else n), rest)
  match cs with
  | 'e' :: rest => read rest
  | 'E' :: rest => read rest
  | _ => some (none, cs)

/-- A float; the largest ones have no infinite neighbour above. -/
def floatNode (negative : Bool) (value : Nat) (e : Int) : Option Node :=
  let d := Numeral.decimal negative value e
  if d == Double.infinity then none else some (.float d)

/-- A decimal integer or a float. -/
def decimalNumber (cs : Text) : Option (Node × Text) := do
  let (negative, cs) := takeSign cs
  let (whole, cs) ← wholePart cs
  let (fraction, cs) ← fractionPart cs
  let (e, cs) ← exponentPart cs
  if fraction.isEmpty && e.isNone then
    let n : Int := valueIn 10 whole
    let node ← integerNode (if negative then -n else n)
    return (node, cs)
  else
    let node ←
      floatNode negative (valueIn 10 (whole ++ fraction)) (e.getD 0 - (fraction.length : Int))
    return (node, cs)

/-- The rest after a word, if the text begins with it. -/
def afterWord : Text → Text → Option Text
  | [], cs => some cs
  | w :: word, c :: cs => if w == c then afterWord word cs else none
  | _ :: _, [] => none

/-- A number that is not finite, after its sign. -/
def specialNumber (negative : Bool) (cs : Text) : Option (Node × Text) :=
  match afterWord ['i', 'n', 'f'] cs with
  | some rest => some (.float (if negative then Double.infinity.neg else .infinity), rest)
  | none =>
    (afterWord ['n', 'a', 'n'] cs).map fun rest =>
      (.float (if negative then .negNan else .nan), rest)

def number (cs : Text) : Option (Node × Text) :=
  match cs with
  | '0' :: 'x' :: rest => inBase 16 isHexDigit rest
  | '0' :: 'o' :: rest => inBase 8 isOctalDigit rest
  | '0' :: 'b' :: rest => inBase 2 isBinaryDigit rest
  | _ =>
    match (takeSign cs).2 with
    | 'i' :: _ => specialNumber (takeSign cs).1 (takeSign cs).2
    | 'n' :: _ => specialNumber (takeSign cs).1 (takeSign cs).2
    | _ => decimalNumber cs

/-! ## Moments -/

/-- A number in exactly so many digits, within bounds. -/
def fixedNumber (width low high : Nat) (cs : Text) : Option (Nat × Text) :=
  let ds := cs.take width
  let n := valueIn 10 ds
  if ds.length == width && ds.all isDigit && low ≤ n && n ≤ high then some (n, cs.drop width)
  else none

def expect (c : Char) : Text → Option Text
  | d :: cs => if c == d then some cs else none
  | [] => none

def isLeapYear (year : Nat) : Bool := year % 4 == 0 && (year % 100 != 0 || year % 400 == 0)

def daysInMonth (year month : Nat) : Nat :=
  if month == 2 then (if isLeapYear year then 29 else 28)
  else if [4, 6, 9, 11].contains month then 30
  else 31

/-- Past a date. -/
def date (cs : Text) : Option Text := do
  let (year, cs) ← fixedNumber 4 0 9999 cs
  let cs ← expect '-' cs
  let (month, cs) ← fixedNumber 2 1 12 cs
  let cs ← expect '-' cs
  let (_, cs) ← fixedNumber 2 1 (daysInMonth year month) cs
  return cs

/-- Past a time of day. -/
def timeOfDay (cs : Text) : Option Text := do
  let (_, cs) ← fixedNumber 2 0 23 cs
  let cs ← expect ':' cs
  let (_, cs) ← fixedNumber 2 0 59 cs
  let cs ← expect ':' cs
  let (_, cs) ← fixedNumber 2 0 60 cs
  match cs with
  | '.' :: rest =>
    let ds := rest.takeWhile isDigit
    if ds.isEmpty then none else return rest.drop ds.length
  | cs => return cs

/-- Past an offset from universal time, if one is here. -/
def offset (cs : Text) : Option Text :=
  let read (rest : Text) : Option Text := do
    let (_, rest) ← fixedNumber 2 0 23 rest
    let rest ← expect ':' rest
    let (_, rest) ← fixedNumber 2 0 59 rest
    return rest
  match cs with
  | 'Z' :: rest | 'z' :: rest => some rest
  | '+' :: rest | '-' :: rest => read rest
  | _ => some cs

def isDateMark (c : Char) : Bool := c == 'T' || c == 't' || c == ' '

/-- Past a date, a time or both. -/
def moment (cs : Text) : Option Text :=
  match date cs with
  | some cs =>
    match cs with
    | c :: rest =>
      if isDateMark c then
        match timeOfDay rest with
        | some rest => offset rest
        | none => some (c :: rest)
      else some (c :: rest)
    | [] => some []
  | none => timeOfDay cs

/-! ## Values -/

/-- The items of an array up to its end, each read by `item`. -/
def arrayItems (item : Text → Option (Node × Text)) : Nat → Text → Option (List Node × Text)
  | 0, _ => none
  | fuel + 1, cs =>
    match skipSpace cs.length cs with
    | ']' :: rest => some ([], rest)
    | cs => do
      let (n, cs) ← item cs
      match skipSpace cs.length cs with
      | ']' :: rest => return ([n], rest)
      | ',' :: rest =>
        let (ns, rest) ← arrayItems item fuel rest
        return (n :: ns, rest)
      | _ => none

/-- A key, an equals sign and a value. -/
def assignment (item : Text → Option (Node × Text)) (cs : Text) :
    Option (List String × Node × Text) := do
  let (ks, cs) ← key cs
  let cs ← expect '=' (skipBlanks cs)
  let (n, cs) ← item (skipBlanks cs)
  return (ks, n, cs)

/-- The assignments of a table in braces up to its end; there is at least one. -/
def inlineItems (item : Text → Option (Node × Text)) :
    Nat → Entries → Text → Option (Entries × Text)
  | 0, _, _ => none
  | fuel + 1, es, cs => do
    let (ks, n, cs) ← assignment item cs
    let es ← Entries.setInline ks n es
    match skipBlanks cs with
    | '\x7d' :: rest => return (es, rest)
    | ',' :: rest => inlineItems item fuel es rest
    | _ => none

/-- A value with arrays and tables in it nested at most so deep. -/
def value : Nat → Text → Option (Node × Text)
  | depth, cs =>
    match cs with
    | '"' :: _ | '\'' :: _ => (Quote.read cs).map fun (s, rest) => (.string s, rest)
    | '[' :: rest =>
      match depth with
      | 0 => none
      | depth + 1 =>
        (arrayItems (value depth) (rest.length + 1) rest).map fun (ns, rest) => (.array ns, rest)
    | '\x7b' :: rest =>
      match depth with
      | 0 => none
      | depth + 1 =>
        match skipBlanks rest with
        | '\x7d' :: rest => some (.inlineTable .defined [], rest)
        | rest =>
          (inlineItems (value depth) (rest.length + 1) [] rest).map fun (es, rest) =>
            (.inlineTable .defined es, rest)
    | 't' :: _ => (afterWord ['t', 'r', 'u', 'e'] cs).map fun rest => (.boolean true, rest)
    | 'f' :: _ => (afterWord ['f', 'a', 'l', 's', 'e'] cs).map fun rest => (.boolean false, rest)
    | _ =>
      match moment cs with
      | some rest => some (.moment, rest)
      | none => number cs

/-! ## Documents -/

/-- A header up to its last bracket. -/
def header (cs : Text) : Option (List String × Text) := do
  let (ks, cs) ← key cs
  let cs ← expect ']' (skipBlanks cs)
  return (ks, cs)

/-- One line that is not blank. -/
def line (d : Draft) (cs : Text) : Option (Draft × Text) :=
  match cs with
  | '[' :: '[' :: rest => do
    let (ks, rest) ← header rest
    let rest ← expect ']' rest
    let rest ← endLine rest
    return (← d.openElement ks, rest)
  | '[' :: rest => do
    let (ks, rest) ← header rest
    let rest ← endLine rest
    return (← d.openTable ks, rest)
  | _ => do
    let (ks, n, rest) ← assignment (value depthLimit) cs
    let rest ← endLine rest
    return (← d.set ks n, rest)

def lines : Nat → Draft → Text → Option Draft
  | 0, _, _ => none
  | fuel + 1, d, cs =>
    match skipSpace cs.length cs with
    | [] => some d
    | cs => do
      let (d, cs) ← line d cs
      lines fuel d cs

/-- A mark of the encoding in front is skipped. -/
def skipMark : Text → Text
  | '\uFEFF' :: cs => cs
  | cs => cs

def document (source : String) : Option Entries := do
  let cs := skipMark source.toList
  let d ← lines (cs.length + 1) {} cs
  d.finish

end Enclosure.Toml.Reader
