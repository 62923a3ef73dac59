import Enclosure.Number.Numeral
import Enclosure.Text.Utf8

/-!
# Tokens

A source is cut into tokens. A defect of the source is a token of its own, so that it is reported
only when the parser reaches it. Each token carries the line on which it ends and the text that
messages quote.
-/

namespace Enclosure.Lua

inductive TokenKind
  | name
  | string (value : Bytes)
  | int (n : Int64)
  | float (d : Double)
  | word (w : String)
  | symbol (s : String)
  /-- A byte that begins no token. -/
  | byte (b : UInt8)
  | eof
  | defect (message : Bytes)
  deriving DecidableEq

structure Token where
  kind : TokenKind
  line : Nat
  /-- The token as written, for messages; for a name its text. -/
  text : Bytes
  deriving DecidableEq

instance : Inhabited Token := ⟨⟨.eof, 1, .empty⟩⟩

namespace Token

def reserved : List String :=
  ["and", "break", "do", "else", "elseif", "end", "false", "for", "function", "goto", "if", "in",
   "local", "nil", "not", "or", "repeat", "return", "then", "true", "until", "while"]

def quoted (b : Bytes) : Bytes := Bytes.ofText "'" ++ b ++ Bytes.ofText "'"

/-- How a message names a single byte. -/
def byteName (b : UInt8) : Bytes :=
  if Ascii.isPrint b then quoted (Bytes.singleton b)
  else Bytes.ofText ("'<\\" ++ toString b.toNat ++ ">'")

/-- A text up to its first zero byte. -/
def upToZero (b : Bytes) : Bytes := Bytes.ofList (b.asList.takeWhile (· != 0))

/-- What a message writes after "near". -/
def near (t : Token) : Bytes :=
  match t.kind with
  | .name | .string _ | .int _ | .float _ => quoted (upToZero t.text)
  | .word w => quoted (Bytes.ofText w)
  | .symbol s => quoted (Bytes.ofText s)
  | .byte b => byteName b
  | .eof => Bytes.ofText "<eof>"
  | .defect _ => .empty

end Token

namespace Lexer

/-- A defect: its line and its message. -/
abbrev Defect := Nat × Bytes

def nearText (message : String) (shown : Bytes) : Bytes :=
  Bytes.ofText (message ++ " near ") ++ shown

/-- A defect inside a string: what was read of it is quoted. -/
def nearBuffer (message : String) (buffer : List UInt8) : Bytes :=
  nearText message (Token.quoted (Token.upToZero (Bytes.ofList buffer.reverse)))

def isNewline (b : UInt8) : Bool := b == 10 || b == 13

/-- What follows a line end that begins with `b`; two different line end bytes are one line end. -/
def afterNewline (b : UInt8) : List UInt8 → List UInt8
  | c :: r => if isNewline c && c != b then r else c :: r
  | [] => []

/-- The count of `=` signs in front and what follows them. -/
def takeEquals : List UInt8 → Nat × List UInt8
  | 61 :: r => let (n, r) := takeEquals r; (n + 1, r)
  | r => (0, r)

/-- The content of a long bracket of the level, with the line and what follows. -/
def longBracket (level : Nat) : Nat → List UInt8 → Nat → List UInt8 →
    Option (List UInt8 × Nat × List UInt8)
  | 0, _, _, _ => none
  | _ + 1, [], _, _ => none
  | fuel + 1, b :: r, line, acc =>
    if b == 93 then
      let (n, r') := takeEquals r
      match r' with
      | 93 :: r'' =>
        if n == level then some (acc.reverse, line, r'') else longBracket level fuel r line (93 :: acc)
      | _ => longBracket level fuel r line (93 :: acc)
    else if isNewline b then longBracket level fuel (afterNewline b r) (line + 1) (10 :: acc)
    else longBracket level fuel r line (b :: acc)

/-- What follows an opening `[`, `=` signs and `[`: the level and the text after the bracket. -/
def longOpen? (r : List UInt8) : Option (Nat × List UInt8) :=
  let (n, r) := takeEquals r
  match r with
  | 91 :: r => some (n, r)
  | _ => none

/-- The bytes of a code point up to 31 bits, in the scheme of UTF-8. -/
def utf8Bytes (n : Nat) : List UInt8 :=
  if n < 0x80 then [n.toUInt8]
  else go 6 n 0x3F []
where
  go : Nat → Nat → Nat → List UInt8 → List UInt8
    | 0, _, _, acc => acc
    | fuel + 1, n, room, acc =>
      if room < n then
        go fuel (n / 64) (room / 2) ((0x80 + n % 64).toUInt8 :: acc)
      else ((255 - room) * 2 % 256 + n).toUInt8 :: acc

/-- The defect of an escape: the current byte is shown too. -/
def escapeDefect (line : Nat) (message : String) (buffer rest : List UInt8) : Defect :=
  match rest with
  | [] => (line, nearBuffer message buffer)
  | b :: _ => (line, nearBuffer message (b :: buffer))

/-- Up to `count` decimal digits in front, and what follows. -/
def takeUpTo (count : Nat) (bs : List UInt8) : List UInt8 × List UInt8 :=
  let ds := (bs.take count).takeWhile Ascii.isDigit
  (ds, bs.drop ds.length)

def hexValue (ds : List UInt8) : Nat := ds.foldl (fun v d => v * 16 + Ascii.digitValue d) 0

/-- A code point escape after its `u`: its value and what follows, or the defect. `buffer` ends with
the `u`. -/
def codePoint (line : Nat) (buffer rest : List UInt8) : Except Defect (Nat × List UInt8) :=
  match rest with
  | 123 :: r =>
    match r with
    | d :: r' =>
      if Ascii.isHexDigit d then digits r' (Ascii.digitValue d) (d :: 123 :: buffer)
      else .error (escapeDefect line "hexadecimal digit expected" (123 :: buffer) r)
    | [] => .error (escapeDefect line "hexadecimal digit expected" (123 :: buffer) [])
  | _ => .error (escapeDefect line "missing '\x7b'" buffer rest)
where
  digits : List UInt8 → Nat → List UInt8 → Except Defect (Nat × List UInt8)
    | d :: r, value, buffer =>
      if Ascii.isHexDigit d then
        if value ≤ 0x7FFFFFF then digits r (value * 16 + Ascii.digitValue d) (d :: buffer)
        else .error (escapeDefect line "UTF-8 value too large" buffer (d :: r))
      else if d == 125 then .ok (value, r)
      else .error (escapeDefect line "missing '\x7d'" buffer (d :: r))
    | [], _, buffer => .error (escapeDefect line "missing '\x7d'" buffer [])

/-- Blanks and line ends skipped, with the line. -/
def skipSpace : Nat → List UInt8 → Nat → List UInt8 × Nat
  | 0, r, line => (r, line)
  | _ + 1, [], line => ([], line)
  | fuel + 1, b :: r, line =>
    if isNewline b then skipSpace fuel (afterNewline b r) (line + 1)
    else if Ascii.isSpace b then skipSpace fuel r line
    else (b :: r, line)

/-- The value of a one-letter escape. -/
def letterEscape? : UInt8 → Option UInt8
  | 97 => some 7
  | 98 => some 8
  | 102 => some 12
  | 110 => some 10
  | 114 => some 13
  | 116 => some 9
  | 118 => some 11
  | 92 => some 92
  | 34 => some 34
  | 39 => some 39
  | _ => none

/-- The rest of a string closed by `quote`. `buffer` holds what was read, last byte first, the opening
quote included. -/
def shortString (quote : UInt8) : Nat → List UInt8 → Nat → List UInt8 →
    Except Defect (List UInt8 × Nat × List UInt8)
  | 0, _, line, _ => .error (line, nearText "unfinished string" (Bytes.ofText "<eof>"))
  | _ + 1, [], line, _ => .error (line, nearText "unfinished string" (Bytes.ofText "<eof>"))
  | fuel + 1, b :: r, line, buffer =>
    if b == quote then .ok (b :: buffer, line, r)
    else if isNewline b then .error (line, nearBuffer "unfinished string" buffer)
    else if b == 92 then
      let slash := 92 :: buffer
      match r with
      | [] => .error (line, nearText "unfinished string" (Bytes.ofText "<eof>"))
      | e :: r =>
        match letterEscape? e with
        | some v => shortString quote fuel r line (v :: buffer)
        | none =>
          if isNewline e then shortString quote fuel (afterNewline e r) (line + 1) (10 :: buffer)
          else if e == 120 then
            match r with
            | [] => .error (escapeDefect line "hexadecimal digit expected" (120 :: slash) [])
            | h :: r' =>
              if Ascii.isHexDigit h then
                match r' with
                | [] => .error (escapeDefect line "hexadecimal digit expected" (h :: 120 :: slash) [])
                | l :: r'' =>
                  if Ascii.isHexDigit l then
                    shortString quote fuel r'' line ((hexValue [h, l]).toUInt8 :: buffer)
                  else
                    .error (escapeDefect line "hexadecimal digit expected" (h :: 120 :: slash) r')
              else .error (escapeDefect line "hexadecimal digit expected" (120 :: slash) r)
          else if e == 117 then
            match codePoint line (117 :: slash) r with
            | .error d => .error d
            | .ok (n, r) => shortString quote fuel r line ((utf8Bytes n).reverse ++ buffer)
          else if e == 122 then
            let (r, line) := skipSpace (r.length + 1) r line
            shortString quote fuel r line buffer
          else if Ascii.isDigit e then
            let (ds, rest) := takeUpTo 3 (e :: r)
            let v := ds.foldl (fun v d => v * 10 + Ascii.digitValue d) 0
            if v ≤ 255 then shortString quote fuel rest line (v.toUInt8 :: buffer)
            else .error (escapeDefect line "decimal escape too large" (ds.reverse ++ slash) rest)
          else .error (escapeDefect line "invalid escape sequence" slash (e :: r))
    else shortString quote fuel r line (b :: buffer)

/-- The longest text that may be part of a number, judged by its bytes alone. -/
def numberText (hex : Bool) : List UInt8 → List UInt8 → List UInt8 × List UInt8
  | b :: r, acc =>
    let isMark := if hex then b == 112 || b == 80 else b == 101 || b == 69
    if isMark then
      match r with
      | s :: r' =>
        if s == 43 || s == 45 then numberText hex r' (s :: b :: acc) else numberText hex (s :: r') (b :: acc)
      | [] => (b :: acc, [])
    else if Ascii.isHexDigit b || b == 46 then numberText hex r (b :: acc)
    else if Ascii.isAlpha b || b == 95 then (b :: acc, r)
    else (acc, b :: r)
  | [], acc => (acc, [])

def isNameStart (b : UInt8) : Bool := Ascii.isAlpha b || b == 95

def isNamePart (b : UInt8) : Bool := Ascii.isAlnum b || b == 95

/-- The symbols of two or three bytes, longest first. -/
def longSymbols : List String := ["...", "..", "==", "~=", "<=", ">=", "//", "::", "<<", ">>"]

def singleSymbols : List UInt8 := "+-*/%^#&~|<>=(){}[];:,.".toUTF8.data.toList

/-- What follows `p` if the text starts with it. -/
def afterText (p : List UInt8) (bs : List UInt8) : Option (List UInt8) :=
  match p, bs with
  | [], bs => some bs
  | a :: p, b :: bs => if a == b then afterText p bs else none
  | _ :: _, [] => none

def longSymbol? (bs : List UInt8) : Option (String × List UInt8) :=
  longSymbols.findSome? fun s => (afterText s.toUTF8.data.toList bs).map fun r => (s, r)

/-- All tokens of a source, the last one an end or a defect. -/
def tokens : Nat → List UInt8 → Nat → List Token
  | 0, _, line => [⟨.eof, line, .empty⟩]
  | _ + 1, [], line => [⟨.eof, line, .empty⟩]
  | fuel + 1, b :: r, line =>
    let defect (d : Defect) : List Token := [⟨.defect d.2, d.1, .empty⟩]
    if isNewline b then tokens fuel (afterNewline b r) (line + 1)
    else if Ascii.isSpace b then tokens fuel r line
    else if b == 45 && r.head? == some 45 then
      let r := r.drop 1
      let short (r : List UInt8) : List Token := tokens fuel (r.dropWhile (!isNewline ·)) line
      match r with
      | 91 :: r' =>
        match longOpen? r' with
        | none => short r
        | some (level, r'') =>
          match longBracket level (r''.length + 1) r'' line [] with
          | some (_, line, rest) => tokens fuel rest line
          | none =>
            let last := (longEnd r'' line)
            defect (last, nearText ("unfinished long comment (starting at line " ++ toString line ++ ")")
              (Bytes.ofText "<eof>"))
      | _ => short r
    else if b == 91 && (r.head? == some 91 || r.head? == some 61) then
      match longOpen? r with
      | none => defect (line, nearBuffer "invalid long string delimiter"
          ((takeEquals r).1.repeat (61 :: ·) [91]))
      | some (level, body) =>
        -- a line end right after the bracket is not part of the string
        let (body', line') :=
          match body with
          | c :: r => if isNewline c then (afterNewline c r, line + 1) else (body, line)
          | [] => (body, line)
        match longBracket level (body'.length + 1) body' line' [] with
        | some (content, last, rest) =>
          let mark := List.replicate level (61 : UInt8)
          let text := (91 :: mark) ++ [91] ++ content ++ (93 :: mark) ++ [93]
          ⟨.string (Bytes.ofList content), last, Bytes.ofList text⟩ :: tokens fuel rest last
        | none =>
          defect (longEnd body' line',
            nearText ("unfinished long string (starting at line " ++ toString line ++ ")")
              (Bytes.ofText "<eof>"))
    else if b == 34 || b == 39 then
      match shortString b (r.length + 1) r line [b] with
      | .error d => defect d
      | .ok (buffer, last, rest) =>
        let text := buffer.reverse
        let content := (text.drop 1).take (text.length - 2)
        ⟨.string (Bytes.ofList content), last, Bytes.ofList text⟩ :: tokens fuel rest last
    else if Ascii.isDigit b || (b == 46 && (r.head?.map Ascii.isDigit).getD false) then
      let hex := b == 48 && (r.head? == some 120 || r.head? == some 88)
      let (acc, rest) := if hex then numberText true (r.drop 1) [r.headD 0, b] else numberText false r [b]
      let text := Bytes.ofList acc.reverse
      match Numeral.ofBytes? text with
      | some (.int n) => ⟨.int n, line, text⟩ :: tokens fuel rest line
      | some (.float d) => ⟨.float d, line, text⟩ :: tokens fuel rest line
      | none => defect (line, nearText "malformed number" (Token.quoted text))
    else if isNameStart b then
      let name := b :: r.takeWhile isNamePart
      let rest := r.dropWhile isNamePart
      let text := Bytes.ofList name
      match text.text? with
      | some w =>
        if Token.reserved.contains w then ⟨.word w, line, text⟩ :: tokens fuel rest line
        else ⟨.name, line, text⟩ :: tokens fuel rest line
      | none => ⟨.name, line, text⟩ :: tokens fuel rest line
    else
      match longSymbol? (b :: r) with
      | some (s, rest) => ⟨.symbol s, line, Bytes.ofText s⟩ :: tokens fuel rest line
      | none =>
        if singleSymbols.contains b then
          let s := String.singleton (Char.ofNat b.toNat)
          ⟨.symbol s, line, Bytes.ofText s⟩ :: tokens fuel r line
        else ⟨.byte b, line, Bytes.singleton b⟩ :: tokens fuel r line
where
  /-- The line on which the source ends. -/
  longEnd (r : List UInt8) (line : Nat) : Nat :=
    let rec go : Nat → List UInt8 → Nat → Nat
      | 0, _, line => line
      | _ + 1, [], line => line
      | fuel + 1, b :: r, line =>
        if isNewline b then go fuel (afterNewline b r) (line + 1) else go fuel r line
    go (r.length + 1) r line

end Lexer

def tokenize (source : Bytes) : List Token :=
  let bs := source.asList
  Lexer.tokens (bs.length + 1) bs 1

end Enclosure.Lua
