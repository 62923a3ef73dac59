import Enclosure.Toml.Reader
import Enclosure.Proofs.Toml.Quote

/-!
# Lines read back

What the reader makes of single lines: a key with a value (`line_value`), with a string for the value
(`line_text`), and how `lines` goes from one line to the next (`lines_line`, `lines_newline`). A string
is written by `Quote.write`; all strings here are `Held`, that is not empty and without controls.
-/

namespace Enclosure.Toml.Reader

/-- A string that the forms of quoting hold on one line. -/
def Held (s : String) : Prop := s.toList ≠ [] ∧ ∀ c ∈ s.toList, Quote.isPlain c

instance (s : String) : Decidable (Held s) :=
  decidable_of_iff (s.toList ≠ [] ∧ s.toList.all Quote.isPlain) (by rw [List.all_eq_true, Held])

/-! ## Blanks -/

/-- A character at which nothing is skipped. -/
def Stops (c : Char) : Prop := Quote.isBlank c = false ∧ c ≠ '#' ∧ c ≠ '\n' ∧ c ≠ '\r'

instance (c : Char) : Decidable (Stops c) := inferInstanceAs (Decidable (_ ∧ _))

theorem skipBlanks_cons {c : Char} (h : Stops c) (cs : Text) : skipBlanks (c :: cs) = c :: cs := by
  simp [skipBlanks, h.1]

theorem skipComment_cons {c : Char} (h : Stops c) (cs : Text) :
    skipComment (c :: cs) = c :: cs := by
  simp [skipComment, h.2.1]

theorem takeNewline_cons {c : Char} (h : Stops c) (cs : Text) :
    Quote.takeNewline (c :: cs) = none := by
  obtain ⟨-, -, hn, hr⟩ := h
  simp [Quote.takeNewline, hn, hr]

theorem skipSpace_cons {c : Char} (h : Stops c) (cs : Text) (fuel : Nat) :
    skipSpace fuel (c :: cs) = c :: cs := by
  cases fuel with
  | zero => rfl
  | succ fuel =>
    simp only [skipSpace, skipBlanks_cons h, skipComment_cons h, takeNewline_cons h]

theorem skipSpace_blank {c : Char} (h : Stops c) (cs : Text) (fuel : Nat) :
    skipSpace (fuel + 1) (' ' :: c :: cs) = c :: cs := by
  have : skipBlanks (' ' :: c :: cs) = skipBlanks (c :: cs) := rfl
  simp only [skipSpace, this, skipBlanks_cons h, skipComment_cons h, takeNewline_cons h]

theorem skipSpace_newline (cs : Text) (fuel : Nat) :
    skipSpace (fuel + 1) ('\n' :: cs) = skipSpace fuel cs := rfl

theorem endLine_newline (cs : Text) : endLine ('\n' :: cs) = some cs := rfl

/-! ## Values -/

/-- What is written for a string begins with a quote. -/
theorem write_cons (s : List Char) :
    ∃ q cs, Quote.write s = q :: cs ∧ (q = '"' ∨ q = '\'') := by
  rw [Quote.write]
  split_ifs
  exacts [⟨_, _, rfl, .inl rfl⟩, ⟨_, _, rfl, .inr rfl⟩, ⟨_, _, rfl, .inl rfl⟩,
    ⟨_, _, rfl, .inr rfl⟩, ⟨_, _, rfl, .inl rfl⟩]

theorem stops_quote {q : Char} (h : q = '"' ∨ q = '\'') : Stops q := by
  rcases h with rfl | rfl <;> decide

theorem value_write {s : String} (hs : Held s) (depth : Nat) {rest : Text}
    (hr : Quote.NoQuote rest) :
    value depth (Quote.write s.toList ++ rest) = some (.string s, rest) := by
  have hread := Quote.read_write hs.2 hs.1 hr
  obtain ⟨q, cs, hw, hq⟩ := write_cons s.toList
  rw [hw] at hread ⊢
  rw [String.ofList_toList] at hread
  rcases hq with rfl | rfl <;> simp only [List.cons_append] at hread ⊢ <;>
    rw [value.eq_def] <;> simp [hread]

/-! ## Keys and lines -/

theorem takeWhile_keyChars {word : List Char} (hw : ∀ c ∈ word, isKeyChar c) {c : Char}
    (hc : isKeyChar c = false) (rest : Text) :
    (word ++ c :: rest).takeWhile isKeyChar = word := by
  rw [List.takeWhile_append_of_pos (by simpa using hw), List.takeWhile_cons_of_neg (by simp [hc]),
    List.append_nil]

theorem stops_keyChar {c : Char} (h : isKeyChar c) : Stops c := by
  refine ⟨?_, ?_, ?_, ?_⟩
  · by_contra hb
    simp only [Bool.not_eq_false, Quote.isBlank, Bool.or_eq_true, beq_iff_eq] at hb
    rcases hb with rfl | rfl <;> exact absurd h (by decide)
  all_goals
    rintro rfl
    exact absurd h (by decide)

theorem key_word {word : String} (hne : word.toList ≠ []) (hw : ∀ c ∈ word.toList, isKeyChar c)
    (rest : Text) :
    key (word.toList ++ ' ' :: '=' :: rest) = some ([word], '=' :: rest) := by
  obtain ⟨c, cs, hcs⟩ := List.exists_cons_of_ne_nil hne
  have hc : isKeyChar c := hw c (by simp [hcs])
  have hquote : c ≠ '"' ∧ c ≠ '\'' := by
    constructor <;> rintro rfl <;> exact absurd hc (by decide)
  have hword := takeWhile_keyChars hw (c := ' ') (by decide) ('=' :: rest)
  have hsimple : simpleKey (word.toList ++ ' ' :: '=' :: rest) = some (word, ' ' :: '=' :: rest) := by
    rw [hcs, List.cons_append, simpleKey.eq_def]
    split
    · rename_i heq
      exact absurd (List.cons.inj heq).1 hquote.1
    · rename_i heq
      exact absurd (List.cons.inj heq).1 hquote.2
    · rw [← List.cons_append, ← hcs, hword]
      simp [hcs, ← String.toList_inj]
  have hskip : skipBlanks (word.toList ++ ' ' :: '=' :: rest) = word.toList ++ ' ' :: '=' :: rest := by
    rw [hcs, List.cons_append, skipBlanks_cons (stops_keyChar hc)]
  have hblank : skipBlanks (' ' :: '=' :: rest) = '=' :: rest := rfl
  rw [key, depthLimit, keyParts, hskip, hsimple]
  simp only [Option.bind_eq_bind, Option.bind_some, hblank]
  rfl

theorem line_value (d : Draft) {word : String} (hne : word.toList ≠ [])
    (hw : ∀ c ∈ word.toList, isKeyChar c) {written rest : Text} {n : Node}
    (hskip : skipBlanks (written ++ '\n' :: rest) = written ++ '\n' :: rest)
    (hv : value depthLimit (written ++ '\n' :: rest) = some (n, '\n' :: rest)) :
    line d (word.toList ++ [' ', '=', ' '] ++ written ++ '\n' :: rest)
      = (d.set [word] n).map (·, rest) := by
  have hkey := key_word hne hw (' ' :: (written ++ '\n' :: rest))
  have hassign : assignment (value depthLimit)
      (word.toList ++ ' ' :: '=' :: ' ' :: (written ++ '\n' :: rest))
      = some ([word], n, '\n' :: rest) := by
    have hblank : skipBlanks (' ' :: (written ++ '\n' :: rest)) = written ++ '\n' :: rest :=
      Eq.trans rfl hskip
    have heq : skipBlanks ('=' :: ' ' :: (written ++ '\n' :: rest))
        = '=' :: ' ' :: (written ++ '\n' :: rest) := rfl
    simp [assignment, hkey, heq, expect, hblank, hv]
  obtain ⟨c, cs, hcs⟩ := List.exists_cons_of_ne_nil hne
  have hc : c ≠ '[' := by
    rintro rfl
    exact absurd (hw '[' (by simp [hcs])) (by decide)
  simp only [List.append_assoc, List.cons_append, List.nil_append]
  rw [line.eq_def]
  split
  · rename_i heq
    rw [hcs] at heq
    exact absurd (List.cons.inj heq).1 hc
  · rename_i heq
    rw [hcs] at heq
    exact absurd (List.cons.inj heq).1 hc
  · simp only [hassign, Option.bind_eq_bind, Option.bind_some, endLine_newline]
    cases d.set [word] n <;> rfl

theorem line_text (d : Draft) {word s : String} (hne : word.toList ≠ [])
    (hw : ∀ c ∈ word.toList, isKeyChar c) (hs : Held s) (rest : Text) :
    line d (word.toList ++ [' ', '=', ' '] ++ Quote.write s.toList ++ '\n' :: rest)
      = (d.set [word] (.string s)).map (·, rest) := by
  refine line_value d hne hw ?_ (value_write hs _ (Quote.noQuote_cons (by decide) (by decide)))
  obtain ⟨q, cs, hq, hq'⟩ := write_cons s.toList
  rw [hq, List.cons_append, skipBlanks_cons (stops_quote hq')]

/-- A line is read, and the lines after it from where it left the document. -/
theorem lines_line {d d' : Draft} {cs rest : Text} (hc : ∃ c t, cs = c :: t ∧ Stops c)
    (h : line d cs = some (d', rest)) (fuel : Nat) :
    lines (fuel + 1) d cs = lines fuel d' rest := by
  obtain ⟨c, t, rfl, hc⟩ := hc
  simp [lines, skipSpace_cons hc, h]

theorem lines_newline {d : Draft} {c : Char} {cs : Text} (hc : Stops c) (fuel : Nat) :
    lines (fuel + 1) d ('\n' :: c :: cs) = lines (fuel + 1) d (c :: cs) := by
  simp only [lines, List.length_cons, skipSpace_newline, skipSpace_cons hc]

end Enclosure.Toml.Reader
