import Enclosure.Policy.File
import Enclosure.Proofs.Policy.Sound
import Enclosure.Proofs.Toml.Lines

/-!
# Policies survive writing

Reading the document of a policy gives the policy (`parse_write`). A block is read line by line
(`lines_writeRule`): when it is done, the draft holds the rules before it as complete tables and the
rule itself as the table that lines add to (`blockDraft`), so the next header finds a draft that ends
in one more rule. The tables then say, as data, the rules that they were written from
(`Rule.ofData_entries`), and rules without a defect are a policy again.
-/

namespace Enclosure

open Toml Toml.Reader

/-! ## Names -/

theorem isPlain_of_not_control {c : Char} (h : isControl c = false) : Quote.isPlain c := by
  simp only [isControl, Bool.or_eq_false_iff, decide_eq_false_iff_not, Bool.and_eq_false_imp,
    decide_eq_true_eq] at h
  simp only [Quote.isPlain, Bool.or_eq_true, Bool.and_eq_true, decide_eq_true_eq, bne_iff_ne]
  omega

theorem held_of_valid {name : String} (h : validName name) : Held name := by
  simp only [validName, Bool.and_eq_true, Bool.not_eq_true', List.isEmpty_eq_false_iff,
    List.all_eq_true, Bool.or_eq_false_iff] at h
  exact ⟨h.1, fun c hc => isPlain_of_not_control (h.2 c hc).2⟩

namespace Rule

/-- The table that the block of a rule is read as. -/
def entries : Rule → Entries
  | .bare name => [("kind", .string "bare"), ("name", .string name)]
  | .library module names =>
    [("kind", .string "module"), ("module", .string module),
      ("names", .array (names.map .string))]
  | .native module names =>
    [("kind", .string "native"), ("module", .string module),
      ("names", .array (names.map .string))]

theorem itemsData_strings : ∀ names : List String,
    Node.itemsData (names.map .string) = names.map .string
  | [] => rfl
  | name :: names => by
    simp [Node.itemsData, Node.toData, itemsData_strings names]

theorem textsOf_strings : ∀ names : List String, textsOf (names.map .string) = .ok names
  | [] => rfl
  | name :: names => by
    rw [List.map_cons, textsOf, textsOf_strings names]
    rfl

theorem ofData_entries (r : Rule) : ofData (.mapping (Node.entriesData r.entries)) = .ok r := by
  rcases r with name | ⟨module, names⟩ | ⟨module, names⟩
  · rfl
  all_goals
    simp only [entries, Node.entriesData, Node.toData, itemsData_strings]
    simp [ofData, Data.find?, required, Kind.ofData, moduleOf, moduleFields, textOf, namesOf,
      textsOf_strings, bind, Except.bind, pure, Except.pure]

theorem listOfData_entries : ∀ rules : List Rule,
    listOfData (Node.elementsData (rules.map entries)) = .ok rules
  | [] => rfl
  | r :: rules => by
    rw [List.map_cons, Node.elementsData, listOfData, ofData_entries, listOfData_entries rules]
    rfl

end Rule

namespace Policy

/-! ## Lists of names -/

/-- The items of a list, with or without a blank in front of them. -/
theorem arrayItems_write (depth : Nat) : ∀ (names : List String) (rest : Text) (fuel : Nat)
    (front : Text), front = [] ∨ front = [' '] → names ≠ [] → (∀ s ∈ names, Held s) →
    names.length ≤ fuel →
    arrayItems (value depth) fuel (front ++ (writeItems names ++ ']' :: rest))
      = some (names.map .string, rest)
  | [], _, _, _, _, h, _, _ => absurd rfl h
  | _ :: _, _, 0, _, _, _, _, hf => absurd hf (by simp)
  | s :: names, rest, fuel + 1, front, hfr, _, hs, hf => by
    -- what follows the first item: the end of the list or a comma
    obtain ⟨tail, htail, hcases⟩ : ∃ tail, writeItems (s :: names) ++ ']' :: rest
        = Quote.write s.toList ++ tail
        ∧ (names = [] ∧ tail = ']' :: rest
          ∨ names ≠ [] ∧ tail = ',' :: ([' '] ++ (writeItems names ++ ']' :: rest))) := by
      rcases names with _ | ⟨t, names⟩
      · exact ⟨_, rfl, .inl ⟨rfl, rfl⟩⟩
      · exact ⟨_, by simp [writeItems], .inr ⟨by simp, rfl⟩⟩
    have hquote : Quote.NoQuote tail := by
      rcases hcases with ⟨-, rfl⟩ | ⟨-, rfl⟩ <;> exact Quote.noQuote_cons (by decide) (by decide)
    have hval := value_write (hs s List.mem_cons_self) depth hquote
    obtain ⟨q, cs, hq, hq'⟩ := write_cons s.toList
    have hskip : skipSpace (front ++ (Quote.write s.toList ++ tail)).length
        (front ++ (Quote.write s.toList ++ tail)) = q :: (cs ++ tail) := by
      rcases hfr with rfl | rfl
      · rw [hq, List.nil_append, List.cons_append, skipSpace_cons (stops_quote hq')]
      · rw [hq, List.cons_append, List.cons_append, List.nil_append, List.length_cons,
          skipSpace_blank (stops_quote hq')]
    rw [hq, List.cons_append] at hval
    rw [htail, arrayItems, hskip]
    split
    · rename_i heq
      obtain ⟨rfl, -⟩ := List.cons.inj heq
      simp at hq'
    simp only [hval, Option.bind_eq_bind, Option.bind_some]
    rcases hcases with ⟨rfl, rfl⟩ | ⟨hne, rfl⟩
    · rw [skipSpace_cons (by decide)]
      rfl
    · rw [skipSpace_cons (by decide)]
      have ih := arrayItems_write depth names rest fuel [' '] (.inr rfl) hne
        (fun t ht => hs t (List.mem_cons_of_mem _ ht)) (by simpa using hf)
      simp only [ih]
      rfl

theorem length_le_writeItems : ∀ names : List String, names.length ≤ (writeItems names).length + 1
  | [] => by simp
  | [s] => by simp
  | s :: t :: names => by
    have ih := length_le_writeItems (t :: names)
    simp only [writeItems, List.length_append, List.length_cons] at ih ⊢
    omega

/-! ## Blocks -/

theorem isKeyChar_kind : ∀ c ∈ "kind".toList, isKeyChar c :=
  List.all_eq_true.1 (by decide)

theorem isKeyChar_name : ∀ c ∈ "name".toList, isKeyChar c :=
  List.all_eq_true.1 (by decide)

theorem isKeyChar_module : ∀ c ∈ "module".toList, isKeyChar c :=
  List.all_eq_true.1 (by decide)

theorem isKeyChar_names : ∀ c ∈ "names".toList, isKeyChar c :=
  List.all_eq_true.1 (by decide)

theorem line_header {d d' : Toml.Draft} (h : d.openElement ["entry"] = some d') (rest : Text) :
    line d ('[' :: '[' :: 'e' :: 'n' :: 't' :: 'r' :: 'y' :: ']' :: ']' :: '\n' :: rest)
      = some (d', rest) := by
  have : line d ('[' :: '[' :: 'e' :: 'n' :: 't' :: 'r' :: 'y' :: ']' :: ']' :: '\n' :: rest)
      = (d.openElement ["entry"]).bind fun d => some (d, rest) := rfl
  rw [this, h]
  rfl

theorem line_names (d : Toml.Draft) {names : List String} (hne : names ≠ [])
    (hs : ∀ s ∈ names, Held s) (rest : Text) :
    line d (namesLine names ++ rest)
      = (d.set ["names"] (.array (names.map .string))).map (·, rest) := by
  have hv : value depthLimit ('[' :: (writeItems names ++ ']' :: '\n' :: rest))
      = some (.array (names.map .string), '\n' :: rest) := by
    have hlen := length_le_writeItems names
    have := arrayItems_write 78 names ('\n' :: rest)
      ((writeItems names ++ ']' :: '\n' :: rest).length + 1) [] (.inl rfl) hne hs (by
        simp only [List.length_append, List.length_cons]
        omega)
    rw [List.nil_append] at this
    rw [show depthLimit = 78 + 1 from rfl, value.eq_def]
    simp only [this]
    rfl
  have hline : namesLine names ++ rest = "names".toList ++ [' ', '=', ' ']
      ++ ('[' :: (writeItems names ++ [']'])) ++ '\n' :: rest := by
    simp [namesLine]
  rw [hline]
  exact line_value d (by decide) isKeyChar_names rfl (by simpa using hv)

theorem textLine_append (word s : String) (rest : Text) :
    textLine word s ++ rest
      = word.toList ++ [' ', '=', ' '] ++ Quote.write s.toList ++ '\n' :: rest := by
  simp [textLine]

/-- A draft that has read blocks as `done` and stands in one with the entries `current`. -/
def blockDraft (done : List Entries) (current : Entries) : Toml.Draft where
  root := [("entry", .tables done)]
  place := .element ["entry"]
  current := current

theorem set_blockDraft (done : List Entries) {current : Entries} {key : String} {n : Node}
    (h : (Entries.find? key current).isNone) :
    (blockDraft done current).set [key] n = some (blockDraft done (current ++ [(key, n)])) := by
  have : (blockDraft done current).set [key] n
      = (Entries.add? key n current).map fun current => blockDraft done current := rfl
  rw [this, Entries.add?, if_pos h]
  rfl

theorem lines_textLine {word s : String} (hne : word.toList ≠ [])
    (hw : ∀ c ∈ word.toList, isKeyChar c) (hs : Held s) (done : List Entries) {current : Entries}
    (h : (Entries.find? word current).isNone) (rest : Text) (fuel : Nat) :
    lines (fuel + 1) (blockDraft done current) (textLine word s ++ rest)
      = lines fuel (blockDraft done (current ++ [(word, .string s)])) rest := by
  rw [textLine_append]
  refine lines_line ?_ (by rw [line_text _ hne hw hs, set_blockDraft done h]; rfl) fuel
  obtain ⟨c, cs, hcs⟩ := List.exists_cons_of_ne_nil hne
  refine ⟨c, cs ++ ([' ', '=', ' '] ++ (Quote.write s.toList ++ '\n' :: rest)), ?_,
    stops_keyChar (hw c (by simp [hcs]))⟩
  simp [hcs]

theorem openElement_blockDraft (done : List Entries) (current : Entries) :
    (blockDraft done current).openElement ["entry"] = some (blockDraft (done ++ [current]) []) :=
  rfl

/-- How many lines the block of a rule has. -/
def lineCount : Rule → Nat
  | .bare _ => 3
  | .library .. => 4
  | .native .. => 4

theorem held_of_sound {r : Rule} (h : r.Sound) : Held r.target ∧ ∀ s ∈ r.names, Held s :=
  ⟨held_of_valid h.target, fun s hs => held_of_valid (h.names_valid s hs)⟩

theorem lines_header {d : Toml.Draft} {done : List Entries}
    (hd : d.openElement ["entry"] = some (blockDraft done [])) (rest : Text) (fuel : Nat) :
    lines (fuel + 1) d ('[' :: '[' :: 'e' :: 'n' :: 't' :: 'r' :: 'y' :: ']' :: ']' :: '\n' :: rest)
      = lines fuel (blockDraft done []) rest :=
  lines_line ⟨'[', _, rfl, by decide⟩ (line_header hd _) fuel

/-- The lines of a block after its header. -/
theorem lines_module {kind module : String} {names : List String} (hkind : Held kind)
    (hmodule : Held module) (hne : names ≠ []) (hs : ∀ s ∈ names, Held s) (done : List Entries)
    (rest : Text) (fuel : Nat) :
    lines (fuel + 3) (blockDraft done [])
        (textLine "kind" kind ++ (textLine "module" module ++ (namesLine names ++ rest)))
      = lines fuel (blockDraft done [("kind", .string kind), ("module", .string module),
          ("names", .array (names.map .string))]) rest := by
  rw [lines_textLine (by decide) isKeyChar_kind hkind done rfl,
    lines_textLine (by decide) isKeyChar_module hmodule done rfl]
  have hline := line_names (blockDraft done ([] ++ [("kind", .string kind)]
    ++ [("module", .string module)])) hne hs rest
  rw [set_blockDraft done rfl] at hline
  exact lines_line ⟨'n', _, rfl, by decide⟩ hline fuel

theorem lines_writeRule {r : Rule} (hr : r.Sound) {d : Toml.Draft} {done : List Entries}
    (hd : d.openElement ["entry"] = some (blockDraft done [])) (rest : Text) (fuel : Nat) :
    lines (fuel + lineCount r) d (writeRule r ++ rest)
      = lines fuel (blockDraft done r.entries) rest := by
  obtain ⟨htarget, hnames⟩ := held_of_sound hr
  rcases r with name | ⟨module, names⟩ | ⟨module, names⟩ <;>
    simp only [writeRule, List.append_assoc, List.cons_append, List.nil_append, lineCount]
  · change Held name at htarget
    rw [lines_header hd, lines_textLine (by decide) isKeyChar_kind (by decide) done rfl,
      lines_textLine (by decide) isKeyChar_name htarget done rfl]
    rfl
  all_goals
    change Held module at htarget
    change ∀ s ∈ names, Held s at hnames
    rw [lines_header hd]
  · exact lines_module (by decide) htarget (hr.names_ne_nil rfl) hnames done rest fuel
  · exact lines_module (by decide) htarget (hr.names_ne_nil rfl) hnames done rest fuel

/-! ## Documents -/

theorem lineCount_lt (r : Rule) : lineCount r < (writeRule r).length := by
  cases r <;> simp only [lineCount, writeRule, List.length_append, List.length_cons] <;> omega

theorem writeRules_cons (r : Rule) {rules : List Rule} (h : rules ≠ []) :
    writeRules (r :: rules) = writeRule r ++ '\n' :: writeRules rules := by
  obtain ⟨q, rules, rfl⟩ := List.exists_cons_of_ne_nil h
  simp [writeRules]

theorem writeRules_head {rules : List Rule} (h : rules ≠ []) :
    ∃ cs, writeRules rules = '[' :: cs := by
  rcases rules with _ | ⟨r, _ | ⟨q, rules⟩⟩
  · exact absurd rfl h
  · exact ⟨_, rfl⟩
  · exact ⟨_, rfl⟩

/-- All blocks, from any draft that the first header finds in order. -/
theorem lines_writeRules : ∀ (rules : List Rule) (r : Rule) (d : Toml.Draft) (done : List Entries)
    (fuel : Nat), (∀ q ∈ r :: rules, q.Sound) →
    d.openElement ["entry"] = some (blockDraft done []) →
    (writeRules (r :: rules)).length < fuel →
    ∃ d', lines fuel d (writeRules (r :: rules)) = some d'
      ∧ d'.finish = some [("entry", .tables (done ++ (r :: rules).map Rule.entries))]
  | [], r, d, done, fuel, hs, hd, hf => by
    have hlt := lineCount_lt r
    obtain ⟨fuel, rfl⟩ : ∃ k, fuel = k + 1 + lineCount r :=
      ⟨fuel - 1 - lineCount r, by simp only [writeRules] at hf; omega⟩
    refine ⟨blockDraft done r.entries, ?_, rfl⟩
    rw [writeRules, ← List.append_nil (writeRule r), lines_writeRule (hs r List.mem_cons_self) hd]
    rfl
  | q :: rules, r, d, done, fuel, hs, hd, hf => by
    have hlt := lineCount_lt r
    rw [writeRules_cons r (by simp)] at hf ⊢
    simp only [List.length_append, List.length_cons] at hf
    obtain ⟨fuel, rfl⟩ : ∃ k, fuel = k + 1 + lineCount r :=
      ⟨fuel - 1 - lineCount r, by omega⟩
    rw [lines_writeRule (hs r List.mem_cons_self) hd]
    obtain ⟨cs, hcs⟩ := writeRules_head (List.cons_ne_nil q rules)
    rw [hcs, lines_newline (by decide), ← hcs]
    obtain ⟨d', hd', hfin⟩ := lines_writeRules rules q _ (done ++ [r.entries]) (fuel + 1)
      (fun p hp => hs p (List.mem_cons_of_mem _ hp)) (openElement_blockDraft done r.entries)
      (by omega)
    exact ⟨d', hd', by simpa using hfin⟩

theorem document_write {p : Policy} (h : p.rules ≠ []) :
    document p.write = some [("entry", .tables (p.rules.map Rule.entries))] := by
  obtain ⟨r, rules, hr⟩ := List.exists_cons_of_ne_nil h
  obtain ⟨cs, hcs⟩ := writeRules_head h
  have hmark : skipMark p.write.toList = writeRules p.rules := by
    simp only [write, hr, List.isEmpty_cons, Bool.false_eq_true, ↓reduceIte, String.toList_ofList]
    rw [← hr, hcs]
    rfl
  obtain ⟨d, hd, hfin⟩ := lines_writeRules rules r {} [] ((writeRules (r :: rules)).length + 1)
    (fun q hq => p.rule_sound (hr ▸ hq)) rfl (Nat.lt_succ_self _)
  rw [document, hmark, hr]
  simp only [Option.bind_eq_bind, hd, Option.bind_some, hfin, List.nil_append]

theorem read_write (p : Policy) : read p.write = .ok p := by
  by_cases h : p.rules = []
  · have hempty : document p.write = some [("entry", .array [])] := by
      rw [write, h]
      rfl
    have hrules := ofRules_rules p
    rw [h] at hrules
    rw [read, hempty]
    simp only [rulesOfData, Node.entriesData, Node.toData, Node.itemsData, Data.find?,
      beq_self_eq_true, ↓reduceIte, Rule.listOfData, hrules]
  rw [read, document_write h]
  simp only [Node.entriesData, Node.toData, rulesOfData, Data.find?]
  simp only [beq_self_eq_true, ↓reduceIte, Rule.listOfData_entries, ofRules_rules]

/-- A policy that is written is read back as it was: the same rules with the same names, all in
their order. -/
theorem parse_write (p : Policy) : parse p.write = .ok p := by
  rw [parse, read_write]

end Policy

end Enclosure
