import Mathlib.Tactic.Common
import Mathlib.Tactic.SplitIfs
import Enclosure.Toml.Quote

/-!
# Written strings read back

A string without controls, in whichever form it was written, is read back with the same rest
(`read_write`), provided that no quote follows it. The forms with three quotes rest on one count: up
to three quotes in front of an end that is no quote, the run of quotes at the end of the string and
the three that close it are at most five, and all but the last three belong to the string
(`closing_all`); anywhere before that a run is too short to close (`closing_none`).
-/

namespace Enclosure.Toml.Quote

/-- What follows a written string where it is read back: no quote. -/
def NoQuote (rest : List Char) : Prop := rest.head? ≠ some '"' ∧ rest.head? ≠ some '\''

theorem noQuote_cons {c : Char} {rest : List Char} (h₁ : c ≠ '"') (h₂ : c ≠ '\'') :
    NoQuote (c :: rest) := by
  simp [NoQuote, h₁, h₂]

theorem takeNewline_plain {c : Char} {cs : List Char} (h : isPlain c) :
    takeNewline (c :: cs) = none := by
  have hn : c ≠ '\n' := by rintro rfl; revert h; decide
  have hr : c ≠ '\r' := by rintro rfl; revert h; decide
  unfold takeNewline
  split
  · rename_i heq
    exact absurd (List.cons.inj heq).1 hn
  · rename_i heq
    exact absurd (List.cons.inj heq).1 hr
  · rfl

/-! ## One quote -/

theorem escape_eq_self : ∀ s : List Char, '"' ∉ s → '\\' ∉ s → escape s = s
  | [], _, _ => rfl
  | c :: s, hq, hb => by
    simp only [List.mem_cons, not_or] at hq hb
    have hc : (c == '"' || c == '\\') = false := by
      simp [Ne.symm hq.1, Ne.symm hb.1]
    rw [escape, hc, escape_eq_self s hq.2 hb.2]
    rfl

theorem length_le_escape : ∀ s : List Char, s.length ≤ (escape s).length
  | [] => Nat.le_refl _
  | c :: s => by
    have ih := length_le_escape s
    rw [escape]
    split_ifs <;> simp only [List.length_cons] <;> omega

theorem readBasic_escape : ∀ (s rest : List Char) (fuel : Nat), (∀ c ∈ s, isPlain c) →
    s.length < fuel → readBasic fuel (escape s ++ '"' :: rest) = some (s, rest)
  | _, _, 0, _, hf => by omega
  | [], rest, fuel + 1, _, _ => by simp [escape, readBasic]
  | c :: s, rest, fuel + 1, hs, hf => by
    have ih := readBasic_escape s rest fuel (fun d hd => hs d (List.mem_cons_of_mem _ hd))
      (by simpa using hf)
    have hc := hs c List.mem_cons_self
    rw [escape]
    split_ifs with h
    · have he : takeEscape (c :: (escape s ++ '"' :: rest)) = some (c, escape s ++ '"' :: rest) := by
        simp only [Bool.or_eq_true, beq_iff_eq] at h
        rcases h with rfl | rfl <;> rfl
      simp [readBasic, he, ih]
    · simp only [Bool.or_eq_true, beq_iff_eq, not_or] at h
      simp [readBasic, h.1, h.2, hc, ih]

theorem readLiteral_append : ∀ s rest : List Char, (∀ c ∈ s, isPlain c) → '\'' ∉ s →
    readLiteral (s ++ '\'' :: rest) = some (s, rest)
  | [], rest, _, _ => by simp [readLiteral]
  | c :: s, rest, hs, hq => by
    simp only [List.mem_cons, not_or] at hq
    have ih := readLiteral_append s rest (fun d hd => hs d (List.mem_cons_of_mem _ hd)) hq.2
    simp [readLiteral, Ne.symm hq.1, hs c List.mem_cons_self, ih]

/-! ## Three quotes -/

theorem hasTriple_tail {q c : Char} : ∀ {s : List Char}, hasTriple q (c :: s) = false →
    hasTriple q s = false
  | [], _ => rfl
  | [_], _ => rfl
  | _ :: _ :: _, h => by
    rw [hasTriple, Bool.or_eq_false_iff] at h
    exact h.2

/-- Without three in a row, a run in front is short. -/
theorem length_run_lt {q : Char} : ∀ {s : List Char}, hasTriple q s = false →
    (s.takeWhile (· == q)).length < 3
  | [], _ => by simp
  | [a], _ => by
    simp only [List.takeWhile_cons]
    split <;> simp
  | [a, b], _ => by
    simp only [List.takeWhile_cons]
    rcases a == q <;> rcases b == q <;> simp
  | a :: b :: d :: s, h => by
    rw [hasTriple, Bool.or_eq_false_iff] at h
    have h := h.1
    simp only [List.takeWhile_cons]
    rcases ha : a == q <;> rcases hb : b == q <;> rcases hd : d == q <;> simp_all

theorem takeWhile_append_some {q : Char} : ∀ {s t : List Char}, (∃ c ∈ s, c ≠ q) →
    (s ++ t).takeWhile (· == q) = s.takeWhile (· == q)
  | [], _, h => by simp at h
  | c :: s, t, h => by
    simp only [List.cons_append, List.takeWhile_cons]
    by_cases hc : c = q
    · subst hc
      have hs : ∃ d ∈ s, d ≠ c := by simpa using h
      simp [takeWhile_append_some hs]
    · simp [hc]

/-- Three quotes do not close a string in which something else is still to come. -/
theorem closing_none {q : Char} {s t : List Char} (hs : ∃ c ∈ s, c ≠ q)
    (ht : hasTriple q s = false) : closing q (s ++ t) = none := by
  simp only [closing, takeWhile_append_some hs]
  rw [if_pos (length_run_lt ht)]

theorem takeWhile_replicate_append {q : Char} {rest : List Char} (h : rest.head? ≠ some q) :
    ∀ n : Nat, (List.replicate n q ++ rest).takeWhile (· == q) = List.replicate n q
  | 0 => by
    rcases rest with _ | ⟨c, rest⟩
    · rfl
    · have hc : (c == q) = false := by simpa using h
      simp [hc]
  | n + 1 => by
    simp [List.replicate_succ, takeWhile_replicate_append h n]

/-- Quotes at the end of a string and the three that close it. -/
theorem closing_all {q : Char} {s rest : List Char} (hs : ∀ c ∈ s, c = q)
    (ht : hasTriple q s = false) (hr : rest.head? ≠ some q) :
    closing q (s ++ q :: q :: q :: rest) = some (s, rest) := by
  obtain ⟨n, rfl⟩ : ∃ n, s = List.replicate n q := ⟨s.length, List.eq_replicate_of_mem hs⟩
  have hn : n < 3 := by
    have := length_run_lt ht
    rwa [← List.append_nil (List.replicate n q), takeWhile_replicate_append (by simp),
      List.length_replicate] at this
  have hrun : List.replicate n q ++ q :: q :: q :: rest = List.replicate (n + 3) q ++ rest := by
    rw [← List.replicate_append_replicate, List.append_assoc]
    rfl
  have hmin : min (n + 3) 5 = n + 3 := by omega
  rw [hrun]
  simp only [closing, takeWhile_replicate_append hr, List.length_replicate]
  rw [if_neg (by omega), hmin]
  simp

theorem exists_ne_or_all (q : Char) (s : List Char) : (∃ c ∈ s, c ≠ q) ∨ ∀ c ∈ s, c = q := by
  by_cases h : ∀ c ∈ s, c = q
  · exact .inr h
  · exact .inl (by simpa using h)

theorem readLongBasic_append : ∀ (s rest : List Char) (fuel : Nat), (∀ c ∈ s, isPlain c) →
    '\\' ∉ s → hasTriple '"' s = false → rest.head? ≠ some '"' → s.length < fuel →
    readLongBasic fuel (s ++ '"' :: '"' :: '"' :: rest) = some (s, rest)
  | _, _, 0, _, _, _, _, hf => by omega
  | s, rest, fuel + 1, hs, hb, ht, hr, hf => by
    rw [readLongBasic.eq_def]
    dsimp only
    rcases exists_ne_or_all '"' s with hne | hall
    · rw [closing_none hne ht]
      rcases s with _ | ⟨c, s⟩
      · simp at hne
      have hc := hs c List.mem_cons_self
      simp only [List.mem_cons, not_or] at hb
      have ih := readLongBasic_append s rest fuel (fun d hd => hs d (List.mem_cons_of_mem _ hd))
        hb.2 (hasTriple_tail ht) hr (by simpa using hf)
      simp only [List.cons_append, takeNewline_plain hc]
      split
      · rename_i heq
        exact absurd (List.cons.inj heq).1 (Ne.symm hb.1)
      · rename_i heq
        obtain ⟨rfl, rfl⟩ := List.cons.inj heq
        simp [hc, ih]
      · rename_i heq
        cases heq
    · rw [closing_all hall ht hr]

theorem readLongLiteral_append : ∀ (s rest : List Char) (fuel : Nat), (∀ c ∈ s, isPlain c) →
    hasTriple '\'' s = false → rest.head? ≠ some '\'' → s.length < fuel →
    readLongLiteral fuel (s ++ '\'' :: '\'' :: '\'' :: rest) = some (s, rest)
  | _, _, 0, _, _, _, hf => by omega
  | s, rest, fuel + 1, hs, ht, hr, hf => by
    rw [readLongLiteral.eq_def]
    dsimp only
    rcases exists_ne_or_all '\'' s with hne | hall
    · rw [closing_none hne ht]
      rcases s with _ | ⟨c, s⟩
      · simp at hne
      have hc := hs c List.mem_cons_self
      have ih := readLongLiteral_append s rest fuel
        (fun d hd => hs d (List.mem_cons_of_mem _ hd)) (hasTriple_tail ht) hr (by simpa using hf)
      simp [takeNewline_plain hc, hc, ih]
    · rw [closing_all hall ht hr]

/-! ## All forms -/

theorem skipFirstLine_plain {c : Char} {cs : List Char} (h : isPlain c) :
    skipFirstLine (c :: cs) = c :: cs := by
  simp [skipFirstLine, takeNewline_plain h]

theorem read_basic {c : Char} (cs : List Char) (h : c ≠ '"') :
    read ('"' :: c :: cs)
      = (readBasic (cs.length + 2) (c :: cs)).map fun (s, rest) => (String.ofList s, rest) := by
  simp [read, h]

theorem read_literal {c : Char} (cs : List Char) (h : c ≠ '\'') :
    read ('\'' :: c :: cs)
      = (readLiteral (c :: cs)).map fun (s, rest) => (String.ofList s, rest) := by
  simp [read, h]

theorem head_ne_of_not_mem {c q : Char} {s : List Char} (h : q ∉ c :: s) : c ≠ q := by
  rintro rfl
  exact h List.mem_cons_self

theorem escape_head (c : Char) (s : List Char) : ∃ d t, escape (c :: s) = d :: t ∧ d ≠ '"' := by
  rw [escape]
  split_ifs with h
  · exact ⟨_, _, rfl, by decide⟩
  · simp only [Bool.or_eq_true, beq_iff_eq, not_or] at h
    exact ⟨_, _, rfl, h.1⟩

theorem read_write {s rest : List Char} (hs : ∀ c ∈ s, isPlain c) (hne : s ≠ [])
    (hr : NoQuote rest) : read (write s ++ rest) = some (String.ofList s, rest) := by
  obtain ⟨c, s, rfl⟩ := List.exists_cons_of_ne_nil hne
  have hc := hs c List.mem_cons_self
  rw [write]
  split_ifs with h₁ h₂ h₃ h₄
  · -- between double quotes, as it is
    simp only [Bool.and_eq_true, Bool.not_eq_true', List.contains_eq_mem, decide_eq_false_iff_not]
      at h₁
    have := readBasic_escape (c :: s) rest ((s ++ '"' :: rest).length + 2) hs
        (by simp only [List.length_append, List.length_cons]; omega)
    rw [escape_eq_self _ h₁.1 h₁.2] at this
    simp only [List.cons_append, List.nil_append, List.append_assoc] at this ⊢
    rw [read_basic _ (head_ne_of_not_mem h₁.1), this]
    rfl
  · -- between apostrophes
    simp only [Bool.not_eq_true', List.contains_eq_mem, decide_eq_false_iff_not] at h₂
    have := readLiteral_append (c :: s) rest hs h₂
    simp only [List.cons_append, List.nil_append, List.append_assoc] at this ⊢
    rw [read_literal _ (head_ne_of_not_mem h₂), this]
    rfl
  · -- between three double quotes
    simp only [Bool.and_eq_true, Bool.not_eq_true', List.contains_eq_mem, decide_eq_false_iff_not]
      at h₃
    have := readLongBasic_append (c :: s) rest ((c :: s ++ '"' :: '"' :: '"' :: rest).length + 1)
      hs h₃.1 h₃.2 hr.1 (by simp only [List.cons_append, List.length_append, List.length_cons]; omega)
    simp only [List.cons_append, List.nil_append, List.append_assoc, read,
      skipFirstLine_plain hc] at this ⊢
    rw [this]
    rfl
  · -- between three apostrophes
    simp only [Bool.not_eq_true'] at h₄
    have := readLongLiteral_append (c :: s) rest
      ((c :: s ++ '\'' :: '\'' :: '\'' :: rest).length + 1) hs h₄ hr.2
        (by simp only [List.cons_append, List.length_append, List.length_cons]; omega)
    simp only [List.cons_append, List.nil_append, List.append_assoc, read,
      skipFirstLine_plain hc] at this ⊢
    rw [this]
    rfl
  · -- between double quotes, with escapes
    obtain ⟨d, t, ht, hd⟩ := escape_head c s
    have hlen := length_le_escape (c :: s)
    have := readBasic_escape (c :: s) rest ((t ++ '"' :: rest).length + 2) hs (by
      rw [ht] at hlen
      simp at hlen ⊢
      omega)
    rw [ht] at this ⊢
    simp only [List.cons_append, List.nil_append, List.append_assoc] at this ⊢
    rw [read_basic _ hd, this]
    rfl

end Enclosure.Toml.Quote
