import Mathlib.Data.Fin.Tuple.Basic
import Mathlib.Data.List.Induction
import Mathlib.Tactic.Common
import Enclosure.Capture
import Enclosure.Proofs.Text.Utf8

/-!
# Families of handles

The handles that stem from one `new` are a family, and they share a buffer with nobody else
(`Session.Kept`). So what a handle finds is what was written through its family since the family last
took or cleared it, and whoever only takes gets every byte once (`Session.nothing_lost`).
-/

namespace Enclosure.Captures

/-- What a family does to its buffer. -/
inductive Deed
  | write (b : Bytes)
  | take
  | clear
  deriving DecidableEq

namespace Deed

/-- What was written since the buffer was last emptied. -/
def since (deeds : List Deed) : List Bytes :=
  deeds.foldl (fun
    | writes, .write b => writes ++ [b]
    | _, .take | _, .clear => []) []

/-- All that was written. -/
def writes (deeds : List Deed) : List Bytes :=
  deeds.filterMap fun
    | .write b => some b
    | .take | .clear => none

variable (deeds : List Deed)

@[simp] theorem since_nil : since [] = [] := rfl

@[simp] theorem since_write (b : Bytes) : since (deeds ++ [.write b]) = since deeds ++ [b] := by
  simp [since]

@[simp] theorem since_take : since (deeds ++ [.take]) = [] := by simp [since]

@[simp] theorem since_clear : since (deeds ++ [.clear]) = [] := by simp [since]

@[simp] theorem writes_write (b : Bytes) : writes (deeds ++ [.write b]) = writes deeds ++ [b] := by
  simp [writes]

@[simp] theorem writes_take : writes (deeds ++ [.take]) = writes deeds := by simp [writes]

/-- The deeds end with these writes, and in front of them the buffer was emptied or nothing was done. -/
theorem since_spec : ∃ before, deeds = before ++ (since deeds).map .write
    ∧ ∀ d ∈ before.getLast?, d = .take ∨ d = .clear := by
  induction deeds using List.reverseRecOn with
  | nil => exact ⟨[], by simp⟩
  | append_singleton deeds d ih =>
    cases d with
    | write b =>
      obtain ⟨before, hsplit, hlast⟩ := ih
      refine ⟨before, ?_, hlast⟩
      rw [since_write, List.map_append, ← List.append_assoc, ← hsplit, List.map_singleton]
    | take => exact ⟨deeds ++ [.take], by simp⟩
    | clear => exact ⟨deeds ++ [.clear], by simp⟩

variable {deeds}

theorem mem_of_mem_since {b : Bytes} (hb : b ∈ since deeds) : .write b ∈ deeds := by
  obtain ⟨before, hsplit, -⟩ := since_spec deeds
  rw [hsplit]
  exact List.mem_append_right _ (List.mem_map_of_mem hb)

end Deed

/-- The bytes one after the other. -/
def inOrder (pieces : List Bytes) : Bytes := pieces.foldl (· ++ ·) .empty

@[simp] theorem inOrder_nil : inOrder [] = .empty := rfl

@[simp] theorem inOrder_snoc (pieces : List Bytes) (b : Bytes) :
    inOrder (pieces ++ [b]) = inOrder pieces ++ b := by
  simp [inOrder]

theorem isValidUTF8_inOrder {pieces : List Bytes} (h : ∀ b ∈ pieces, b.IsValidUTF8) :
    (inOrder pieces).IsValidUTF8 := by
  induction pieces using List.reverseRecOn with
  | nil => exact ByteArray.isValidUTF8_empty
  | append_singleton pieces b ih =>
    rw [inOrder_snoc]
    exact (ih fun b hb => h b (List.mem_append_left _ hb)).append (h b (by simp))

/-- A history of uses, with the number of handles it has made. A handle is known by its number. -/
inductive Session : Nat → Type
  | start : Session 0
  | new {n : Nat} (s : Session n) : Session (n + 1)
  | clone {n : Nat} (s : Session n) (h : Fin n) : Session (n + 1)
  | write {n : Nat} (s : Session n) (h : Fin n) (b : Bytes) : Session n
  | take {n : Nat} (s : Session n) (h : Fin n) : Session n
  | clear {n : Nat} (s : Session n) (h : Fin n) : Session n
  | text {n : Nat} (s : Session n) (h : Fin n) : Session n
  | length {n : Nat} (s : Session n) (h : Fin n) : Session n

namespace Session

variable {n : Nat}

/-- The handles that a history has made, and the buffers as it leaves them. -/
def run : {n : Nat} → Session n → (Fin n → Capture) × Captures
  | _, .start => (Fin.elim0, {})
  | _, .new s => (Fin.snoc s.run.1 s.run.2.new.1, s.run.2.new.2)
  | _, .clone s h => (Fin.snoc s.run.1 (s.run.2.clone (s.run.1 h)).1, (s.run.2.clone (s.run.1 h)).2)
  | _, .write s h b => (s.run.1, (s.run.2.write (s.run.1 h) b).2)
  | _, .take s h => (s.run.1, (s.run.2.take (s.run.1 h)).2)
  | _, .clear s h => (s.run.1, s.run.2.clear (s.run.1 h))
  | _, .text s _ | _, .length s _ => s.run

def content (s : Session n) (h : Fin n) : Bytes := s.run.2.content (s.run.1 h)

/-- The handle that `new` made, of which this one is a copy, or a copy of a copy. -/
def founder : {n : Nat} → Session n → Fin n → Nat
  | _, .start => Fin.elim0
  | n + 1, .new s => Fin.snoc s.founder n
  | _, .clone s h => Fin.snoc s.founder (s.founder h)
  | _, .write s .. | _, .take s _ | _, .clear s _ | _, .text s _ | _, .length s _ => s.founder

/-- What was done through the handles of a founder's family. -/
def past : {n : Nat} → Session n → Nat → List Deed
  | _, .start => fun _ => []
  | _, .new s | _, .clone s _ | _, .text s _ | _, .length s _ => s.past
  | _, .write s h b => Function.update s.past (s.founder h) (s.past (s.founder h) ++ [.write b])
  | _, .take s h => Function.update s.past (s.founder h) (s.past (s.founder h) ++ [.take])
  | _, .clear s h => Function.update s.past (s.founder h) (s.past (s.founder h) ++ [.clear])

/-- The results of `take` through the handles of a founder's family, one after the other. -/
def taken : {n : Nat} → Session n → Nat → String
  | _, .start => fun _ => ""
  | _, .take s h => Function.update s.taken (s.founder h)
      (s.taken (s.founder h) ++ (s.run.2.take (s.run.1 h)).1)
  | _, .new s | _, .clone s _ | _, .write s .. | _, .clear s _ | _, .text s _ | _, .length s _ => s.taken

/-! ## One buffer a family -/

theorem content_setContent {w : Captures} {c : Capture} (hc : c.buffer < w.buffers.size) (b : Bytes)
    (c' : Capture) : (w.setContent c b).content c' = if c' = c then b else w.content c' := by
  obtain ⟨i⟩ := c
  obtain ⟨j⟩ := c'
  by_cases h : j = i
  · subst h
    simp_all [Captures.content, setContent]
  · simp [Captures.content, setContent, Ne.symm h, h]

theorem content_new {w : Captures} {c : Capture} (hc : c.buffer < w.buffers.size) :
    w.new.2.content c = w.content c := by
  simp [Captures.content, Captures.new, Array.getElem?_push, hc.ne]

theorem content_new_self (w : Captures) : w.new.2.content w.new.1 = .empty := by
  simp [Captures.content, Captures.new]

/-- Handles are on one buffer if they are of one family, and what is in it is what the family has
written since it last emptied it. -/
structure Kept (s : Session n) : Prop where
  inBounds : ∀ h, (s.run.1 h).buffer < s.run.2.buffers.size
  alike : ∀ h h', s.run.1 h = s.run.1 h' ↔ s.founder h = s.founder h'
  founded : ∀ h, s.founder h < n
  untouched : ∀ f, n ≤ f → s.past f = []
  content_eq : ∀ h, s.content h = inOrder (Deed.since (s.past (s.founder h)))

namespace Kept

variable {s s' : Session n}

theorem new (k : Kept s) : Kept s.new where
  inBounds h := by
    cases h using Fin.lastCases with
    | last => simp [run, Captures.new]
    | cast h => simpa [run, Captures.new] using Nat.lt_succ_of_lt (k.inBounds h)
  alike h h' := by
    have other (h : Fin n) : s.run.1 h ≠ s.run.2.new.1 := fun heq =>
      absurd (k.inBounds h) (by simp [heq, Captures.new])
    cases h using Fin.lastCases with
    | last =>
      cases h' using Fin.lastCases with
      | last => simp
      | cast h' => simp [run, founder, (other h').symm, (k.founded h').ne']
    | cast h =>
      cases h' using Fin.lastCases with
      | last => simp [run, founder, other h, (k.founded h).ne]
      | cast h' => simpa [run, founder] using k.alike h h'
  founded h := by
    cases h using Fin.lastCases with
    | last => simp [founder]
    | cast h => simpa [founder] using Nat.lt_succ_of_lt (k.founded h)
  untouched f hf := k.untouched f (Nat.le_of_succ_le hf)
  content_eq h := by
    cases h using Fin.lastCases with
    | last => simp [content, run, founder, past, content_new_self, k.untouched n le_rfl]
    | cast h => simpa [content, run, founder, past, content_new (k.inBounds h)] using k.content_eq h

theorem clone (k : Kept s) (o : Fin n) : Kept (s.clone o) where
  inBounds h := by
    cases h using Fin.lastCases with
    | last => simpa [run, Captures.clone] using k.inBounds o
    | cast h => simpa [run, Captures.clone] using k.inBounds h
  alike h h' := by
    cases h using Fin.lastCases with
    | last =>
      cases h' using Fin.lastCases with
      | last => simp
      | cast h' => simpa [run, founder, Captures.clone] using k.alike o h'
    | cast h =>
      cases h' using Fin.lastCases with
      | last => simpa [run, founder, Captures.clone] using k.alike h o
      | cast h' => simpa [run, founder] using k.alike h h'
  founded h := by
    cases h using Fin.lastCases with
    | last => simpa [founder] using Nat.lt_succ_of_lt (k.founded o)
    | cast h => simpa [founder] using Nat.lt_succ_of_lt (k.founded h)
  untouched f hf := k.untouched f (Nat.le_of_succ_le hf)
  content_eq h := by
    cases h using Fin.lastCases with
    | last => simpa [content, run, founder, past, Captures.clone] using k.content_eq o
    | cast h => simpa [content, run, founder, past, Captures.clone] using k.content_eq h

/-- A deed through one handle, which leaves `b` in its buffer. -/
theorem deed (k : Kept s) {o : Fin n} {d : Deed} {b : Bytes}
    (hrun : s'.run = (s.run.1, s.run.2.setContent (s.run.1 o) b)) (hfounder : s'.founder = s.founder)
    (hpast : s'.past = Function.update s.past (s.founder o) (s.past (s.founder o) ++ [d]))
    (hb : b = inOrder (Deed.since (s.past (s.founder o) ++ [d]))) : Kept s' where
  inBounds h := by simpa [hrun, setContent] using k.inBounds h
  alike h h' := by simpa [hrun, hfounder] using k.alike h h'
  founded h := hfounder ▸ k.founded h
  untouched f hf := by
    rw [hpast, Function.update_of_ne ((k.founded o).trans_le hf).ne', k.untouched f hf]
  content_eq h := by
    rw [content, hrun, hfounder, hpast, content_setContent (k.inBounds o)]
    by_cases hkin : s.founder h = s.founder o
    · rw [if_pos ((k.alike h o).2 hkin), hkin, Function.update_self, hb]
    · rw [if_neg (mt (k.alike h o).1 hkin), Function.update_of_ne hkin]
      exact k.content_eq h

end Kept

theorem kept : ∀ {n : Nat} (s : Session n), Kept s
  | _, .start => ⟨nofun, nofun, nofun, fun _ _ => rfl, nofun⟩
  | _, .new s => s.kept.new
  | _, .clone s o => s.kept.clone o
  | _, .write s o b => s.kept.deed rfl rfl rfl <| by
    rw [Deed.since_write, inOrder_snoc, ← s.kept.content_eq]
    rfl
  | _, .take s o => s.kept.deed rfl rfl rfl (by rw [Deed.since_take, inOrder_nil])
  | _, .clear s o => s.kept.deed rfl rfl rfl (by rw [Deed.since_clear, inOrder_nil])
  | _, .text s _ | _, .length s _ =>
    ⟨s.kept.inBounds, s.kept.alike, s.kept.founded, s.kept.untouched, s.kept.content_eq⟩

/-! ## What is taken -/

/-- What was taken, with what is left to take behind it, is what was written, as long as nobody cleared
the buffer and no write ended inside a character. -/
theorem ofText_taken_append {f : Nat} : ∀ {n : Nat} (s : Session n), .clear ∉ s.past f →
    (∀ b, .write b ∈ s.past f → b.IsValidUTF8) →
    Bytes.ofText (s.taken f) ++ inOrder (Deed.since (s.past f)) = inOrder (Deed.writes (s.past f))
  | _, .start, _, _ => rfl
  | _, .new s, hclear, hvalid | _, .clone s _, hclear, hvalid | _, .text s _, hclear, hvalid
  | _, .length s _, hclear, hvalid => ofText_taken_append s hclear hvalid
  | _, .write s o b, hclear, hvalid => by
    by_cases hkin : f = s.founder o
    · subst hkin
      simp only [past, taken, Function.update_self] at hclear hvalid ⊢
      have ih := ofText_taken_append s (fun h => hclear (List.mem_append_left _ h))
        fun b hb => hvalid b (List.mem_append_left _ hb)
      rw [Deed.since_write, inOrder_snoc, ← ByteArray.append_assoc, ih, Deed.writes_write, inOrder_snoc]
    · simp only [past, taken, Function.update_of_ne hkin] at hclear hvalid ⊢
      exact ofText_taken_append s hclear hvalid
  -- what is taken now is what was left, and whole characters survive as text
  | _, .take s o, hclear, hvalid => by
    by_cases hkin : f = s.founder o
    · subst hkin
      simp only [past, taken, Function.update_self] at hclear hvalid ⊢
      have valid : ∀ b, .write b ∈ s.past (s.founder o) → b.IsValidUTF8 := fun b hb =>
        hvalid b (List.mem_append_left _ hb)
      have ih := ofText_taken_append s (fun h => hclear (List.mem_append_left _ h)) valid
      have left : Bytes.ofText (s.run.2.take (s.run.1 o)).1
          = inOrder (Deed.since (s.past (s.founder o))) := by
        rw [← s.kept.content_eq]
        refine Bytes.ofText_textLossy ?_
        rw [← content, s.kept.content_eq]
        exact isValidUTF8_inOrder fun b hb => valid b (Deed.mem_of_mem_since hb)
      rw [Bytes.ofText_append, left, ih, Deed.since_take, inOrder_nil, ByteArray.append_empty,
        Deed.writes_take]
    · simp only [past, taken, Function.update_of_ne hkin] at hclear hvalid ⊢
      exact ofText_taken_append s hclear hvalid
  | _, .clear s o, hclear, hvalid => by
    by_cases hkin : f = s.founder o
    · simp [past, hkin] at hclear
    · simp only [past, taken, Function.update_of_ne hkin] at hclear hvalid ⊢
      exact ofText_taken_append s hclear hvalid

/-- A handle finds what was written through its family, in order, since the family last took or cleared
it. What is done through other families, and what only makes handles, changes nothing there. And if the
family never clears its buffer and writes whole characters, all that it has taken, with the text that is
left, is all that it has written. -/
theorem nothing_lost (s : Session n) (h : Fin n) :
    (∃ before writes, s.past (s.founder h) = before ++ writes.map .write
      ∧ (∀ d ∈ before.getLast?, d = .take ∨ d = .clear) ∧ s.content h = inOrder writes)
    ∧ s.new.content h.castSucc = s.content h
    ∧ (∀ o, (s.clone o).content h.castSucc = s.content h)
    ∧ (∀ o, s.founder o ≠ s.founder h → (∀ b, (s.write o b).content h = s.content h)
      ∧ (s.take o).content h = s.content h ∧ (s.clear o).content h = s.content h)
    ∧ (.clear ∉ s.past (s.founder h) → (∀ b, .write b ∈ s.past (s.founder h) → b.IsValidUTF8) →
      Bytes.ofText (s.taken (s.founder h) ++ s.run.2.text (s.run.1 h))
        = inOrder (Deed.writes (s.past (s.founder h)))) := by
  refine ⟨?_, ?_, fun o => ?_, fun o hkin => ?_, fun hclear hvalid => ?_⟩
  · obtain ⟨before, hsplit, hlast⟩ := Deed.since_spec (s.past (s.founder h))
    exact ⟨before, _, hsplit, hlast, s.kept.content_eq h⟩
  · simp [content, run, content_new (s.kept.inBounds h)]
  · simp [content, run, Captures.clone]
  · have apart : s.run.1 h ≠ s.run.1 o := fun heq => hkin ((s.kept.alike o h).1 heq.symm)
    simp [content, run, Captures.write, Captures.take, Captures.clear,
      content_setContent (s.kept.inBounds o), apart]
  · have left : Bytes.ofText (s.run.2.text (s.run.1 h)) = inOrder (Deed.since (s.past (s.founder h))) := by
      rw [Captures.text, ← content, s.kept.content_eq]
      exact Bytes.ofText_textLossy (isValidUTF8_inOrder fun b hb => hvalid b (Deed.mem_of_mem_since hb))
    rw [Bytes.ofText_append, left, ofText_taken_append s hclear hvalid]

/-- Two handles on one buffer, which is taken between two writes, and a third that is cleared. -/
def relay : Session 3 :=
  start.new.new.clone 0 |>.write 0 (Bytes.ofText "déjà ") |>.write 1 (Bytes.ofText "never") |>.clear 1
    |>.take 2 |>.write 2 (Bytes.ofText "vu")

theorem nothing_lost_relay : relay.past (relay.founder 2)
      = [.write (Bytes.ofText "déjà "), .take, .write (Bytes.ofText "vu")]
    ∧ Bytes.ofText (relay.taken 0 ++ relay.run.2.text (relay.run.1 2)) = Bytes.ofText "déjà vu" := by
  have hpast : relay.past 0 = [.write (Bytes.ofText "déjà "), .take, .write (Bytes.ofText "vu")] := rfl
  refine ⟨hpast, ((nothing_lost relay 2).2.2.2.2 ?_ ?_).trans ?_⟩
  · change Deed.clear ∉ relay.past 0
    simp [hpast]
  · intro b hb
    change Deed.write b ∈ relay.past 0 at hb
    simp only [hpast, List.mem_cons, Deed.write.injEq, reduceCtorEq, false_or, List.not_mem_nil,
      or_false] at hb
    rcases hb with rfl | rfl <;> exact String.isValidUTF8 _
  · rfl

end Session

end Enclosure.Captures
