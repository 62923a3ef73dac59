import Mathlib.Tactic.Common
import Enclosure.Lua.Library
import Enclosure.Proofs.Lua.Run
import Enclosure.Proofs.Text.Utf8

/-!
# Captured printing

A call of `print` asks for the texts of its arguments one after another, and meanwhile anything may
happen, further calls included. What is written down in the end is text, whereas the texts of the
arguments are any bytes. Still nothing of them is lost but what decoding them all at once would lose: the
lines are whole, so that decoding them one by one, and each text of a line by itself, gives the same
(`print_captured`).
-/

namespace Enclosure

namespace Bytes

/-! ## Lines -/

theorem foldl_join (sep : Bytes) (l : List Bytes) (a b : Bytes) :
    l.foldl (fun acc x => acc ++ sep ++ x) (a ++ b) = a ++ l.foldl (fun acc x => acc ++ sep ++ x) b := by
  induction l generalizing b with
  | nil => rfl
  | cons c l ih =>
    rw [List.foldl_cons, List.foldl_cons, ByteArray.append_assoc, ByteArray.append_assoc, ih,
      ByteArray.append_assoc]

theorem join_cons_cons (sep a b : Bytes) (rest : List Bytes) :
    join sep (a :: b :: rest) = a ++ sep ++ join sep (b :: rest) := by
  rw [join, List.foldl_cons, foldl_join]
  · cases rest <;> rfl
  · exact nofun

/-- The bytes that the language's own `print` writes for these texts. -/
def rawLine (texts : List Bytes) : Bytes := join (ofText "\t") texts ++ ofText "\n"

/-- Decoding is cut at a separator of one ASCII character. -/
theorem textLossy_cut {sep : String} {x : UInt8} (hsep : ofText sep = singleton x) (hx : x.toNat < 0x80)
    (a more : Bytes) : (a ++ ofText sep ++ more).textLossy = a.textLossy ++ sep ++ more.textLossy := by
  have alone := textLossy_append_singleton .empty hx .empty
  rw [ByteArray.empty_append, ByteArray.append_empty, textLossy_empty, String.empty_append,
    String.append_empty, ← hsep, textLossy_ofText] at alone
  rw [hsep, textLossy_append_singleton a hx more, alone]

theorem textLossy_tab (a more : Bytes) :
    (a ++ ofText "\t" ++ more).textLossy = a.textLossy ++ "\t" ++ more.textLossy :=
  textLossy_cut (x := 9) rfl (by decide) a more

theorem textLossy_newline (a more : Bytes) :
    (a ++ ofText "\n" ++ more).textLossy = a.textLossy ++ "\n" ++ more.textLossy :=
  textLossy_cut (x := 10) rfl (by decide) a more

theorem textLossy_line (a : Bytes) : (a ++ ofText "\n").textLossy = a.textLossy ++ "\n" := by
  have h := textLossy_newline a .empty
  rwa [ByteArray.append_empty, textLossy_empty, String.append_empty] at h

theorem whole_rawLine (texts : List Bytes) : (rawLine texts).Whole := fun more => by
  rw [rawLine, textLossy_newline, textLossy_line]

theorem ofText_textLossy_join : ∀ texts : List Bytes, ofText (join (ofText "\t") texts).textLossy
    = join (ofText "\t") (texts.map fun b => ofText b.textLossy)
  | [] => by
    rw [join, textLossy_empty]
    rfl
  | [b] => rfl
  | b :: c :: rest => by
    rw [join_cons_cons, textLossy_tab, ofText_append, ofText_append, ofText_textLossy_join (c :: rest)]
    simp only [List.map_cons, join_cons_cons]

end Bytes

namespace Lua

/-! ## Runs and replies -/

/-- What a request is answered with: values, and the store as it is by then. -/
abbrev Reply := List Value × Store

namespace Res

variable {α β : Type}

/-- What becomes of a run when its requests get these replies, one after another. -/
def given : Res α → List Reply → Res α
  | .ask _ _ k, (vs, s) :: rest => (k vs s).given rest
  | r, _ => r

theorem given_nil (r : Res α) : r.given [] = r := by cases r <;> rfl

theorem given_done (a : α) (s : Store) (replies : List Reply) : (done a s).given replies = done a s := by
  cases replies <;> rfl

/-- What follows without any requests leaves no replies over. -/
theorem given_bind {f : α → Store → Res β} (hf : ∀ a s replies, (f a s).given replies = f a s)
    (r : Res α) (replies : List Reply) : (r.bind f).given replies = (r.given replies).bind f := by
  induction r generalizing replies with
  | done a s => cases replies <;> exact hf a s _
  | raise e s => cases replies <;> rfl
  | ask q s k ih =>
    obtain _ | ⟨⟨vs, s'⟩, rest⟩ := replies
    · rfl
    · exact ih vs s' rest

/-- The store that the run has come to. -/
def store : Res α → Store
  | .done _ s | .raise _ s | .ask _ s _ => s

/-- Whatever the replies, the run leaves the output as it finds it, as long as it does not end with a
result; then `I` holds of the store since the last reply, the result and the store at the end. -/
inductive Still (I : Store → α → Store → Prop) : Store → Res α → Prop
  | done {s s' : Store} {a : α} (h : I s a s') : Still I s (.done a s')
  | raise {s s' : Store} (e : Raise) (same : s'.output = s.output) : Still I s (.raise e s')
  | ask {s s' : Store} (q : Request) {k : List Value → Store → Res α} (same : s'.output = s.output)
    (next : ∀ vs s'', Still I s'' (k vs s'')) : Still I s (.ask q s' k)

namespace Still

variable {I : Store → α → Store → Prop} {J : Store → β → Store → Prop} {r : Res α} {s s₁ : Store}

theorem bind {f : α → Store → Res β} (h : Still I s r)
    (hf : ∀ s a s', I s a s' → Still J s (f a s')) : Still J s (r.bind f) := by
  induction h with
  | done h => exact hf _ _ _ h
  | raise e same => exact .raise e same
  | ask q same next ih => exact .ask q same ih

theorem mono {I' : Store → α → Store → Prop} (h : Still I s r)
    (hI : ∀ s a s', I s a s' → I' s a s') : Still I' s r := by
  induction h with
  | done h => exact .done (hI _ _ _ h)
  | raise e same => exact .raise e same
  | ask q same next ih => exact .ask q same ih

/-- A run may begin in another store with the same output. -/
theorem before (h : Still I s₁ r) (same : s₁.output = s.output)
    (hI : ∀ a s', I s₁ a s' → I s a s') : Still I s r := by
  cases h with
  | done h => exact .done (hI _ _ h)
  | raise e same' => exact .raise e (same'.trans same)
  | ask q same' next => exact .ask q (same'.trans same) next

end Still

end Res

/-- A run that leaves the output alone from one reply to the next, and gives results with a property. -/
def Run.Still {α : Type} (P : α → Prop) (m : Run α) : Prop :=
  ∀ s, (m s).Still (fun s a s' => s'.output = s.output ∧ P a) s

namespace Run.Still

variable {α β : Type} {P : α → Prop} {Q : β → Prop} {m : Run α} {f : α → Run β}

theorem pure {a : α} (h : P a) : (pure a : Run α).Still P := fun _ => .done ⟨rfl, h⟩

theorem throw (e : Raise) : (throw e : Run α).Still P := fun _ => .raise e rfl

theorem ask (q : Request) : (ask q).Still fun _ => True :=
  fun _ => .ask q rfl fun _ _ => .done ⟨rfl, trivial⟩

theorem look (g : Store → α) : (read g).Still fun _ => True := fun _ => .done ⟨rfl, trivial⟩

theorem ite {c : Prop} [Decidable c] {m' : Run α} (h : m.Still P) (h' : m'.Still P) :
    (if c then m else m').Still P := by
  split_ifs
  · exact h
  · exact h'

theorem bind (h : m.Still P) (hf : ∀ a, P a → (f a).Still Q) : (m >>= f).Still Q := fun s => by
  rw [Run.bind_apply]
  refine (h s).bind fun s a s' ⟨same, ha⟩ => (hf a ha s').before same ?_
  exact fun b s'' hb => ⟨hb.1.trans same, hb.2⟩

end Run.Still

end Lua

namespace Lua

/-! ## Texts of arguments -/

namespace Failure

open Run

theorem plainText_still (v : Value) : (Operation.plainText v).Still fun _ => True := by
  unfold Operation.plainText
  split
  · exact .pure trivial
  · exact .pure trivial
  · split
    · exact .pure trivial
    · exact .bind (.look _) fun _ _ => .pure trivial

theorem describeFrom_still : ∀ (n : Nat) (v : Value), (describeFrom n v).Still fun _ => True
  | 0, _ => .pure trivial
  | n + 1, v => by
    unfold describeFrom
    split
    · exact .pure trivial
    · refine .bind (.look _) fun own _ => .ite (.pure trivial) ?_
      refine .bind (.look _) fun h _ => .ite (.bind (plainText_still _) fun _ _ => .pure trivial) ?_
      refine .bind (.ask _) fun vs _ => ?_
      split
      · split <;> exact .pure trivial
      · exact describeFrom_still n _

/-- An error that comes out of a call is raised as one of the host. -/
def handOn {α : Type} (e : Value) : Run α := do
  let d ← describe e
  let f ← read fun s => ofDescribed s d
  f.raise

theorem raise_bind {α β : Type} (f : Failure) (g : α → Run β) : f.raise >>= g = f.raise := by
  cases f <;> rfl

/-- What was to come after an error does not come. -/
theorem handOn_bind {α β : Type} (e : Value) (g : α → Run β) : handOn e >>= g = handOn e := by
  simp only [handOn, bind_assoc, raise_bind]

theorem raise_still {α : Type} {P : α → Prop} (f : Failure) : (f.raise : Run α).Still P := by
  cases f with
  | exhausted => exact .throw _
  | _ => exact fun _ => .raise _ rfl

theorem handOn_still {α : Type} {P : α → Prop} (e : Value) : (handOn e : Run α).Still P :=
  .bind (describeFrom_still _ e) fun _ _ => .bind (.look _) fun f _ => raise_still f

end Failure

namespace Library.Guard

open Run

/-- The text that a reply to a request for a text holds. -/
def textOf : List Value → Option Bytes
  | .bool true :: vs => (first vs).bytes?
  | _ => none

/-- What is done with the reply. -/
def received (vs : List Value) : Run Bytes :=
  match vs with
  | .bool true :: vs =>
    match (first vs).bytes? with
    | some b => pure b
    | none => (Failure.conversion (first vs).typeName "string" (some "expected string or number")).raise
  | answer => Failure.handOn (first answer.tail)

theorem printed_apply (toText v : Value) (s : Store) : printed toText v s
    = .ask (.protectedCall toText [v] none) s fun vs s' => received vs s' := by
  unfold printed Failure.callFromHost
  simp only [bind_assoc]
  rw [Run.bind_apply]
  refine congrArg (Res.ask _ s) (funext fun vs => funext fun s' => ?_)
  unfold received
  split
  · rfl
  · rename_i hraised
    simp only [Res.bind]
    exact congrFun (Failure.handOn_bind _ _) s'

theorem received_still (vs : List Value) : (received vs).Still fun _ => True := by
  unfold received
  split
  · split
    · exact .pure trivial
    · exact Failure.raise_still _
  · exact Failure.handOn_still _

theorem printedAll_still (toText : Value) : ∀ args : List Value,
    (printedAll toText args).Still fun texts => texts.length = args.length
  | [] => .pure rfl
  | v :: vs => by
    have one : (printed toText v).Still fun _ => True := fun s => by
      rw [printed_apply]
      exact .ask _ rfl fun vs s' => received_still vs s'
    exact .bind one fun b _ => .bind (printedAll_still toText vs) fun bs hbs =>
      .pure (congrArg (· + 1) hbs)

/-- A line of captured printing is the text of the whole line that printing would write. -/
theorem lineOf_eq (texts : List Bytes) : lineOf texts = Bytes.ofText (Bytes.rawLine texts).textLossy := by
  rw [lineOf, Bytes.rawLine, Bytes.textLossy_line, Bytes.ofText_append, Bytes.ofText_textLossy_join]

/-- The store with a line written down as text. -/
def written (s : Store) (line : Bytes) : Store :=
  { s with output := s.output ++ Bytes.ofText line.textLossy }

/-- While `print` runs it leaves the output alone, whatever it is told, and so it does when it fails. In
the end it adds one line, with a text for each argument. -/
theorem print_still (captured : Array Value) (args : Args) (s : Store) :
    (print captured args s).Still (fun s vs s' => vs = [] ∧ ∃ texts, texts.length = args.length
      ∧ s'.output = s.output ++ Bytes.ofText (Bytes.rawLine texts).textLossy) s := by
  unfold print
  rw [Run.bind_apply]
  refine (printedAll_still _ args s).bind fun s₁ texts s₂ ⟨same, hlength⟩ => ?_
  refine .done ⟨rfl, texts, hlength, ?_⟩
  rw [← same, ← lineOf_eq]

/-! ## Calls and their replies -/

/-- The store after some replies. -/
def after (s : Store) (replies : List Reply) : Store := replies.foldl (fun _ reply => reply.2) s

/-- The replies hold these texts, one each. -/
def Tell (replies : List Reply) (texts : List Bytes) : Prop :=
  replies.map (fun reply => textOf reply.1) = texts.map some

theorem received_text {vs : List Value} {b : Bytes} (h : textOf vs = some b) : received vs = pure b := by
  unfold textOf at h
  split at h
  · simp [received, h]
  · cases h

theorem received_error {vs : List Value} (h : ∀ ws, vs ≠ .bool true :: ws) :
    received vs = Failure.handOn (first vs.tail) := by
  unfold received
  split
  · exact absurd rfl (h _)
  · rfl

/-- With the reply for the first argument it goes on to the others. -/
theorem printedAll_given_cons (toText v : Value) (args : List Value) (s : Store) (vs : List Value) (s' : Store)
    (replies : List Reply) : (printedAll toText (v :: args) s).given ((vs, s') :: replies)
      = ((do
          let b ← received vs
          let bs ← printedAll toText args
          return b :: bs : Run (List Bytes)) s').given replies := by
  rw [printedAll, Run.bind_apply, printed_apply, Run.bind_apply]
  rfl

theorem printedAll_given (toText : Value) : ∀ {args : List Value} {s : Store} {replies : List Reply}
    {texts : List Bytes}, texts.length = args.length → Tell replies texts →
      (printedAll toText args s).given replies = .done texts (after s replies)
  | [], s, replies, texts, hlength, told => by
    obtain rfl := List.length_eq_zero_iff.1 hlength
    obtain rfl : replies = [] := by simpa [Tell] using told
    rfl
  | v :: args, s, replies, texts, hlength, told => by
    obtain _ | ⟨b, bs⟩ := texts
    · simp at hlength
    obtain _ | ⟨⟨vs, s'⟩, replies⟩ := replies
    · simp [Tell] at told
    obtain ⟨hb, hbs⟩ := List.cons.inj told
    have ih := printedAll_given toText (s := s') (Nat.succ.inj hlength) hbs
    rw [printedAll_given_cons, received_text hb, pure_bind, Run.bind_apply, Res.given_bind, ih]
    · rfl
    · exact fun _ _ => Res.given_done _ _

theorem printedAll_given_error (toText : Value) {vs : List Value} (raised : ∀ ws, vs ≠ .bool true :: ws)
    (s' : Store) : ∀ {args : List Value} {s : Store} {replies : List Reply} {texts : List Bytes},
      texts.length < args.length → Tell replies texts →
        (printedAll toText args s).given (replies ++ [(vs, s')])
          = (Failure.handOn (first vs.tail) : Run (List Bytes)) s'
  | [], _, _, _, hlength, _ => absurd hlength (Nat.not_lt_zero _)
  | v :: args, s, replies, [], _, told => by
    obtain rfl : replies = [] := by simpa [Tell] using told
    rw [List.nil_append, printedAll_given_cons, received_error raised, Res.given_nil, Failure.handOn_bind]
  | v :: args, s, replies, b :: bs, hlength, told => by
    obtain _ | ⟨⟨ws, s₁⟩, replies⟩ := replies
    · simp [Tell] at told
    obtain ⟨hb, hbs⟩ := List.cons.inj told
    have ih := printedAll_given_error toText raised s' (s := s₁) (Nat.lt_of_succ_lt_succ hlength) hbs
    rw [List.cons_append, printedAll_given_cons, received_text hb, pure_bind, Run.bind_apply, Res.given_bind,
      ih, ← Run.bind_apply, Failure.handOn_bind]
    exact fun _ _ => Res.given_done _ _

variable {captured : Array Value} {args : Args} {s s' : Store} {replies : List Reply} {texts : List Bytes}

theorem print_given (replies : List Reply) : (print captured args s).given replies
    = ((printedAll (captured.getD 0 .nil) args s).given replies).bind fun texts s =>
      .done [] { s with output := s.output ++ lineOf texts } := by
  rw [print, Run.bind_apply]
  exact Res.given_bind (fun _ _ => Res.given_done _ _) _ _

/-- A call that is told a text for each argument writes their line down. -/
theorem print_given_texts (hlength : texts.length = args.length) (told : Tell replies texts) :
    (print captured args s).given replies = .done [] (written (after s replies) (Bytes.rawLine texts)) := by
  rw [print_given, printedAll_given _ hlength told, written, ← lineOf_eq]
  rfl

/-- A call that is told an error hands that error on, whatever it is told later. -/
theorem print_given_error {vs : List Value} (hlength : texts.length < args.length) (told : Tell replies texts)
    (raised : ∀ ws, vs ≠ .bool true :: ws) (s' : Store) :
    (print captured args s).given (replies ++ [(vs, s')])
      = (Failure.handOn (first vs.tail) : Run (List Value)) s' := by
  rw [print_given, printedAll_given_error _ raised s' hlength told]
  exact (Run.bind_apply _ _ s').symm.trans (congrFun (Failure.handOn_bind _ _) s')

/-- The `tostring` of the language tells a text or fails. -/
theorem toString_still (captured : Array Value) (args : Args) :
    (Base.run .toString captured args).Still fun vs => (textOf (.bool true :: vs)).isSome := by
  have text (v : Value) : (Operation.text v).Still fun _ => True := by
    unfold Operation.text
    refine .bind (.look _) fun h _ => .ite (Failure.plainText_still v) (.bind (.ask _) fun vs _ => ?_)
    split
    · exact .pure trivial
    · exact .throw _
  have given : (args.any 1).Still fun _ => True := by
    unfold Args.any
    split
    · exact .pure trivial
    · exact .throw _
  exact .bind given fun v _ => .bind (text v) fun b _ => .pure rfl

/-! ## Sessions -/

mutual

/-- What happens between two stores: calls of `print`, which may be made in the course of others, and
anything else that leaves the output alone. The bytes are those that the language's own `print` would
write for the calls that come to their end, in the order in which they do. -/
inductive Session (captured : Array Value) : Store → Bytes → Store → Prop
  | other {s s' : Store} (same : s'.output = s.output) : Session captured s .empty s'
  | append {s s₁ s₂ : Store} {L L' : Bytes} (h : Session captured s L s₁) (h' : Session captured s₁ L' s₂) :
    Session captured s (L ++ L') s₂
  | call {s : Store} {args : Args} {replies : List Reply} {L : Bytes} {texts : List Bytes}
    (h : Replies captured (print captured args s) replies L) (hlength : texts.length = args.length)
    (told : Tell replies texts) :
    Session captured s (L ++ Bytes.rawLine texts) ((print captured args s).given replies).store
  | failed {s : Store} {args : Args} {replies : List Reply} {L : Bytes}
    (h : Replies captured (print captured args s) replies L)
    (unfinished : ∀ vs s', (print captured args s).given replies ≠ .done vs s') :
    Session captured s L ((print captured args s).given replies).store

/-- Replies to the requests of a run, with what happens before each of them. -/
inductive Replies (captured : Array Value) : Res (List Value) → List Reply → Bytes → Prop
  | none (r : Res (List Value)) : Replies captured r [] .empty
  | next {q : Request} {s s' : Store} {k : List Value → Store → Res (List Value)} {vs : List Value}
    {replies : List Reply} {L L' : Bytes} (h : Session captured s L s')
    (h' : Replies captured (k vs s') replies L') :
    Replies captured (.ask q s k) ((vs, s') :: replies) (L ++ L')

end

/-- What is written down in a session is the text of the bytes. -/
def Writes (s : Store) (L : Bytes) (s' : Store) : Prop :=
  L.Whole ∧ s'.output = s.output ++ Bytes.ofText L.textLossy

theorem Writes.nothing (same : s'.output = s.output) : Writes s .empty s' := by
  refine ⟨Bytes.whole_empty, ?_⟩
  rw [Bytes.textLossy_empty, same]
  exact ByteArray.append_empty.symm

theorem Writes.append {s₁ s₂ : Store} {L L' : Bytes} (h : Writes s L s₁) (h' : Writes s₁ L' s₂) :
    Writes s (L ++ L') s₂ := by
  refine ⟨h.1.append h'.1, ?_⟩
  rw [h'.2, h.2, h.1, Bytes.ofText_append, ByteArray.append_assoc]

theorem Writes.line (s : Store) (texts : List Bytes) :
    Writes s (Bytes.rawLine texts) (written s (Bytes.rawLine texts)) :=
  ⟨Bytes.whole_rawLine texts, rfl⟩

mutual

theorem Session.writes {captured : Array Value} : ∀ {s : Store} {L : Bytes} {s' : Store},
    Session captured s L s' → Writes s L s'
  | _, _, _, .other same => .nothing same
  | _, _, _, .append h h' => h.writes.append h'.writes
  | _, _, _, .call h hlength told => by
    rw [print_given_texts hlength told]
    exact (h.writes (print_still _ _ _)).1.append (.line _ _)
  | _, _, _, .failed h unfinished => (h.writes (print_still _ _ _)).2 unfinished

theorem Replies.writes {captured : Array Value} : ∀ {r : Res (List Value)} {replies : List Reply} {L : Bytes},
    Replies captured r replies L → ∀ {I : Store → List Value → Store → Prop} {s : Store}, r.Still I s →
      Writes s L (after s replies) ∧
        ((∀ vs s', r.given replies ≠ .done vs s') → Writes s L (r.given replies).store)
  | r, _, _, .none _, _, s, still => by
    refine ⟨.nothing rfl, fun unfinished => ?_⟩
    rw [Res.given_nil] at unfinished ⊢
    cases still with
    | done => exact absurd rfl (unfinished _ _)
    | raise e same => exact .nothing same
    | ask q same next => exact .nothing same
  | _, _, _, .next h h', _, s, still => by
    cases still with
    | ask q same next =>
      obtain ⟨all, unfinished⟩ := h'.writes (next _ _)
      have first := (Writes.nothing same).append h.writes
      rw [ByteArray.empty_append] at first
      exact ⟨first.append all, fun hne => first.append (unfinished hne)⟩

end

/-- Captured printing against the printing of the language. A call that is told a text for each argument
adds one line, one that is told an error adds nothing and hands the error on, and the language's own
`tostring` tells nothing else. After any session that begins with nothing written, the output is
well-formed text, and it is the text of the bytes that the language's own `print` would have written. -/
theorem print_captured (captured : Array Value) :
    (∀ (args : Args) (s : Store) (replies : List Reply) (texts : List Bytes),
      texts.length = args.length → Tell replies texts →
        (print captured args s).given replies = .done [] (written (after s replies) (Bytes.rawLine texts)))
    ∧ (∀ (args : Args) (s : Store) (replies : List Reply) (texts : List Bytes) (vs : List Value) (s' : Store),
      texts.length < args.length → Tell replies texts → (∀ ws, vs ≠ .bool true :: ws) →
        (print captured args s).given (replies ++ [(vs, s')])
            = (Failure.handOn (first vs.tail) : Run (List Value)) s'
          ∧ ((Failure.handOn (first vs.tail) : Run (List Value)) s').Still (fun _ _ _ => False) s')
    ∧ (∀ (own : Array Value) (args : Args),
      (Base.run .toString own args).Still fun vs => (textOf (.bool true :: vs)).isSome)
    ∧ ∀ (s : Store) (L : Bytes) (s' : Store), Session captured s L s' → s.output = .empty →
      s'.output.IsValidUTF8 ∧ s'.output.textLossy = L.textLossy := by
  refine ⟨fun args s replies texts => print_given_texts,
    fun args s replies texts vs s' hlength told raised => ⟨print_given_error hlength told raised s', ?_⟩,
    toString_still, fun s L s' h empty => ?_⟩
  · exact (Failure.handOn_still (P := fun _ => False) _ s').mono fun _ _ _ => And.right
  · have written := h.writes.2
    rw [empty, ByteArray.empty_append] at written
    rw [written]
    exact ⟨String.isValidUTF8 _, Bytes.textLossy_ofText _⟩

/-- Two bytes of a character of three. -/
def cut : Bytes := Bytes.ofList [0xE2, 0x82]

/-- The printing function that asks the function numbered 0 for texts. -/
def asking : Array Value := #[.func ⟨0⟩]

/-- A call of `print` that is told the one text. -/
def printing (v : Value) (told : Bytes) (s s' : Store) : Res (List Value) :=
  (print asking [v] s).given [([.bool true, .str told], s')]

/-- A call is made while another one waits for the text of its argument. -/
theorem print_captured_nested :
    let inner := printing (.bool true) (Bytes.ofText "true") {} {}
    let outer := printing (.table ⟨0⟩) cut {} inner.store
    Session asking {} (Bytes.rawLine [Bytes.ofText "true"] ++ Bytes.rawLine [cut]) outer.store
      ∧ outer = .done [] (written inner.store (Bytes.rawLine [cut]))
      ∧ outer.store.output.textLossy
        = (Bytes.rawLine [Bytes.ofText "true"] ++ Bytes.rawLine [cut]).textLossy := by
  dsimp only
  generalize hinner : printing (.bool true) (Bytes.ofText "true") {} {} = inner
  have nested : Session asking {} (.empty ++ .empty ++ Bytes.rawLine [Bytes.ofText "true"]) inner.store :=
    hinner ▸ .call (.next (.other rfl) (.none _)) rfl rfl
  have session : Session asking {} (.empty ++ .empty ++ Bytes.rawLine [Bytes.ofText "true"] ++ .empty
      ++ Bytes.rawLine [cut]) (printing (.table ⟨0⟩) cut {} inner.store).store :=
    .call (.next nested (.none _)) rfl rfl
  rw [ByteArray.empty_append, ByteArray.empty_append, ByteArray.append_empty] at session
  obtain ⟨lines, -, -, sessions⟩ := print_captured asking
  exact ⟨session, lines [.table ⟨0⟩] {} _ [cut] rfl rfl, (sessions _ _ _ session rfl).2⟩

end Library.Guard

end Lua

end Enclosure
