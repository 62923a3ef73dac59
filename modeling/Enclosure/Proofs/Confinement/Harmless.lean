import Enclosure.Proofs.Confinement.Evaluate
import Enclosure.Proofs.Confinement.Library

/-!
# Harmless functions

Besides the tame functions a zone without windows may let scripts have those that compute with numbers
and dates, that hand out iterators, and that show values. They give numbers, texts and what they hold,
and write to nothing that leads anywhere (`runHarmless_safe`).
-/

namespace Enclosure.Lua

/-- Functions of the library that are safe where no metatable gives anything away to iteration. -/
def Builtin.harmless : Builtin → Bool
  | .math _ => true
  | .os .clock | .os .difftime | .os .time => true
  | .base .pairs | .base .ipairs | .base .print | .base .toString | .base .toNumber => true
  | .guard .print => true
  | b => b.tame

variable {Z : Zone}

namespace Failure

theorem describeFrom_safe (sound : Z.Sound) : ∀ (n : Nat) {v : Value}, Z.Public v →
    (describeFrom n v).Safe Z Z.Public
  | 0, _, _ => .pure trivial
  | n + 1, v, hv => by
    unfold describeFrom
    split
    · exact .pure trivial
    · refine .bind (P := fun _ => True) (.read fun _ _ => trivial) fun own _ =>
        .ite (fun _ => .pure hv) fun _ => ?_
      refine .bind (.metamethod sound hv (by decide) (by decide)) fun h hh =>
        .ite (fun _ => ?_) fun _ => ?_
      · exact .bind (Operation.plainText_plain v).safe fun _ _ => .pure trivial
      · refine .bind (.ask ⟨hh, Zone.publics_one hv, by simp⟩) fun vs hvs => ?_
        split
        · split
          · exact .pure trivial
          · exact .pure trivial
        · exact describeFrom_safe sound n (Evaluate.first_public (Evaluate.tail_publics hvs))

theorem describe_safe (sound : Z.Sound) {v : Value} (hv : Z.Public v) :
    (describe v).Safe Z Z.Public := describeFrom_safe sound _ hv

theorem raise_safe {α : Type} {P : α → Prop} (f : Failure) : (f.raise : Run α).Safe Z P := by
  unfold raise
  split
  · exact .throw trivial
  · exact .failHost _

theorem callFromHost_safe (sound : Z.Sound) {f : Value} {args : List Value} (hf : Z.Callable f)
    (hargs : Z.Publics args) : (callFromHost f args).Safe Z Z.Publics := by
  refine .bind (.ask ⟨hf, hargs, by simp⟩) fun vs hvs => ?_
  split
  · exact .pure (Zone.publics_cons.1 hvs).2
  · refine .bind (describe_safe sound (Evaluate.first_public (Evaluate.tail_publics hvs))) fun e _ => ?_
    exact .bind (P := fun _ => True) (.read fun _ _ => trivial) fun _ _ => raise_safe _

end Failure

namespace Library

section

variable {args : Args} {captured : Array Value} (sound : Z.Sound) (h : Z.Publics args)

include sound h

/-! ## Numbers -/

namespace Math

omit sound in
theorem extreme_safe {less : Value → Value → Run Bool}
    (hless : ∀ a b, Z.Public a → Z.Public b → (less a b).Sound Z) :
    (extreme args less).Safe Z Z.Publics := by
  have fold : ∀ (rest : List Value) (best : Value), Z.Publics rest → Z.Public best →
      (rest.foldlM (fun best w => do return if ← less w best then w else best) best).Safe Z
        Z.Public := by
    intro rest
    induction rest with
    | nil => exact fun best _ hbest => .pure hbest
    | cons w rest ih =>
      intro best hrest hbest
      obtain ⟨hw, hrest⟩ := Zone.publics_cons.1 hrest
      refine .bind (.bind (hless w best hw hbest) fun b _ => .pure ?_) fun best hbest =>
        ih best hrest hbest
      split_ifs
      · exact hw
      · exact hbest
  unfold extreme
  split
  · exact .badArgument _ _
  · obtain ⟨hv, hrest⟩ := Zone.publics_cons.1 h
    exact .bind (fold _ _ hrest hv) fun best hbest => .pure (Zone.publics_one hbest)

theorem run_safe (f : MathFunction) : (run f args).Safe Z Z.Publics := by
  by_cases hf : f.isPlain
  · exact (run_plain args hf).publics
  cases f with
  | max => exact extreme_safe h fun a b ha hb => Operation.less_safe sound _ hb ha
  | min => exact extreme_safe h fun a b ha hb => Operation.less_safe sound _ ha hb
  | _ => exact absurd rfl hf

end Math

/-! ## Dates -/

namespace System

omit h in
theorem dateField_safe {t : Value} (ht : Z.Public t) (name : String) (fallback : Option Int)
    (base : Int) : (dateField t name fallback base).Sound Z := by
  refine .bind (Operation.index_safe sound _ _ ht trivial) fun v _ => ?_
  split
  · exact .check (.fail _) (.pure trivial)
  · refine .check (.fail _) ?_
    split
    · exact .pure trivial
    · exact .fail _

omit sound h in
theorem setDate_safe {t : TableId} (ht : Z.Public (.table t)) (d : Date) : (setDate t d).Sound Z := by
  have put (k : String) (n : Int) {m : Run Unit} (hm : m.Sound Z) :
      (do Run.rawSetText t k (.int (Int64.ofInt n)); m : Run Unit).Sound Z :=
    .bind (.rawSetKey ht trivial trivial) fun _ _ => hm
  refine put _ _ <| put _ _ <| put _ _ <| put _ _ <| put _ _ <| put _ _ <| put _ _ <| put _ _ ?_
  exact .rawSetKey ht trivial trivial

theorem time_safe : (time args).Safe Z Z.Publics := by
  refine .ite (fun _ => .bind now_plain.safe fun _ _ => .pure (Zone.publics_one trivial)) fun _ => ?_
  refine .bind (Args.table_safe h 1) fun t ht => ?_
  have field := dateField_safe sound (show Z.Public (.table t) from ht)
  refine .bind (field _ _ _) fun _ _ => .bind (field _ _ _) fun _ _ => ?_
  refine .bind (field _ _ _) fun _ _ => .bind (field _ _ _) fun _ _ => ?_
  refine .bind (field _ _ _) fun _ _ => .bind (field _ _ _) fun _ _ => ?_
  exact .bind (setDate_safe ht _) fun _ _ => .pure (Zone.publics_one trivial)

end System

/-! ## Values as text -/

namespace Base

omit h in
theorem texts_safe : ∀ {vs : List Value}, Z.Publics vs → (texts vs).Sound Z
  | [], _ => .pure trivial
  | _ :: _, hvs => by
    obtain ⟨hv, hvs⟩ := Zone.publics_cons.1 hvs
    exact .bind (Operation.text_safe sound hv) fun _ _ => .bind (texts_safe hvs) fun _ _ =>
      .pure trivial

theorem print_safe (captured : Array Value) : (run .print captured args).Safe Z Z.Publics :=
  .bind (texts_safe sound h) fun _ _ => .pure Zone.publics_nil

theorem toString_safe (captured : Array Value) : (run .toString captured args).Safe Z Z.Publics :=
  .bind (Args.any_safe h 1) fun _ hv => .bind (Operation.text_safe sound hv) fun _ _ =>
    .pure (Zone.publics_one trivial)

end Base

namespace Guard

omit h in
theorem printedAll_safe {toText : Value} (ht : Z.Public toText) : ∀ {vs : List Value},
    Z.Publics vs → (printedAll toText vs).Sound Z
  | [], _ => .pure trivial
  | v :: _, hvs => by
    obtain ⟨hv, hvs⟩ := Zone.publics_cons.1 hvs
    have first : (printed toText v).Sound Z := by
      refine .bind (Failure.callFromHost_safe sound ht.callable (Zone.publics_one hv)) fun _ _ => ?_
      dsimp only
      split
      · exact .pure trivial
      · exact Failure.raise_safe _
    exact .bind first fun _ _ => .bind (printedAll_safe ht hvs) fun _ _ => .pure trivial

theorem print_safe (hc : Z.Publics captured.toList) :
    (print captured args).Safe Z Z.Publics :=
  .bind (printedAll_safe sound (Base.held_public hc) h) fun _ _ =>
    .bind (.modify fun _ hs => { hs with }) fun _ _ => .pure Zone.publics_nil

end Guard

end

/-- Harmless functions are safe where there are no windows, so that `pairs` opens nothing. -/
theorem runHarmless_safe {args : Args} {captured : Array Value} (sound : Z.Sound)
    (hz : Z.allows (.string .gmatchStep)) (hw : Z.windows = []) {b : Builtin} (hb : b.harmless)
    {self : FuncId} (hself : Z.Public (.func self)) (hc : Z.Publics captured.toList)
    (h : Z.Publics args) : (run b self captured args).Safe Z Z.Publics := by
  by_cases ht : b.tame
  · exact run_safe sound hz ht hself hc h
  cases b with
  | math f => exact Math.run_safe sound h f
  | os f =>
    cases f with
    | clock => exact (System.clock_plain args).publics
    | difftime => exact (System.difftime_plain args).publics
    | time => exact System.time_safe sound h
    | _ => cases hb
  | base f =>
    cases f with
    | pairs =>
      refine Base.pairs_safe sound hc h fun v _ hopens => ?_
      obtain ⟨t, -, m, hm, -⟩ := hopens
      exact nomatch hw ▸ hm
    | ipairs => exact Base.ipairs_safe hc h
    | print => exact Base.print_safe sound h captured
    | toString => exact Base.toString_safe sound h captured
    | toNumber => exact (Base.toNumber_plain args).publics
    | _ => exact absurd hb ht
  | guard f =>
    cases f with
    | print => exact Guard.print_safe sound h hc
    | _ => exact absurd hb ht
  | _ => exact absurd hb ht

end Library

end Enclosure.Lua
