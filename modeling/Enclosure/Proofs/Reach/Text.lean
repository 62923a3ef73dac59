import Enclosure.Proofs.Plain.Text
import Enclosure.Proofs.Reach.Operation

/-!
# The library `string` in a realm

The functions of strings that are not plain call a replacement or a handler, or they have to do with the
iterator over matches, which holds what it was made from.
-/

namespace Enclosure.Lua.Library.Text

variable {R : Realm} {args : Args}

/-! ## The iterator over matches -/

theorem gmatch_tame : (gmatch args).Tame R Realm.HasAll := by
  refine .calmly (args.string_plain 1).calm fun s _ => .calmly (args.string_plain 2).calm fun pat _ => ?_
  refine .calmly (args.integerOr_plain 3 1).calm fun i _ => ?_
  exact .bind (.newBuiltin _ (by simp)) fun f _ _ hf => .pure (Realm.hasAll_one hf)

/-- The iterator over matches takes note of where it is, in a function of the realm. -/
theorem gmatchStep_calm {self : FuncId} (hself : self ∈ R.functions) {captured : Array Value}
    (hc : R.HasAll captured.toList) : (gmatchStep self captured).Calm R R.HasAll := by
  have hset (vs : List Value) (hvs : R.HasAll vs) : (setCaptured self vs).Calm R fun _ => True :=
    .modify fun _ hs => .setCaptured hs hself (by simpa using hvs)
  unfold gmatchStep
  split
  · rename_i s pat start last hcaptured
    rw [hcaptured] at hc
    have hlast : R.Has last := hc last (by simp)
    extract_lets i last?
    refine .bind (ofPattern_plain _).calm fun found _ => ?_
    split
    · exact .bind (hset _ (by simpa using hlast)) fun _ _ => .pure (Realm.hasAll_one trivial)
    · exact .bind (hset _ (by simp)) fun _ _ => (captureValues_plain _ _ _ _).calmAll
  · exact .pure (Realm.hasAll_one trivial)

/-! ## What calls a replacement or a handler -/

section

variable (h : R.HasAll args)

include h

theorem replacement_tame (s : Bytes) (start stop : Nat) (caps : List Lua.Capture) :
    (replacement args s start stop caps).Tame R fun _ _ => True := by
  have harg := Args.arg_has h 3
  have hcaps := (captureValues_plain s start stop caps).calmAll (R := R)
  unfold replacement
  extract_lets finish
  have hfinish (v : Value) {R : Realm} : (finish v).Tame R fun _ _ => True := by
    refine .ite (fun _ => .pure trivial) fun _ => ?_
    split
    · exact .pure trivial
    · exact .fail _
  clear_value finish
  split
  · rename_i f hf
    rw [hf] at harg
    exact .calmly hcaps fun vs hvs => .bind (.call harg hvs _) fun _ _ _ _ => hfinish _
  · rename_i t ht
    rw [ht] at harg
    exact .calmly hcaps fun vs hvs =>
      .bind (Operation.index_tame _ _ harg hvs.headD) fun v _ _ _ => hfinish v
  · exact .ite (fun _ => .calmly (expand_plain _ _ _ _ _).calm fun _ _ => hfinish _) fun _ => hfinish _

theorem gsub_tame : (gsub args).Tame R Realm.HasAll := by
  unfold gsub
  refine .calmly (args.string_plain 1).calm fun s _ => .calmly (args.string_plain 2).calm fun pat _ => ?_
  extract_lets replaced
  have hreplaced : (replaced ()).Tame R Realm.HasAll := by
    refine .calmly (args.integerOr_plain 4 _).calm fun limit _ => ?_
    refine .bind (P := fun _ _ => True) (.loopWith (I := fun _ _ => True) trivial fun R₁ h₁ r _ => ?_)
      fun r _ _ _ => .pure (.cons trivial (Realm.hasAll_one trivial))
    refine .ite (fun _ => .pure trivial) fun _ => .calmly (ofPattern_plain _).calm fun found _ => ?_
    extract_lets moved step
    have hstep (next : Option Replacing) {R : Realm} :
        (step next).Tame R fun _ => Sum.elim (fun _ => True) fun _ => True := by
      unfold step
      split
      · exact .ite (fun _ => .pure trivial) fun _ => .pure trivial
      · exact .ite (fun _ => .ite (fun _ => .pure trivial) fun _ => .pure trivial)
          fun _ => .pure trivial
    clear_value step
    split
    · exact .ite (fun _ => hstep none) fun _ =>
        .bind (replacement_tame (h.up h₁) _ _ _ _) fun piece _ _ _ => hstep _
    · exact hstep none
  clear_value replaced
  split
  all_goals first
    | exact hreplaced
    | exact .bind (P := fun _ _ => False) (args.failType_plain 3 _).fails fun _ _ _ h => h.elim

theorem convert_tame (spec : Format.Spec) (n : Nat) :
    (convert spec args n).Tame R fun _ _ => True := by
  by_cases hs : Char.ofNat spec.letter.toNat = 's'
  · simp only [convert, hs]
    refine .bind (Operation.text_tame (Args.arg_has h n)) fun s _ _ _ =>
      .ite (fun _ => .pure trivial) fun _ => .check (.badArgument _ _) ?_
    exact .calmly (layout_plain _ _ _).calm fun _ _ =>
      .ite (fun _ => .pure trivial) fun _ => .pure trivial
  · exact (convert_plain hs args n).calm.any

omit h in
theorem formatFrom_tame : ∀ (fuel n : Nat) (bs : List UInt8) (acc : Bytes) {R : Realm},
    R.HasAll args → (formatFrom args fuel n bs acc).Tame R fun _ _ => True
  | 0, _, _, _, _, _ => .pure trivial
  | _ + 1, _, [], _, _, _ => .pure trivial
  | fuel + 1, n, b :: rest, acc, R, h => by
    unfold formatFrom
    split
    case h_1 | h_2 => exact .pure trivial
    case h_3 fuel _ _ _ heq _ =>
      obtain rfl := Nat.succ.inj heq
      exact formatFrom_tame _ _ _ _ h
    case h_4 fuel _ _ _ _ heq _ =>
      obtain rfl := Nat.succ.inj heq
      refine .check (.badArgument _ _) ?_
      split
      · exact .fail _
      · exact .bind (convert_tame h _ _) fun _ _ h₁ _ => formatFrom_tame _ _ _ _ (h.up h₁)
    case h_5 fuel _ _ _ _ _ _ heq _ =>
      obtain rfl := Nat.succ.inj heq
      exact formatFrom_tame _ _ _ _ h

theorem format_tame : (format args).Tame R Realm.HasAll :=
  .calmly (args.string_plain 1).calm fun _ _ =>
    .bind (formatFrom_tame _ _ _ _ h) fun _ _ _ _ => .pure (Realm.hasAll_one trivial)

theorem applyOperator_tame (o : StringOperator) : (applyOperator o args).Tame R Realm.HasAll := by
  unfold applyOperator
  extract_lets a b event handled
  have ha : R.Has a := Args.arg_has h 1
  have hb : R.Has b := Args.arg_has h 2
  have hhandled (handler : Value) (hh : R.Has handler) : (handled handler).Tame R Realm.HasAll :=
    .check (.fail _) (.bind (.call hh (.cons ha (Realm.hasAll_one hb)) _) fun _ _ _ hvs =>
      .pure (Realm.hasAll_one hvs.headD))
  clear_value handled b
  split
  · split
    · exact .bind (Operation.arithmetic_tame _ _ (Realm.has_number _) (Realm.has_number _))
        fun v _ _ hv => .pure (Realm.hasAll_one hv)
    · exact .pure (Realm.hasAll_one (Realm.has_number _))
  · split
    · exact hhandled .nil trivial
    · exact .calmly (.metamethod hb _) fun handler hh => hhandled handler hh

end

theorem run_tame (f : StringFunction) {self : FuncId} (hself : self ∈ R.functions)
    {captured : Array Value} (hc : R.HasAll captured.toList) (h : R.HasAll args) :
    (run f self captured args).Tame R Realm.HasAll := by
  by_cases hf : f.isPlain
  · exact (run_plain args hf self captured).tame
  cases f with
  | format => exact format_tame h
  | gmatch => exact gmatch_tame
  | gmatchStep => exact (gmatchStep_calm hself hc).tame fun _ => id
  | gsub => exact gsub_tame h
  | _ => exact absurd rfl hf

end Enclosure.Lua.Library.Text
