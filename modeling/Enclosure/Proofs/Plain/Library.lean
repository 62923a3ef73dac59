import Enclosure.Lua.Library.Base
import Enclosure.Lua.Library.CodePoint
import Enclosure.Lua.Library.Guard
import Enclosure.Lua.Library.List
import Enclosure.Lua.Library.Math
import Enclosure.Lua.Library.System
import Enclosure.Lua.Library.Thread
import Enclosure.Proofs.Plain.Operation

/-!
# Plain functions of the other libraries

Of the library `math` only the extremes of values may call a handler (`Math.run_plain`), and of the
library `utf8` only the making of the iterator over code points makes anything (`CodePoint.run_plain`).
-/

namespace Enclosure.Lua

/-- Functions of numbers that compare no values. -/
def MathFunction.isPlain : MathFunction → Bool
  | .max | .min => false
  | _ => true

/-- Functions of code points that make nothing. -/
def Utf8Function.isPlain : Utf8Function → Bool
  | .codes => false
  | _ => true

namespace Library

open Value (AllPlain allPlain_one allPlain_nil)

variable (args : Args)

namespace Math

theorem isPlain_whole (d : Double) : (whole d).isPlain := by
  unfold whole
  split <;> rfl

theorem unary_plain (f : Float → Float) : (unary args f).Plain AllPlain :=
  .bind (args.double_plain 1) fun _ _ => .pure (allPlain_one rfl)

theorem rounding_plain (f : Double → Double) : (rounding args f).Plain AllPlain := by
  refine .bind (args.number_plain 1) fun x _ => ?_
  split
  · exact .pure (allPlain_one rfl)
  · exact .pure (allPlain_one (isPlain_whole _))

theorem fmod_plain : (fmod args).Plain AllPlain := by
  refine .bind (args.number_plain 1) fun x _ => .bind (args.number_plain 2) fun y _ => ?_
  split
  · exact .check (.badArgument _ _) (.pure (allPlain_one rfl))
  · exact .pure (allPlain_one rfl)

theorem modf_plain : (modf args).Plain AllPlain := by
  unfold modf
  split
  · exact .pure (.cons rfl (allPlain_one rfl))
  · exact .bind (args.double_plain 1) fun _ _ => .pure (.cons (isPlain_whole _) (allPlain_one rfl))

theorem log_plain : (log args).Plain AllPlain :=
  .bind (args.double_plain 1) fun _ _ => .ite (fun _ => .pure (allPlain_one rfl)) fun _ =>
    .bind (args.double_plain 2) fun _ _ => .pure (allPlain_one rfl)

theorem random_plain : (random args).Plain AllPlain := by
  unfold random
  refine .bind (.draw _) fun x _ => ?_
  extract_lets between
  have hbetween (low up : Int64) (n : Nat) : (between low up n).Plain AllPlain :=
    .check (.badArgument _ _) <|
      .bind (.draw _)
        fun _ _ => .pure (allPlain_one rfl)
  clear_value between
  split
  · exact .pure (allPlain_one rfl)
  · exact .bind (Args.integer_plain _ 1) fun up _ =>
      .ite (fun _ => .pure (allPlain_one rfl)) fun _ => hbetween _ _ _
  · exact .bind (Args.integer_plain _ 1) fun low _ => .bind (Args.integer_plain _ 2) fun up _ =>
      hbetween _ _ _
  · exact .fail _

theorem randomSeed_plain : (randomSeed args).Plain AllPlain := by
  have seeded (a b : UInt64) : (do
      Run.draw fun c => ((), { c with random := RandomState.seeded a b })
      return [.int a.toInt64, .int b.toInt64] : Run (List Value)).Plain AllPlain :=
    .bind (.draw _) fun _ _ => .pure (.cons rfl (allPlain_one rfl))
  unfold randomSeed
  refine .ite (fun _ => .bind (.draw _) fun _ _ => seeded _ _) fun _ => ?_
  exact .bind (args.number_plain 1) fun a _ => .bind (args.integerOr_plain 2 0) fun b _ => seeded _ _

theorem run_plain {f : MathFunction} (hf : f.isPlain) : (run f args).Plain AllPlain := by
  have first := args.double_plain 1
  cases f with
  | abs =>
    refine .bind (args.number_plain 1) fun x _ => ?_
    split <;> exact .pure (allPlain_one rfl)
  | acos | asin | cos | cosh | exp | log10 | sin | sinh | tan | tanh => exact unary_plain args _
  | atan =>
    exact .bind first fun _ _ => .bind (args.doubleOr_plain 2 _) fun _ _ => .pure (allPlain_one rfl)
  | ceil | floor => exact rounding_plain args _
  | deg | rad | sqrt => exact .bind first fun _ _ => .pure (allPlain_one rfl)
  | fmod => exact fmod_plain args
  | frexp => exact .bind first fun _ _ => .pure (.cons rfl (allPlain_one rfl))
  | ldexp =>
    exact .bind first fun _ _ => .bind (args.integer_plain 2) fun _ _ => .pure (allPlain_one rfl)
  | log => exact log_plain args
  | modf => exact modf_plain args
  | pow =>
    exact .bind first fun _ _ => .bind (args.double_plain 2) fun _ _ => .pure (allPlain_one rfl)
  | random => exact random_plain args
  | randomSeed => exact randomSeed_plain args
  | toInteger =>
    refine .bind (args.any_plain 1) fun v _ => ?_
    split
    · exact .pure (allPlain_one rfl)
    · refine .pure (allPlain_one ?_)
      split <;> rfl
    · split
      · refine .pure (allPlain_one ?_)
        split <;> rfl
      · exact .pure (allPlain_one rfl)
    · exact .pure (allPlain_one rfl)
  | type =>
    refine .bind (args.any_plain 1) fun v _ => ?_
    split <;> exact .pure (allPlain_one rfl)
  | ult =>
    exact .bind (args.integer_plain 1) fun _ _ => .bind (args.integer_plain 2) fun _ _ =>
      .pure (allPlain_one rfl)
  | max | min => cases hf

end Math

namespace CodePoint

theorem charsFrom_plain : ∀ count n : Nat, (charsFrom args count n).Plain fun _ => True
  | 0, _ => .pure trivial
  | count + 1, n => .bind (args.integer_plain n) fun _ _ =>
    .check (.badArgument _ _) (.bind (charsFrom_plain count (n + 1)) fun _ _ => .pure trivial)

theorem pointsBetween_plain (b : Bytes) (strict : Bool) : ∀ fuel i stop : Nat,
    (pointsBetween b strict fuel i stop).Plain AllPlain
  | 0, _, _ => .pure allPlain_nil
  | fuel + 1, i, stop => by
    refine .ite (fun _ => .pure allPlain_nil) fun _ => ?_
    split
    · exact .fail _
    · exact .bind (pointsBetween_plain b strict fuel _ stop) fun _ hvs => .pure (.cons rfl hvs)

theorem codePoint_plain : (codePoint args).Plain AllPlain := by
  refine .bind (args.string_plain 1) fun s _ => .bind (args.integerOr_plain 2 _) fun i _ => ?_
  refine .bind (args.integerOr_plain 3 _) fun j _ => .check (.badArgument _ _) ?_
  refine .check (.badArgument _ _) (.ite (fun _ => .pure allPlain_nil) fun _ => ?_)
  exact pointsBetween_plain _ _ _ _ _

theorem len_plain : (len args).Plain AllPlain := by
  refine .bind (args.string_plain 1) fun s _ => .bind (args.integerOr_plain 2 _) fun i _ => ?_
  refine .bind (args.integerOr_plain 3 _) fun j _ => .check (.badArgument _ _) ?_
  refine .check (.badArgument _ _) ?_
  split
  · exact .pure (allPlain_one rfl)
  · exact .pure (.cons rfl (allPlain_one rfl))

theorem offset_plain : (offset args).Plain AllPlain := by
  unfold offset
  refine .bind (args.string_plain 1) fun s _ => .bind (args.integer_plain 2) fun n _ => ?_
  refine .bind (args.integerOr_plain 3 _) fun i _ => .check (.badArgument _ _) ?_
  extract_lets place answer
  have hanswer (r : Option Nat) : AllPlain (answer r) := by
    cases r <;> exact allPlain_one rfl
  clear_value answer
  refine .ite (fun _ => .pure (allPlain_one rfl)) fun _ => .check (.fail _) ?_
  exact .ite (fun _ => .pure (hanswer _)) fun _ => .pure (hanswer _)

theorem codesStep_plain (strict : Bool) : (codesStep args strict).Plain AllPlain := by
  refine .bind (args.string_plain 1) fun s _ => .bind (args.integer_plain 2) fun n _ => ?_
  refine .ite (fun _ => .pure allPlain_nil) fun _ => ?_
  split
  · exact .fail _
  · exact .check (.fail _) (.pure (.cons rfl (allPlain_one rfl)))

theorem run_plain {f : Utf8Function} (hf : f.isPlain) : (run f args).Plain AllPlain := by
  cases f with
  | char => exact .bind (charsFrom_plain args _ _) fun _ _ => .pure (allPlain_one rfl)
  | codePoint => exact codePoint_plain args
  | codesStep | codesStepLax => exact codesStep_plain args _
  | len => exact len_plain args
  | offset => exact offset_plain args
  | codes => cases hf

end CodePoint

namespace Base

theorem collectGarbage_plain : (collectGarbage args).Plain AllPlain := by
  refine .bind (args.option_plain 1 _) fun o _ => ?_
  split <;> exact .pure (allPlain_one rfl)

theorem rawLen_plain : (rawLen args).Plain AllPlain := by
  unfold rawLen
  split
  · exact .bind (.read _) fun _ _ => .pure (allPlain_one rfl)
  · exact .pure (allPlain_one rfl)
  · exact args.failType_plain 1 _

theorem toNumber_plain : (toNumber args).Plain AllPlain := by
  refine .ite (fun _ => .bind (args.any_plain 1) fun v _ => ?_) fun _ =>
    .bind (args.integer_plain 2) fun base _ => ?_
  · split
    · rename_i b _
      refine .pure (allPlain_one ?_)
      cases Numeral.ofBytes? b with
      | none => rfl
      | some x => exact Value.isPlain_number x
    · exact .pure (allPlain_one rfl)
    · exact .pure (allPlain_one rfl)
    · exact .pure (allPlain_one rfl)
  · split
    · rename_i b _
      refine .check (.badArgument _ _) (.pure (allPlain_one ?_))
      cases numberInBase base.toInt.toNat b <;> rfl
    · exact args.failType_plain 1 _

end Base

theorem System.now_plain : System.now.Plain fun _ => True := .draw _

theorem System.clock_plain : (System.run .clock args).Plain AllPlain :=
  .bind (.draw _) fun _ _ => .pure (allPlain_one rfl)

theorem System.difftime_plain : (System.run .difftime args).Plain AllPlain :=
  .bind (args.integer_plain 1) fun _ _ => .bind (args.integer_plain 2) fun _ _ =>
    .pure (allPlain_one rfl)

theorem Thread.thread_plain (n : Nat) : (Thread.thread args n).Plain fun _ => True := by
  unfold Thread.thread
  split
  · exact .pure trivial
  · exact args.failType_plain n _

/-- What is taken for a table is the argument itself. -/
theorem List.tableLike_plain (n : Nat) (events : List String) :
    (List.tableLike args n events).Plain (args.arg n = ·) := by
  unfold List.tableLike
  split
  · exact .pure ‹_›
  · refine .bind (.mapM (Q := fun _ => True) fun e _ => .read _) fun hs _ =>
      .bind (.read _) fun m _ => ?_
    exact .ite (fun _ => .pure rfl) fun _ => args.failType_plain n _

namespace Guard

variable (captured : Array Value)

theorem length_plain : (run .length captured args).Plain AllPlain := by
  unfold run
  dsimp only
  split
  · exact .bind (.read _) fun _ _ => .pure (allPlain_one rfl)
  · exact .pure (allPlain_one rfl)

theorem failureText_plain : (run .failureText captured args).Plain AllPlain := by
  unfold run
  dsimp only
  split
  · refine .bind (.read _) fun o _ => ?_
    split <;> exact .pure (allPlain_one rfl)
  · exact .pure (allPlain_one rfl)

end Guard

end Library

end Enclosure.Lua
