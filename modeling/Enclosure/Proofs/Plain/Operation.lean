import Enclosure.Lua.Evaluate
import Enclosure.Lua.Library.Argument
import Enclosure.Proofs.Plain.Run

/-!
# Plain operations

Messages tell no more of a value than its type or the name that its metatable gives, so what only fails
is plain, and so are the checks of arguments, whatever the arguments are.
-/

namespace Enclosure.Lua

variable {α : Type} {P : α → Prop}

namespace Operation

theorem failAt_plain (w : Where) (message : Bytes) : (failAt w message : Run α).Plain P := by
  cases w
  · exact .throw trivial
  · exact .throw rfl

theorem failTextAt_plain (w : Where) (message : String) : (failTextAt w message : Run α).Plain P :=
  failAt_plain w _

theorem shownType_plain (v : Value) : (shownType v).Plain fun _ => True := by
  unfold shownType
  extract_lets shown
  have hshown (named : Value) : (shown named).Plain fun _ => True := by
    unfold shown
    split <;> exact .pure trivial
  clear_value shown
  split
  · exact .bind (.read _) fun named _ => hshown named
  · exact .bind (.read _) fun named _ => hshown named
  · exact hshown .nil

theorem failType_plain (w : Where) (action : String) (v : Value) (o : Option Origin) :
    (failType w action v o : Run α).Plain P :=
  .bind (shownType_plain v) fun _ _ => failAt_plain w _

theorem ofDefect_plain (w : Where) (r : Except ArithmeticDefect α) :
    (ofDefect w r).Plain fun _ => True := by
  cases r
  · exact failTextAt_plain w _
  · exact .pure trivial

theorem plainText_plain (v : Value) : (plainText v).Plain fun _ => True := by
  unfold plainText
  split
  · exact .pure trivial
  · exact .pure trivial
  · split
    · exact .pure trivial
    · exact .bind (.read _) fun _ _ => .pure trivial

end Operation

/-! ## Ranges -/

namespace Evaluate

theorem failFor_plain (line : Nat) (what : String) (v : Value) : (failFor line what v : Run α).Plain P :=
  .bind (Operation.shownType_plain v) fun _ _ => Operation.failAt_plain _ _

theorem rangeOf_plain (line : Nat) (start limit step : Value) :
    (rangeOf line start limit step).Plain fun _ => True := by
  unfold rangeOf
  split
  · refine .check (Operation.failTextAt_plain _ _) ?_
    split
    · exact failFor_plain line _ _
    · exact .pure trivial
    · split
      · exact .pure trivial
      · exact .pure trivial
  · split
    · exact failFor_plain line _ _
    · exact failFor_plain line _ _
    · exact failFor_plain line _ _
    · exact .check (Operation.failTextAt_plain _ _) (.pure trivial)

end Evaluate

/-! ## Arguments -/

namespace Args

variable (args : Args) (n : Nat)

theorem failType_plain (expected : String) : (args.failType n expected : Run α).Plain P := by
  unfold Args.failType gotText
  refine .bind (P := fun _ => True) ?_ fun _ _ => .throw trivial
  split
  · exact .pure trivial
  · exact Operation.shownType_plain _

theorem any_plain : (args.any n).Plain fun v => args.get? n = some v := by
  unfold Args.any
  split
  · exact .pure ‹_›
  · exact .badArgument _ _

theorem number_plain : (args.number n).Plain fun _ => True := by
  unfold Args.number
  split
  · exact .pure trivial
  · exact args.failType_plain n _

theorem double_plain : (args.double n).Plain fun _ => True :=
  .bind (args.number_plain n) fun _ _ => .pure trivial

theorem doubleOr_plain (d : Double) : (args.doubleOr n d).Plain fun _ => True :=
  .ite (fun _ => .pure trivial) fun _ => args.double_plain n

theorem integer_plain : (args.integer n).Plain fun _ => True := by
  unfold Args.integer
  refine .bind (args.number_plain n) fun x _ => ?_
  split
  · exact .pure trivial
  · exact .badArgument _ _

theorem integerOr_plain (d : Int64) : (args.integerOr n d).Plain fun _ => True :=
  .ite (fun _ => .pure trivial) fun _ => args.integer_plain n

theorem string_plain : (args.string n).Plain fun _ => True := by
  unfold Args.string
  split
  · exact .pure trivial
  · exact args.failType_plain n _

theorem stringOr_plain (d : Bytes) : (args.stringOr n d).Plain fun _ => True :=
  .ite (fun _ => .pure trivial) fun _ => args.string_plain n

theorem table_plain : (args.table n).Plain fun t => args.arg n = .table t := by
  unfold Args.table
  split
  · exact .pure ‹_›
  · exact args.failType_plain n _

theorem function_plain : (args.function n).Plain (args.arg n = ·) := by
  unfold Args.function
  split
  · exact .pure ‹_›
  · exact args.failType_plain n _

theorem option_plain (words : List String) : (args.option n words).Plain fun _ => True := by
  refine .bind (args.stringOr_plain n _) fun _ _ => ?_
  split
  · exact .pure trivial
  · exact .throw trivial

end Args

end Enclosure.Lua
