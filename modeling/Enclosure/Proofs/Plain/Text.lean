import Enclosure.Lua.Library.Text
import Enclosure.Proofs.Plain.Operation

/-!
# Plain functions of strings

Functions of the library `string` take their arguments for strings and numbers and give strings and
numbers, but for those that call a replacement or a handler or have to do with an iterator
(`run_plain`).
-/

namespace Enclosure.Lua

/-- Functions of strings that neither call anything nor make or change an iterator. -/
def StringFunction.isPlain : StringFunction → Bool
  | .format | .gmatch | .gmatchStep | .gsub => false
  | _ => true

namespace Library.Text

open Value (AllPlain allPlain_one allPlain_nil)

variable {α : Type}

/-! ## Searching -/

theorem ofPattern_plain (r : Except String α) : (ofPattern r).Plain fun _ => True := by
  cases r
  · exact .fail _
  · exact .pure trivial

theorem captureValue_plain (s : Bytes) (c : Lua.Capture) :
    (captureValue s c).Plain fun v => v.isPlain := by
  cases c
  · exact .pure rfl
  · exact .pure rfl
  · exact .fail _

theorem captureValues_plain (s : Bytes) (start stop : Nat) (caps : List Lua.Capture) :
    (captureValues s start stop caps).Plain AllPlain := by
  unfold captureValues
  split
  · exact .pure (allPlain_one rfl)
  · exact .mapM fun c _ => captureValue_plain s c

theorem expand_plain (s : Bytes) (start stop : Nat) (caps : List Lua.Capture) (bs : List UInt8) :
    (expand s start stop caps bs).Plain fun _ => True := by
  fun_induction expand s start stop caps bs with
  | case1 => exact .pure trivial
  | case2 => exact .fail _
  | case3 d rest append _ ih =>
    have happend (piece : Bytes) : (append piece).Plain fun _ => True :=
      .bind ih fun _ _ => .pure trivial
    exact happend _
  | case4 d rest append _ _ ih =>
    have happend (piece : Bytes) : (append piece).Plain fun _ => True :=
      .bind ih fun _ _ => .pure trivial
    exact happend _
  | case5 d rest append _ _ _ n c _ ih =>
    have happend (piece : Bytes) : (append piece).Plain fun _ => True :=
      .bind ih fun _ _ => .pure trivial
    exact .bind (captureValue_plain s c) fun _ _ => happend _
  | case6 d rest append _ _ _ n _ _ ih =>
    have happend (piece : Bytes) : (append piece).Plain fun _ => True :=
      .bind ih fun _ _ => .pure trivial
    exact happend _
  | case7 => exact .bind (P := fun _ => False) (.fail _) fun _ h => h.elim
  | case8 => exact .bind (P := fun _ => False) (.fail _) fun _ h => h.elim
  | case9 b rest _ _ ih => exact .bind ih fun _ _ => .pure trivial

theorem find_plain (args : Args) (isFind : Bool) : (find args isFind).Plain AllPlain := by
  refine .bind (args.string_plain 1) fun s _ => .bind (args.string_plain 2) fun pat _ => ?_
  refine .bind (args.integerOr_plain 3 1) fun i _ => ?_
  refine .ite (fun _ => .pure (allPlain_one rfl)) fun _ => .ite (fun _ => ?_) fun _ => ?_
  · split
    · exact .pure (.cons rfl (allPlain_one rfl))
    · exact .pure (allPlain_one rfl)
  · refine .bind (ofPattern_plain _) fun r _ => ?_
    split
    · exact .pure (allPlain_one rfl)
    · refine .ite (fun _ => ?_) fun _ => captureValues_plain _ _ _ _
      exact .bind (.mapM fun c _ => captureValue_plain s c) fun vs hvs =>
        .pure (.cons rfl (.cons rfl hvs))

/-! ## Packing -/

theorem packItem_plain (m : Pack.Mode) (before : Nat) (bs : List UInt8) :
    (packItem m before bs).Plain fun _ => True := by
  unfold packItem
  split
  · exact .pure trivial
  · exact .badArgument _ _
  · exact .fail _

theorem packSizeFrom_plain : ∀ (fuel : Nat) (m : Pack.Mode) (bs : List UInt8) (total : Nat),
    (packSizeFrom fuel m bs total).Plain fun _ => True
  | 0, _, _, _ => .pure trivial
  | _ + 1, _, [], _ => .pure trivial
  | fuel + 1, m, b :: bs, total => by
    unfold packSizeFrom
    refine .bind (packItem_plain m total _) ?_
    rintro ⟨item, m, rest⟩ -
    dsimp -zeta only
    extract_lets size again next
    have hnext (u : PUnit) : (next u).Plain fun _ => True :=
      .check (.badArgument _ _) (packSizeFrom_plain fuel _ _ _)
    clear_value next
    split
    · exact .bind (P := fun _ => False) (.badArgument _ _) fun _ h => h.elim
    · exact .bind (P := fun _ => False) (.badArgument _ _) fun _ h => h.elim
    · exact hnext ()

theorem packOne_plain (m : Pack.Mode) (item : Pack.Item) (args : Args) (n : Nat) :
    (packOne m item args n).Plain fun _ => True := by
  have hint := args.integer_plain n
  have hdouble := args.double_plain n
  have hstring := args.string_plain n
  unfold packOne
  split
  · refine .bind hint fun i _ => .ite (fun _ => ?_) fun _ => .pure trivial
    exact .check (.badArgument _ _) (.pure trivial)
  · exact .bind hint fun i _ => .check (.badArgument _ _) (.pure trivial)
  · exact .bind hdouble fun _ _ => .pure trivial
  · exact .bind hdouble fun _ _ => .pure trivial
  · exact .bind hstring fun _ _ => .check (.badArgument _ _) (.pure trivial)
  · exact .bind hstring fun _ _ => .check (.badArgument _ _) (.pure trivial)
  · exact .bind hstring fun _ _ => .check (.badArgument _ _) (.pure trivial)
  · exact .pure trivial
  · exact .pure trivial
  · exact .pure trivial

theorem packFrom_plain (args : Args) : ∀ (fuel : Nat) (m : Pack.Mode) (n : Nat) (bs : List UInt8)
    (acc : Bytes), (packFrom args fuel m n bs acc).Plain fun _ => True
  | 0, _, _, _, _ => .pure trivial
  | _ + 1, _, _, [], _ => .pure trivial
  | fuel + 1, m, n, b :: bs, acc => by
    unfold packFrom
    refine .bind (packItem_plain m acc.size _) fun r _ => ?_
    exact .bind (packOne_plain _ _ args n) fun q _ => packFrom_plain args fuel _ _ _ _

theorem unpackInt_plain (little signed : Bool) (b : Bytes) :
    (unpackInt little signed b).Plain fun v => v.isPlain := by
  unfold unpackInt
  dsimp only
  split_ifs
  all_goals first
    | exact .pure rfl
    | exact .fail _

theorem unpackOne_plain (m : Pack.Mode) (item : Pack.Item) (data : Bytes) (place : Nat) :
    (unpackOne m item data place).Plain fun r => AllPlain r.1 := by
  unfold unpackOne
  dsimp only
  split
  · exact .bind (unpackInt_plain _ _ _) fun v hv => .pure (allPlain_one hv)
  · exact .bind (unpackInt_plain _ _ _) fun v hv => .pure (allPlain_one hv)
  · exact .pure (allPlain_one rfl)
  · exact .pure (allPlain_one rfl)
  · exact .pure (allPlain_one rfl)
  · exact .check (.badArgument _ _) (.pure (allPlain_one rfl))
  · exact .check (.badArgument _ _) (.pure (allPlain_one rfl))
  · exact .pure allPlain_nil
  · exact .pure allPlain_nil
  · exact .pure allPlain_nil

theorem unpackFrom_plain (data : Bytes) : ∀ (fuel : Nat) (m : Pack.Mode) (bs : List UInt8)
    (place : Nat), (unpackFrom data fuel m bs place).Plain AllPlain
  | 0, _, _, _ => .pure (allPlain_one rfl)
  | _ + 1, _, [], _ => .pure (allPlain_one rfl)
  | fuel + 1, m, b :: bs, place => by
    unfold unpackFrom
    refine .bind (packItem_plain m place _) fun r _ => ?_
    refine .check (.badArgument _ _) (.bind (unpackOne_plain _ _ _ _) fun v hv => ?_)
    exact .bind (unpackFrom_plain data fuel _ _ _) fun vs hvs => .pure (hv.append hvs)

/-! ## Formatting -/

theorem layout_plain (spec : Format.Spec) (flags : String) (precision : Bool) :
    (layout spec flags precision).Plain fun _ => True := by
  unfold layout
  split
  · exact .pure trivial
  · exact .failBytes _

theorem literal_plain (args : Args) (n : Nat) : (literal args n).Plain fun _ => True := by
  unfold literal
  generalize args.arg n = v
  cases v with
  | nil | bool | int | float | str => exact .pure trivial
  | table | func | object | thread => exact .badArgument _ _

/-- All conversions but those of values to text, for which a handler may be called. -/
theorem convert_plain {spec : Format.Spec} (hs : Char.ofNat spec.letter.toNat ≠ 's') (args : Args)
    (n : Nat) : (convert spec args n).Plain fun _ => True := by
  have hint := args.integer_plain n
  have hdouble := args.double_plain n
  unfold convert
  split
  case h_1 => exact .bind (layout_plain _ _ _) fun _ _ => .bind hint fun _ _ => .pure trivial
  case h_8 | h_9 => exact .bind (layout_plain _ _ _) fun _ _ => .bind hdouble fun _ _ => .pure trivial
  case h_15 => exact .bind (layout_plain _ _ _) fun _ _ => .pure trivial
  case h_16 => exact .check (.fail _) (literal_plain args n)
  case h_17 heq => exact absurd heq hs
  case h_18 => exact .failBytes _
  case h_10 | h_11 | h_12 | h_13 | h_14 =>
    exact .bind hdouble fun _ _ => .bind (layout_plain _ _ _) fun _ _ => .pure trivial
  all_goals exact .bind hint fun _ _ => .bind (layout_plain _ _ _) fun _ _ => .pure trivial

/-! ## All of them -/

variable (args : Args)

theorem byte_plain : (byte args).Plain AllPlain := by
  refine .bind (args.string_plain 1) fun s _ => .bind (args.integerOr_plain 2 1) fun i _ => ?_
  refine .bind (args.integerOr_plain 3 i) fun j _ => .pure fun v hv => ?_
  obtain ⟨b, -, rfl⟩ := List.mem_map.1 hv
  rfl

theorem charsFrom_plain : ∀ count n : Nat, (charsFrom args count n).Plain fun _ => True
  | 0, _ => .pure trivial
  | count + 1, n => .bind (args.integer_plain n) fun _ _ =>
    .check (.badArgument _ _) (.bind (charsFrom_plain count (n + 1)) fun _ _ => .pure trivial)

theorem sub_plain : (sub args).Plain AllPlain :=
  .bind (args.string_plain 1) fun _ _ => .bind (args.integer_plain 2) fun _ _ =>
    .bind (args.integerOr_plain 3 (-1)) fun _ _ => .pure (allPlain_one rfl)

theorem rep_plain : (rep args).Plain AllPlain := by
  refine .bind (args.string_plain 1) fun s _ => .bind (args.integer_plain 2) fun n _ => ?_
  refine .bind (args.stringOr_plain 3 _) fun sep _ => ?_
  refine .ite (fun _ => .pure (allPlain_one rfl)) fun _ => ?_
  exact .check (.fail _) (.pure (allPlain_one rfl))

theorem dump_plain : (dump args).Plain AllPlain := by
  refine .bind (args.function_plain 1) fun f _ => ?_
  split
  · refine .bind (.read _) fun o _ => ?_
    split
    · exact .pure (allPlain_one rfl)
    · exact .fail _
  · exact .fail _

theorem pack_plain : (pack args).Plain AllPlain :=
  .bind (args.string_plain 1) fun _ _ =>
    .bind (packFrom_plain args _ _ _ _ _) fun _ _ => .pure (allPlain_one rfl)

theorem unpack_plain : (unpack args).Plain AllPlain :=
  .bind (args.string_plain 1) fun _ _ => .bind (args.string_plain 2) fun _ _ =>
    .bind (args.integerOr_plain 3 1) fun _ _ =>
      .check (.badArgument _ _) (unpackFrom_plain _ _ _ _ _)

theorem run_plain {f : StringFunction} (hf : f.isPlain) (self : FuncId) (captured : Array Value) :
    (run f self captured args).Plain AllPlain := by
  have text (g : Bytes → Value) (hg : ∀ b, (g b).isPlain) :
      (do return [g (← args.string 1)] : Run (List Value)).Plain AllPlain :=
    .bind (args.string_plain 1) fun _ _ => .pure (allPlain_one (hg _))
  cases f with
  | byte => exact byte_plain args
  | char => exact .bind (charsFrom_plain args _ _) fun _ _ => .pure (allPlain_one rfl)
  | dump => exact dump_plain args
  | find => exact find_plain args true
  | len => exact text (fun b => .nat b.size) fun _ => rfl
  | lower => exact text (fun b => .str (b.map Ascii.toLower)) fun _ => rfl
  | «match» => exact find_plain args false
  | pack => exact pack_plain args
  | packSize =>
    exact .bind (args.string_plain 1) fun _ _ =>
      .bind (packSizeFrom_plain _ _ _ _) fun _ _ => .pure (allPlain_one rfl)
  | rep => exact rep_plain args
  | reverse => exact text (fun b => .str b.reverse) fun _ => rfl
  | sub => exact sub_plain args
  | unpack => exact unpack_plain args
  | upper => exact text (fun b => .str (b.map Ascii.toUpper)) fun _ => rfl
  | format | gmatch | gmatchStep | gsub => cases hf

end Library.Text

end Enclosure.Lua
