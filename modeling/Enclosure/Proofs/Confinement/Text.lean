import Enclosure.Proofs.Confinement.Operation
import Enclosure.Proofs.Plain.Text

/-!
# The library `string` in a zone

The functions of strings that are not plain call a replacement or a handler of the zone, or they have to
do with the iterator over matches, which holds what it was made from.
-/

namespace Enclosure.Lua.Library.Text

variable {Z : Zone} {args : Args}

/-! ## The iterator over matches -/

theorem gmatch_safe (hz : Z.allows (.string .gmatchStep)) : (gmatch args).Safe Z Z.Publics := by
  refine .bind (args.string_plain 1).safe fun s _ => ?_
  refine .bind (args.string_plain 2).safe fun pat _ => ?_
  refine .bind (args.integerOr_plain 3 1).safe fun i _ => ?_
  exact .bind (.newBuiltin hz (by simp [Zone.publics_cons])) fun f hf => .pure (Zone.publics_one hf)

/-- The iterator over matches takes note of where it is, in a function that scripts hold. -/
theorem gmatchStep_safe {self : FuncId} (hself : Z.Public (.func self)) (captured : Array Value)
    (hc : Z.Publics captured.toList) : (gmatchStep self captured).Safe Z Z.Publics := by
  have hset : ∀ vs, Z.Publics vs → (setCaptured self vs).Sound Z := fun vs hvs =>
    .modify fun _ hs => hs.setCaptured hself (by simpa using hvs)
  unfold gmatchStep
  split
  · rename_i s pat start last hcaptured
    rw [hcaptured] at hc
    have hlast : Z.Public last := hc last (by simp)
    extract_lets i last?
    refine .bind (ofPattern_plain _).safe fun found _ => ?_
    split
    · exact .bind (hset _ (by simpa [Zone.publics_cons] using hlast)) fun _ _ =>
        .pure (Zone.publics_one trivial)
    · exact .bind (hset _ (by simp [Zone.publics_cons])) fun _ _ => (captureValues_plain _ _ _ _).publics
  · exact .pure (Zone.publics_one trivial)

/-! ## What calls a replacement or a handler -/

variable (sound : Z.Sound) (h : Z.Publics args)

include sound h

theorem replacement_safe (s : Bytes) (start stop : Nat) (caps : List Lua.Capture) :
    (replacement args s start stop caps).Sound Z := by
  have harg := Args.arg_public h 3
  have hcaps := (captureValues_plain s start stop caps).publics (Z := Z)
  unfold replacement
  extract_lets finish
  have hfinish : ∀ v, (finish v).Sound Z := by
    intro v
    refine .ite (fun _ => .pure trivial) fun _ => ?_
    split
    · exact .pure trivial
    · exact .fail _
  clear_value finish
  split
  · rename_i f hf
    rw [hf] at harg
    exact .bind hcaps fun vs hvs => .bind (.call harg.callable hvs _) fun _ _ => hfinish _
  · rename_i t ht
    rw [ht] at harg
    exact .bind hcaps fun vs hvs =>
      .bind (Operation.index_safe sound _ _ harg hvs.headD) fun v _ => hfinish v
  · exact .ite (fun _ => .bind (expand_plain _ _ _ _ _).safe fun _ _ => hfinish _) fun _ => hfinish _

theorem gsub_safe : (gsub args).Safe Z Z.Publics := by
  unfold gsub
  refine .bind (args.string_plain 1).safe fun s _ => ?_
  refine .bind (args.string_plain 2).safe fun pat _ => ?_
  extract_lets replaced
  have hreplaced : (replaced ()).Safe Z Z.Publics := by
    refine .bind (args.integerOr_plain 4 _).safe fun limit _ => ?_
    refine .bind (P := fun _ => True) (.loopWith (I := fun _ => True) trivial fun r _ => ?_)
      fun r _ => .pure (Zone.publics_cons.2 ⟨trivial, Zone.publics_one trivial⟩)
    refine .ite (fun _ => .pure trivial) fun _ => .bind (ofPattern_plain _).safe fun found _ => ?_
    extract_lets moved step
    have hstep : ∀ next, (step next).Safe Z (Sum.elim (fun _ => True) fun _ => True) := by
      intro next
      unfold step
      split
      · exact .ite (fun _ => .pure trivial) fun _ => .pure trivial
      · exact .ite (fun _ => .ite (fun _ => .pure trivial) fun _ => .pure trivial)
          fun _ => .pure trivial
    clear_value step
    split
    · exact .ite (fun _ => hstep none) fun _ =>
        .bind (replacement_safe sound h _ _ _ _) fun piece _ => hstep _
    · exact hstep none
  clear_value replaced
  split
  all_goals first
    | exact hreplaced
    | exact .bind (P := fun _ => False) (args.failType_plain 3 _).safe fun _ h => h.elim

theorem convert_safe (spec : Format.Spec) (n : Nat) : (convert spec args n).Sound Z := by
  by_cases hs : Char.ofNat spec.letter.toNat = 's'
  · simp only [convert, hs]
    refine .bind (Operation.text_safe sound (Args.arg_public h n)) fun s _ =>
      .ite (fun _ => .pure trivial) fun _ => .check (.badArgument _ _) ?_
    exact .bind (layout_plain _ _ _).safe fun _ _ =>
      .ite (fun _ => .pure trivial) fun _ => .pure trivial
  · exact (convert_plain hs args n).safe

theorem formatFrom_safe (fuel n : Nat) (bs : List UInt8) (acc : Bytes) :
    (formatFrom args fuel n bs acc).Sound Z := by
  fun_induction formatFrom args fuel n bs acc with
  | case1 => exact .pure trivial
  | case2 => exact .pure trivial
  | case3 fuel n rest acc ih => exact ih
  | case4 => exact .bind (P := fun _ => False) (.badArgument _ _) fun _ h => h.elim
  | case5 fuel n rest acc _ n' further _ ih =>
    unfold further
    split
    · exact .fail _
    · exact .bind (convert_safe sound h _ _) fun _ _ => ih _ _
  | case6 fuel n b rest acc _ _ ih => exact ih

theorem format_safe : (format args).Safe Z Z.Publics :=
  .bind (args.string_plain 1).safe fun _ _ =>
    .bind (formatFrom_safe sound h _ _ _ _) fun _ _ => .pure (Zone.publics_one trivial)

theorem applyOperator_safe (o : StringOperator) : (applyOperator o args).Safe Z Z.Publics := by
  have hevent : "__" ++ eventOf o ≠ "__index" ∧ "__" ++ eventOf o ≠ "__pairs" := by
    cases o <;> decide
  unfold applyOperator
  extract_lets a b event handled
  have ha : Z.Public a := Args.arg_public h 1
  have hb : Z.Public b := Args.arg_public h 2
  have hhandled : ∀ handler, Z.Callable handler → (handled handler).Safe Z Z.Publics := by
    intro handler hh
    refine .check (.fail _) (.bind (.call hh ?_ _) fun _ hvs => .pure (Zone.publics_one hvs.headD))
    exact Zone.publics_cons.2 ⟨ha, Zone.publics_one hb⟩
  clear_value handled b
  split
  · split
    · exact .bind (Operation.arithmetic_safe sound _ _ (Zone.public_number _) (Zone.public_number _))
        fun v hv => .pure (Zone.publics_one hv)
    · exact .pure (Zone.publics_one (Zone.public_number _))
  · split
    · exact hhandled .nil (.inl trivial)
    · exact .bind (.metamethod sound hb hevent.1 hevent.2) fun handler hh => hhandled handler hh

theorem run_safe (f : StringFunction) (hz : Z.allows (.string .gmatchStep)) {self : FuncId}
    (hself : Z.Public (.func self)) {captured : Array Value} (hc : Z.Publics captured.toList) :
    (run f self captured args).Safe Z Z.Publics := by
  by_cases hf : f.isPlain
  · exact (run_plain args hf self captured).publics
  cases f with
  | format => exact format_safe sound h
  | gmatch => exact gmatch_safe hz
  | gmatchStep => exact gmatchStep_safe hself captured hc
  | gsub => exact gsub_safe sound h
  | _ => exact absurd rfl hf

end Enclosure.Lua.Library.Text
