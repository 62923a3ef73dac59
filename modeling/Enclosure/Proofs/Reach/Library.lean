import Enclosure.Lua.Library
import Enclosure.Proofs.Reach.List
import Enclosure.Proofs.Reach.Stream
import Enclosure.Proofs.Reach.System
import Enclosure.Proofs.Reach.Text

/-!
# The standard library in a realm

Whatever function of the library runs, it goes nowhere that its arguments, the values it holds and the
store do not lead to.
-/

namespace Enclosure.Lua.Library

variable {R : Realm} {args : Args} {captured : Array Value} {self : FuncId}

/-! ## Numbers and code points -/

namespace Math

theorem extreme_tame (h : R.HasAll args) {less : Value → Value → Run Bool}
    (hless : ∀ (R' : Realm) a b, R'.Has a → R'.Has b → (less a b).Tame R' fun _ _ => True) :
    (extreme args less).Tame R Realm.HasAll := by
  have fold (rest : List Value) : ∀ {v : Value} {R : Realm}, R.Has v → R.HasAll rest →
      (rest.foldlM (fun best w => do return if ← less w best then w else best) v).Tame R
        Realm.Has := by
    induction rest with
    | nil => exact fun hv _ => .pure hv
    | cons w rest ih =>
      intro v R hv hrest
      obtain ⟨hw, hrest⟩ := Realm.hasAll_cons.1 hrest
      rw [List.foldlM_cons]
      refine .bind (P := Realm.Has) (.bind (hless R w v hw hv) fun c R₁ h₁ _ => .pure ?_)
        fun best R₁ h₁ hbest => ih hbest (hrest.up h₁)
      split_ifs
      · exact hw.up h₁
      · exact hv.up h₁
  unfold extreme
  split
  · exact .badArgument _ _
  · obtain ⟨hv, hrest⟩ := Realm.hasAll_cons.1 h
    exact .bind (fold _ hv hrest) fun _ _ _ hbest => .pure (Realm.hasAll_one hbest)

theorem run_tame (h : R.HasAll args) (f : MathFunction) : (run f args).Tame R Realm.HasAll := by
  by_cases hf : f.isPlain
  · exact (run_plain args hf).tame
  cases f with
  | max => exact extreme_tame h fun _ a b ha hb => Operation.less_tame _ hb ha
  | min => exact extreme_tame h fun _ a b ha hb => Operation.less_tame _ ha hb
  | _ => exact absurd rfl hf

end Math

namespace CodePoint

theorem codes_tame : (codes args).Tame R Realm.HasAll :=
  .calmly (args.string_plain 1).calm fun _ _ => .check (.badArgument _ _)
    (.bind (.newBuiltin _ Realm.hasAll_nil) fun _ _ _ hf =>
      .pure (.cons hf (.cons trivial (Realm.hasAll_one trivial))))

theorem run_tame (f : Utf8Function) : (run f args).Tame R Realm.HasAll := by
  by_cases hf : f.isPlain
  · exact (run_plain args hf).tame
  cases f with
  | codes => exact codes_tame
  | _ => exact absurd rfl hf

end CodePoint

/-! ## All functions -/

theorem run_tame (b : Builtin) (hself : self ∈ R.functions) (hc : R.HasAll captured.toList)
    (h : R.HasAll args) : (run b self captured args).Tame R Realm.HasAll := by
  cases b with
  | base f => exact Base.run_tame h f hc
  | math f => exact Math.run_tame h f
  | string f => exact Text.run_tame f hself hc h
  | stringOperator o => exact Text.applyOperator_tame h o
  | table f => exact List.run_tame f h
  | os f => exact System.run_tame h f
  | files f => exact Stream.run_tame h f
  | coroutine f => exact Thread.run_tame h f
  | utf8 f => exact CodePoint.run_tame f
  | package f => exact Package.run_tame f hc
  | guard f => exact Guard.run_tame f hc h

end Enclosure.Lua.Library
