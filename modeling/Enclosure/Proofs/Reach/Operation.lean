import Enclosure.Proofs.Plain.Operation
import Enclosure.Proofs.Reach.Tame

/-!
# Operations in a realm

What operators and field accesses do with values of a realm is tame: a handler is called only if the
realm has it.
-/

namespace Enclosure.Lua

variable {R : Realm} {α : Type} {P : Realm → α → Prop} {v k a b : Value}

namespace Operation

theorem first_call_tame {f : Value} {args : List Value} (hf : R.Has f) (hargs : R.HasAll args)
    (site : Site) :
    (do return Run.first (← Run.call f args site) : Run Value).Tame R Realm.Has :=
  .bind (.call hf hargs site) fun _ _ _ hvs => .pure hvs.headD

/-! ## Fields -/

theorem indexLast_tame (w : Where) (hv : R.Has v) (k : Value) :
    (indexLast w v k).Tame R Realm.Has := by
  unfold indexLast
  split
  · exact .calmly (.rawGet hv k) fun x hx =>
      .ite (fun _ => (failTextAt_plain w _).fails) fun _ => .pure hx
  · exact (failTextAt_plain w _).fails

theorem indexFrom_tame (w : Where) : ∀ (n : Nat) (o : Option Origin) {v k : Value},
    R.Has v → R.Has k → (indexFrom w n o v k).Tame R Realm.Has
  | 0, _, _, k, hv, _ => indexLast_tame w hv k
  | n + 1, o, v, k, hv, hk => by
    have hindex : (Run.metamethod v "__index").Calm R R.Has := .metamethod hv _
    unfold indexFrom
    extract_lets follow
    have hfollow : ∀ handler, R.Has handler → (follow handler).Tame R Realm.Has := by
      intro handler hh
      unfold follow
      split
      · exact first_call_tame hh (.cons hv (Realm.hasAll_one hk)) _
      · exact indexFrom_tame w n none hh hk
    clear_value follow
    split
    · refine .calmly (.rawGet hv k) fun x hx => .ite (fun _ => ?_) fun _ => .pure hx
      exact .calmly hindex fun h hh => .ite (fun _ => .pure trivial) fun _ => hfollow h hh
    · exact .calmly hindex fun h hh =>
        .ite (fun _ => (failType_plain w _ _ _).fails) fun _ => hfollow h hh

theorem index_tame (w : Where) (o : Option Origin) (hv : R.Has v) (hk : R.Has k) :
    (index w o v k).Tame R Realm.Has := indexFrom_tame w _ o hv hk

theorem rawSet_calm (w : Where) {t : TableId} (ht : t ∈ R.tables) (hk : R.Has k) (hv : R.Has v) :
    (rawSet w t k v).Calm R fun _ => True := by
  unfold rawSet
  split
  · rename_i hkey
    exact .rawSetKey ht (hk.asKey? hkey) hv
  · exact (failTextAt_plain w _).fails

theorem setIndexLast_tame (w : Where) (ha : R.Has a) (hk : R.Has k) (hv : R.Has v) :
    (setIndexLast w a k v).Tame R fun _ _ => True := by
  unfold setIndexLast
  split
  · exact .calmly (.rawGet ha k) fun _ _ =>
      .ite (fun _ => (failTextAt_plain w _).fails) fun _ => (rawSet_calm w ha hk hv).any
  · exact (failTextAt_plain w _).fails

theorem setIndexFrom_tame (w : Where) : ∀ (n : Nat) (o : Option Origin) {a k v : Value},
    R.Has a → R.Has k → R.Has v → (setIndexFrom w n o a k v).Tame R fun _ _ => True
  | 0, _, _, _, _, ha, hk, hv => setIndexLast_tame w ha hk hv
  | n + 1, o, a, k, v, ha, hk, hv => by
    have hnew : (Run.metamethod a "__newindex").Calm R R.Has := .metamethod ha _
    have set {t : TableId} (ht : t ∈ R.tables) :
        (rawSet w t k v).Tame R fun _ _ => True := (rawSet_calm w ht hk hv).any
    unfold setIndexFrom
    extract_lets follow
    have hfollow : ∀ handler, R.Has handler → (follow handler).Tame R fun _ _ => True := by
      intro handler hh
      unfold follow
      split
      · exact .bind (.call hh (.cons ha (.cons hk (Realm.hasAll_one hv))) _)
          fun _ _ _ _ => .pure trivial
      · exact setIndexFrom_tame w n none hh hk hv
    clear_value follow
    split
    · refine .calmly (.rawGet ha k) fun x _ => .ite (fun _ => ?_) fun _ => set ha
      exact .calmly hnew fun h hh => .ite (fun _ => set ha) fun _ => hfollow h hh
    · exact .calmly hnew fun h hh =>
        .ite (fun _ => (failType_plain w _ _ _).fails) fun _ => hfollow h hh

theorem setIndex_tame (w : Where) (o : Option Origin) (ha : R.Has a) (hk : R.Has k) (hv : R.Has v) :
    (setIndex w o a k v).Tame R fun _ _ => True := setIndexFrom_tame w _ o ha hk hv

/-! ## Operators -/

theorem binaryHandler_calm (event : String) (ha : R.Has a) (hb : R.Has b) :
    (binaryHandler event a b).Calm R R.Has :=
  .bind (.metamethod ha _) fun _ hh => .ite (fun _ => .metamethod hb _) fun _ => .pure hh

theorem arithmeticFallback_tame (w : Where) (op : BinaryOp) {a b : Operand} (ha : R.Has a.value)
    (hb : R.Has b.value) : (arithmeticFallback w op a b).Tame R Realm.Has := by
  unfold arithmeticFallback
  dsimp only
  refine .calmly (binaryHandler_calm _ ha hb) fun h hh => .ite (fun _ => ?_) fun _ =>
    .ite (fun _ => .ite (fun _ => (failAt_plain w _).fails) fun _ => ?_) fun _ => ?_
  · exact first_call_tame hh (.cons ha (Realm.hasAll_one hb)) _
  · exact (failType_plain w _ _ _).fails
  · exact (failType_plain w _ _ _).fails

theorem arithmetic_tame (w : Where) (op : BinaryOp) {a b : Operand} (ha : R.Has a.value)
    (hb : R.Has b.value) : (arithmetic w op a b).Tame R Realm.Has := by
  have hfallback : (arithmeticFallback w op a b).Tame R Realm.Has :=
    arithmeticFallback_tame w op ha hb
  unfold arithmetic
  split
  · refine .ite (fun _ => ?_) fun _ =>
      .calmly (ofDefect_plain w _).calm fun n _ => .pure (Realm.has_number n)
    split
    · exact .calmly (ofDefect_plain w _).calm fun n _ => .pure trivial
    · exact hfallback
  · exact hfallback

theorem unaryFallback_tame (w : Where) (event action : String) {a : Operand} (ha : R.Has a.value) :
    (unaryFallback w event action a).Tame R Realm.Has :=
  .calmly (.metamethod ha _) fun _ hh => .ite (fun _ => (failType_plain w _ _ _).fails)
    fun _ => first_call_tame hh (.cons ha (Realm.hasAll_one ha)) _

theorem minus_tame (w : Where) {a : Operand} (ha : R.Has a.value) :
    (minus w a).Tame R Realm.Has := by
  unfold minus
  split
  · exact .pure (Realm.has_number _)
  · exact unaryFallback_tame w _ _ ha

theorem bitNot_tame (w : Where) {a : Operand} (ha : R.Has a.value) :
    (bitNot w a).Tame R Realm.Has := by
  unfold bitNot
  split
  · split
    · exact .pure trivial
    · exact (failAt_plain w _).fails
  · exact unaryFallback_tame w _ _ ha

theorem length_tame (w : Where) {a : Operand} (ha : R.Has a.value) :
    (length w a).Tame R Realm.Has := by
  unfold length
  split
  · exact .pure trivial
  · refine .calmly (.metamethod ha _) fun h hh => .ite (fun _ => ?_) fun _ => ?_
    · exact first_call_tame hh (.cons ha (Realm.hasAll_one ha)) _
    · split
      · exact .calmly (.rawLength _) fun n _ => .pure (Realm.has_nat n)
      · exact (failType_plain w _ _ _).fails

theorem concat_tame (w : Where) {a b : Operand} (ha : R.Has a.value) (hb : R.Has b.value) :
    (concat w a b).Tame R Realm.Has := by
  unfold concat
  split
  · exact .pure trivial
  · refine .calmly (binaryHandler_calm _ ha hb) fun h hh =>
      .ite (fun _ => (failType_plain w _ _ _).fails) fun _ => ?_
    exact first_call_tame hh (.cons ha (Realm.hasAll_one hb)) _

/-! ## Comparison -/

theorem equal_tame (w : Where) (ha : R.Has a) (hb : R.Has b) :
    (equal w a b).Tame R fun _ _ => True := by
  have hfound : (do
      let h ← binaryHandler "eq" a b
      if h.isNil then return false
      return (Run.first (← Run.call h [a, b] (siteOf w "eq"))).truthy : Run Bool).Tame R
        fun _ _ => True := by
    refine .calmly (binaryHandler_calm _ ha hb) fun h hh => .ite (fun _ => .pure trivial) fun _ => ?_
    exact .bind (.call hh (.cons ha (Realm.hasAll_one hb)) _) fun _ _ _ _ => .pure trivial
  exact .ite (fun _ => .pure trivial) fun _ => .ite (fun _ => .pure trivial) fun _ => hfound

theorem compareFallback_tame (w : Where) (event : String) (ha : R.Has a) (hb : R.Has b) :
    (compareFallback w event a b).Tame R fun _ _ => True := by
  unfold compareFallback
  refine .calmly (binaryHandler_calm _ ha hb) fun h hh => .ite (fun _ => ?_) fun _ => ?_
  · exact .bind (.call hh (.cons ha (Realm.hasAll_one hb)) _) fun _ _ _ _ => .pure trivial
  · refine .calmly (shownType_plain a).calm fun x _ => .calmly (shownType_plain b).calm fun y _ => ?_
    exact .ite (fun _ => (failAt_plain w _).fails) fun _ => (failAt_plain w _).fails

theorem less_tame (w : Where) (ha : R.Has a) (hb : R.Has b) :
    (less w a b).Tame R fun _ _ => True := by
  unfold less
  split
  · exact .pure trivial
  · split
    · exact .pure trivial
    · exact compareFallback_tame w _ ha hb

theorem lessEq_tame (w : Where) (ha : R.Has a) (hb : R.Has b) :
    (lessEq w a b).Tame R fun _ _ => True := by
  unfold lessEq
  split
  · exact .pure trivial
  · split
    · exact .pure trivial
    · exact compareFallback_tame w _ ha hb

/-! ## Texts -/

theorem text_tame (hv : R.Has v) : (text v).Tame R fun _ _ => True := by
  unfold text
  refine .calmly (.metamethod hv _) fun h hh => .ite (fun _ => (plainText_plain v).calm.any) fun _ => ?_
  refine .bind (.call hh (Realm.hasAll_one hv) _) fun vs _ _ _ => ?_
  split
  · exact .pure trivial
  · exact .fail _

end Operation

/-! ## Arguments -/

namespace Args

variable {args : Args}

theorem arg_has (h : R.HasAll args) (n : Nat) : R.Has (args.arg n) := h.getD _ trivial

theorem get?_has (h : R.HasAll args) {n : Nat} (hv : args.get? n = some v) : R.Has v :=
  h v (List.mem_of_getElem? hv)

theorem any_calm (h : R.HasAll args) (n : Nat) : (args.any n).Calm R R.Has :=
  (args.any_plain n).calm_of fun _ hv => get?_has h hv

theorem table_calm (h : R.HasAll args) (n : Nat) : (args.table n).Calm R (· ∈ R.tables) :=
  (args.table_plain n).calm_of fun t ht => (ht ▸ arg_has h n : R.Has (.table t))

theorem function_calm (h : R.HasAll args) (n : Nat) : (args.function n).Calm R R.Has :=
  (args.function_plain n).calm_of fun _ hf => hf ▸ arg_has h n

end Args

end Enclosure.Lua
