import Enclosure.Proofs.Confinement.Safe
import Enclosure.Proofs.Plain.Operation

/-!
# Operations in a zone

What operators and field accesses do is safe on what scripts may hold: the handlers of events that they
call are those of the zone, and a field read through a lock is what scripts may hold.
-/

namespace Enclosure.Lua

variable {Z : Zone} {α : Type} {P : α → Prop} {v k a b : Value}

namespace Operation

theorem first_call_safe {f : Value} {args : List Value} (hf : Z.Callable f) (hargs : Z.Publics args)
    (site : Site) : (do return Run.first (← Run.call f args site) : Run Value).Safe Z Z.Public :=
  .bind (.call hf hargs site) fun _ hvs => .pure hvs.headD

/-! ## Fields -/

theorem indexLast_safe (w : Where) (hv : Z.Public v) (k : Value) :
    (indexLast w v k).Safe Z Z.Public := by
  unfold indexLast
  split
  · exact .bind (.rawGet hv k) fun x hx => .ite (fun _ => (failTextAt_plain w _).safe) fun _ => .pure hx
  · exact (failTextAt_plain w _).safe

/-- A table behind a lock answers with what it holds. -/
theorem indexFrom_behind_safe (sound : Z.Sound) {t : TableId} (ht : t ∈ Z.behind) (w : Where) (n : Nat)
    (o : Option Origin) (k : Value) : (indexFrom w n o (.table t) k).Safe Z Z.Public := by
  cases n with
  | zero =>
    refine .bind (P := Z.Public) (.read fun s hs => hs.rawGet_behind sound ht k) fun v hv => ?_
    exact .ite (fun _ => (failTextAt_plain w _).safe) fun _ => .pure hv
  | succ n =>
  unfold indexFrom
  dsimp only
  refine .bind (P := Z.Public) (.read fun s hs => hs.rawGet_behind sound ht k) fun v hv => ?_
  refine .ite (fun _ => ?_) fun _ => .pure hv
  refine .bind (P := (· = .nil)) (.read fun s hs => hs.metamethod_behind sound ht _) ?_
  rintro _ rfl
  exact .pure trivial

theorem indexFrom_safe (sound : Z.Sound) (w : Where) : ∀ (n : Nat) (o : Option Origin) {v k : Value},
    Z.Public v → Z.Public k → (indexFrom w n o v k).Safe Z Z.Public
  | 0, _, _, k, hv, _ => indexLast_safe w hv k
  | n + 1, o, v, k, hv, hk => by
    have hindex : (Run.metamethod v "__index").Safe Z Z.Indexable :=
      .read fun _ hs => hs.metamethod_index sound hv
    unfold indexFrom
    extract_lets follow
    have hfollow : ∀ handler, Z.Indexable handler → (follow handler).Safe Z Z.Public := by
      intro handler hh
      unfold follow
      rcases hh with hh | ⟨t, ht, rfl⟩
      · split
        · exact first_call_safe hh (Zone.publics_cons.2 ⟨hv, Zone.publics_one hk⟩) _
        · rename_i hne
          exact indexFrom_safe sound w n none (hh.public_of_ne hne) hk
      · exact indexFrom_behind_safe sound ht w n none k
    clear_value follow
    split
    · refine .bind (.rawGet hv k) fun x hx => .ite (fun _ => ?_) fun _ => .pure hx
      exact .bind hindex fun h hh => .ite (fun _ => .pure trivial) fun _ => hfollow h hh
    · exact .bind hindex fun h hh => .ite (fun _ => (failType_plain w _ _ _).safe)
        fun _ => hfollow h hh

theorem index_safe (sound : Z.Sound) (w : Where) (o : Option Origin) (hv : Z.Public v)
    (hk : Z.Public k) : (index w o v k).Safe Z Z.Public := indexFrom_safe sound w _ o hv hk

theorem rawSet_safe (w : Where) {t : TableId} (ht : Z.Public (.table t)) (hk : Z.Public k)
    (hv : Z.Public v) : (rawSet w t k v).Sound Z := by
  unfold rawSet
  split
  · rename_i hkey
    exact .rawSetKey ht (hk.asKey? hkey) hv
  · exact (failTextAt_plain w _).safe

theorem setIndexLast_safe (w : Where) (ha : Z.Public a) (hk : Z.Public k) (hv : Z.Public v) :
    (setIndexLast w a k v).Sound Z := by
  unfold setIndexLast
  split
  · exact .bind (.rawGet ha k) fun _ _ =>
      .ite (fun _ => (failTextAt_plain w _).safe) fun _ => rawSet_safe w ha hk hv
  · exact (failTextAt_plain w _).safe

theorem setIndexFrom_safe (sound : Z.Sound) (w : Where) : ∀ (n : Nat) (o : Option Origin)
    {a k v : Value}, Z.Public a → Z.Public k → Z.Public v → (setIndexFrom w n o a k v).Sound Z
  | 0, _, _, _, _, ha, hk, hv => setIndexLast_safe w ha hk hv
  | n + 1, o, a, k, v, ha, hk, hv => by
    have hnew : (Run.metamethod a "__newindex").Safe Z Z.Callable :=
      .metamethod sound ha (by decide) (by decide)
    unfold setIndexFrom
    extract_lets follow
    have hargs : Z.Publics [a, k, v] :=
      Zone.publics_cons.2 ⟨ha, Zone.publics_cons.2 ⟨hk, Zone.publics_one hv⟩⟩
    have hfollow : ∀ handler, Z.Callable handler → (follow handler).Sound Z := by
      intro handler hh
      unfold follow
      split
      · exact .bind (.call hh hargs _) fun _ _ => .pure trivial
      · rename_i hne
        exact setIndexFrom_safe sound w n none (hh.public_of_ne hne) hk hv
    clear_value follow
    split
    · refine .bind (.rawGet ha k) fun x _ => .ite (fun _ => ?_) fun _ => rawSet_safe w ha hk hv
      exact .bind hnew fun h hh => .ite (fun _ => rawSet_safe w ha hk hv) fun _ => hfollow h hh
    · exact .bind hnew fun h hh => .ite (fun _ => (failType_plain w _ _ _).safe)
        fun _ => hfollow h hh

theorem setIndex_safe (sound : Z.Sound) (w : Where) (o : Option Origin) (ha : Z.Public a)
    (hk : Z.Public k) (hv : Z.Public v) : (setIndex w o a k v).Sound Z :=
  setIndexFrom_safe sound w _ o ha hk hv

/-! ## Operators -/

theorem binaryHandler_safe (sound : Z.Sound) {event : String} (hi : "__" ++ event ≠ "__index")
    (hp : "__" ++ event ≠ "__pairs") (ha : Z.Public a) (hb : Z.Public b) :
    (binaryHandler event a b).Safe Z Z.Callable := by
  unfold binaryHandler
  exact .bind (.metamethod sound ha hi hp) fun h hh =>
    .ite (fun _ => .metamethod sound hb hi hp) fun _ => .pure hh

theorem event_ne (op : BinaryOp) : "__" ++ eventOf op ≠ "__index" ∧ "__" ++ eventOf op ≠ "__pairs" := by
  cases op <;> decide

theorem arithmeticFallback_safe (sound : Z.Sound) (w : Where) (op : BinaryOp) {a b : Operand}
    (ha : Z.Public a.value) (hb : Z.Public b.value) :
    (arithmeticFallback w op a b).Safe Z Z.Public := by
  unfold arithmeticFallback
  dsimp only
  refine .bind (binaryHandler_safe sound (event_ne op).1 (event_ne op).2 ha hb) fun h hh => ?_
  refine .ite (fun _ => ?_) fun _ => .ite (fun _ => .ite (fun _ => ?_) fun _ => ?_) fun _ => ?_
  · exact first_call_safe hh (Zone.publics_cons.2 ⟨ha, Zone.publics_one hb⟩) _
  · exact (failAt_plain w _).safe
  · exact (failType_plain w _ _ _).safe
  · exact (failType_plain w _ _ _).safe

theorem arithmetic_safe (sound : Z.Sound) (w : Where) (op : BinaryOp) {a b : Operand}
    (ha : Z.Public a.value) (hb : Z.Public b.value) : (arithmetic w op a b).Safe Z Z.Public := by
  have hfallback := arithmeticFallback_safe sound w op ha hb
  unfold arithmetic
  split
  · refine .ite (fun _ => ?_) fun _ =>
      .bind (ofDefect_plain w _).safe fun n _ => .pure (Zone.public_number n)
    split
    · exact .bind (ofDefect_plain w _).safe fun n _ => .pure trivial
    · exact hfallback
  · exact hfallback

theorem unaryFallback_safe (sound : Z.Sound) (w : Where) {event : String}
    (hi : "__" ++ event ≠ "__index") (hp : "__" ++ event ≠ "__pairs") (action : String) {a : Operand}
    (ha : Z.Public a.value) : (unaryFallback w event action a).Safe Z Z.Public := by
  unfold unaryFallback
  refine .bind (.metamethod sound ha hi hp) fun h hh => .ite (fun _ => (failType_plain w _ _ _).safe)
    fun _ => ?_
  exact first_call_safe hh (Zone.publics_cons.2 ⟨ha, Zone.publics_one ha⟩) _

theorem minus_safe (sound : Z.Sound) (w : Where) {a : Operand} (ha : Z.Public a.value) :
    (minus w a).Safe Z Z.Public := by
  unfold minus
  split
  · exact .pure (Zone.public_number _)
  · exact unaryFallback_safe sound w (by decide) (by decide) _ ha

theorem bitNot_safe (sound : Z.Sound) (w : Where) {a : Operand} (ha : Z.Public a.value) :
    (bitNot w a).Safe Z Z.Public := by
  unfold bitNot
  split
  · split
    · exact .pure trivial
    · exact (failAt_plain w _).safe
  · exact unaryFallback_safe sound w (by decide) (by decide) _ ha

theorem length_safe (sound : Z.Sound) (w : Where) {a : Operand} (ha : Z.Public a.value) :
    (length w a).Safe Z Z.Public := by
  unfold length
  split
  · exact .pure trivial
  · refine .bind (.metamethod sound ha (by decide) (by decide)) fun h hh => .ite (fun _ => ?_) fun _ => ?_
    · exact first_call_safe hh (Zone.publics_cons.2 ⟨ha, Zone.publics_one ha⟩) _
    · split
      · exact .bind (.rawLength _) fun n _ => .pure (Zone.public_nat n)
      · exact (failType_plain w _ _ _).safe

theorem concat_safe (sound : Z.Sound) (w : Where) {a b : Operand} (ha : Z.Public a.value)
    (hb : Z.Public b.value) : (concat w a b).Safe Z Z.Public := by
  unfold concat
  split
  · exact .pure trivial
  · refine .bind (binaryHandler_safe sound (by decide) (by decide) ha hb) fun h hh =>
      .ite (fun _ => (failType_plain w _ _ _).safe) fun _ => ?_
    exact first_call_safe hh (Zone.publics_cons.2 ⟨ha, Zone.publics_one hb⟩) _

/-! ## Comparison -/

theorem equal_safe (sound : Z.Sound) (w : Where) (ha : Z.Public a) (hb : Z.Public b) :
    (equal w a b).Sound Z := by
  have hfound : (do
      let h ← binaryHandler "eq" a b
      if h.isNil then return false
      return (Run.first (← Run.call h [a, b] (siteOf w "eq"))).truthy : Run Bool).Sound Z := by
    refine .bind (binaryHandler_safe sound (by decide) (by decide) ha hb) fun h hh =>
      .ite (fun _ => .pure trivial) fun _ => ?_
    exact .bind (.call hh (Zone.publics_cons.2 ⟨ha, Zone.publics_one hb⟩) _) fun _ _ => .pure trivial
  exact .ite (fun _ => .pure trivial) fun _ => .ite (fun _ => .pure trivial) fun _ => hfound

theorem compareFallback_safe (sound : Z.Sound) (w : Where) {event : String}
    (hi : "__" ++ event ≠ "__index") (hp : "__" ++ event ≠ "__pairs") (ha : Z.Public a)
    (hb : Z.Public b) : (compareFallback w event a b).Sound Z := by
  unfold compareFallback
  refine .bind (binaryHandler_safe sound hi hp ha hb) fun h hh => .ite (fun _ => ?_) fun _ => ?_
  · exact .bind (.call hh (Zone.publics_cons.2 ⟨ha, Zone.publics_one hb⟩) _) fun _ _ => .pure trivial
  · refine .bind (shownType_plain a).safe fun x _ => .bind (shownType_plain b).safe fun y _ => ?_
    exact .ite (fun _ => (failAt_plain w _).safe) fun _ => (failAt_plain w _).safe

theorem less_safe (sound : Z.Sound) (w : Where) (ha : Z.Public a) (hb : Z.Public b) :
    (less w a b).Sound Z := by
  unfold less
  split
  · exact .pure trivial
  · split
    · exact .pure trivial
    · exact compareFallback_safe sound w (by decide) (by decide) ha hb

theorem lessEq_safe (sound : Z.Sound) (w : Where) (ha : Z.Public a) (hb : Z.Public b) :
    (lessEq w a b).Sound Z := by
  unfold lessEq
  split
  · exact .pure trivial
  · split
    · exact .pure trivial
    · exact compareFallback_safe sound w (by decide) (by decide) ha hb

/-! ## Texts -/

theorem text_safe (sound : Z.Sound) (hv : Z.Public v) : (text v).Sound Z := by
  unfold text
  refine .bind (.metamethod sound hv (by decide) (by decide)) fun h hh =>
    .ite (fun _ => (plainText_plain v).safe) fun _ => ?_
  refine .bind (.call hh (Zone.publics_one hv) _) fun vs _ => ?_
  split
  · exact .pure trivial
  · exact .fail _

end Operation

/-! ## Arguments -/

namespace Args

variable {args : Args}

theorem arg_public (h : Z.Publics args) (n : Nat) : Z.Public (args.arg n) := h.getD _ trivial

theorem get?_public (h : Z.Publics args) {n : Nat} (hv : args.get? n = some v) : Z.Public v :=
  h v (List.mem_of_getElem? hv)

theorem any_safe (h : Z.Publics args) (n : Nat) : (args.any n).Safe Z Z.Public :=
  (args.any_plain n).safe_of fun _ hv => get?_public h hv

theorem table_safe (h : Z.Publics args) (n : Nat) :
    (args.table n).Safe Z fun t => Z.Public (.table t) :=
  (args.table_plain n).safe_of fun _ ht => ht ▸ arg_public h n

theorem function_safe (h : Z.Publics args) (n : Nat) : (args.function n).Safe Z Z.Public :=
  (args.function_plain n).safe_of fun _ hf => hf ▸ arg_public h n

end Args

end Enclosure.Lua
