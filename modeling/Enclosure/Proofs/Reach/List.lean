import Enclosure.Proofs.Plain.Library
import Enclosure.Proofs.Reach.Operation

/-!
# The library `table` in a realm

Elements go from what the realm has to what it has, whatever handlers do in between.
-/

namespace Enclosure.Lua.Library.List

variable {R : Realm} {args : Args} {t order v w a b : Value}

theorem getAt_tame (ht : R.Has t) (i : Int64) : (getAt t i).Tame R Realm.Has :=
  Operation.index_tame _ _ ht trivial

theorem setAt_tame (ht : R.Has t) (i : Int64) (hv : R.Has v) :
    (setAt t i v).Tame R fun _ _ => True := Operation.setIndex_tame _ _ ht trivial hv

theorem lengthOf_tame (ht : R.Has t) : (lengthOf t).Tame R fun _ _ => True := by
  unfold lengthOf
  refine .bind (Operation.length_tame _ ht) fun n _ _ _ => ?_
  split
  · exact .pure trivial
  · split
    · exact .pure trivial
    · exact .fail _
  · split
    · exact .pure trivial
    · exact .fail _
  · exact .fail _

theorem tableLike_calm (h : R.HasAll args) (n : Nat) (events : List String) :
    (tableLike args n events).Calm R R.Has :=
  (tableLike_plain args n events).calm_of fun _ ht => ht ▸ Args.arg_has h n

theorem shiftUp_tame (place : Int64) : ∀ (n : Nat) (i : Int64) {R : Realm}, R.Has t →
    (shiftUp t place n i).Tame R fun _ _ => True
  | 0, _, _, _ => .pure trivial
  | n + 1, i, _, ht => .ite (fun _ => .pure trivial) fun _ =>
    .bind (getAt_tame ht _) fun _ _ h₁ hv => .bind (setAt_tame (ht.up h₁) i hv) fun _ _ h₂ _ =>
      shiftUp_tame place n (i - 1) (ht.up (h₁.trans h₂))

theorem shiftDown_tame : ∀ (n : Nat) (i : Int64) {R : Realm}, R.Has t →
    (shiftDown t n i).Tame R fun _ _ => True
  | 0, _, _, _ => .pure trivial
  | n + 1, i, _, ht => .bind (getAt_tame ht _) fun _ _ h₁ hv =>
    .bind (setAt_tame (ht.up h₁) i hv) fun _ _ h₂ _ =>
      shiftDown_tame n (i + 1) (ht.up (h₁.trans h₂))

theorem insert_tame (h : R.HasAll args) : (insert args).Tame R Realm.HasAll := by
  unfold insert
  refine .calmly (tableLike_calm h 1 _) fun t ht => .bind (lengthOf_tame ht) fun n R₁ h₁ _ => ?_
  have ht := ht.up h₁
  split
  · exact .bind (setAt_tame ht _ ((h _ (by simp)).up h₁)) fun _ _ _ _ => .pure Realm.hasAll_nil
  · refine .calmly (Args.integer_plain _ 2).calm fun place _ => .check (.badArgument _ _) ?_
    refine .bind (shiftUp_tame _ _ _ ht) fun _ R₂ h₂ _ => ?_
    exact .bind (setAt_tame (ht.up h₂) _ ((h _ (by simp)).up (h₁.trans h₂)))
      fun _ _ _ _ => .pure Realm.hasAll_nil
  · exact .fail _

theorem remove_tame (h : R.HasAll args) : (remove args).Tame R Realm.HasAll := by
  unfold remove
  refine .calmly (tableLike_calm h 1 _) fun t ht => .bind (lengthOf_tame ht) fun n R₁ h₁ _ => ?_
  have ht := ht.up h₁
  refine .calmly (args.integerOr_plain 2 _).calm fun place _ => .check (.badArgument _ _) ?_
  refine .bind (getAt_tame ht _) fun v R₂ h₂ hv => ?_
  refine .bind (shiftDown_tame _ _ (ht.up h₂)) fun _ R₃ h₃ _ => ?_
  exact .bind (setAt_tame (ht.up (h₂.trans h₃)) _ trivial) fun _ _ h₄ _ =>
    .pure (Realm.hasAll_one (hv.up (h₃.trans h₄)))

theorem copyUp_tame : ∀ (n : Nat) (source target : Int64) {R : Realm}, R.Has a → R.Has b →
    (copyUp a b source target n).Tame R fun _ _ => True
  | 0, _, _, _, _, _ => .pure trivial
  | n + 1, _, _, _, ha, hb => .bind (getAt_tame ha _) fun _ _ h₁ hv =>
    .bind (setAt_tame (hb.up h₁) _ hv) fun _ _ h₂ _ =>
      copyUp_tame n _ _ (ha.up (h₁.trans h₂)) (hb.up (h₁.trans h₂))

theorem copyDown_tame (source target : Int64) : ∀ (n : Nat) {R : Realm}, R.Has a → R.Has b →
    (copyDown a b source target n).Tame R fun _ _ => True
  | 0, _, _, _ => .pure trivial
  | n + 1, _, ha, hb => .bind (getAt_tame ha _) fun _ _ h₁ hv =>
    .bind (setAt_tame (hb.up h₁) _ hv) fun _ _ h₂ _ =>
      copyDown_tame source target n (ha.up (h₁.trans h₂)) (hb.up (h₁.trans h₂))

theorem move_tame (h : R.HasAll args) : (move args).Tame R Realm.HasAll := by
  unfold move
  refine .calmly (args.integer_plain 2).calm fun source _ =>
    .calmly (args.integer_plain 3).calm fun stop _ => ?_
  refine .calmly (args.integer_plain 4).calm fun target _ => ?_
  refine .calmly (tableLike_calm h 1 _) fun a ha => .calmly (tableLike_calm h _ _) fun b hb => ?_
  have hcopy (apart : Bool) (n : Nat) {R : Realm} (ha : R.Has a) (hb : R.Has b) :
      (if apart then do
        copyUp a b source target n
        return [b]
      else do
        copyDown a b source target n
        return [b] : Run (List Value)).Tame R Realm.HasAll :=
    .ite (fun _ => .bind (copyUp_tame n _ _ ha hb) fun _ _ h₁ _ =>
        .pure (Realm.hasAll_one (hb.up h₁)))
      fun _ => .bind (copyDown_tame _ _ n ha hb) fun _ _ h₁ _ =>
        .pure (Realm.hasAll_one (hb.up h₁))
  refine .ite (fun _ => .check (.badArgument _ _) (.check (.badArgument _ _) ?_))
    fun _ => .pure (Realm.hasAll_one hb)
  refine .ite (fun _ => hcopy true _ ha hb) fun _ => .ite (fun _ => ?_) fun _ => hcopy false _ ha hb
  exact .bind (Operation.equal_tame _ ha hb) fun e _ h₁ _ => hcopy (!e) _ (ha.up h₁) (hb.up h₁)

theorem elementText_tame (ht : R.Has t) (i : Int64) :
    (elementText t i).Tame R fun _ _ => True := by
  refine .bind (getAt_tame ht i) fun v _ _ _ => ?_
  split
  · exact .pure trivial
  · exact .fail _

theorem concat_tame (h : R.HasAll args) : (concat args).Tame R Realm.HasAll := by
  unfold concat
  refine .calmly (tableLike_calm h 1 _) fun t ht => .bind (lengthOf_tame ht) fun n R₁ h₁ _ => ?_
  have h := h.up h₁
  refine .calmly (args.stringOr_plain 2 _).calm fun sep _ => ?_
  refine .calmly (args.integerOr_plain 3 _).calm fun start _ => ?_
  refine .calmly (args.integerOr_plain 4 _).calm fun stop _ => .ite (fun _ => ?_) fun _ => ?_
  · exact .pure (Realm.hasAll_one trivial)
  · refine .bind (P := fun _ _ => True) ?_ fun _ _ _ _ => .pure (Realm.hasAll_one trivial)
    refine .loopWith (I := fun _ _ => True) trivial ?_
    rintro R₂ h₂ ⟨acc, i⟩ -
    exact .bind (elementText_tame (ht.up (h₁.trans h₂)) i) fun _ _ _ _ =>
      .ite (fun _ => .pure trivial) fun _ => .pure trivial

theorem forCount_calm {f : Nat → Run Unit} (hf : ∀ i, (f i).Calm R fun _ => True) :
    ∀ n i, (Run.forCount n i f).Calm R fun _ => True
  | 0, _ => .pure trivial
  | n + 1, i => .bind (hf i) fun _ _ => forCount_calm hf n (i + 1)

theorem pack_tame (h : R.HasAll args) : (pack args).Tame R Realm.HasAll := by
  unfold pack
  refine .bind (.stepNewTable (.empty rfl rfl) rfl) fun t R₁ h₁ ht => ?_
  have harg (i : Nat) : R₁.Has (args.arg i) := (Args.arg_has h i).up h₁
  refine .calmly (forCount_calm (fun i => .rawSetKey ht (Realm.has_nat i) (harg i)) _ _) fun _ _ => ?_
  exact .calmly (.rawSetText ht trivial) fun _ _ => .pure (Realm.hasAll_one ht)

theorem elements_tame : ∀ (n : Nat) (i : Int64) {R : Realm}, R.Has t →
    (elements t n i).Tame R Realm.HasAll
  | 0, _, _, _ => .pure Realm.hasAll_nil
  | n + 1, i, _, ht => .bind (getAt_tame ht i) fun _ _ h₁ hv =>
    .bind (elements_tame n (i + 1) (ht.up h₁)) fun _ _ h₂ hvs => .pure (.cons (hv.up h₂) hvs)

theorem unpack_tame (h : R.HasAll args) : (unpack args).Tame R Realm.HasAll := by
  have harg := Args.arg_has h 1
  unfold unpack
  refine .calmly (args.integerOr_plain 2 _).calm fun start _ => ?_
  extract_lets rest
  have hrest (stop : Int64) {R : Realm} (harg : R.Has (args.arg 1)) :
      (rest stop).Tame R Realm.HasAll :=
    .ite (fun _ => .pure Realm.hasAll_nil) fun _ => .check (.fail _) (elements_tame _ _ harg)
  clear_value rest
  exact .ite (fun _ => .bind (lengthOf_tame harg) fun stop _ h₁ _ => hrest stop (harg.up h₁))
    fun _ => .calmly (args.integer_plain 3).calm fun stop _ => hrest stop harg

/-! ## Sorting -/

theorem precedes_tame (ho : R.Has order) (ha : R.Has a) (hb : R.Has b) :
    (precedes order a b).Tame R fun _ _ => True := by
  unfold precedes
  split
  · exact Operation.less_tame _ ha hb
  · exact .bind (.call ho (.cons ha (Realm.hasAll_one hb)) _) fun _ _ _ _ => .pure trivial

theorem getPlace_tame (ht : R.Has t) (i : Nat) : (getPlace t i).Tame R Realm.Has :=
  getAt_tame ht _

theorem setPlaces_tame (ht : R.Has t) (i j : Nat) (hv : R.Has v) (hw : R.Has w) :
    (setPlaces t i v j w).Tame R fun _ _ => True :=
  .bind (setAt_tame ht _ hv) fun _ _ h₁ _ => setAt_tame (ht.up h₁) _ (hw.up h₁)

/-- One of the two scans, which ends at a place with the value that stands there. -/
theorem scan_tame (compare : Value → Run Bool) (stop : Nat → Prop) [DecidablePred stop]
    (onward : Nat → Nat) (ht : R.Has t) (hcompare : ∀ (R' : Realm) v, R ≤ R' → R'.Has v →
      (compare v).Tame R' fun _ _ => True) (start : Nat) :
    (Run.loopWith start fun i => do
      let v ← getPlace t i
      if ← compare v then
        if stop i then failOrder
        return .inl (onward i)
      else return .inr (i, v) : Run (Nat × Value)).Tame R fun R' r => R'.Has r.2 := by
  refine .loopWith (I := fun _ _ => True) trivial fun R₁ h₁ i _ => ?_
  refine .bind (getPlace_tame (ht.up h₁) _) fun x R₂ h₂ hx => ?_
  exact .bind (hcompare R₂ x (h₁.trans h₂) hx) fun _ R₃ h₃ _ =>
    .ite (fun _ => .check (.fail _) (.pure trivial)) fun _ => .pure (hx.up h₃)

theorem partitionAt_tame (ht : R.Has t) (ho : R.Has order) (hv : R.Has v) (low up : Nat) :
    (partitionAt t order v low up).Tame R fun _ _ => True := by
  refine .loopWith (I := fun _ _ => True) trivial ?_
  rintro R₁ h₁ ⟨i, j⟩ -
  refine .bind (scan_tame (precedes order · v) (fun i => (i == up - 1) = true) _
    (ht.up h₁) (fun R' x hle hx => precedes_tame (ho.up (h₁.trans hle)) hx (hv.up (h₁.trans hle))) _) ?_
  rintro ⟨i, vi⟩ R₂ h₂ hi
  have ht := ht.up (h₁.trans h₂)
  have ho := ho.up (h₁.trans h₂)
  have hv := hv.up (h₁.trans h₂)
  refine .bind (scan_tame (precedes order v) (· < i) (· - 1) ht
    (fun R' x hle hx => precedes_tame (ho.up hle) (hv.up hle) hx) _) ?_
  rintro ⟨j, vj⟩ R₃ h₃ hj
  have hi := hi.up h₃
  exact .ite (fun _ => .bind (setPlaces_tame (ht.up h₃) _ _ hi (hv.up h₃)) fun _ _ _ _ => .pure trivial)
    fun _ => .bind (setPlaces_tame (ht.up h₃) _ _ hj hi) fun _ _ _ _ => .pure trivial

theorem sortBetween_tame : ∀ (fuel low up : Nat) {R : Realm}, R.Has t → R.Has order →
    (sortBetween t order fuel low up).Tame R fun _ _ => True
  | 0, _, _, _, _, _ => .pure trivial
  | fuel + 1, low, up, R, ht, ho => by
    -- both parts are sorted by one fuel less, the smaller one first
    have hparts (p : Nat) {R : Realm} (ht : R.Has t) (ho : R.Has order) :
        (if p - low < up - p then do
          sortBetween t order fuel low (p - 1)
          sortBetween t order fuel (p + 1) up
        else do
          sortBetween t order fuel (p + 1) up
          sortBetween t order fuel low (p - 1)).Tame R fun _ _ => True :=
      .ite
        (fun _ => .bind (sortBetween_tame fuel _ _ ht ho) fun _ _ h₁ _ =>
          sortBetween_tame fuel _ _ (ht.up h₁) (ho.up h₁))
        fun _ => .bind (sortBetween_tame fuel _ _ ht ho) fun _ _ h₁ _ =>
          sortBetween_tame fuel _ _ (ht.up h₁) (ho.up h₁)
    unfold sortBetween
    refine .ite (fun _ => .pure trivial) fun _ => ?_
    refine .bind (getPlace_tame ht _) fun a R₁ h₁ ha => ?_
    refine .bind (getPlace_tame (ht.up h₁) _) fun b R₂ h₂ hb => ?_
    replace ha := ha.up h₂
    replace ht := ht.up (h₁.trans h₂)
    replace ho := ho.up (h₁.trans h₂)
    refine .bind (precedes_tame ho hb ha) fun c R₃ h₃ _ => ?_
    extract_lets p split median
    -- the ends are put in order, then the middle between them, then the places are split at the middle
    have hsplit (u : Unit) {R : Realm} (ht : R.Has t) (ho : R.Has order) :
        (split u).Tame R fun _ _ => True := by
      refine .ite (fun _ => .pure trivial) fun _ => ?_
      refine .bind (getPlace_tame ht p) fun pivot R₁ h₁ hp => ?_
      refine .bind (getPlace_tame (ht.up h₁) (up - 1)) fun x R₂ h₂ hx => ?_
      have ht := ht.up (h₁.trans h₂)
      refine .bind (setPlaces_tame ht _ _ hx (hp.up h₂)) fun _ R₃ h₃ _ => ?_
      have ho := ho.up (h₁.trans (h₂.trans h₃))
      exact .bind (partitionAt_tame (ht.up h₃) ho (hp.up (h₂.trans h₃)) low up)
        fun q _ h₄ _ => hparts q (ht.up (h₃.trans h₄)) (ho.up h₄)
    have hmedian (u : Unit) {R : Realm} (ht : R.Has t) (ho : R.Has order) :
        (median u).Tame R fun _ _ => True := by
      unfold median
      clear_value split
      refine .ite (fun _ => .pure trivial) fun _ => ?_
      refine .bind (getPlace_tame ht p) fun m R₁ h₁ hm => ?_
      refine .bind (getPlace_tame (ht.up h₁) low) fun a R₂ h₂ ha => ?_
      have hm := hm.up h₂
      have ht := ht.up (h₁.trans h₂)
      have ho := ho.up (h₁.trans h₂)
      refine .bind (precedes_tame ho hm ha) fun c R₃ h₃ _ => .ite (fun _ => ?_) fun _ => ?_
      · exact .bind (setPlaces_tame (ht.up h₃) _ _ (ha.up h₃) (hm.up h₃)) fun _ _ h₄ _ =>
          hsplit _ (ht.up (h₃.trans h₄)) (ho.up (h₃.trans h₄))
      · refine .bind (getPlace_tame (ht.up h₃) up) fun b R₄ h₄ hb => ?_
        have hm := hm.up (h₃.trans h₄)
        have ht := ht.up (h₃.trans h₄)
        have ho := ho.up (h₃.trans h₄)
        refine .bind (precedes_tame ho hb hm) fun c R₅ h₅ _ => .ite (fun _ => ?_) fun _ => ?_
        · exact .bind (setPlaces_tame (ht.up h₅) _ _ (hb.up h₅) (hm.up h₅)) fun _ _ h₆ _ =>
            hsplit _ (ht.up (h₅.trans h₆)) (ho.up (h₅.trans h₆))
        · exact hsplit () (ht.up h₅) (ho.up h₅)
    clear_value median
    exact .ite
      (fun _ => .bind (setPlaces_tame (ht.up h₃) _ _ (hb.up h₃) (ha.up h₃)) fun _ _ h₄ _ =>
        hmedian _ (ht.up (h₃.trans h₄)) (ho.up (h₃.trans h₄)))
      fun _ => hmedian () (ht.up h₃) (ho.up h₃)

theorem sort_tame (h : R.HasAll args) : (sort args).Tame R Realm.HasAll := by
  unfold sort
  refine .calmly (tableLike_calm h 1 _) fun t ht => .bind (lengthOf_tame ht) fun n R₁ h₁ _ => ?_
  refine .ite (fun _ => .check (.badArgument _ _) ?_) fun _ => .pure Realm.hasAll_nil
  have hsorted (o : Value) (ho : R₁.Has o) : (do
      sortBetween t o (n.toInt.toNat + 1) 1 n.toInt.toNat
      return []).Tame R₁ Realm.HasAll :=
    .bind (sortBetween_tame _ _ _ (ht.up h₁) ho) fun _ _ _ _ => .pure Realm.hasAll_nil
  exact .ite (fun _ => hsorted .nil trivial)
    fun _ => .calmly (Args.function_calm (h.up h₁) 2) fun o ho => hsorted o ho

theorem run_tame (f : TableFunction) (h : R.HasAll args) : (run f args).Tame R Realm.HasAll := by
  cases f
  · exact concat_tame h
  · exact insert_tame h
  · exact move_tame h
  · exact pack_tame h
  · exact remove_tame h
  · exact sort_tame h
  · exact unpack_tame h

end Enclosure.Lua.Library.List
