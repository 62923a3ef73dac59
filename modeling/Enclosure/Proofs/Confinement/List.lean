import Enclosure.Proofs.Confinement.Operation
import Enclosure.Proofs.Plain.Library

/-!
# The library `table` in a zone

Elements go from what scripts hold to what scripts hold, whatever the handlers of the zone do in
between.
-/

namespace Enclosure.Lua.Library.List

variable {Z : Zone} {α : Type} {P : α → Prop} {args : Args} {t order v w a b : Value}
  (sound : Z.Sound)

include sound

theorem getAt_safe (ht : Z.Public t) (i : Int64) : (getAt t i).Safe Z Z.Public :=
  Operation.index_safe sound _ _ ht trivial

theorem setAt_safe (ht : Z.Public t) (i : Int64) (hv : Z.Public v) : (setAt t i v).Sound Z :=
  Operation.setIndex_safe sound _ _ ht trivial hv

theorem lengthOf_safe (ht : Z.Public t) : (lengthOf t).Sound Z := by
  unfold lengthOf
  refine .bind (Operation.length_safe sound _ ht) fun n _ => ?_
  split
  · exact .pure trivial
  · split
    · exact .pure trivial
    · exact .fail _
  · split
    · exact .pure trivial
    · exact .fail _
  · exact .fail _

omit sound in
theorem tableLike_safe (h : Z.Publics args) (n : Nat) (events : List String) :
    (tableLike args n events).Safe Z Z.Public :=
  (tableLike_plain args n events).safe_of fun _ ht => ht ▸ Args.arg_public h n

theorem shiftUp_safe (ht : Z.Public t) (place : Int64) : ∀ (n : Nat) (i : Int64),
    (shiftUp t place n i).Sound Z
  | 0, _ => .pure trivial
  | n + 1, i => .ite (fun _ => .pure trivial) fun _ =>
    .bind (getAt_safe sound ht _) fun _ hv => .bind (setAt_safe sound ht i hv) fun _ _ =>
      shiftUp_safe ht place n (i - 1)

theorem shiftDown_safe (ht : Z.Public t) : ∀ (n : Nat) (i : Int64), (shiftDown t n i).Sound Z
  | 0, _ => .pure trivial
  | n + 1, i => .bind (getAt_safe sound ht _) fun _ hv => .bind (setAt_safe sound ht i hv) fun _ _ =>
    shiftDown_safe ht n (i + 1)

theorem insert_safe (h : Z.Publics args) : (insert args).Safe Z Z.Publics := by
  unfold insert
  refine .bind (tableLike_safe h 1 _) fun t ht => .bind (lengthOf_safe sound ht) fun n _ => ?_
  split
  · exact .bind (setAt_safe sound ht _ (h _ (by simp))) fun _ _ => .pure Zone.publics_nil
  · refine .bind (Args.integer_plain _ 2).safe fun place _ => .check (.badArgument _ _) ?_
    refine .bind (shiftUp_safe sound ht _ _ _) fun _ _ => ?_
    exact .bind (setAt_safe sound ht _ (h _ (by simp))) fun _ _ => .pure Zone.publics_nil
  · exact .fail _

theorem remove_safe (h : Z.Publics args) : (remove args).Safe Z Z.Publics := by
  refine .bind (tableLike_safe h 1 _) fun t ht => .bind (lengthOf_safe sound ht) fun n _ => ?_
  refine .bind (args.integerOr_plain 2 _).safe fun place _ => .check (.badArgument _ _) ?_
  refine .bind (getAt_safe sound ht _) fun v hv => .bind (shiftDown_safe sound ht _ _) fun _ _ => ?_
  exact .bind (setAt_safe sound ht _ trivial) fun _ _ => .pure (Zone.publics_one hv)

theorem elements_safe (ht : Z.Public t) : ∀ (n : Nat) (i : Int64),
    (elements t n i).Safe Z Z.Publics
  | 0, _ => .pure Zone.publics_nil
  | n + 1, i => .bind (getAt_safe sound ht i) fun _ hv =>
    .bind (elements_safe ht n (i + 1)) fun _ hvs => .pure (Zone.publics_cons.2 ⟨hv, hvs⟩)

theorem unpack_safe (h : Z.Publics args) : (unpack args).Safe Z Z.Publics := by
  have harg := Args.arg_public h 1
  unfold unpack
  refine .bind (args.integerOr_plain 2 _).safe fun start _ => ?_
  extract_lets rest
  have hrest : ∀ stop, (rest stop).Safe Z Z.Publics := fun stop =>
    .ite (fun _ => .pure Zone.publics_nil) fun _ => .check (.fail _) (elements_safe sound harg _ _)
  clear_value rest
  exact .ite (fun _ => .bind (lengthOf_safe sound harg) fun stop _ => hrest stop)
    fun _ => .bind (args.integer_plain 3).safe fun stop _ => hrest stop

/-! ## Sorting -/

theorem precedes_safe (ho : Z.Public order) (ha : Z.Public a) (hb : Z.Public b) :
    (precedes order a b).Sound Z := by
  unfold precedes
  split
  · exact Operation.less_safe sound _ ha hb
  · exact .bind (.call ho.callable (Zone.publics_cons.2 ⟨ha, Zone.publics_one hb⟩) _)
      fun _ _ => .pure trivial

theorem setPlaces_safe (ht : Z.Public t) (i j : Nat) (hv : Z.Public v) (hw : Z.Public w) :
    (setPlaces t i v j w).Sound Z :=
  .bind (setAt_safe sound ht _ hv) fun _ _ => setAt_safe sound ht _ hw

theorem partitionAt_safe (ht : Z.Public t) (ho : Z.Public order) (hv : Z.Public v) (low up : Nat) :
    (partitionAt t order v low up).Sound Z := by
  -- both scans end at a place with the value that stands there
  refine .loopWith (I := fun _ => True) trivial ?_
  rintro ⟨i, j⟩ -
  refine .bind (P := fun r => Z.Public r.2) ?_ ?_
  · refine .loopWith (I := fun _ => True) trivial fun i _ => .bind (getAt_safe sound ht _) fun x hx => ?_
    exact .bind (precedes_safe sound ho hx hv) fun _ _ =>
      .ite (fun _ => .check (.fail _) (.pure trivial)) fun _ => .pure hx
  rintro ⟨i, vi⟩ hi
  refine .bind (P := fun r => Z.Public r.2) ?_ ?_
  · refine .loopWith (I := fun _ => True) trivial fun j _ => .bind (getAt_safe sound ht _) fun x hx => ?_
    exact .bind (precedes_safe sound ho hv hx) fun _ _ =>
      .ite (fun _ => .check (.fail _) (.pure trivial)) fun _ => .pure hx
  rintro ⟨j, vj⟩ hj
  exact .ite (fun _ => .bind (setPlaces_safe sound ht _ _ hi hv) fun _ _ => .pure trivial)
    fun _ => .bind (setPlaces_safe sound ht _ _ hj hi) fun _ _ => .pure trivial

theorem sortBetween_safe (ht : Z.Public t) (ho : Z.Public order) : ∀ (fuel low up : Nat),
    (sortBetween t order fuel low up).Sound Z
  | 0, _, _ => .pure trivial
  | fuel + 1, low, up => by
    have hget : ∀ i, (getPlace t i).Safe Z Z.Public := fun i => getAt_safe sound ht _
    -- both parts are sorted by one fuel less, the smaller one first
    have hparts : ∀ p, (if p - low < up - p then do
          sortBetween t order fuel low (p - 1)
          sortBetween t order fuel (p + 1) up
        else do
          sortBetween t order fuel (p + 1) up
          sortBetween t order fuel low (p - 1)).Sound Z := fun p =>
      .ite
        (fun _ => .bind (sortBetween_safe ht ho fuel _ _) fun _ _ => sortBetween_safe ht ho fuel _ _)
        fun _ => .bind (sortBetween_safe ht ho fuel _ _) fun _ _ => sortBetween_safe ht ho fuel _ _
    unfold sortBetween
    refine .ite (fun _ => .pure trivial) fun _ => ?_
    refine .bind (hget low) fun a ha => .bind (hget up) fun b hb => ?_
    refine .bind (precedes_safe sound ho hb ha) fun c _ => ?_
    extract_lets p split median
    -- the ends are put in order, then the middle between them, then the places are split at the middle
    have hsplit : ∀ u, (split u).Sound Z := by
      intro u
      refine .ite (fun _ => .pure trivial) fun _ => ?_
      refine .bind (hget p) fun pivot hp => .bind (hget (up - 1)) fun x hx => ?_
      refine .bind (setPlaces_safe sound ht _ _ hx hp) fun _ _ => ?_
      exact .bind (partitionAt_safe sound ht ho hp low up) fun q _ => hparts q
    have hmedian : ∀ u, (median u).Sound Z := by
      intro u
      unfold median
      clear_value split
      refine .ite (fun _ => .pure trivial) fun _ => ?_
      refine .bind (hget p) fun m hm => .bind (hget low) fun a ha => ?_
      refine .bind (precedes_safe sound ho hm ha) fun c _ => ?_
      refine .ite (fun _ => .bind (setPlaces_safe sound ht _ _ ha hm) fun _ _ => hsplit _) fun _ => ?_
      refine .bind (hget up) fun b hb => .bind (precedes_safe sound ho hb hm) fun c _ => ?_
      exact .ite (fun _ => .bind (setPlaces_safe sound ht _ _ hb hm) fun _ _ => hsplit _)
        fun _ => hsplit ()
    clear_value median
    exact .ite (fun _ => .bind (setPlaces_safe sound ht _ _ hb ha) fun _ _ => hmedian _)
      fun _ => hmedian ()

theorem sort_safe (h : Z.Publics args) : (sort args).Safe Z Z.Publics := by
  unfold sort
  refine .bind (tableLike_safe h 1 _) fun t ht => .bind (lengthOf_safe sound ht) fun n _ => ?_
  refine .ite (fun _ => .check (.badArgument _ _) ?_) fun _ => .pure Zone.publics_nil
  have hsorted : ∀ o, Z.Public o → (do
      sortBetween t o (n.toInt.toNat + 1) 1 n.toInt.toNat
      return []).Safe Z Z.Publics := fun o ho =>
    .bind (sortBetween_safe sound ht ho _ _ _) fun _ _ => .pure Zone.publics_nil
  exact .ite (fun _ => hsorted .nil trivial)
    fun _ => .bind (Args.function_safe h 2) fun o ho => hsorted o ho

end Enclosure.Lua.Library.List
