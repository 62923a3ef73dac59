import Enclosure.Proofs.Native.Opening

/-!
# Openers that build tables

The openers that make a table of given fields, with or without a table of further fields behind it,
build tables of their own: building a value only ever writes to the tables that it makes.
-/

namespace Enclosure

open Lua

namespace Lua

/-- The second store has kept the tables in front of the place `n`, all functions, and everything that
is neither a table nor a function. -/
structure Store.Leaves (n : Nat) (s s' : Store) : Prop extends Store.Keeps n s s' where
  functions_size : s.functions.size ≤ s'.functions.size
  function : ∀ f : FuncId, f.index < s.functions.size → s'.function f = s.function f
  aside : { s' with tables := s.tables, functions := s.functions } = s

namespace Store.Leaves

variable {n : Nat} {s s₁ s' : Store}

theorem refl (n : Nat) (s : Store) : s.Leaves n s :=
  { Keeps.refl n s with
    functions_size := Nat.le_refl _
    function := fun _ _ => rfl
    aside := rfl }

theorem trans (h : s.Leaves n s₁) (h' : s₁.Leaves n s') : s.Leaves n s' :=
  { h.toKeeps.trans h'.toKeeps with
    functions_size := Nat.le_trans h.functions_size h'.functions_size
    function := fun f hf => (h'.function f (Nat.lt_of_lt_of_le hf h.functions_size)).trans
      (h.function f hf)
    aside := (congrArg (fun s₁ : Store =>
      { s₁ with tables := s.tables, functions := s.functions }) h'.aside).trans h.aside }

theorem mono {m : Nat} (h : s.Leaves n s') (hm : m ≤ n) : s.Leaves m s' :=
  { h with toKeeps := h.toKeeps.mono hm }

theorem tables (h : s.Leaves n s₁) (k : Keeps n s₁ s')
    (aside : { s' with tables := s₁.tables } = s₁) : s.Leaves n s' :=
  h.trans
    { k with
      functions_size := (congrArg (·.functions.size) aside).ge
      function := fun f _ => congrArg (·.function f) aside
      aside := congrArg (fun s : Store => { s with functions := s₁.functions }) aside }

theorem newFunction (h : s.Leaves n s₁) (f : FunctionObject) : s.Leaves n (s₁.newFunction f).2 :=
  h.trans
    { Keeps.refl n s₁ with
      functions_size := by simp
      function := fun g hg => by rw [function_newFunction, if_neg (Nat.ne_of_lt hg)]
      aside := rfl }

theorem natives (h : s.Leaves n s') : s'.natives = s.natives :=
  show Store.natives { s' with tables := s.tables, functions := s.functions } = _ by rw [h.aside]

end Store.Leaves

/-- Besides, none of the tables from `n` on has a metatable. -/
structure Store.Grows (n : Nat) (s s' : Store) : Prop extends Store.Leaves n s s' where
  bare : ∀ t : TableId, n ≤ t.index → (s'.table t).metatable = none

namespace Store.Grows

variable {n : Nat} {s s₁ s' : Store}

/-- What lies past the end of a store has no metatable. -/
theorem start (s : Store) : s.Grows s.tables.size s :=
  { Leaves.refl _ s with bare := fun t ht => by rw [table_of_le ht]; rfl }

theorem newTable (h : s.Grows n s₁) (hn : n ≤ s.tables.size) : s.Grows n (s₁.newTable {}).2 := by
  have made : s.Leaves n (s₁.newTable {}).2 :=
    h.toLeaves.tables (Keeps.newTable (Nat.le_trans hn h.size) {}) rfl
  refine { made with bare := fun t ht => ?_ }
  rw [table_newTable]
  split_ifs
  · rfl
  · exact h.bare t ht

theorem setField (h : s.Grows n s₁) {t : TableId} (ht : n ≤ t.index) (k v : Value) :
    s.Grows n (s₁.modifyTable t (·.set k v)) := by
  have written : s.Leaves n (s₁.modifyTable t (·.set k v)) :=
    h.toLeaves.tables (Keeps.modifyTable ht _) rfl
  refine { written with bare := fun u hu => ?_ }
  rw [table_modifyTable]
  split_ifs with hut
  · rw [Table.metatable_set, h.bare t ht]
  · exact h.bare u hu

theorem newFunction (h : s.Grows n s₁) (f : FunctionObject) : s.Grows n (s₁.newFunction f).2 :=
  { h.toLeaves.newFunction f with bare := h.bare }

theorem settled (h : s.Grows n s') {t : TableId} (ht : n ≤ t.index) (hlt : t.index < s'.tables.size) :
    s'.Settled t none := by
  refine ⟨.nothing (h.bare t ht), hlt, fun e he => ?_, nofun⟩
  rw [h.bare t ht] at he
  cases he

end Store.Grows

/-- The run ended without asking for anything, by a value or by an error with a text. -/
def Res.Builds {α : Type} (n : Nat) (s : Store) (P : α → Store → Prop) : Res α → Prop
  | .done a s' => s.Grows n s' ∧ P a s'
  | .raise e s' => s.Grows n s' ∧ ∃ b, e = .value (.str b)
  | .ask .. => False

theorem Res.Builds.bind {α β : Type} {n : Nat} {s s₀ : Store} {P : α → Store → Prop}
    {Q : β → Store → Prop} {m : Run α} {f : α → Run β} (h : (m s).Builds n s₀ P)
    (hf : ∀ a s', s₀.Grows n s' → P a s' → (f a s').Builds n s₀ Q) :
    ((m >>= f) s).Builds n s₀ Q := by
  rw [Run.bind_apply]
  rcases hm : m s with ⟨a, s'⟩ | ⟨e, s'⟩ | _ <;> rw [hm] at h
  · exact hf a s' h.1 h.2
  · exact h
  · exact h.elim

namespace Datum

theorem rawSet_builds {n : Nat} {s₀ s : Store} (h : s₀.Grows n s) {t : TableId} (ht : n ≤ t.index)
    (k v : Value) : (Operation.rawSet .library t k v s).Builds n s₀
      fun _ s' => s.tables.size ≤ s'.tables.size := by
  unfold Operation.rawSet
  rcases k.asKey? with _ | k'
  · exact ⟨h, _, rfl⟩
  · exact ⟨h.setField ht k' v, by simp⟩

mutual

/-- Building a value writes to no table but those it makes, and a table that is built comes first. -/
theorem build_builds {n : Nat} {s₀ : Store} (hn : n ≤ s₀.tables.size) : ∀ (d : Datum) {s : Store},
    s₀.Grows n s → (d.build s).Builds n s₀ fun v s' => s.tables.size ≤ s'.tables.size
      ∧ ∀ entries, d = .table entries →
        v = .table ⟨s.tables.size⟩ ∧ s.tables.size < s'.tables.size
  | .value v, s, h => ⟨h, Nat.le_refl _, fun _ he => nomatch he⟩
  | .table entries, s, h => by
    have ht : n ≤ s.tables.size := Nat.le_trans hn h.size
    rw [build]
    refine Res.Builds.bind (m := Run.newTable)
      (P := fun t s' => t = ⟨s.tables.size⟩ ∧ s'.tables.size = s.tables.size + 1)
      ⟨h.newTable hn, rfl, Store.size_newTable s {}⟩ ?_
    rintro _ s₁ h₁ ⟨rfl, hs₁⟩
    refine (fill_builds hn entries ht h₁).bind fun _ s₂ h₂ hs₂ => ?_
    exact ⟨h₂, by omega, fun _ _ => ⟨rfl, by omega⟩⟩
  | .constant result, s, h => by
    rw [build]
    refine (build_builds hn result h).bind fun v s₁ h₁ hs₁ => ?_
    exact ⟨h₁.newFunction _, hs₁.1, fun _ he => nomatch he⟩

theorem fill_builds {n : Nat} {s₀ : Store} (hn : n ≤ s₀.tables.size) {t : TableId} :
    ∀ (entries : List (Datum × Datum)) {s : Store}, n ≤ t.index → s₀.Grows n s →
      (fill t entries s).Builds n s₀ fun _ s' => s.tables.size ≤ s'.tables.size
  | [], s, _, h => ⟨h, Nat.le_refl _⟩
  | (k, v) :: rest, s, ht, h => by
    rw [fill]
    refine (build_builds hn k h).bind fun k s₁ h₁ hs₁ => ?_
    refine (build_builds hn v h₁).bind fun v s₂ h₂ hs₂ => ?_
    refine (rawSet_builds h₂ ht k v).bind fun _ s₃ h₃ hs₃ => ?_
    rcases hr : fill t rest s₃ with ⟨_, s₄⟩ | ⟨e, s₄⟩ | _
    all_goals
      have hrest := fill_builds hn rest ht h₃
      rw [hr] at hrest
    · exact ⟨hrest.1, by have := hrest.2; omega⟩
    · exact hrest
    · exact hrest.elim

end

end Datum

end Lua

namespace Opener

open Attempt

variable {st : State}

theorem build_done {d : Datum} {v : Value} {s : Store} (h : d.build st.store = .done v s) :
    (Action.build d).on st = (.ok v, { st with store := s }) := by
  have h : (do return [← d.build] : Run (List Value)) st.store = .done [v] s := Run.bind_done h
  exact Action.runFirst_done h

theorem build_raise {d : Datum} {b : Bytes} {s : Store}
    (h : d.build st.store = .raise (.value (.str b)) s) :
    (Action.build d).on st = (.error (.runtime b.textLossy), { st with store := s }) := by
  have h : (do return [← d.build] : Run (List Value)) st.store = .raise (.value (.str b)) s :=
    Run.bind_raise h
  exact Action.runFirst_raise h

/-- A new table of fields stands at the end of the store and has no metatable. -/
theorem tableOf_on (fs : List (String × Datum)) (st : State) : ∃ answer s,
    (tableOf fs).on st = (answer, { st with store := s }) ∧ st.store.Grows st.store.tables.size s
      ∧ ∀ t, answer = .ok t → t = ⟨st.store.tables.size⟩ ∧ st.store.tables.size < s.tables.size := by
  have h := Datum.build_builds (Nat.le_refl _) (.table (Datum.fields fs)) (Store.Grows.start st.store)
  unfold tableOf
  rw [on_bind]
  rcases hr : (Datum.table (Datum.fields fs)).build st.store with ⟨v, s⟩ | ⟨e, s⟩ | _ <;> rw [hr] at h
  · obtain ⟨grows, -, hv⟩ := h
    obtain ⟨rfl, hlt⟩ := hv _ rfl
    rw [build_done hr]
    refine ⟨_, _, rfl, grows, fun t ht => ⟨?_, hlt⟩⟩
    cases ht
    rfl
  · obtain ⟨grows, b, rfl⟩ := h
    rw [build_raise hr]
    exact ⟨_, _, rfl, grows, fun t ht => nomatch ht⟩
  · exact h.elim

/-- The state with a new metatable for a table, by which its missing fields are looked up in a value. -/
def indexed (st : State) (t : TableId) (index : Value) : State :=
  let events : TableId := ⟨st.store.tables.size⟩
  let s := (st.store.newTable {}).2.modifyTable events (·.set (.text "__index") index)
  { st with store := s.modifyTable t fun u => { u with metatable := some events } }

theorem withIndex_on (t : TableId) (index : Value) (st : State) :
    (withIndex t index).on st = (.ok t, indexed st t index) := rfl

theorem metatable_indexed {t : TableId} (ht : t.index < st.store.tables.size) (index : Value) :
    ((indexed st t index).store.table t).metatable = some ⟨st.store.tables.size⟩ := by
  have hlt : t.index < ((st.store.newTable {}).2.modifyTable ⟨st.store.tables.size⟩
      (·.set (.text "__index") index)).tables.size := by
    rw [Store.size_modifyTable, Store.size_newTable]
    omega
  exact congrArg Table.metatable (Store.table_modifyTable_self hlt _)

/-- A table that gets a bare table behind it can be read. -/
theorem indexed_settled {t b : TableId} (ht : t.index < st.store.tables.size)
    (hb : b.index < st.store.tables.size) (hne : b ≠ t) (bare : (st.store.table b).metatable = none) :
    (indexed st t (.table b)).store.Settled t (some b) := by
  let events : TableId := ⟨st.store.tables.size⟩
  let made := (st.store.newTable {}).2
  let filled := made.modifyTable events (·.set (.text "__index") (.table b))
  have hmade : made.tables.size = st.store.tables.size + 1 := Store.size_newTable _ _
  have hfilled : filled.tables.size = st.store.tables.size + 1 := by
    rw [Store.size_modifyTable, hmade]
  have hsize : (indexed st t (.table b)).store.tables.size = st.store.tables.size + 1 := by
    rw [indexed, Store.size_modifyTable, hfilled]
  have hte : t ≠ events := fun he => by simp [he, events] at ht
  have hbe : b ≠ events := fun he => by simp [he, events] at hb
  have self := metatable_indexed ht (.table b)
  have hevents : (indexed st t (.table b)).store.rawGet events (.text "__index") = .table b := by
    have h : (indexed st t (.table b)).store.table events = (made.table events).set (.text "__index") (.table b) :=
      (Store.table_modifyTable_of_ne hte.symm _).trans
        (Store.table_modifyTable_self (by rw [hmade]; exact Nat.lt_succ_self _) _)
    rw [Store.rawGet_text, h, Table.get_set_self]
  have hbehind : ((indexed st t (.table b)).store.table b).metatable = none := by
    have h : (indexed st t (.table b)).store.table b = made.table b :=
      (Store.table_modifyTable_of_ne hne _).trans (Store.table_modifyTable_of_ne hbe _)
    rw [h, Store.table_newTable, if_neg (by omega), bare]
  refine ⟨.table self hevents hbehind, by omega, fun e he => ?_, fun b' hb' => ?_⟩
  · obtain rfl := Option.some.inj (self.symm.trans he)
    exact ⟨by simp [hsize], hte.symm⟩
  · obtain rfl := Option.some.inj hb'
    omega

theorem indexed_leaves (st : State) {n : Nat} {t : TableId} (ht : n ≤ t.index) (hn : n ≤ st.store.tables.size)
    (index : Value) : st.store.Leaves n (indexed st t index).store := by
  have made : Store.Keeps n st.store (st.store.newTable {}).2 := Store.Keeps.newTable hn {}
  exact (Store.Leaves.refl n st.store).tables
    ((made.trans (Store.Keeps.modifyTable hn _)).trans (Store.Keeps.modifyTable ht _)) rfl

/-- An opener that only makes tables and functions, and whose table can be read and is new in all its
parts. -/
def Makes (opener : Lua.Action TableId) : Prop := ∀ st, ∃ answer s,
  opener.on st = (answer, { st with store := s }) ∧ st.store.Leaves st.store.tables.size s
    ∧ ∀ t, answer = .ok t → ∃ behind, s.Settled t behind
      ∧ ∀ u, s.Part t behind u → st.store.tables.size ≤ u.index

theorem Makes.builds {opener : Lua.Action TableId} (h : Makes opener) : BuildsTable opener := by
  refine ⟨fun st => ?_, fun st => ?_, fun {st st' t} hrun => ?_⟩
  all_goals
    obtain ⟨answer, s, h₁, leaves, made⟩ := h st
  · rw [h₁]
    exact leaves.toKeeps
  · rw [h₁]
    exact leaves.natives
  · obtain ⟨rfl, rfl⟩ := Prod.mk.inj (h₁.symm.trans hrun)
    obtain ⟨behind, settled, new⟩ := made t rfl
    exact ⟨new t .self, behind, settled⟩

/-- Fields alone stand at the end of the store and have nothing behind them. -/
theorem fields_on (fs : List (String × Datum)) (st : State) : ∃ answer s,
    (fields fs .none).on st = (answer, { st with store := s })
      ∧ st.store.Leaves st.store.tables.size s
      ∧ ∀ t, answer = .ok t → t = ⟨st.store.tables.size⟩ ∧ s.Settled t none := by
  obtain ⟨answer, s, h, grows, made⟩ := tableOf_on fs st
  refine ⟨answer, s, ?_, grows.toLeaves, fun t ht => ?_⟩
  · unfold fields
    rw [on_bind, h]
    rcases answer with _ | _ <;> rfl
  · obtain ⟨rfl, hlt⟩ := made t ht
    exact ⟨rfl, grows.settled (Nat.le_refl _) hlt⟩

theorem fields_bare {fs : List (String × Datum)} {st st' : State} {t : TableId}
    (h : (fields fs .none).on st = (.ok t, st')) : st'.store.Settled t none := by
  obtain ⟨answer, s, h₁, -, made⟩ := fields_on fs st
  obtain ⟨rfl, rfl⟩ := Prod.mk.inj (h₁.symm.trans h)
  exact (made t rfl).2

theorem fields_makes (fs : List (String × Datum)) : Makes (fields fs .none) := by
  intro st
  obtain ⟨answer, s, h, leaves, made⟩ := fields_on fs st
  refine ⟨answer, s, h, leaves, fun t ht => ?_⟩
  obtain ⟨rfl, settled⟩ := made t ht
  refine ⟨none, settled, fun u hu => ?_⟩
  cases hu with
  | self => exact Nat.le_refl _
  | events he =>
    rcases settled.reads with hnone | _
    rw [hnone] at he
    cases he
  | behind hb => cases hb

theorem fields_behind_makes (fs more : List (String × Datum)) : Makes (fields fs (.fields more)) := by
  intro st
  unfold fields
  obtain ⟨answer, s₁, h₁, grows₁, made₁⟩ := tableOf_on fs st
  rw [on_bind, h₁]
  -- either table may have no room for its fields; otherwise the second one ends up behind the first
  rcases answer with e | t
  · exact ⟨_, s₁, rfl, grows₁.toLeaves, fun t ht => nomatch ht⟩
  obtain ⟨rfl, hlt₁⟩ := made₁ t rfl
  obtain ⟨answer, s₂, h₂, grows₂, made₂⟩ := tableOf_on more { st with store := s₁ }
  have leaves := grows₁.toLeaves.trans (grows₂.toLeaves.mono grows₁.size)
  dsimp only
  rw [on_bind, h₂]
  rcases answer with e | b
  · exact ⟨_, s₂, rfl, leaves, fun t ht => nomatch ht⟩
  obtain ⟨rfl, hlt₂⟩ := made₂ b rfl
  dsimp only at hlt₂ ⊢
  rw [withIndex_on]
  let st₂ : State := { st with store := s₂ }
  have written : s₂.Leaves st.store.tables.size
      (indexed st₂ ⟨st.store.tables.size⟩ (.table ⟨s₁.tables.size⟩)).store :=
    indexed_leaves st₂ (Nat.le_refl _) leaves.size _
  refine ⟨_, _, rfl, leaves.trans written, fun t ht => ?_⟩
  cases ht
  have hne : (⟨s₁.tables.size⟩ : TableId) ≠ ⟨st.store.tables.size⟩ := fun he => by
    have := congrArg TableId.index he
    dsimp only at this
    omega
  have settled : (indexed st₂ ⟨st.store.tables.size⟩ (.table ⟨s₁.tables.size⟩)).store.Settled
      ⟨st.store.tables.size⟩ (some ⟨s₁.tables.size⟩) :=
    indexed_settled (Nat.lt_trans hlt₁ hlt₂) hlt₂ hne (grows₂.bare _ (Nat.le_refl _))
  refine ⟨_, settled, fun u hu => ?_⟩
  cases hu with
  | self => exact Nat.le_refl _
  | events he =>
    obtain rfl := Option.some.inj ((metatable_indexed (Nat.lt_trans hlt₁ hlt₂) _).symm.trans he)
    exact leaves.size
  | behind hb =>
    obtain rfl := Option.some.inj hb
    exact grows₁.size

theorem fields_builds (fs : List (String × Datum)) : BuildsTable (fields fs .none) :=
  (fields_makes fs).builds

end Opener

end Enclosure
