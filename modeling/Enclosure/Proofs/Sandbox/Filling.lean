import Mathlib.Data.Set.Image
import Enclosure.Proofs.Reach.Discreet

/-!
# Filling a table out of reach

A table that is not in the realm is filled by one attempt after another, each of which first does
something in the realm and then sets one field. Where the names of the fields are all different, no
field that was set is set again, and in the end the table has the fields named and no others
(`each_fills`). Whatever is true of a value when it is bound, and is not undone by what happens in the
realm, is true of it at the end. What is promised of the tables that are kept may grow with the names
that are bound.
-/

namespace Enclosure

open Lua Attempt

namespace Lua.Table

variable {T : Table} {k v : Value}

/-- The keys under which a table has values. -/
def keys (T : Table) : Set Value := {k | T.get k ≠ .nil}

@[simp] theorem keys_default : (default : Table).keys = ∅ := by
  simp [keys]

theorem keys_set (hv : v ≠ .nil) : (T.set k v).keys = insert k T.keys := by
  ext k'
  by_cases hk : k' = k
  · subst hk
    simp [keys, get_set_self, hv]
  · simp [keys, get_set_of_ne T hk, hk]

/-- A table with the fields named, without a metatable. -/
structure Exact (T : Table) (names : List String) : Prop where
  bare : T.metatable = none
  keys : T.keys = Value.text '' {n | n ∈ names}

theorem exact_default : (default : Table).Exact [] := ⟨rfl, by simp⟩

theorem Exact.set {names : List String} (h : T.Exact names) (name : String) (hv : v ≠ .nil) :
    (T.set (.text name) v).Exact (names ++ [name]) := by
  refine ⟨by rw [metatable_set, h.bare], ?_⟩
  rw [keys_set hv, h.keys, ← Set.image_insert_eq]
  refine congrArg _ (Set.ext fun n => ?_)
  simp [or_comm]

end Lua.Table

variable {K : List String → Pledge} {R R' R₁ R₂ : Realm} {st st' st₁ st₂ : State} {W : Set TableId}
  {ns : TableId} {names : List String} {name : String} {v : Value}

/-- What is promised under fewer names is promised under more. -/
def Widens (K : List String → Pledge) : Prop := ∀ names name, K names ≤ K (names ++ [name])

theorem widens_const (L : Pledge) : Widens fun _ => L := fun _ _ _ _ _ h => h

/-- A table out of reach, without a metatable, that has fields under some names and nothing else, while
what is promised under these names is kept. -/
structure Filled (K : List String → Pledge) (R : Realm) (st : State) (ns : TableId)
    (names : List String) : Prop where
  footing : st.Footing (K names) R
  hidden : ns ∉ R.tables
  lt : ns.index < st.store.tables.size
  exact : (st.store.table ns).Exact names

/-- No key that has a value gets another. -/
def KeepsFields (ns : TableId) (st st' : State) : Prop :=
  ∀ k ∈ (st.store.table ns).keys, (st'.store.table ns).get k = (st.store.table ns).get k

theorem KeepsFields.refl (ns : TableId) (st : State) : KeepsFields ns st st := fun _ _ => rfl

theorem KeepsFields.trans (h : KeepsFields ns st st₁) (h' : KeepsFields ns st₁ st₂) :
    KeepsFields ns st st₂ := fun k hk => by
  have hk₁ : k ∈ (st₁.store.table ns).keys := by
    show (st₁.store.table ns).get k ≠ .nil
    rw [h k hk]
    exact hk
  exact (h' k hk₁).trans (h k hk)

/-- A stretch in which only the table is filled, as far as the realm does not reach. -/
structure Fills (ns : TableId) (R : Realm) (st : State) (R' : Realm) (st' : State) : Prop where
  advance : State.Advance {ns} R st R' st'
  keeps : KeepsFields ns st st'

namespace Fills

theorem refl (h : st.Sound R) : Fills ns R st R st := ⟨.refl h, .refl ns st⟩

theorem trans (h : Fills ns R st R₁ st₁) (h' : Fills ns R₁ st₁ R₂ st₂) : Fills ns R st R₂ st₂ :=
  ⟨h.advance.trans h'.advance fun _ => .inl, h.keeps.trans h'.keeps⟩

theorem field (h : Fills ns R st R' st') {k : Value} (hk : (st.store.table ns).get k = v)
    (hv : v ≠ .nil) : (st'.store.table ns).get k = v := by
  subst hk
  exact h.keeps k hv

end Fills

/-- A new field is set after something has happened in the realm, which leaves the table alone. -/
theorem Filled.setField (h : Filled K R st ns names) (hn : name ∉ names)
    (ha : State.Advance ∅ R st R₁ st₁) (footing : st₁.Footing (K (names ++ [name])) R₁)
    (hv : v ≠ .nil) : Filled K R₁ (st₁.setField ns name v) ns (names ++ [name])
      ∧ Fills ns R st R₁ (st₁.setField ns name v) := by
  have same : st₁.store.table ns = st.store.table ns := ha.table ns h.hidden (fun hw => hw.elim) h.lt
  have hidden : ns ∉ R₁.tables := ha.not_mem h.hidden h.lt
  have lt : ns.index < st₁.store.tables.size := Nat.lt_of_lt_of_le h.lt ha.tables_size
  have self : (st₁.setField ns name v).store.table ns = (st.store.table ns).set (.text name) v := by
    rw [← same]
    exact Store.table_modifyTable_self lt _
  have written : State.Progress {ns} R₁ st₁ R₁ (st₁.setField ns name v) :=
    .write footing.sound hidden _
  have advance : State.Advance {ns} R st R₁ (st₁.setField ns name v) :=
    (ha.mono (Set.empty_subset _)).trans (.of_progress written rfl) fun _ => .inl
  refine ⟨⟨footing.progress written rfl, hidden, ?_, ?_⟩, advance, fun k hk => ?_⟩
  · exact Nat.lt_of_lt_of_le h.lt advance.tables_size
  · rw [self]
    exact h.exact.set name hv
  · have hne : k ≠ .text name := by
      rintro rfl
      rw [h.exact.keys] at hk
      obtain ⟨name', hmem, he⟩ := hk
      exact hn (Store.text_injective he ▸ hmem)
    rw [self, Table.get_set_of_ne _ hne]

/-- What is true of a value stays true while the table is filled. -/
def Lasts (ns : TableId) (P : Realm → State → Value → Prop) : Prop :=
  ∀ ⦃R st R' st' v⦄, State.Advance {ns} R st R' st' → P R st v → P R' st' v

/-- Another table out of reach, of whose content something is true. -/
structure Apart (ns : TableId) (P : Table → Prop) (R : Realm) (st : State) (t : TableId) : Prop where
  hidden : t ∉ R.tables
  ne : t ≠ ns
  lt : t.index < st.store.tables.size
  content : P (st.store.table t)

theorem Apart.lasts (ns : TableId) (P : Table → Prop) :
    Lasts ns fun R st v => ∃ t, v = .table t ∧ Apart ns P R st t := by
  rintro R st R' st' v advance ⟨t, rfl, hidden, ne, lt, content⟩
  have same : st'.store.table t = st.store.table t := advance.table t hidden ne lt
  exact ⟨t, rfl, advance.not_mem hidden lt, ne, Nat.lt_of_lt_of_le lt advance.tables_size,
    same.symm ▸ content⟩

/-- An attempt that sets a new field of the table to a value of which something is true, after it has
done something in the realm. -/
def Binds (K : List String → Pledge) (R₀ : Realm) (ns : TableId) (name : String)
    (P : State → Realm → State → Value → Prop) (m : Attempt State Fault Unit) : Prop :=
  ∀ ⦃names R st st'⦄, R₀ ≤ R → st.Footing (K names) R → name ∉ names →
    ns.index < st.store.tables.size → m.on st = (.ok (), st') →
    ∃ R₁ st₁ v, State.Advance ∅ R st R₁ st₁ ∧ st₁.Footing (K (names ++ [name])) R₁ ∧ v ≠ .nil
      ∧ P st R₁ st₁ v ∧ st' = st₁.setField ns name v

/-- The table has a field of whose value something is true. -/
def HasField (R : Realm) (st : State) (ns : TableId) (name : String)
    (P : Realm → State → Value → Prop) : Prop :=
  ∃ v, v ≠ .nil ∧ (st.store.table ns).get (.text name) = v ∧ P R st v

theorem HasField.fills {P : Realm → State → Value → Prop} (h : HasField R st ns name P)
    (hP : Lasts ns P) (hf : Fills ns R st R' st') : HasField R' st' ns name P := by
  obtain ⟨v, hv, hget, hp⟩ := h
  exact ⟨v, hv, hf.field hget hv, hP hf.advance hp⟩

theorem Binds.mono {R₀ : Realm} {P Q : State → Realm → State → Value → Prop}
    {m : Attempt State Fault Unit} (hm : Binds K R₀ ns name P m)
    (hPQ : ∀ st R st' v, P st R st' v → Q st R st' v) : Binds K R₀ ns name Q m := by
  intro names R st st' hR hst hn hlt hrun
  obtain ⟨R₁, st₁, v, advance, footing, hv, hp, he⟩ := hm hR hst hn hlt hrun
  exact ⟨R₁, st₁, v, advance, footing, hv, hPQ _ _ _ _ hp, he⟩

theorem Binds.fills {R₀ : Realm} {P : State → Realm → State → Value → Prop}
    {m : Attempt State Fault Unit} (hm : Binds K R₀ ns name P m) (hP : Lasts ns (P st)) (hR : R₀ ≤ R)
    (h : Filled K R st ns names) (hn : name ∉ names) (hrun : m.on st = (.ok (), st')) :
    ∃ R', Filled K R' st' ns (names ++ [name]) ∧ Fills ns R st R' st'
      ∧ HasField R' st' ns name (P st) := by
  obtain ⟨R₁, st₁, v, advance, footing, hv, hp, rfl⟩ := hm hR h.footing hn h.lt hrun
  obtain ⟨filled, fills⟩ := h.setField hn advance footing hv
  have hidden : ns ∉ R₁.tables := filled.hidden
  have lt : ns.index < st₁.store.tables.size := Nat.lt_of_lt_of_le h.lt advance.tables_size
  have written : State.Advance {ns} R₁ st₁ R₁ (st₁.setField ns name v) :=
    .of_progress (.write footing.sound hidden _) rfl
  refine ⟨R₁, filled, fills, v, hv, ?_, hP written hp⟩
  have self : (st₁.setField ns name v).store.table ns = (st₁.store.table ns).set (.text name) v :=
    Store.table_modifyTable_self lt _
  rw [self, Table.get_set_self]

variable {β : Type}

/-- Each item in turn sets its field; in the end all these fields are there besides those before. -/
theorem each_fills {R₀ : Realm} (key : β → String) {f : β → Attempt State Fault Unit}
    (P : β → State → Realm → State → Value → Prop) : ∀ {items : List β} {names : List String}
      {R : Realm} {st : State}, (∀ b ∈ items, Binds K R₀ ns (key b) (P b) (f b)) →
      (∀ b st, Lasts ns (P b st)) → (items.map key).Nodup → (∀ b ∈ items, key b ∉ names) → R₀ ≤ R →
      Filled K R st ns names → (each f items).on st = (.ok (), st') →
      ∃ R', Filled K R' st' ns (names ++ items.map key) ∧ Fills ns R st R' st'
        ∧ ∀ before b after, items = before ++ b :: after →
          ∃ st₁, (each f before).on st = (.ok (), st₁) ∧ HasField R' st' ns (key b) (P b st₁)
  | [], names, R, st, _, _, _, _, _, h, hrun => by
    obtain ⟨-, rfl⟩ := pure_ok hrun
    refine ⟨R, by simpa using h, .refl h.footing.sound, fun before b after he => ?_⟩
    exact absurd he.symm (by simp)
  | b :: rest, names, R, st, hbinds, hlasts, hnodup, hout, hR, h, hrun => by
    obtain ⟨hb, hbinds⟩ := List.forall_mem_cons.1 hbinds
    obtain ⟨hbout, hout⟩ := List.forall_mem_cons.1 hout
    obtain ⟨hnot, hnodup⟩ := List.nodup_cons.1 hnodup
    obtain ⟨_, st₁, hrun₁, hrun₂⟩ := bind_ok hrun
    obtain ⟨R₁, filled₁, fills₁, field₁⟩ := hb.fills (hlasts b st) hR h hbout hrun₁
    -- the induction is on the items, with the names bound so far general
    have hout₁ : ∀ b' ∈ rest, key b' ∉ names ++ [key b] := by
      intro b' hb' hmem
      rcases List.mem_append.1 hmem with hmem | hmem
      · exact hout b' hb' hmem
      · exact hnot (List.mem_map.2 ⟨b', hb', List.mem_singleton.1 hmem⟩)
    obtain ⟨R₂, filled₂, fills₂, fields₂⟩ := each_fills key P hbinds hlasts hnodup hout₁
      (hR.trans fills₁.advance.le) filled₁ hrun₂
    refine ⟨R₂, by simpa using filled₂, fills₁.trans fills₂, fun before b' after he => ?_⟩
    rcases before with _ | ⟨b₀, before⟩
    · obtain ⟨rfl, -⟩ := List.cons.inj he
      exact ⟨st, rfl, field₁.fills (hlasts _ _) fills₂⟩
    · obtain ⟨rfl, hrest⟩ := List.cons.inj he
      obtain ⟨st₂, hbefore, field⟩ := fields₂ before b' after hrest
      exact ⟨st₂, (bind_on hrun₁).trans hbefore, field⟩

end Enclosure
