import Enclosure.Lua.State
import Enclosure.Proofs.Lua.Run
import Enclosure.Proofs.Lua.Store

/-!
# Stores that lead nowhere else

In a sealed store no table leads to a table or to an object of the host that is not there. Filling the
empty store seals it (`State.fresh_sealed`).
-/

namespace Enclosure.Lua

variable {s s₁ s' : Store} {v : Value} {t : TableId}

/-- A value that is in the store if it is an object. -/
def Store.Knows (s : Store) : Value → Prop
  | .table t => t.index < s.tables.size
  | .object o => o.index < s.objects.size
  | _ => True

/-- Nothing in the store leads out of it. -/
structure Store.Sealed (s : Store) : Prop where
  value : ∀ t key, s.Knows ((s.table t).get key)
  metatable : ∀ t m, (s.table t).metatable = some m → m.index < s.tables.size
  stringMeta : ∀ m, s.stringMeta = some m → m.index < s.tables.size
  failureMeta : ∀ m, s.failureMeta = some m → m.index < s.tables.size
  fileMeta : ∀ m, s.fileMeta = some m → m.index < s.tables.size
  loaded : s.loaded.index < s.tables.size
  preload : s.preload.index < s.tables.size

/-- The second store has all the places of the first. -/
structure Store.Fits (s s' : Store) : Prop where
  tables : s.tables.size ≤ s'.tables.size
  objects : s.objects.size ≤ s'.objects.size

namespace Store

theorem Fits.trans (h : s.Fits s₁) (h' : s₁.Fits s') : s.Fits s' :=
  ⟨h.tables.trans h'.tables, h.objects.trans h'.objects⟩

theorem Knows.up (h : s.Knows v) (fits : s.Fits s') : s'.Knows v := by
  cases v with
  | table t => exact Nat.lt_of_lt_of_le h fits.tables
  | object o => exact Nat.lt_of_lt_of_le h fits.objects
  | _ => trivial

namespace Sealed

/-- What a sealed store is told to hold it has to know. -/
theorem set (h : s.Sealed) (t : TableId) (key : Value) (hv : s.Knows v) :
    (s.modifyTable t (·.set key v)).Sealed := by
  have fits : s.Fits (s.modifyTable t (·.set key v)) := ⟨(size_modifyTable ..).ge, Nat.le_refl _⟩
  have value (u : TableId) (key' : Value) :
      s.Knows (((s.modifyTable t (·.set key v)).table u).get key') := by
    rw [table_modifyTable]
    split_ifs
    · rw [Table.get_set]
      split_ifs
      · exact hv
      · exact h.value _ _
    · exact h.value _ _
  have metatable (u m : TableId) (hm : ((s.modifyTable t (·.set key v)).table u).metatable = some m) :
      m.index < s.tables.size := by
    rw [table_modifyTable] at hm
    split_ifs at hm
    · exact h.metatable t m ((Table.metatable_set ..).symm.trans hm)
    · exact h.metatable u m hm
  exact
    { value := fun u key' => (value u key').up fits
      metatable := fun u m hm => (metatable u m hm).trans_le fits.tables
      stringMeta := fun m hm => (h.stringMeta m hm).trans_le fits.tables
      failureMeta := fun m hm => (h.failureMeta m hm).trans_le fits.tables
      fileMeta := fun m hm => (h.fileMeta m hm).trans_le fits.tables
      loaded := h.loaded.trans_le fits.tables
      preload := h.preload.trans_le fits.tables }

/-- More places, and the tables that are new are empty. -/
theorem grow (h : s.Sealed) (fits : s.Fits s')
    (table : ∀ t, s'.table t = s.table t ∨ s'.table t = default)
    (rest : (s'.stringMeta, s'.failureMeta, s'.fileMeta, s'.loaded, s'.preload)
      = (s.stringMeta, s.failureMeta, s.fileMeta, s.loaded, s.preload)) : s'.Sealed := by
  simp only [Prod.mk.injEq] at rest
  obtain ⟨stringMeta, failureMeta, fileMeta, loaded, preload⟩ := rest
  exact
    { value := fun t key => by
        rcases table t with ht | ht <;> rw [ht]
        · exact (h.value t key).up fits
        · rw [Table.get_default]
          trivial
      metatable := fun t m hm => by
        rcases table t with ht | ht <;> rw [ht] at hm
        · exact (h.metatable t m hm).trans_le fits.tables
        · cases hm
      stringMeta := fun m hm => (h.stringMeta m (stringMeta ▸ hm)).trans_le fits.tables
      failureMeta := fun m hm => (h.failureMeta m (failureMeta ▸ hm)).trans_le fits.tables
      fileMeta := fun m hm => (h.fileMeta m (fileMeta ▸ hm)).trans_le fits.tables
      loaded := loaded ▸ h.loaded.trans_le fits.tables
      preload := preload ▸ h.preload.trans_le fits.tables }

end Sealed

end Store

/-! ## Runs that keep a store sealed -/

/-- The run ends with a result, in a sealed store with all the places that there were. -/
def Run.Seals {α : Type} (m : Run α) (s : Store) (P : Store → α → Prop) : Prop :=
  ∃ a s', m s = .done a s' ∧ s'.Sealed ∧ s.Fits s' ∧ P s' a

namespace Run.Seals

variable {α β : Type} {m : Run α} {f : α → Run β} {P : Store → α → Prop} {Q : Store → β → Prop}

theorem bind (h : m.Seals s P) (hf : ∀ a s', s'.Sealed → s.Fits s' → P s' a → (f a).Seals s' Q) :
    (m >>= f).Seals s Q := by
  obtain ⟨a, s₁, hm, sealed₁, fits₁, ha⟩ := h
  obtain ⟨b, s₂, hb, sealed₂, fits₂, hQ⟩ := hf a s₁ sealed₁ fits₁ ha
  exact ⟨b, s₂, (Run.bind_done hm).trans hb, sealed₂, fits₁.trans fits₂, hQ⟩

variable (h : s.Sealed)

include h

theorem pure {a : α} (ha : P s a) : (pure a : Run α).Seals s P := ⟨a, s, rfl, h, ⟨le_rfl, le_rfl⟩, ha⟩

theorem newTable : Run.newTable.Seals s fun s' t => s'.Knows (.table t) := by
  have fits : s.Fits (s.newTable {}).2 := ⟨by simp, le_rfl⟩
  have table (t : TableId) : (s.newTable {}).2.table t = s.table t ∨ (s.newTable {}).2.table t = default := by
    rw [Store.table_newTable]
    split_ifs
    · exact .inr rfl
    · exact .inl rfl
  refine ⟨_, _, rfl, h.grow fits table rfl, fits, ?_⟩
  show s.tables.size < (s.newTable {}).2.tables.size
  simp

theorem newBuiltin (b : Builtin) (captured : List Value) :
    (Run.newBuiltin b captured).Seals s fun s' f => s'.Knows f :=
  ⟨_, _, rfl, h.grow ⟨le_rfl, le_rfl⟩ (fun _ => .inl rfl) rfl, ⟨le_rfl, le_rfl⟩, trivial⟩

theorem standardStream (readable writable : Bool) :
    (Fresh.standardStream readable writable).Seals s fun s' o => s'.Knows (.object o) := by
  have fits : s.Fits (s.newObject (.file { readable, writable })).2 :=
    ⟨le_rfl, by simp [Store.newObject]⟩
  refine ⟨_, _, rfl, h.grow fits (fun _ => .inl rfl) rfl, fits, ?_⟩
  show s.objects.size < (s.objects.push _).size
  simp

theorem rawGetText (t : TableId) (name : String) :
    (Run.rawGetText t name).Seals s fun s' v => s'.Knows v :=
  ⟨_, _, rfl, h, ⟨le_rfl, le_rfl⟩, h.value t _⟩

theorem rawSetKey (t : TableId) (key : Value) (hv : s.Knows v) :
    (Run.rawSetKey t key v).Seals s fun _ _ => True :=
  ⟨_, _, rfl, h.set t key hv, ⟨(Store.size_modifyTable ..).ge, le_rfl⟩, trivial⟩

theorem rawSetText (t : TableId) (name : String) (hv : s.Knows v) :
    (Run.rawSetText t name v).Seals s fun _ _ => True := rawSetKey h t (.text name) hv

end Run.Seals

/-! ## The fresh store -/

namespace Fresh

open Store Run

section

variable (h : s.Sealed)

include h

theorem setFunction_seals (t : TableId) (name : String) (b : Builtin) (captured : List Value) :
    (setFunction t name b captured).Seals s fun _ _ => True :=
  .bind (.newBuiltin h b captured) fun _ _ h₁ _ hf => .rawSetText h₁ t name hf

omit h in
theorem setNames_seals (t : TableId) : ∀ (names : Library.Names) {s : Store}, s.Sealed →
    (setNames t names).Seals s fun _ _ => True
  | [], _, h => .pure h trivial
  | (name, b) :: rest, _, h => .bind (setFunction_seals h t name b []) fun _ _ h₁ _ _ =>
    setNames_seals t rest h₁

theorem tableOf_seals (names : Library.Names) :
    (tableOf names).Seals s fun s' t => s'.Knows (.table t) :=
  .bind (.newTable h) fun t _ h₁ _ ht => .bind (setNames_seals t names h₁) fun _ _ h₂ fits _ =>
    .pure h₂ (Knows.up ht fits)

variable (globals : TableId) {loaded : TableId}

theorem addLibrary_seals (loaded : TableId) (name : String) (names : Library.Names) :
    (addLibrary globals loaded name names).Seals s fun s' t => s'.Knows (.table t) := by
  refine .bind (tableOf_seals h names) fun t s₁ h₁ _ ht => ?_
  refine .bind (.rawSetText (v := .table t) h₁ globals name ht) fun _ s₂ h₂ fits₂ _ => ?_
  replace ht := Knows.up ht fits₂
  refine .bind (.rawSetText (v := .table t) h₂ loaded name ht) fun _ s₃ h₃ fits₃ _ => ?_
  exact .pure h₃ (Knows.up ht fits₃)

theorem addIterators_seals : (addIterators globals).Seals s fun _ _ => True :=
  .bind (.rawGetText h globals _) fun _ _ h₁ _ _ =>
    .bind (setFunction_seals h₁ globals _ _ _) fun _ _ h₂ _ _ =>
      .bind (.newBuiltin h₂ _ _) fun _ _ h₃ _ _ => setFunction_seals h₃ globals _ _ _

theorem addMath_seals (loaded : TableId) : (addMath globals loaded).Seals s fun _ _ => True := by
  refine .bind (addLibrary_seals h globals loaded _ _) fun t s₁ h₁ _ _ => ?_
  refine .bind (.rawGetText h₁ t _) fun v s₂ h₂ _ hv => ?_
  refine .bind (.rawSetText h₂ t _ hv) fun _ s₃ h₃ _ _ => ?_
  refine .bind (.rawSetText h₃ t _ trivial) fun _ s₄ h₄ _ _ => ?_
  refine .bind (.rawSetText h₄ t _ trivial) fun _ s₅ h₅ _ _ => ?_
  refine .bind (.rawSetText h₅ t _ trivial) fun _ s₆ h₆ _ _ => ?_
  exact .rawSetText h₆ t _ trivial

theorem addString_seals (loaded : TableId) : (addString globals loaded).Seals s fun _ _ => True := by
  refine .bind (addLibrary_seals h globals loaded _ _) fun t s₁ h₁ _ ht => ?_
  refine .bind (tableOf_seals h₁ _) fun events s₂ h₂ fits₂ he => ?_
  refine .bind (.rawSetText (v := .table t) h₂ events _ (Knows.up ht fits₂)) fun _ s₃ h₃ fits₃ _ => ?_
  replace he := Knows.up he fits₃
  refine ⟨_, _, rfl, { h₃ with stringMeta := ?_ }, ⟨le_rfl, le_rfl⟩, trivial⟩
  rintro _ ⟨⟩
  exact he

theorem addUtf8_seals (loaded : TableId) : (addUtf8 globals loaded).Seals s fun _ _ => True :=
  .bind (addLibrary_seals h globals loaded _ _) fun t _ h₁ _ _ => .rawSetText h₁ t _ trivial

theorem addFiles_seals (loaded : TableId) : (addFiles globals loaded).Seals s fun _ _ => True := by
  refine .bind (addLibrary_seals h globals loaded _ _) fun t s₁ h₁ _ _ => ?_
  refine .bind (tableOf_seals h₁ _) fun events s₂ h₂ _ he => ?_
  refine .bind (tableOf_seals h₂ _) fun methods s₃ h₃ fits₃ hm => ?_
  replace he := Knows.up he fits₃
  refine .bind (.rawSetText (v := .table methods) h₃ events _ hm) fun _ s₄ h₄ fits₄ _ => ?_
  refine .bind (.rawSetText h₄ events _ trivial) fun _ s₅ h₅ fits₅ _ => ?_
  replace he := Knows.up he (fits₄.trans fits₅)
  refine .bind (.standardStream h₅ true false) fun input s₆ h₆ fits₆ hi => ?_
  refine .bind (.standardStream h₆ false true) fun output s₇ h₇ fits₇ ho => ?_
  refine .bind (.standardStream h₇ false true) fun errors s₈ h₈ fits₈ herr => ?_
  replace he := Knows.up he (fits₆.trans (fits₇.trans fits₈))
  replace hi := Knows.up hi (fits₇.trans fits₈)
  replace ho := Knows.up ho fits₈
  refine .bind (.rawSetText (v := .object input) h₈ t _ hi) fun _ s₉ h₉ fits₉ _ => ?_
  refine .bind (.rawSetText (v := .object output) h₉ t _ (Knows.up ho fits₉)) fun _ s₁₀ h₁₀ fits₁₀ _ => ?_
  replace herr := Knows.up herr (fits₉.trans fits₁₀)
  refine .bind (.rawSetText (v := .object errors) h₁₀ t _ herr) fun _ s₁₁ h₁₁ fits₁₁ _ => ?_
  replace he := Knows.up he (fits₉.trans (fits₁₀.trans fits₁₁))
  refine ⟨_, _, rfl, { h₁₁ with fileMeta := ?_ }, ⟨le_rfl, le_rfl⟩, trivial⟩
  rintro _ ⟨⟩
  exact he

theorem addPackage_seals (hl : s.Knows (.table loaded)) :
    (addPackage globals loaded).Seals s fun _ _ => True := by
  refine .bind (addLibrary_seals h globals loaded _ _) fun t s₁ h₁ fits₁ _ => ?_
  refine .bind (setFunction_seals h₁ t _ _ _) fun _ s₂ h₂ fits₂ _ => ?_
  refine .bind (.rawSetText h₂ t _ trivial) fun _ s₃ h₃ fits₃ _ => ?_
  refine .bind (.rawSetText h₃ t _ trivial) fun _ s₄ h₄ fits₄ _ => ?_
  refine .bind (.rawSetText h₄ t _ trivial) fun _ s₅ h₅ fits₅ _ => ?_
  replace hl := Knows.up hl (fits₁.trans (fits₂.trans (fits₃.trans (fits₄.trans fits₅))))
  refine .bind (.rawSetText (v := .table loaded) h₅ t _ hl) fun _ s₆ h₆ _ _ => ?_
  refine .bind (.newTable h₆) fun preload s₇ h₇ _ hp => ?_
  refine .bind (.rawSetText (v := .table preload) h₇ t _ hp) fun _ s₈ h₈ fits₈ _ => ?_
  refine .bind (.newTable h₈) fun searchers s₉ h₉ fits₉ hs => ?_
  replace hp := Knows.up hp (fits₈.trans fits₉)
  refine .bind (.newBuiltin h₉ _ _) fun _ s₁₀ h₁₀ fits₁₀ hf => ?_
  refine .bind (.rawSetKey h₁₀ searchers _ hf) fun _ s₁₁ h₁₁ fits₁₁ _ => ?_
  refine .bind (.newBuiltin h₁₁ _ _) fun _ s₁₂ h₁₂ fits₁₂ hf => ?_
  refine .bind (.rawSetKey h₁₂ searchers _ hf) fun _ s₁₃ h₁₃ fits₁₃ _ => ?_
  refine .bind (.newBuiltin h₁₃ _ _) fun _ s₁₄ h₁₄ fits₁₄ hf => ?_
  refine .bind (.rawSetKey h₁₄ searchers _ hf) fun _ s₁₅ h₁₅ fits₁₅ _ => ?_
  have fits := fits₁₀.trans (fits₁₁.trans (fits₁₂.trans (fits₁₃.trans (fits₁₄.trans fits₁₅))))
  replace hs := Knows.up hs fits
  refine .bind (.rawSetText (v := .table searchers) h₁₅ t _ hs) fun _ s₁₆ h₁₆ fits₁₆ _ => ?_
  refine .bind (setFunction_seals h₁₆ globals _ _ _) fun _ s₁₇ h₁₇ fits₁₇ _ => ?_
  replace hp := Knows.up hp (fits.trans (fits₁₆.trans fits₁₇))
  exact ⟨_, _, rfl, { h₁₇ with preload := hp }, ⟨le_rfl, le_rfl⟩, trivial⟩

omit globals in
theorem addFailures_seals : addFailures.Seals s fun _ _ => True := by
  refine .bind (.newTable h) fun t s₁ h₁ _ ht => ?_
  refine .bind (setFunction_seals h₁ t _ _ _) fun _ s₂ h₂ fits₂ _ => ?_
  refine .bind (.rawSetText h₂ t _ trivial) fun _ s₃ h₃ fits₃ _ => ?_
  replace ht := Knows.up ht (fits₂.trans fits₃)
  refine ⟨_, _, rfl, { h₃ with failureMeta := ?_ }, ⟨le_rfl, le_rfl⟩, trivial⟩
  rintro _ ⟨⟩
  exact ht

end

theorem first_sealed (around : Surroundings) : ((bare around).newTable {}).2.Sealed where
  value t key := by
    rw [table_newTable]
    split_ifs
    all_goals exact Table.get_default key ▸ trivial
  metatable t m hm := by
    rw [table_newTable] at hm
    split_ifs at hm
    all_goals cases hm
  stringMeta _ h := by cases h
  failureMeta _ h := by cases h
  fileMeta _ h := by cases h
  loaded := Nat.zero_lt_one
  preload := Nat.zero_lt_one

theorem fill_seals (around : Surroundings) : fill.Seals (bare around) fun _ _ => True := by
  refine .bind (P := fun s' t => s'.Knows (.table t))
    ⟨_, _, rfl, first_sealed around, ⟨Nat.zero_le _, le_rfl⟩, Nat.zero_lt_one⟩ fun globals s₁ h₁ _ hg => ?_
  refine .bind (.newTable h₁) fun loaded s₂ h₂ fits₂ hl => ?_
  replace hg := Knows.up hg fits₂
  refine .bind (P := fun _ _ => True)
    ⟨_, { s₂ with globals, loaded }, rfl, { h₂ with loaded := hl }, ⟨le_rfl, le_rfl⟩, trivial⟩
    fun _ s₃ h₃ fits₃ _ => ?_
  refine .bind (setNames_seals globals _ h₃) fun _ s₄ h₄ fits₄ _ => ?_
  replace hg := Knows.up hg (fits₃.trans fits₄)
  replace hl := Knows.up hl (fits₃.trans fits₄)
  refine .bind (.rawSetText (v := .table globals) h₄ globals _ hg) fun _ s₅ h₅ fits₅ _ => ?_
  refine .bind (.rawSetText h₅ globals _ trivial) fun _ s₆ h₆ fits₆ _ => ?_
  replace hg := Knows.up hg (fits₅.trans fits₆)
  refine .bind (.rawSetText (v := .table globals) h₆ loaded _ hg) fun _ s₇ h₇ fits₇ _ => ?_
  refine .bind (addIterators_seals h₇ globals) fun _ s₈ h₈ fits₈ _ => ?_
  replace hl := Knows.up hl (fits₅.trans (fits₆.trans (fits₇.trans fits₈)))
  refine .bind (addPackage_seals h₈ globals hl) fun _ s₉ h₉ _ _ => ?_
  refine .bind (addLibrary_seals h₉ globals loaded _ _) fun _ s₁₀ h₁₀ _ _ => ?_
  refine .bind (addLibrary_seals h₁₀ globals loaded _ _) fun _ s₁₁ h₁₁ _ _ => ?_
  refine .bind (addFiles_seals h₁₁ globals loaded) fun _ s₁₂ h₁₂ _ _ => ?_
  refine .bind (addLibrary_seals h₁₂ globals loaded _ _) fun _ s₁₃ h₁₃ _ _ => ?_
  refine .bind (addString_seals h₁₃ globals loaded) fun _ s₁₄ h₁₄ _ _ => ?_
  refine .bind (addMath_seals h₁₄ globals loaded) fun _ s₁₅ h₁₅ _ _ => ?_
  exact .bind (addUtf8_seals h₁₅ globals loaded) fun _ s₁₆ h₁₆ _ _ => addFailures_seals h₁₆

theorem store_sealed (around : Surroundings) : (store around).Sealed := by
  obtain ⟨_, s, hfill, sealed, -⟩ := fill_seals around
  unfold store
  rw [hfill]
  exact sealed

end Fresh

theorem State.fresh_sealed (around : Surroundings) : (State.fresh around).store.Sealed := by
  have sealed := Fresh.store_sealed around
  unfold State.fresh
  generalize Fresh.store around = s at sealed
  exact sealed

end Enclosure.Lua
