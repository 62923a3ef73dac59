import Enclosure.Proofs.Lua.Fresh
import Enclosure.Proofs.Reach.State

/-!
# The realm of a fresh state

What is in a fresh state is what filling the empty store has made, and all of it leads to nothing else:
there is a realm in which a fresh state is sound (`fresh_sound`). Nothing has been opened or looked for
in it.
-/

namespace Enclosure.Lua

variable {R : Realm}

namespace Fresh

theorem setFunction_tame {t : TableId} (ht : t ∈ R.tables) (name : String) (b : Builtin)
    {captured : List Value} (hc : R.HasAll captured) :
    (setFunction t name b captured).Tame R fun _ _ => True :=
  .bind (.newBuiltin b hc) fun _ _ hle hf => (Run.Calm.rawSetText (hle.1 ht) hf).any

theorem setNames_tame {t : TableId} : ∀ (names : Library.Names) {R : Realm}, t ∈ R.tables →
    (setNames t names).Tame R fun _ _ => True
  | [], _, _ => .pure trivial
  | (name, b) :: rest, _, ht => .bind (setFunction_tame ht name b Realm.hasAll_nil)
    fun _ _ hle _ => setNames_tame rest (hle.1 ht)

theorem tableOf_tame (names : Library.Names) :
    (tableOf names).Tame R fun R' t => t ∈ R'.tables :=
  .bind .newTable fun _ _ _ ht => .bind (setNames_tame names ht) fun _ _ hle _ => .pure (hle.1 ht)

section

variable {globals loaded : TableId}

theorem addLibrary_tame (hg : globals ∈ R.tables) (hl : loaded ∈ R.tables) (name : String)
    (names : Library.Names) :
    (addLibrary globals loaded name names).Tame R fun R' t => t ∈ R'.tables :=
  .bind (tableOf_tame names) fun t _ hle (ht : t ∈ Realm.tables _) =>
    .calmly (.rawSetText (v := .table t) (hle.1 hg) ht) fun _ _ =>
      .calmly (.rawSetText (v := .table t) (hle.1 hl) ht) fun _ _ => .pure ht

theorem addIterators_tame (hg : globals ∈ R.tables) :
    (addIterators globals).Tame R fun _ _ => True :=
  .calmly (.rawGet hg _) fun _ hnext =>
    .bind (setFunction_tame hg _ _ (Realm.hasAll_one hnext)) fun _ _ h₁ _ =>
      .bind (.newBuiltin _ Realm.hasAll_nil) fun _ _ h₂ hstep =>
        setFunction_tame ((h₁.trans h₂).1 hg) _ _ (Realm.hasAll_one hstep)

theorem addMath_tame (hg : globals ∈ R.tables) (hl : loaded ∈ R.tables) :
    (addMath globals loaded).Tame R fun _ _ => True := by
  refine .bind (addLibrary_tame hg hl _ _) fun t R₁ _ ht => .calmly (.rawGet ht _) fun v hv => ?_
  refine .calmly (.rawSetText ht hv) fun _ _ => ?_
  refine .calmly (.rawSetText ht (Realm.has_float _)) fun _ _ => ?_
  refine .calmly (.rawSetText ht (Realm.has_float _)) fun _ _ => ?_
  refine .calmly (.rawSetText ht (Realm.has_int _)) fun _ _ => ?_
  exact (Run.Calm.rawSetText ht (Realm.has_int _)).any

theorem setStringMeta_calm {events : TableId} (h : events ∈ R.tables) :
    (Run.modify fun s => { s with stringMeta := some events }).Calm R fun _ => True := by
  refine .modify fun s hs => .within { hs with stringMeta := ?_ } rfl rfl (fun _ _ => rfl)
    (fun _ _ => rfl) rfl
  rintro _ ⟨⟩
  exact h

theorem addString_tame (hg : globals ∈ R.tables) (hl : loaded ∈ R.tables) :
    (addString globals loaded).Tame R fun _ _ => True := by
  refine .bind (addLibrary_tame hg hl _ _) fun t R₁ _ ht => ?_
  refine .bind (tableOf_tame _) fun events R₂ h₂ he => ?_
  refine .calmly (.rawSetText (v := .table t) he (h₂.1 ht)) fun _ _ => ?_
  exact (setStringMeta_calm he).any

theorem addUtf8_tame (hg : globals ∈ R.tables) (hl : loaded ∈ R.tables) :
    (addUtf8 globals loaded).Tame R fun _ _ => True :=
  .bind (addLibrary_tame hg hl _ _) fun _ _ _ ht => (Run.Calm.rawSetText ht (Realm.has_str _)).any

theorem standardStream_calm (readable writable : Bool) :
    (standardStream readable writable).Calm R fun _ => True :=
  .step fun _ hs => ⟨trivial, .aside hs rfl⟩

theorem setStreams_calm {events : TableId} (h : events ∈ R.tables) (input output : ObjectId) :
    (Run.modify fun s => { s with
      fileMeta := some events, input := some input, standardOutput := some output }).Calm R
        fun _ => True := by
  refine .modify fun s hs => .within { hs with fileMeta := ?_ } rfl rfl (fun _ _ => rfl)
    (fun _ _ => rfl) rfl
  rintro _ ⟨⟩
  exact h

theorem addFiles_tame (hg : globals ∈ R.tables) (hl : loaded ∈ R.tables) :
    (addFiles globals loaded).Tame R fun _ _ => True := by
  refine .bind (addLibrary_tame hg hl _ _) fun t R₁ _ ht => ?_
  refine .bind (tableOf_tame _) fun events R₂ h₂ he => ?_
  refine .bind (tableOf_tame _) fun methods R₃ h₃ hm => ?_
  replace ht := (h₂.trans h₃).1 ht
  replace he := h₃.1 he
  refine .calmly (.rawSetText (v := .table methods) he hm) fun _ _ => ?_
  refine .calmly (.rawSetText he (Realm.has_text _)) fun _ _ => ?_
  refine .calmly (standardStream_calm _ _) fun input _ => ?_
  refine .calmly (standardStream_calm _ _) fun output _ => ?_
  refine .calmly (standardStream_calm _ _) fun errors _ => ?_
  refine .calmly (.rawSetText ht (Realm.has_object _)) fun _ _ => ?_
  refine .calmly (.rawSetText ht (Realm.has_object _)) fun _ _ => ?_
  refine .calmly (.rawSetText ht (Realm.has_object _)) fun _ _ => ?_
  exact (setStreams_calm he _ _).any

theorem setPreload_calm {preload : TableId} (h : preload ∈ R.tables) :
    (Run.modify fun s => { s with preload := preload }).Calm R fun _ => True :=
  .modify fun _ hs => .within { hs with preload := h } rfl rfl (fun _ _ => rfl) (fun _ _ => rfl) rfl

theorem addPackage_tame (hg : globals ∈ R.tables) (hl : loaded ∈ R.tables) :
    (addPackage globals loaded).Tame R fun _ _ => True := by
  refine .bind (addLibrary_tame hg hl _ _) fun t R₁ h₁ ht => ?_
  have hself {R' : Realm} (h : R₁ ≤ R') : R'.HasAll [.table t] := Realm.hasAll_one (h.1 ht)
  refine .bind (setFunction_tame ht _ _ Realm.hasAll_nil) fun _ R₂ h₂ _ => ?_
  have ht₂ := h₂.1 ht
  refine .calmly (.rawSetText ht₂ (Realm.has_text _)) fun _ _ => ?_
  refine .calmly (.rawSetText ht₂ (Realm.has_text _)) fun _ _ => ?_
  refine .calmly (.rawSetText ht₂ (Realm.has_text _)) fun _ _ => ?_
  refine .calmly (.rawSetText (v := .table loaded) ht₂ ((h₁.trans h₂).1 hl)) fun _ _ => ?_
  refine .bind .newTable fun preload R₃ h₃ hp => ?_
  refine .calmly (.rawSetText (v := .table preload) (h₃.1 ht₂) hp) fun _ _ => ?_
  refine .bind .newTable fun searchers R₄ h₄ hs => ?_
  have le₄ := h₂.trans (h₃.trans h₄)
  refine .bind (.newBuiltin _ (hself le₄)) fun f R₅ h₅ hf => ?_
  refine .calmly (.rawSetKey (h₅.1 hs) trivial hf) fun _ _ => ?_
  refine .bind (.newBuiltin _ (hself (le₄.trans h₅))) fun g R₆ h₆ hf => ?_
  refine .calmly (.rawSetKey ((h₅.trans h₆).1 hs) trivial hf) fun _ _ => ?_
  refine .bind (.newBuiltin _ (hself (le₄.trans (h₅.trans h₆)))) fun k R₇ h₇ hf => ?_
  have hs₇ := (h₅.trans (h₆.trans h₇)).1 hs
  have le₇ := le₄.trans (h₅.trans (h₆.trans h₇))
  refine .calmly (.rawSetKey hs₇ trivial hf) fun _ _ => ?_
  refine .calmly (.rawSetText (v := .table searchers) (le₇.1 ht) hs₇) fun _ _ => ?_
  refine .bind (setFunction_tame ((h₁.trans le₇).1 hg) _ _ (hself le₇)) fun _ R₈ h₈ _ => ?_
  exact (setPreload_calm ((h₄.trans (h₅.trans (h₆.trans (h₇.trans h₈)))).1 hp)).any

theorem addFailures_tame : addFailures.Tame R fun _ _ => True := by
  refine .bind .newTable fun t R₁ _ ht => ?_
  refine .bind (setFunction_tame ht _ _ Realm.hasAll_nil) fun _ R₂ h₂ _ => ?_
  refine .calmly (.rawSetText (h₂.1 ht) (Realm.has_bool _)) fun _ _ => ?_
  refine Run.Calm.any (A := fun _ => True) (.modify fun s hs =>
    .within { hs with failureMeta := ?_ } rfl rfl (fun _ _ => rfl) (fun _ _ => rfl) rfl)
  rintro _ ⟨⟩
  exact h₂.1 ht

theorem setRoots_calm (hg : globals ∈ R.tables) (hl : loaded ∈ R.tables) :
    (Run.modify fun s => { s with globals := globals, loaded := loaded }).Calm R fun _ => True :=
  .modify fun _ hs => .within { hs with globals := hg, loaded := hl } rfl rfl (fun _ _ => rfl)
    (fun _ _ => rfl) rfl

end

theorem fill_tame : fill.Tame R fun _ _ => True := by
  refine .bind .newTable fun globals R₁ _ hg => .bind .newTable fun loaded R₂ h₂ hl => ?_
  replace hg := h₂.1 hg
  refine .calmly (setRoots_calm hg hl) fun _ _ => ?_
  refine .bind (setNames_tame _ hg) fun _ R₃ h₃ _ => ?_
  replace hg := h₃.1 hg
  replace hl := h₃.1 hl
  refine .calmly (.rawSetText (v := .table globals) hg hg) fun _ _ => ?_
  refine .calmly (.rawSetText hg (Realm.has_text _)) fun _ _ => ?_
  refine .calmly (.rawSetText (v := .table globals) hl hg) fun _ _ => ?_
  refine .bind (addIterators_tame hg) fun _ R₄ h₄ _ => ?_
  replace hg := h₄.1 hg
  replace hl := h₄.1 hl
  refine .bind (addPackage_tame hg hl) fun _ R₅ h₅ _ => ?_
  replace hg := h₅.1 hg
  replace hl := h₅.1 hl
  refine .bind (addLibrary_tame hg hl _ _) fun _ R₆ h₆ _ => ?_
  replace hg := h₆.1 hg
  replace hl := h₆.1 hl
  refine .bind (addLibrary_tame hg hl _ _) fun _ R₇ h₇ _ => ?_
  replace hg := h₇.1 hg
  replace hl := h₇.1 hl
  refine .bind (addFiles_tame hg hl) fun _ R₈ h₈ _ => ?_
  replace hg := h₈.1 hg
  replace hl := h₈.1 hl
  refine .bind (addLibrary_tame hg hl _ _) fun _ R₉ h₉ _ => ?_
  replace hg := h₉.1 hg
  replace hl := h₉.1 hl
  refine .bind (addString_tame hg hl) fun _ R₁₀ h₁₀ _ => ?_
  replace hg := h₁₀.1 hg
  replace hl := h₁₀.1 hl
  refine .bind (addMath_tame hg hl) fun _ R₁₁ h₁₁ _ => ?_
  exact .bind (addUtf8_tame (h₁₁.1 hg) (h₁₁.1 hl)) fun _ _ _ _ => addFailures_tame

/-- The realm of a store with nothing in it but the names of tables. -/
def ground (s : Store) : Realm := ⟨{s.globals, s.loaded, s.preload}, ∅, ∅⟩

theorem ground_closed (around : Surroundings) : (ground (bare around)).Closed (bare around) where
  entries _ _ := .default
  metatable _ _ _ h := nomatch h
  function _ h := h.elim
  cell _ := trivial
  stringMeta _ h := nomatch h
  failureMeta _ h := nomatch h
  fileMeta _ h := nomatch h
  globals := .inl rfl
  loaded := .inr (.inl rfl)
  preload := .inr (.inr rfl)

end Fresh

/-- Filling the store leads from the names of tables to all that is there. -/
theorem Fresh.store_passage (around : Surroundings) :
    ∃ R, Passage (ground (bare around)) (bare around) R (store around) := by
  obtain ⟨s, hfill, -⟩ := fill_furnished around
  have h := fill_tame _ (ground_closed around)
  unfold store
  rw [hfill] at h ⊢
  cases h with
  | done hp _ => exact ⟨_, hp⟩

/-- In a fresh state there is a realm that leads nowhere else, all of which is there. -/
theorem State.fresh_sound (around : Surroundings) :
    ∃ R : Realm, (State.fresh around).Sound R ∧ (State.fresh around).Holds R := by
  obtain ⟨R, hp⟩ := Fresh.store_passage around
  have hsize := Nat.zero_lt_of_lt (Fresh.store_furnished around).loaded_lt
  unfold State.fresh
  generalize Fresh.store around = s at hp hsize
  have hcallbacks : R.callbacks = ∅ := hp.callbacks
  refine ⟨R, ⟨hp.closed, fun i => ?_, fun n hn => ?_⟩, fun t ht => ?_, fun f hf => ?_, fun n hn => ?_⟩
  · rcases i with _ | i <;> trivial
  · exact absurd hn (hcallbacks ▸ Set.notMem_empty n)
  · rcases hp.tables_new t ht with hroot | hnew
    · have hzero : t = ⟨0⟩ := by simpa [Fresh.ground, Fresh.bare] using hroot
      rw [hzero]
      exact hsize
    · exact hnew.2
  · exact (hp.functions_new f hf).elim (fun h => h.elim) fun hnew => hnew.2
  · exact absurd hn (hcallbacks ▸ Set.notMem_empty n)

theorem Fresh.store_ledger (around : Surroundings) : (store around).ledger = ⟨[], [], []⟩ := by
  obtain ⟨R, hp⟩ := store_passage around
  exact hp.ledger

/-- Nothing was opened and nothing looked for. -/
structure State.Blank (st : State) : Prop where
  natives : st.store.natives = []
  opened : st.store.opened = []
  tried : st.store.tried = []

theorem State.blank_of_ledger {s : Store} (h : s.ledger = ⟨[], [], []⟩) (threads : Array Thread)
    (callbacks : Array Callback) : State.Blank ⟨s, threads, callbacks⟩ :=
  ⟨congrArg Ledger.natives h, congrArg Ledger.opened h, congrArg Ledger.tried h⟩

/-- The store of a fresh state is not taken apart for this, which would fill it. -/
theorem State.fresh_blank (around : Surroundings) : (State.fresh around).Blank :=
  State.blank_of_ledger (Fresh.store_ledger around) _ _

end Enclosure.Lua
