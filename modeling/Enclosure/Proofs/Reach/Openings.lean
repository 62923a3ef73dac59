import Enclosure.Proofs.Reach.Discreet

/-!
# Openings

What the host does while a sandbox is built is followed by the names of the modules that it opens. Parts
one after another open what each of them does, and an attempt that fails has opened some of the first
modules that it was to open (`Opens.bind`). All else stays in a realm, with tables out of its reach that
the host writes. An opener that calls no loader opens its own module and no other
(`openModule_alone`).
-/

namespace Enclosure

open Lua Attempt

variable {R R' R₁ R₂ : Realm} {st st' st₁ st₂ : State} {names more : List String} {name : String}
  {ns t : TableId}

/-- An opener that makes its table by itself: it calls no loader, nor leaves behind functions that do. -/
def Opener.Alone (opener : Lua.Action TableId) : Prop := ∀ R : Realm, opener.Tame R InRealm

/-! ## Stretches with openings -/

/-- A stretch in which modules are opened under the names, in order, and nothing is kept under others.
Tables out of reach may be written. -/
structure Openings (names : List String) (R : Realm) (st : State) (R' : Realm) (st' : State) :
    Prop where
  progress : State.Progress .univ R st R' st'
  opened : st'.store.opened = names.reverse ++ st.store.opened
  natives : ∀ name ∉ names, st'.store.natives.lookup name = st.store.natives.lookup name

namespace Openings

theorem refl (h : st.Sound R) : Openings [] R st R st := ⟨.refl h, rfl, fun _ _ => rfl⟩

theorem trans (h : Openings names R st R₁ st₁) (h' : Openings more R₁ st₁ R₂ st₂) :
    Openings (names ++ more) R st R₂ st₂ where
  progress := h.progress.trans h'.progress fun _ _ => .inl trivial
  opened := by rw [h'.opened, h.opened, List.reverse_append, List.append_assoc]
  natives name hname := by
    rw [List.mem_append, not_or] at hname
    rw [h'.natives name hname.2, h.natives name hname.1]

/-- A progress in which nothing is recorded of openings. -/
theorem of_progress {W : Set TableId} (h : State.Progress W R st R' st')
    (opened : st'.store.opened = st.store.opened) (natives : st'.store.natives = st.store.natives) :
    Openings [] R st R' st' :=
  ⟨h.mono (Set.subset_univ W), opened, fun _ _ => by rw [natives]⟩

theorem keep (h : Openings names R st R' st') (hname : name ∈ names) (t : TableId) :
    Openings names R st R' (NativeLoader.keep st' name t) where
  progress := h.progress.trans (.note (W := ∅) h.progress.sound _ _ _) fun _ hw => hw.elim
  opened := h.opened
  natives name' hname' := by
    have hne : name' ≠ name := fun he => hname' (he ▸ hname)
    rw [← h.natives name' hname', NativeLoader.keep, List.lookup_cons, beq_eq_false_iff_ne.2 hne]

end Openings

/-- A state that a realm stands on, with a table out of reach. -/
structure Beyond (ns : TableId) (R : Realm) (st : State) : Prop where
  sound : st.Sound R
  holds : st.Holds R
  hidden : ns ∉ R.tables
  lt : ns.index < st.store.tables.size

theorem Beyond.openings (h : Beyond ns R st) (ho : Openings names R st R' st') : Beyond ns R' st' where
  sound := ho.progress.sound
  holds := ho.progress.holds h.holds
  hidden := ho.progress.not_mem h.hidden h.lt
  lt := Nat.lt_of_lt_of_le h.lt ho.progress.tables_size

namespace Attempt

variable {ε ε' α β : Type} {P : Realm → State → α → Prop} {Q : Realm → State → β → Prop}
  {m : Attempt State ε α} {f : α → Attempt State ε β}

/-- From the state, an attempt opens the modules of these names, or it fails when some of the first of
them are opened. -/
def Opens (names : List String) (R : Realm) (P : Realm → State → α → Prop) (m : Attempt State ε α)
    (st : State) : Prop :=
  m.Ends (fun a st' => ∃ R', Openings names R st R' st' ∧ P R' st' a)
    (fun st' => ∃ done R', done <+: names ∧ Openings done R st R' st') st

theorem Tame.opens {P : Realm → α → Prop} (h : m.Tame R P) (hst : st.Sound R) :
    m.Opens [] R (fun R' _ => P R') st := by
  obtain ⟨R', progress, ledger, ha⟩ := h st hst
  have openings : Openings [] R st R' (m.on st).2 :=
    .of_progress progress (congrArg Ledger.opened ledger) (congrArg Ledger.natives ledger)
  refine .of (fun a st' hm => ?_) fun e st' hm => ?_
  · rw [hm] at openings ha
    exact ⟨R', openings, ha a rfl⟩
  · rw [hm] at openings
    exact ⟨[], R', List.prefix_rfl, openings⟩

namespace Opens

theorem pure {a : α} (hst : st.Sound R) (ha : P R st a) :
    Opens [] R P (Pure.pure a : Attempt State ε α) st :=
  ⟨R, .refl hst, ha⟩

theorem imp {Q : Realm → State → α → Prop} (h : m.Opens names R P st)
    (hPQ : ∀ a R' st', Openings names R st R' st' → P R' st' a → Q R' st' a) :
    m.Opens names R Q st :=
  Ends.mono h (fun a st' ⟨R', openings, ha⟩ => ⟨R', openings, hPQ a R' st' openings ha⟩)
    fun _ => id

/-- What comes of an attempt after modules were opened. -/
theorem since (ho : Openings names R st R₁ st₁) (h : m.Opens more R₁ P st₁) :
    m.Ends (fun a st' => ∃ R', Openings (names ++ more) R st R' st' ∧ P R' st' a)
      (fun st' => ∃ done R', done <+: names ++ more ∧ Openings done R st R' st') st₁ := by
  refine Ends.mono h ?_ ?_
  · rintro a st' ⟨R', openings, ha⟩
    exact ⟨R', ho.trans openings, ha⟩
  · rintro st' ⟨done, R', hdone, openings⟩
    exact ⟨names ++ done, R', (List.prefix_append_right_inj names).2 hdone, ho.trans openings⟩

theorem bind (h : m.Opens names R P st)
    (hf : ∀ a R' st', Openings names R st R' st' → P R' st' a → (f a).Opens more R' Q st') :
    (m >>= f).Opens (names ++ more) R Q st := by
  refine Ends.bind (Ends.mono h (fun _ _ => id) ?_) ?_
  · rintro st' ⟨done, R', hdone, openings⟩
    exact ⟨done, R', hdone.trans (List.prefix_append ..), openings⟩
  · rintro a st₁ ⟨R₁, openings₁, ha⟩
    exact since openings₁ (hf a R₁ st₁ openings₁ ha)

theorem andThen (h : m.Opens names R P st)
    (hf : ∀ a R' st', Openings names R st R' st' → P R' st' a → (f a).Opens [] R' Q st') :
    (m >>= f).Opens names R Q st :=
  names.append_nil ▸ h.bind hf

theorem mapError {g : ε → ε'} (h : m.Opens names R P st) : (m.mapError g).Opens names R P st :=
  Ends.mapError h

theorem orFail {e : ε} {a? : Option α} (hst : st.Sound R) (ha : ∀ a, a? = some a → P R st a) :
    (Attempt.orFail e a?).Opens [] R P st := by
  cases a? with
  | none => exact ⟨[], R, List.prefix_rfl, .refl hst⟩
  | some a => exact ⟨R, .refl hst, ha a rfl⟩

/-- A table that is out of reach is written. -/
theorem write (hst : Beyond ns R st) (F : Table → Table) :
    (Action.modify (·.modifyTable ns F)).Opens [] R (fun _ _ _ => True) st :=
  ⟨R, .of_progress (.write hst.sound hst.hidden F) rfl rfl, trivial⟩

theorem setText (hst : Beyond ns R st) (name : String) (v : Value) :
    (Action.rawSetText ns name v).Opens [] R (fun _ _ _ => True) st :=
  ⟨R, .of_progress (.write hst.sound hst.hidden _) rfl rfl, trivial⟩

/-- Items in turn, each of which opens modules where something holds that openings do not undo. -/
theorem each {o : β → List String} {g : β → Attempt State ε Unit} {I : Realm → State → Prop}
    (sound : ∀ {R st}, I R st → st.Sound R)
    (hI : ∀ {names R st R' st'}, I R st → Openings names R st R' st' → I R' st')
    (hg : ∀ b R st, I R st → (g b).Opens (o b) R (fun _ _ _ => True) st) :
    ∀ (items : List β) {R : Realm} {st : State}, I R st →
      (Attempt.each g items).Opens (items.flatMap o) R (fun _ _ _ => True) st
  | [], _, _, hst => pure (sound hst) trivial
  | b :: rest, R, st, hst => by
    rw [List.flatMap_cons]
    exact (hg b R st hst).bind fun _ _ _ openings _ => each sound hI hg rest (hI hst openings)

end Opens

end Attempt

/-! ## Loads -/

namespace NativeLoader

theorem openModule_alone {m : NativeModule} (alone : Opener.Alone m.opener) (hst : st.Sound R) :
    (openModule m m.name).Opens [m.name] R (fun R' _ t => t ∈ R'.tables) st := by
  have noted : Openings [m.name] R st R (beginOpening m st) := ⟨.note hst _ _ _, rfl, fun _ _ => rfl⟩
  refine Ends.bind (P := fun _ st₁ => st₁ = beginOpening m st) rfl ?_
  rintro _ _ rfl
  refine Ends.bind (((alone R).opens noted.progress.sound).mapError.since noted) ?_
  rintro t st₁ ⟨R₁, openings₁, ht⟩
  have disabled : (each (disable m.name t) m.disabled).Opens [] R₁ (fun R' _ _ => t ∈ R'.tables) st₁ :=
    ((each_disable_tame m.name m.disabled ht).opens openings₁.progress.sound).imp
      fun _ _ _ openings _ => openings.progress.le.1 ht
  refine Ends.bind (disabled.since openings₁) ?_
  rintro _ st₂ ⟨R₂, openings₂, ht₂⟩
  exact ⟨R₂, openings₂.keep (List.mem_singleton_self _) t, ht₂⟩

end NativeLoader

end Enclosure
