import Enclosure.Proofs.Native.Disabled
import Enclosure.Proofs.Reach.Opener

/-!
# Discreet attempts

What the host does while a sandbox is built may add to what is kept of openings, but what was kept stays
kept. Of all that is kept something is promised, which an attempt keeps that is discreet. A loader all
of whose openers are discreet, where the promise is that what is kept is in the realm, loads discreetly
(`load_discreet`); so openers may load other modules.
-/

namespace Enclosure

open Lua

variable {R R' R₁ R₂ : Realm} {st st' st₁ st₂ : State} {W W' : Set TableId}

/-- Something that is promised of the tables that are kept, each under a name. -/
structure Pledge where
  holds : Realm → String → TableId → Prop
  up : ∀ {R R' name t}, R ≤ R' → holds R name t → holds R' name t

instance : LE Pledge := ⟨fun K K' => ∀ R name t, K.holds R name t → K'.holds R name t⟩

/-- What is kept is in the realm. -/
def Pledge.inRealm : Pledge := ⟨fun R _ t => t ∈ R.tables, fun h => (h.1 ·)⟩

variable {K K' : Pledge}

/-- A state that a realm stands on, in which the pledge is kept. -/
structure Lua.State.Footing (K : Pledge) (R : Realm) (st : State) : Prop where
  sound : st.Sound R
  holds : st.Holds R
  kept : ∀ name t, st.store.natives.lookup name = some t → K.holds R name t

/-- A progress by which what was kept stays kept. -/
structure Lua.State.Advance (W : Set TableId) (R : Realm) (st : State) (R' : Realm)
    (st' : State) : Prop extends State.Progress W R st R' st' where
  retains : ∀ name t, st.store.natives.lookup name = some t →
    st'.store.natives.lookup name = some t

namespace Lua.State

theorem Footing.mono (h : st.Footing K R) (hK : K ≤ K') : st.Footing K' R :=
  ⟨h.sound, h.holds, fun name t ht => hK R name t (h.kept name t ht)⟩

/-- A progress in which nothing is kept or forgotten. -/
theorem Footing.progress (h : st.Footing K R) (hp : State.Progress W R st R' st')
    (natives : st'.store.natives = st.store.natives) : st'.Footing K R' where
  sound := hp.sound
  holds := hp.holds h.holds
  kept name t ht := K.up hp.le (h.kept name t (natives ▸ ht))

namespace Advance

theorem of_progress (h : State.Progress W R st R' st')
    (natives : st'.store.natives = st.store.natives) : Advance W R st R' st' :=
  { h with retains := fun _ _ ht => natives ▸ ht }

theorem refl (h : st.Sound R) : Advance W R st R st := of_progress (.refl h) rfl

theorem trans (h : Advance W R st R₁ st₁) (h' : Advance W' R₁ st₁ R₂ st₂)
    (hW : ∀ t ∈ W', t ∈ W ∨ st.store.tables.size ≤ t.index) : Advance W R st R₂ st₂ :=
  { h.toProgress.trans h'.toProgress hW with
    retains := fun name t ht => h'.retains name t (h.retains name t ht) }

theorem mono (h : Advance W R st R' st') (hW : W ⊆ W') : Advance W' R st R' st' :=
  { h with toProgress := h.toProgress.mono hW }

end Advance

end Lua.State

namespace Attempt

variable {ε ε' α β : Type} {P : Realm → α → Prop} {Q : Realm → β → Prop} {m : Attempt State ε α}
  {f : α → Attempt State ε β}

/-- An attempt that keeps a pledge, in the realm and what it makes, and hands on nothing else. -/
def Discreet (K : Pledge) (R : Realm) (P : Realm → α → Prop) (m : Attempt State ε α) : Prop :=
  ∀ st, st.Footing K R → ∃ R', State.Advance ∅ R st R' (m.on st).2
    ∧ (m.on st).2.Footing K R' ∧ ∀ a, (m.on st).1 = .ok a → P R' a

theorem Tame.discreet (h : m.Tame R P) : m.Discreet K R P := fun st hst => by
  obtain ⟨R', progress, ledger, ha⟩ := h st hst.sound
  have natives := congrArg Ledger.natives ledger
  exact ⟨R', .of_progress progress natives, hst.progress progress natives, ha⟩

namespace Discreet

theorem bind (h : m.Discreet K R P) (hf : ∀ a R', R ≤ R' → P R' a → (f a).Discreet K R' Q) :
    Discreet K R Q (m >>= f) := by
  intro st hst
  obtain ⟨R₁, h₁, hst₁, ha⟩ := h st hst
  rw [on_bind]
  generalize m.on st = r at h₁ hst₁ ha
  obtain ⟨e | a, st₁⟩ := r
  · exact ⟨R₁, h₁, hst₁, nofun⟩
  · obtain ⟨R₂, h₂, hst₂, hb⟩ := hf a R₁ h₁.le (ha a rfl) st₁ hst₁
    exact ⟨R₂, h₁.trans h₂ fun _ => .inl, hst₂, hb⟩

theorem mapError {g : ε → ε'} (h : m.Discreet K R P) : Discreet K R P (m.mapError g) := by
  intro st hst
  obtain ⟨R₁, h₁, hst₁, ha⟩ := h st hst
  rw [on_mapError]
  refine ⟨R₁, h₁, hst₁, fun a hm => ha a ?_⟩
  generalize (m.on st).1 = r at hm
  cases r <;> cases hm
  rfl

theorem ok {a : α} (h : m.Discreet K R P) (hst : st.Footing K R) (hm : m.on st = (.ok a, st')) :
    ∃ R', State.Advance ∅ R st R' st' ∧ st'.Footing K R' ∧ P R' a := by
  obtain ⟨R', advance, hst', ha⟩ := h st hst
  rw [hm] at advance hst' ha
  exact ⟨R', advance, hst', ha a rfl⟩

end Discreet

end Attempt

namespace NativeLoader

open Attempt

variable {l : NativeLoader} {m : NativeModule} {name : String} {t : TableId}

/-- What is kept under a name takes the place of nothing that was there at first. -/
theorem advance_keep (h : State.Advance W R st R₁ st₁) (fresh : st.store.natives.lookup name = none) :
    State.Advance W R st R₁ (keep st₁ name t) where
  toProgress := h.toProgress.trans (State.Progress.note (W := ∅) h.sound _ _ _) fun _ hw => hw.elim
  retains name' t' ht' := by
    have hne : name' ≠ name := by
      rintro rfl
      rw [fresh] at ht'
      cases ht'
    simpa [keep, List.lookup_cons, beq_eq_false_iff_ne.2 hne] using h.retains name' t' ht'

theorem footing_keep (h : st.Footing K R) (ht : K.holds R name t) : (keep st name t).Footing K R where
  sound := (State.Progress.note (W := ∅) h.sound _ _ _).sound
  holds := (State.Progress.note (W := ∅) h.sound _ _ _).holds h.holds
  kept name' t' ht' := by
    by_cases hname : name' = name
    · subst hname
      rw [keep, List.lookup_cons_self] at ht'
      exact Option.some.inj ht' ▸ ht
    · rw [keep, List.lookup_cons, beq_eq_false_iff_ne.2 hname] at ht'
      exact h.kept name' t' ht'

/-- Opening a module under a name under which nothing is kept; its opener may have kept something
there, too, which is then forgotten. -/
theorem openModule_discreet (hm : m.opener.Discreet .inRealm R Opener.InRealm)
    (hst : st.Footing .inRealm R) (fresh : st.store.natives.lookup name = none) :
    ∃ R', State.Advance ∅ R st R' ((openModule m name).on st).2
      ∧ ((openModule m name).on st).2.Footing .inRealm R'
      ∧ ∀ t, ((openModule m name).on st).1 = .ok t → t ∈ R'.tables := by
  have noted : State.Progress ∅ R st R (beginOpening m st) := .note hst.sound _ _ _
  have advance₀ : State.Advance ∅ R st R (beginOpening m st) := .of_progress noted rfl
  obtain ⟨R₁, advance₁, hst₁, ht⟩ := hm (beginOpening m st) (hst.progress noted rfl)
  replace advance₁ := advance₀.trans advance₁ fun _ => .inl
  rw [openModule_on]
  unfold finishOpening
  generalize m.opener.on (beginOpening m st) = r at advance₁ hst₁ ht
  obtain ⟨e | t, st₁⟩ := r
  · exact ⟨R₁, advance₁, hst₁, nofun⟩
  · replace ht := ht t rfl
    obtain ⟨R₂, advance₂, hst₂, -⟩ := (each_disable_tame name m.disabled ht).discreet st₁ hst₁
    have advance := advance₁.trans advance₂ fun _ => .inl
    dsimp only
    generalize (each (disable name t) m.disabled).on st₁ = r at advance₂ hst₂ advance
    obtain ⟨e | _, st₂⟩ := r
    · exact ⟨R₂, advance, hst₂, nofun⟩
    · have ht₂ : t ∈ R₂.tables := advance₂.le.1 ht
      refine ⟨R₂, advance_keep advance fresh, footing_keep hst₂ ht₂, ?_⟩
      rintro _ ⟨⟩
      exact ht₂

theorem load_discreet (h : ∀ name m, l.module? name = some m →
    ∀ R : Realm, m.opener.Discreet .inRealm R Opener.InRealm) (name : String) :
    (l.load name).Discreet .inRealm R Opener.InRealm := by
  intro st hst
  by_cases hp : l.permits name
  · rcases hm : l.module? name with _ | m
    · rw [load_on, if_pos hp, hm]
      exact ⟨R, .refl hst.sound, hst, nofun⟩
    · rcases hkept : st.store.natives.lookup name with _ | t
      · rw [load_on, if_pos hp, hm]
        dsimp only
        rw [hkept]
        exact openModule_discreet (h name m hm R) hst hkept
      · rw [load_on, if_pos hp, hm]
        dsimp only
        rw [hkept]
        refine ⟨R, .refl hst.sound, hst, ?_⟩
        rintro _ ⟨⟩
        exact hst.kept name t hkept
  · rw [load_on, if_neg hp]
    exact ⟨R, .refl hst.sound, hst, nofun⟩

/-- After a load that handed out a table, the table is kept under the name. -/
theorem load_keeps (h : (l.load name).on st = (.ok t, st')) :
    st'.store.natives.lookup name = some t := by
  obtain ⟨m, hm, ⟨hkept, rfl⟩ | ⟨-, hopen⟩⟩ := load_ok h
  · exact hkept
  · obtain ⟨_, _, -, -, rfl⟩ := openModule_made hopen
    exact List.lookup_cons_self

end NativeLoader

end Enclosure
