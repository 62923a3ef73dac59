import Enclosure.Native.Loader
import Enclosure.Proofs.Reach.State

/-!
# Openers in a realm

Openers that make tables of values that are in the realm, or that run a source, stay in the realm and
what they make. So do the steps of a loader that take entry points out of a module's table.
-/

namespace Enclosure

open Lua

variable {R : Realm}

namespace Lua.Datum

mutual

/-- The values that are there already. -/
def values : Datum → List Value
  | .value v => [v]
  | .table entries => entryValues entries
  | .constant result => values result

def entryValues : List (Datum × Datum) → List Value
  | [] => []
  | (k, v) :: rest => values k ++ (values v ++ entryValues rest)

end

theorem hasAll_append {vs ws : List Value} : R.HasAll (vs ++ ws) ↔ R.HasAll vs ∧ R.HasAll ws :=
  List.forall_mem_append

mutual

theorem build_tame : ∀ (d : Datum) {R : Realm}, R.HasAll d.values → d.build.Tame R Realm.Has
  | .value v, R, h => by
    rw [build]
    exact .pure (h v (List.mem_singleton_self v))
  | .table entries, R, h => by
    rw [build]
    refine .bind .newTable fun t R₁ h₁ ht => ?_
    exact .bind (fill_tame entries ht (h.up h₁)) fun _ _ h₂ _ => .pure (h₂.1 ht)
  | .constant result, R, h => by
    rw [build]
    exact .bind (build_tame result h) fun v R₁ _ hv => .newBuiltin _ (Realm.hasAll_one hv)

theorem fill_tame {t : TableId} : ∀ (entries : List (Datum × Datum)) {R : Realm}, t ∈ R.tables →
    R.HasAll (entryValues entries) → (fill t entries).Tame R fun _ _ => True
  | [], R, _, _ => by
    rw [fill]
    exact .pure trivial
  | (k, v) :: rest, R, ht, h => by
    obtain ⟨hk, hrest⟩ := hasAll_append.1 h
    obtain ⟨hv, hrest⟩ := hasAll_append.1 hrest
    rw [fill]
    refine .bind (build_tame k hk) fun k R₁ h₁ hk => .bind (build_tame v (hv.up h₁)) fun v R₂ h₂ hv => ?_
    have le₂ := h₁.trans h₂
    exact .calmly (Operation.rawSet_calm _ (le₂.1 ht) (hk.up h₂) hv) fun _ _ =>
      fill_tame rest (le₂.1 ht) (hrest.up le₂)

end

theorem entryValues_fields : ∀ fs : List (String × Datum),
    entryValues (fields fs) = fs.flatMap fun f => .text f.1 :: f.2.values
  | [] => rfl
  | f :: rest => by
    have ih := entryValues_fields rest
    rw [List.flatMap_cons, ← ih]
    rfl

end Lua.Datum

namespace Attempt.Tame

variable {α : Type} {P : Realm → α → Prop}

theorem build {d : Datum} (h : R.HasAll d.values) : Attempt.Tame R Realm.Has (Action.build d) :=
  runFirst (.bind (Datum.build_tame d h) fun _ _ _ hv => .pure (Realm.hasAll_one hv))

theorem step {f : Store → α × Store}
    (h : ∀ s, R.Closed s → ∃ R', Passage R s R' (f s).2 ∧ P R' (f s).1) :
    Attempt.Tame R P (Action.step f) := by
  intro st hst
  obtain ⟨R', hp, ha⟩ := h st.store hst.closed
  refine ⟨R', .of_passage hp hst (hst.threads.up hp.le), hp.ledger, ?_⟩
  rintro _ ⟨⟩
  exact ha

end Attempt.Tame

namespace Opener

open Attempt

/-- An opener answers a table of the realm. -/
abbrev InRealm (R : Realm) (t : TableId) : Prop := t ∈ R.tables

theorem table_tame {v : Value} (hv : R.Has v) :
    Attempt.Tame R InRealm (Attempt.of fun st => (Result.table v, st) : Lua.Action TableId) := by
  refine .answer fun st t _ ht => ?_
  cases v <;> cases ht
  exact hv

theorem tableOf_tame {fs : List (String × Datum)}
    (h : R.HasAll (fs.flatMap fun f => f.2.values)) : (tableOf fs).Tame R InRealm := by
  have hall : R.HasAll (Datum.table (Datum.fields fs)).values := by
    intro v hv
    rw [Datum.values, Datum.entryValues_fields] at hv
    obtain ⟨f, hf, hmem⟩ := List.mem_flatMap.1 hv
    rcases List.mem_cons.1 hmem with rfl | hmem
    · exact Realm.has_text f.1
    · exact h v (List.mem_flatMap.2 ⟨f, hf, hmem⟩)
  exact .bind (.build hall) fun _ _ _ hv => table_tame hv

theorem newTable_tame : Attempt.Tame R InRealm Action.newTable :=
  .step fun _ hs => ⟨_, .newTable hs .default rfl, .inl rfl⟩

theorem withIndex_tame {t : TableId} (ht : t ∈ R.tables) {index : Value} (hv : R.Has index) :
    (withIndex t index).Tame R InRealm := by
  refine .bind newTable_tame fun events R₁ h₁ he => ?_
  refine .bind (.rawSetText he "__index" (hv.up h₁)) fun _ R₂ h₂ _ => ?_
  have ht₂ := (h₁.trans h₂).1 ht
  have hset : Attempt.Tame R₂ (fun _ _ => True) (Action.modify
      (·.modifyTable t fun t => { t with metatable := some events })) := by
    refine .step (f := fun s => ((), s.modifyTable t fun t => { t with metatable := some events }))
      fun s hs => ⟨R₂, .setMetatable hs ht₂ ?_, trivial⟩
    rintro _ ⟨⟩
    exact h₂.1 he
  exact .bind hset fun _ R₃ h₃ _ => .pure (h₃.1 ht₂)

theorem fields_tame {fs : List (String × Datum)}
    (h : R.HasAll (fs.flatMap fun f => f.2.values)) : (fields fs .none).Tame R InRealm :=
  .bind (tableOf_tame h) fun _ _ _ ht => .pure ht

theorem fields_behind_tame {fs more : List (String × Datum)}
    (h : R.HasAll (fs.flatMap fun f => f.2.values))
    (hmore : R.HasAll (more.flatMap fun f => f.2.values)) :
    (fields fs (.fields more)).Tame R InRealm :=
  .bind (tableOf_tame h) fun _ _ h₁ ht => .bind (tableOf_tame (hmore.up h₁)) fun b R₂ h₂ hb =>
    withIndex_tame (h₂.1 ht) (show R₂.Has (.table b) from hb)

/-- Whatever a source does stays in the realm that it is run in. -/
theorem source_tame (text : String) : (source text).Tame R InRealm :=
  .bind (.evaluate _ _ _) fun _ _ _ hvs => table_tame (Evaluate.first_has hvs)

end Opener

namespace NativeLoader

open Attempt

theorem disable_tame {t : TableId} (ht : t ∈ R.tables) (module entry : String) :
    (disable module t entry).Tame R fun _ _ => True := by
  refine .bind (.mapError (.rawSetText ht entry Realm.has_nil)) fun _ R₁ h₁ _ => ?_
  have ht₁ : R₁.Has (.table t) := h₁.1 ht
  refine .bind (.mapError (.get ht₁ (Realm.has_text entry))) fun v _ _ _ => ?_
  split_ifs
  · exact .pure trivial
  · exact .fail _

theorem each_disable_tame {t : TableId} (module : String) : ∀ (entries : List String) {R : Realm},
    t ∈ R.tables → (each (disable module t) entries).Tame R fun _ _ => True
  | [], _, _ => .pure trivial
  | entry :: rest, _, ht => .bind (disable_tame ht module entry) fun _ _ h _ =>
    each_disable_tame module rest (h.1 ht)

end NativeLoader

end Enclosure
