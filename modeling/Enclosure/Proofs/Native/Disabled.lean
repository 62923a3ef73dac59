import Enclosure.Proofs.Native.History
import Enclosure.Proofs.Native.Openers

/-!
# Disabled entry points over histories

A table that a loader hands out was made in one opening, and nothing that loaders do later changes what
it reads as. So it gives nil exactly for the names disabled by the module that was opened and for those
that its opener never gave it (`load_reads_nil_iff`). A module that is registered later under the same
name has no say in it: what that one disables stays in reach if the opened one did not disable it.
-/

namespace Enclosure.NativeLoader

open Lua Attempt

theorem load_on (l : NativeLoader) (name : String) (st : State) :
    (l.load name).on st
      = if l.permits name then
          match l.module? name with
          | none => (.error (.notRegistered name), st)
          | some m =>
            match st.store.natives.lookup name with
            | some t => (.ok t, st)
            | none => (openModule m name).on st
        else (.error (.notPermitted name), st) := by
  unfold load
  by_cases hp : l.permits name
  · simp only [hp, Bool.not_true, Bool.false_eq_true, if_false, if_true]
    rw [on_bind]
    rcases hm : l.module? name with _ | m
    · rw [on_orFail_none]
    · rw [on_orFail_some]
      dsimp only
      rw [on_bind]
      show (match st.store.natives.lookup name with
        | some t => pure t
        | none => openModule m name : Attempt State LoadRefusal TableId).on st = _
      split <;> rfl
  · simp only [hp, Bool.not_false, if_true, Bool.false_eq_true, if_false]
    rw [on_bind]
    rfl

/-- A load that hands out a table found it kept in the state, or opened a module that is registered. -/
theorem load_ok {l : NativeLoader} {name : String} {st st' : State} {t : TableId}
    (h : (l.load name).on st = (.ok t, st')) : ∃ m, l.module? name = some m
      ∧ (st.store.natives.lookup name = some t ∧ st' = st
        ∨ st.store.natives.lookup name = none ∧ (openModule m name).on st = (.ok t, st')) := by
  rw [load_on] at h
  split_ifs at h
  · split at h
    · cases h
    · rename_i m hm
      split at h
      · rename_i t' ht
        obtain ⟨ht', rfl⟩ := Prod.mk.inj h
        exact ⟨m, hm, .inl ⟨ht.trans (congrArg some (Except.ok.inj ht')), rfl⟩⟩
      · rename_i hnone
        exact ⟨m, hm, .inr ⟨hnone, h⟩⟩
  · cases h

/-- A load that fails changed nothing, or failed in opening a module that is registered. -/
theorem load_error {l : NativeLoader} {name : String} {st st' : State} {e : LoadRefusal}
    (h : (l.load name).on st = (.error e, st')) :
    st' = st ∨ ∃ m, l.module? name = some m ∧ (openModule m name).on st = (.error e, st') := by
  rw [load_on] at h
  split_ifs at h
  · split at h
    · exact .inl (Prod.mk.inj h).2.symm
    · rename_i m hm
      split at h
      · cases h
      · exact .inr ⟨m, hm, h⟩
  · exact .inl (Prod.mk.inj h).2.symm

/-- A module and the state right after its opener made a table: some load of a history opened it,
while nothing was kept under the name. -/
structure Opening (st : State) (calls : List Call) (name : String) (t : TableId) (m : NativeModule)
    (made : State) : Prop where
  exists_load : ∃ before l after, calls = before ++ .load l name :: after
    ∧ ((World.run { state := st } before).loaders l).module? name = some m
    ∧ (World.run { state := st } before).state.store.natives.lookup name = none
    ∧ m.opener.on (beginOpening m (World.run { state := st } before).state) = (.ok t, made)

theorem Opening.snoc {st made : State} {calls : List Call} {name : String} {t : TableId}
    {m : NativeModule} (h : Opening st calls name t m made) (c : Call) :
    Opening st (calls ++ [c]) name t m made := by
  obtain ⟨before, l, after, rfl, hm, hnone, hmade⟩ := h
  exact ⟨before, l, after ++ [c], by simp, hm, hnone, hmade⟩

/-- The table kept under a name reads as it did when its opening was over. -/
def Kept (st : State) (calls : List Call) (s : Store) : Prop :=
  ∀ name t, s.natives.lookup name = some t → ∃ m made behind, Opening st calls name t m made
    ∧ made.store.Settled t behind ∧ s.Settled t behind
    ∧ ∀ key, s.getThrough t behind (.text key)
      = if key ∈ m.disabled then .nil else made.store.getThrough t behind (.text key)

section Kept

variable {st : State} {calls : List Call} {s s' : Store}

theorem Kept.snoc (h : Kept st calls s) (c : Call) : Kept st (calls ++ [c]) s := by
  intro name t ht
  obtain ⟨m, made, behind, opening, rest⟩ := h name t ht
  exact ⟨m, made, behind, opening.snoc c, rest⟩

theorem Kept.of_keeps (h : Kept st calls s) (keeps : Store.Keeps s.tables.size s s')
    (natives : s'.natives = s.natives) : Kept st calls s' := by
  intro name t ht
  obtain ⟨m, made, behind, opening, hmade, settled, reads⟩ := h name t (natives ▸ ht)
  obtain ⟨settled', same⟩ := settled.of_keeps keeps
  exact ⟨m, made, behind, opening, hmade, settled', fun key => (same _).trans (reads key)⟩

/-- A load keeps what was kept, and what it opened besides. -/
theorem Kept.load {l : Nat} {name : String} {t : TableId} {m : NativeModule}
    (h : Kept st calls (World.run { state := st } calls).state.store)
    (builds : BuildsTable m.opener)
    (hm : ((World.run { state := st } calls).loaders l).module? name = some m)
    (hnone : (World.run { state := st } calls).state.store.natives.lookup name = none) {st' : State}
    (opened : (openModule m name).on (World.run { state := st } calls).state = (.ok t, st')) :
    Kept st (calls ++ [.load l name]) st'.store := by
  obtain ⟨made, behind, hmade, settled₁, settled, natives, keeps, reads⟩ := openModule_ok builds opened
  intro name' t' ht'
  rw [natives, List.lookup_cons] at ht'
  split at ht'
  · rename_i heq
    obtain rfl := beq_iff_eq.1 heq
    obtain rfl := Option.some.inj ht'
    exact ⟨m, made, behind, ⟨calls, l, [], by simp, hm, hnone, hmade⟩, settled₁, settled, reads⟩
  · obtain ⟨m', made', behind', opening, hmade', settled', reads'⟩ := (h.snoc _) name' t' ht'
    obtain ⟨settled'', same⟩ := settled'.of_keeps keeps
    exact ⟨m', made', behind', opening, hmade', settled'', fun key => (same _).trans (reads' key)⟩

end Kept

theorem builds_of_module? {st : State} {calls : List Call}
    (builds : ∀ l m, .register l m ∈ calls → BuildsTable m.opener) {l : Nat} {name : String}
    {m : NativeModule}
    (hm : ((World.run { state := st } calls).loaders l).module? name = some m) :
    BuildsTable m.opener := by
  obtain ⟨l', hmem⟩ := registered_of_module? hm
  exact builds l' m hmem

/-- Through a whole history, what is kept reads as it did when it was opened. -/
theorem kept_run {st : State} (empty : st.store.natives = []) (calls : List Call) :
    (∀ l m, .register l m ∈ calls → BuildsTable m.opener) →
      Kept st calls (World.run { state := st } calls).state.store := by
  -- on the calls from the end, as only the last one may keep something new
  induction calls using List.reverseRecOn with
  | nil =>
    intro _ name t ht
    rw [show (World.run { state := st } []).state.store.natives = [] from empty] at ht
    cases ht
  | append_singleton calls c ih =>
    intro builds
    have builds' : ∀ l m, .register l m ∈ calls → BuildsTable m.opener :=
      fun l m hmem => builds l m (List.mem_append_left _ hmem)
    have kept := ih builds'
    rw [World.run_snoc]
    cases c with
    | register l m => exact kept.snoc _
    | allow l name => exact kept.snoc _
    | allowRegistered l => exact kept.snoc _
    | clone l l' => exact kept.snoc _
    | load l name =>
      show Kept st _ (((World.run _ calls).loaders l).load name |>.on (World.run _ calls).state).2.store
      rcases h : (((World.run { state := st } calls).loaders l).load name).on
        (World.run { state := st } calls).state with ⟨e | t, st'⟩
      · obtain rfl | ⟨m, hm, failed⟩ := load_error h
        · exact kept.snoc _
        · obtain ⟨keeps, natives⟩ := openModule_error (builds_of_module? builds' hm) failed
          exact (kept.snoc _).of_keeps keeps natives
      · obtain ⟨m, hm, ⟨-, rfl⟩ | ⟨hnone, opened⟩⟩ := load_ok h
        · exact kept.snoc _
        · exact kept.load (builds_of_module? builds' hm) hm hnone opened

/-- A regular read of a field gives nil and leaves the state as it is. -/
def ReadsNil (st : State) (t : TableId) (name : String) : Prop :=
  (Action.get (.table t) (.text name)).on st = (.ok .nil, st)

theorem readsNil_iff {st : State} {t : TableId} {behind : Option TableId}
    (h : st.store.Settled t behind) (name : String) :
    ReadsNil st t name ↔ st.store.getThrough t behind (.text name) = .nil := by
  rw [ReadsNil, Action.get_behind h.reads, Prod.mk.injEq]
  simp

/-- After any history, a table that a loader hands out was made by the opener of one module, and reads
as nil under exactly those names that this module disables or its opener left out. -/
theorem load_reads_nil_iff {st st' : State} (empty : st.store.natives = []) {calls : List Call}
    (builds : ∀ l m, .register l m ∈ calls → BuildsTable m.opener) {l : Nat} {name : String}
    {t : TableId} (h : (((World.run { state := st } calls).loaders l).load name).on
      (World.run { state := st } calls).state = (.ok t, st')) :
    ∃ m made, Opening st (calls ++ [.load l name]) name t m made
      ∧ ∀ d, ReadsNil st' t d ↔ d ∈ m.disabled ∨ ReadsNil made t d := by
  have kept : Kept st (calls ++ [.load l name]) st'.store := by
    have kept := kept_run empty (calls ++ [.load l name]) (fun l' m hmem =>
      builds l' m (by simpa using hmem))
    rw [World.run_snoc] at kept
    simpa only [World.step, h] using kept
  have found : st'.store.natives.lookup name = some t := by
    obtain ⟨m, hm, ⟨found, rfl⟩ | ⟨-, opened⟩⟩ := load_ok h
    · exact found
    · obtain ⟨-, -, -, -, -, natives, -⟩ := openModule_ok (builds_of_module? builds hm) opened
      rw [natives, List.lookup_cons_self]
  obtain ⟨m, made, behind, opening, hmade, settled, reads⟩ := kept name t found
  refine ⟨m, made, opening, fun d => ?_⟩
  rw [readsNil_iff settled, readsNil_iff hmade, reads]
  split_ifs with hd <;> simp [hd]

/-- A module that disables nothing. -/
def openNetio : NativeModule :=
  { name := "netio", opener := Opener.fields [("raw_socket", .value (.bool true))] .none }

/-- The history in which the module is opened and then registered anew with an entry point disabled. -/
def reopening : List Call :=
  [.register 0 openNetio, .allow 0 "netio", .load 0 "netio",
    .register 0 { openNetio with disabled := ["raw_socket"] }]

/-- A state without any table. -/
def bareState : State := { store := {}, threads := #[], callbacks := #[] }

theorem reopening_reads_nil_iff :
    ∃ st', (((World.run { state := bareState } reopening).loaders 0).load "netio").on
        (World.run { state := bareState } reopening).state = (.ok ⟨0⟩, st')
      ∧ ∃ m made, Opening bareState (reopening ++ [.load 0 "netio"]) "netio" ⟨0⟩ m made
        ∧ ∀ d, ReadsNil st' ⟨0⟩ d ↔ d ∈ m.disabled ∨ ReadsNil made ⟨0⟩ d := by
  have h : ((((World.run { state := bareState } reopening).loaders 0).load "netio").on
      (World.run { state := bareState } reopening).state).1 = .ok ⟨0⟩ := rfl
  refine ⟨_, on_eq h, load_reads_nil_iff rfl (fun l m hmem => ?_) (on_eq h)⟩
  have hm : m.opener = openNetio.opener := by
    simp only [reopening, List.mem_cons, Call.register.injEq, reduceCtorEq, List.not_mem_nil,
      or_false, false_or] at hmem
    rcases hmem with ⟨-, rfl⟩ | ⟨-, rfl⟩ <;> rfl
  rw [hm]
  exact Opener.fields_builds _

end Enclosure.NativeLoader
