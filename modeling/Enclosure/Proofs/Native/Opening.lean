import Enclosure.Native.Loader
import Enclosure.Proofs.Lua.Action

/-!
# Opening a module

An opener that builds a table of its own leaves every older table as it was. What is then disabled is
taken out of the new table, and whatever still answers for it makes the opening fail; so a table that
is handed out gives nil for every name disabled, and for every other name what its opener gave it
(`openModule_ok`).
-/

namespace Enclosure

open Lua

namespace Lua.Store

variable {s s' : Store} {t : TableId} {behind : Option TableId} {key : Value}

/-- A table of the store that can be read without calls, and is no part of what stands behind it. -/
structure Settled (s : Store) (t : TableId) (behind : Option TableId) : Prop where
  reads : s.Behind t behind
  lt : t.index < s.tables.size
  events : ∀ e, (s.table t).metatable = some e → e.index < s.tables.size ∧ e ≠ t
  behind_lt : ∀ b, behind = some b → b.index < s.tables.size

/-- The table itself, its metatable, or what stands behind it. -/
inductive Part (s : Store) (t : TableId) (behind : Option TableId) : TableId → Prop
  | self : Part s t behind t
  | events {e : TableId} (h : (s.table t).metatable = some e) : Part s t behind e
  | behind {b : TableId} (h : behind = some b) : Part s t behind b

theorem Part.of_metatable {u : TableId} (h : s'.Part t behind u)
    (hm : (s'.table t).metatable = (s.table t).metatable) : s.Part t behind u := by
  cases h with
  | self => exact .self
  | events h => exact .events (hm ▸ h)
  | behind h => exact .behind h

namespace Settled

theorem ne_behind (h : s.Settled t behind) {b : TableId} (hb : behind = some b) : b ≠ t := by
  rcases h.reads with hnone | ⟨hsome, _, hbare⟩
  · cases hb
  · rintro rfl
    obtain rfl := Option.some.inj hb
    rw [hbare] at hsome
    cases hsome

theorem part_lt (h : s.Settled t behind) {u : TableId} (hu : s.Part t behind u) :
    u.index < s.tables.size := by
  cases hu with
  | self => exact h.lt
  | events he => exact (h.events _ he).1
  | behind hb => exact h.behind_lt _ hb

/-- A table is read as before if its parts are kept. -/
theorem of_same (h : s.Settled t behind) (size : s.tables.size ≤ s'.tables.size)
    (same : ∀ u, s.Part t behind u → s'.table u = s.table u) :
    s'.Settled t behind ∧ ∀ key, s'.getThrough t behind key = s.getThrough t behind key := by
  have raw : ∀ u, s.Part t behind u → ∀ key, s'.rawGet u key = s.rawGet u key := by
    intro u hu key
    simp only [rawGet, same u hu]
  refine ⟨⟨?_, Nat.lt_of_lt_of_le h.lt size, fun e he => ?_,
    fun b hb => Nat.lt_of_lt_of_le (h.behind_lt b hb) size⟩, fun key => ?_⟩
  · rcases h.reads with hnone | ⟨hsome, hindex, hbare⟩
    · exact .nothing (by rw [same t .self, hnone])
    · rename_i e b
      have hsome' : (s'.table t).metatable = some e := by rw [same t .self, hsome]
      refine .table hsome' ?_ ?_
      · rw [raw e (.events hsome), hindex]
      · rw [same b (.behind rfl), hbare]
  · rw [same t .self] at he
    exact ⟨Nat.lt_of_lt_of_le (h.events e he).1 size, (h.events e he).2⟩
  · rw [getThrough, raw t .self]
    rcases behind with _ | b
    · rfl
    · simp only [Option.elim, raw b (.behind rfl)]
      rfl

/-- A table is read as before if all tables that were there are kept. -/
theorem of_keeps (h : s.Settled t behind) (k : Keeps s.tables.size s s') :
    s'.Settled t behind ∧ ∀ key, s'.getThrough t behind key = s.getThrough t behind key :=
  h.of_same k.size fun u hu => k.table u (h.part_lt hu)

/-- Taking a field out changes what is read under its name and nothing else. -/
theorem erase (h : s.Settled t behind) (name : String) :
    (s.modifyTable t (·.set (.text name) .nil)).Settled t behind ∧ ∀ name',
      (s.modifyTable t (·.set (.text name) .nil)).getThrough t behind (.text name')
        = if name' = name then behind.elim .nil (s.rawGet · (.text name))
          else s.getThrough t behind (.text name') := by
  have self := table_modifyTable_self h.lt (·.set (.text name) .nil)
  have other : ∀ u, u ≠ t → (s.modifyTable t (·.set (.text name) .nil)).table u = s.table u :=
    fun u hu => table_modifyTable_of_ne hu _
  refine ⟨⟨?_, by simpa using h.lt, fun e he => ?_, fun b hb => by simpa using h.behind_lt b hb⟩,
    fun name' => ?_⟩
  -- the table reads through what it did: its metatable is another table than itself
  · rcases h.reads with hnone | ⟨hsome, hindex, hbare⟩
    · exact .nothing (by rw [self, Table.metatable_set, hnone])
    · rename_i e b
      have hsome' : ((s.modifyTable t (·.set (.text name) .nil)).table t).metatable = some e := by
        rw [self, Table.metatable_set, hsome]
      refine .table hsome' ?_ ?_
      · rw [rawGet_text, other e (h.events e hsome).2, ← rawGet_text, hindex]
      · rw [other b (h.ne_behind rfl), hbare]
  · rw [self, Table.metatable_set] at he
    simpa using h.events e he
  · have hbehind : behind.elim Value.nil
        ((s.modifyTable t (·.set (.text name) .nil)).rawGet · (.text name'))
          = behind.elim .nil (s.rawGet · (.text name')) := by
      rcases behind with _ | b
      · rfl
      · simp only [Option.elim, rawGet_text, other b (h.ne_behind rfl)]
    rw [getThrough, getThrough, hbehind, rawGet_text, self, Table.get_set, rawGet_text]
    by_cases hn : name' = name
    · subst hn
      simp
    · have hk : Value.text name' ≠ Value.text name := fun he => hn (text_injective he)
      simp [hn, hk]

end Settled

end Lua.Store

/-- An opener that makes a table of its own: tables that were there are kept, nothing is written down as
opened, and the new table has at most a plain table behind it. -/
structure BuildsTable (opener : Lua.Action TableId) : Prop where
  keeps : ∀ st, Store.Keeps st.store.tables.size st.store (opener.on st).2.store
  natives : ∀ st, (opener.on st).2.store.natives = st.store.natives
  settled : ∀ {st st' t}, opener.on st = (.ok t, st') →
    st.store.tables.size ≤ t.index ∧ ∃ behind, st'.store.Settled t behind

namespace NativeLoader

open Attempt

variable {st st' : State} {t : TableId} {behind : Option TableId}

theorem during_on {α : Type} (module : String) (m : Lua.Action α) (st : State) :
    (during module m).on st
      = ((m.on st).1.mapError fun f => .opening module f.message, (m.on st).2) :=
  on_mapError _ m st

/-- The state with an entry point taken out of a table. -/
def without (st : State) (t : TableId) (entry : String) : State :=
  { st with store := st.store.modifyTable t (·.set (.text entry) .nil) }

/-- What is still read under the name of an entry point that was taken out. -/
def residue (st : State) (behind : Option TableId) (entry : String) : Value :=
  behind.elim .nil (st.store.rawGet · (.text entry))

theorem get_without (h : st.store.Settled t behind) (entry : String) :
    (Action.get (.table t) (.text entry)).on (without st t entry)
      = (.ok (residue st behind entry), without st t entry) := by
  obtain ⟨settled, reads⟩ := h.erase entry
  have hreads : (without st t entry).store.Behind t behind := settled.reads
  rw [Action.get_behind hreads]
  have hread := reads entry
  rw [if_pos rfl] at hread
  exact congrArg (fun v => (Except.ok v, without st t entry)) hread

theorem disable_on (module : String) (h : st.store.Settled t behind) (entry : String) :
    (disable module t entry).on st
      = (if (residue st behind entry).isNil then .ok () else
          .error (.opening module ("disabled entry point " ++ entry
            ++ " is still reachable through the module metatable")), without st t entry) := by
  have hset : (during module (Action.rawSetText t entry .nil)).on st = (.ok (), without st t entry) :=
    rfl
  have hget : (during module (Action.get (.table t) (.text entry))).on (without st t entry)
      = (.ok (residue st behind entry), without st t entry) := by
    rw [during_on, get_without h]
    rfl
  unfold disable
  rw [on_bind, hset]
  dsimp only
  rw [on_bind, hget]
  dsimp only
  split_ifs <;> rfl

/-- Once entry points are taken out, their names read as nil and all others as before. -/
theorem each_disable_ok {module : String} : ∀ {entries : List String} {st : State},
    st.store.Settled t behind → (each (disable module t) entries).on st = (.ok (), st') →
      st'.store.Settled t behind ∧ ∀ name, st'.store.getThrough t behind (.text name)
        = if name ∈ entries then .nil else st.store.getThrough t behind (.text name)
  | [], st, h, hrun => by
    obtain ⟨-, rfl⟩ := pure_ok hrun
    exact ⟨h, by simp⟩
  | entry :: rest, st, h, hrun => by
    obtain ⟨_, st₁, hentry, hrun⟩ := bind_ok hrun
    rw [disable_on module h, Prod.mk.injEq] at hentry
    obtain ⟨hresidue, rfl⟩ := hentry
    have hnil : (residue st behind entry).isNil := by
      by_contra hn
      rw [if_neg hn] at hresidue
      cases hresidue
    obtain ⟨settled₁, reads₁⟩ := h.erase entry
    have hwithout : (without st t entry).store.Settled t behind := settled₁
    obtain ⟨settled, reads⟩ := each_disable_ok hwithout hrun
    refine ⟨settled, fun name => ?_⟩
    have hread : (without st t entry).store.getThrough t behind (.text name)
        = if name = entry then .nil else st.store.getThrough t behind (.text name) := by
      rw [← Value.isNil_iff.1 hnil]
      exact reads₁ name
    rw [reads, hread]
    by_cases hrest : name ∈ rest <;> by_cases hname : name = entry <;> simp [hrest, hname]

/-- Entry points can always be taken out of a table that has nothing behind it. -/
theorem each_disable_bare (module : String) : ∀ (entries : List String) {st : State},
    st.store.Settled t none → ∃ st', (each (disable module t) entries).on st = (.ok (), st')
  | [], st, _ => ⟨st, rfl⟩
  | entry :: rest, st, settled => by
    have hentry : (disable module t entry).on st = (.ok (), without st t entry) :=
      disable_on module settled entry
    have settled₁ : (without st t entry).store.Settled t none := (settled.erase entry).1
    obtain ⟨st', hrest⟩ := each_disable_bare module rest settled₁
    exact ⟨st', (bind_on hentry).trans hrest⟩

/-- Whether or not entry points can be taken out, only the table they are taken out of changes. -/
theorem each_disable_keeps (module : String) {n : Nat} (hn : n ≤ t.index) :
    ∀ (entries : List String) {st : State}, st.store.Settled t behind →
      Store.Keeps n st.store ((each (disable module t) entries).on st).2.store
        ∧ ((each (disable module t) entries).on st).2.store.natives = st.store.natives
  | [], st, _ => ⟨Store.Keeps.refl n _, rfl⟩
  | entry :: rest, st, h => by
    have first : Store.Keeps n st.store (without st t entry).store := Store.Keeps.modifyTable hn _
    have settled : (without st t entry).store.Settled t behind := (h.erase entry).1
    rw [each, on_bind, disable_on module h]
    split_ifs
    · obtain ⟨keeps, natives⟩ := each_disable_keeps module hn rest settled
      exact ⟨first.trans keeps, natives⟩
    · exact ⟨first, rfl⟩

/-- The state in which the opener of a module begins. -/
def beginOpening (m : NativeModule) (st : State) : State :=
  { st with store := { st.store with opened := m.name :: st.store.opened } }

/-- The state with a table kept under a name. -/
def keep (st : State) (name : String) (t : TableId) : State :=
  { st with store := { st.store with natives := (name, t) :: st.store.natives } }

/-- What comes of the run of an opener: its failure is told as the module's; a table that it made loses what
is disabled and is then kept. -/
def finishOpening (name : String) (disabled : List String) :
    Except Failure TableId × State → Except LoadRefusal TableId × State
  | (.error f, st) => (.error (.opening name f.message), st)
  | (.ok t, st) =>
    match (each (disable name t) disabled).on st with
    | (.error e, st') => (.error e, st')
    | (.ok _, st') => (.ok t, keep st' name t)

/-- An opening is noted and runs the opener, once. -/
theorem openModule_on (m : NativeModule) (name : String) (st : State) : (openModule m name).on st
    = finishOpening name m.disabled (m.opener.on (beginOpening m st)) := by
  have begun : (during name (Action.modify fun s => { s with opened := m.name :: s.opened })).on st
      = (.ok (), beginOpening m st) := rfl
  unfold openModule
  rw [bind_on begun, on_bind, during_on]
  rcases m.opener.on (beginOpening m st) with ⟨f | t, st₁⟩
  · rfl
  · dsimp only [Except.mapError, finishOpening]
    rw [on_bind]
    rcases (each (disable name t) m.disabled).on st₁ with ⟨e | _, st₂⟩ <;> rfl

theorem finishOpening_ok {name : String} {disabled : List String} {r : Except Failure TableId × State}
    (h : finishOpening name disabled r = (.ok t, st')) : ∃ st₁ st₂, r = (.ok t, st₁)
      ∧ (each (disable name t) disabled).on st₁ = (.ok (), st₂) ∧ st' = keep st₂ name t := by
  obtain ⟨f | t', st₁⟩ := r <;> unfold finishOpening at h
  · cases h
  · dsimp only at h
    rcases taken : (each (disable name t') disabled).on st₁ with ⟨e | _, st₂⟩ <;> rw [taken] at h <;> cases h
    exact ⟨st₁, st₂, rfl, taken, rfl⟩

theorem openModule_made {m : NativeModule} {name : String}
    (h : (openModule m name).on st = (.ok t, st')) : ∃ st₁ st₂,
      m.opener.on (beginOpening m st) = (.ok t, st₁)
      ∧ (each (disable name t) m.disabled).on st₁ = (.ok (), st₂) ∧ st' = keep st₂ name t :=
  finishOpening_ok ((openModule_on m name st).symm.trans h)

theorem opened_keeps {m : NativeModule} (builds : BuildsTable m.opener)
    {answer : Except Failure TableId} (h : m.opener.on (beginOpening m st) = (answer, st')) :
    Store.Keeps st.store.tables.size st.store st'.store ∧ st'.store.natives = st.store.natives := by
  have keeps := builds.keeps (beginOpening m st)
  have natives := builds.natives (beginOpening m st)
  rw [h] at keeps natives
  exact ⟨⟨keeps.size, keeps.table⟩, natives⟩

/-- A module that was opened has a table that reads as nil under every name that is disabled, and as
its opener made it under all others; it is kept under the name. -/
theorem openModule_ok {m : NativeModule} {name : String} (builds : BuildsTable m.opener)
    (h : (openModule m name).on st = (.ok t, st')) :
    ∃ st₁ behind, m.opener.on (beginOpening m st) = (.ok t, st₁)
      ∧ st₁.store.Settled t behind ∧ st'.store.Settled t behind
      ∧ st'.store.natives = (name, t) :: st.store.natives
      ∧ Store.Keeps st.store.tables.size st.store st'.store
      ∧ ∀ key, st'.store.getThrough t behind (.text key)
        = if key ∈ m.disabled then .nil else st₁.store.getThrough t behind (.text key) := by
  obtain ⟨st₁, st₂, opened, disabled, rfl⟩ := openModule_made h
  -- the opener keeps what was there, and so does taking out fields of the table it made
  obtain ⟨keeps₁, natives₁⟩ := opened_keeps builds opened
  obtain ⟨fresh, behind, settled₁⟩ := builds.settled opened
  obtain ⟨settled₂, reads⟩ := each_disable_ok settled₁ disabled
  obtain ⟨keeps₂, natives₂⟩ :=
    each_disable_keeps name fresh m.disabled settled₁
  rw [disabled] at keeps₂ natives₂
  have keeps₃ : ∀ n, Store.Keeps n st₂.store (keep st₂ name t).store :=
    fun n => ⟨Nat.le_refl _, fun _ _ => rfl⟩
  refine ⟨st₁, behind, opened, settled₁, (settled₂.of_keeps (keeps₃ _)).1, ?_,
    (keeps₁.trans keeps₂).trans (keeps₃ _), reads⟩
  show (name, t) :: st₂.store.natives = _
  rw [natives₂, natives₁]

/-- A module whose table has nothing behind it can be opened, whatever it disables. -/
theorem openModule_bare {m : NativeModule} {st₁ : State} (name : String)
    (opened : m.opener.on (beginOpening m st) = (.ok t, st₁)) (settled : st₁.store.Settled t none) :
    ∃ st', (openModule m name).on st = (.ok t, st') := by
  obtain ⟨st₂, disabled⟩ := each_disable_bare name m.disabled settled
  refine ⟨keep st₂ name t, ?_⟩
  rw [openModule_on, opened, finishOpening, disabled]

/-- An opening that fails keeps every table, and nothing is kept as opened. -/
theorem openModule_error {m : NativeModule} {name : String} {e : LoadRefusal}
    (builds : BuildsTable m.opener) (h : (openModule m name).on st = (.error e, st')) :
    Store.Keeps st.store.tables.size st.store st'.store ∧ st'.store.natives = st.store.natives := by
  rw [openModule_on] at h
  unfold finishOpening at h
  rcases opened : m.opener.on (beginOpening m st) with ⟨f | t, st₁⟩ <;> rw [opened] at h
  · obtain rfl : st₁ = st' := (Prod.mk.inj h).2
    exact opened_keeps builds opened
  · obtain ⟨keeps₁, natives₁⟩ := opened_keeps builds opened
    obtain ⟨fresh, behind, settled⟩ := builds.settled opened
    obtain ⟨keeps₂, natives₂⟩ :=
      each_disable_keeps name fresh m.disabled settled
    dsimp only at h
    rcases disabled : (each (disable name t) m.disabled).on st₁ with ⟨f | _, st₂⟩ <;>
      rw [disabled] at h keeps₂ natives₂
    · obtain rfl : st₂ = st' := (Prod.mk.inj h).2
      exact ⟨keeps₁.trans keeps₂, natives₂.trans natives₁⟩
    · cases h

end NativeLoader

end Enclosure
