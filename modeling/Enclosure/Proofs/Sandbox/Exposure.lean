import Enclosure.Proofs.Native.Apart
import Enclosure.Proofs.Native.Disabled
import Enclosure.Proofs.Sandbox.Loader
import Enclosure.Proofs.Sandbox.Phases

/-!
# What a sandbox exposes of native modules

While a sandbox is built, each native module is opened under a name under which nothing is kept yet, so
its table comes straight from an opening: out of reach of everything that runs, and without the entry
points that the module disables. A rule that names one of these finds nothing to copy and fails; a
trusted module is bound as that very table, which nobody writes to again. So no sandbox that could be
built exposes a disabled entry point (`create_exposes_no_disabled`).
-/

namespace Enclosure

open Lua Attempt

variable {R R₁ : Realm} {st st' : State} {ns t : TableId} {behind : Option TableId}

/-- What is kept is kept under names that are bound. -/
def Pledge.named (names : List String) : Pledge := ⟨fun _ name _ => name ∈ names, fun _ h => h⟩

theorem widens_named : Widens Pledge.named := fun _ _ _ _ _ h => List.mem_append_left _ h

/-- A table that can be read and is out of reach in all its parts. -/
structure Stands (ns : TableId) (R : Realm) (st : State) (t : TableId) (behind : Option TableId) :
    Prop where
  settled : st.store.Settled t behind
  apart : ∀ u, st.store.Part t behind u → u ∉ R.tables ∧ u ≠ ns

/-- Nothing that happens in the realm, and no field that is set in the other table, changes what the
table gives. -/
theorem Stands.advance (h : Stands ns R st t behind) (ha : State.Advance {ns} R st R₁ st') :
    Stands ns R₁ st' t behind ∧ ∀ key, st'.store.getThrough t behind key
      = st.store.getThrough t behind key := by
  have same : ∀ u, st.store.Part t behind u → st'.store.table u = st.store.table u := fun u hu =>
    ha.table u (h.apart u hu).1 (h.apart u hu).2 (h.settled.part_lt hu)
  obtain ⟨settled, reads⟩ := h.settled.of_same ha.tables_size same
  refine ⟨⟨settled, fun u hu => ?_⟩, reads⟩
  have hu : st.store.Part t behind u := hu.of_metatable (congrArg Table.metatable (same t .self))
  exact ⟨ha.not_mem (h.apart u hu).1 (h.settled.part_lt hu), (h.apart u hu).2⟩

/-- A table out of reach that gives nil for some names. -/
def Withholds (ns : TableId) (disabled : List String) (R : Realm) (st : State) (t : TableId) : Prop :=
  ∃ behind, Stands ns R st t behind
    ∧ ∀ d ∈ disabled, st.store.getThrough t behind (.text d) = .nil

namespace NativeLoader

theorem load_apart {l : NativeLoader} {names : List String} {name : String}
    (builds : ∀ m, l.module? name = some m → BuildsApart m.opener)
    (hst : st.Footing (.named names) R) (hn : name ∉ names) (hns : ns.index < st.store.tables.size)
    (hrun : (l.load name).on st = (.ok t, st')) :
    State.Advance ∅ R st R st' ∧ st'.Footing (.named (names ++ [name])) R
      ∧ ∃ m, l.module? name = some m ∧ Withholds ns m.disabled R st' t := by
  have fresh : st.store.natives.lookup name = none := by
    rcases hkept : st.store.natives.lookup name with _ | u
    · rfl
    · exact absurd (hst.kept name u hkept) hn
  obtain ⟨m, hm, ⟨hkept, -⟩ | ⟨-, hopen⟩⟩ := load_ok hrun
  · rw [fresh] at hkept
    cases hkept
  · obtain ⟨st₁, behind, rfl, progress, natives, settled, new, reads⟩ :=
      openModule_apart (builds m hm) hst hopen
    have footing := (hst.progress progress natives).mono (widens_named names name)
    have keeps : Store.Keeps st₁.store.tables.size st₁.store (keep st₁ name t).store :=
      ⟨Nat.le_refl _, fun _ _ => rfl⟩
    obtain ⟨settled', same⟩ := settled.of_keeps keeps
    refine ⟨advance_keep (.of_progress progress natives) fresh,
      footing_keep footing (List.mem_append_right _ (List.mem_singleton_self name)), m, hm, behind,
      ⟨settled', fun u hu => ?_⟩, fun d hd => (same _).trans (reads d hd)⟩
    -- every part is newer than the realm and the other table
    have hu := new u (hu.of_metatable rfl)
    refine ⟨fun hmem => Nat.not_lt_of_le hu (hst.holds.table u hmem), ?_⟩
    rintro rfl
    exact Nat.not_lt_of_le hu hns

end NativeLoader

namespace Sandbox

open Assembly (copyField copyFields)

/-- Fields that could be copied from a table were there; copying them writes to the copy alone. -/
theorem each_copyField_hidden {s : Store} {module : String} {source copy : TableId}
    (settled : s.Settled source behind) (hcopy : s.tables.size ≤ copy.index) (hidden : copy ∉ R.tables) :
    ∀ {fields : List String} {st : State}, st.Sound R → Store.Keeps s.tables.size s st.store →
      (each (copyField Environment.host module source copy) fields).on st = (.ok (), st') →
      State.Progress {copy} R st R st' ∧ st'.store.natives = st.store.natives
        ∧ ∀ name ∈ fields, s.getThrough source behind (.text name) ≠ .nil
  | [], st, hst, _, hrun => by
    obtain ⟨-, rfl⟩ := pure_ok hrun
    exact ⟨.refl hst, rfl, fun _ h => nomatch h⟩
  | name :: rest, st, hst, keeps, hrun => by
    obtain ⟨_, st₁, hfield, hrun⟩ := bind_ok hrun
    obtain ⟨v?, st₂, hvalue, hfield⟩ := bind_ok hfield
    obtain ⟨v, st₃, hsome, hbind⟩ := bind_ok hfield
    obtain ⟨rfl, rfl⟩ := orFail_ok hsome
    obtain ⟨hget, hv⟩ := field_ok hvalue
    -- the reads are those of the store in which copying began, since only the copy was written
    obtain ⟨settled₁, same⟩ := settled.of_keeps keeps
    rw [Action.get_behind settled₁.reads, same] at hget
    obtain ⟨hread, rfl⟩ := Prod.mk.inj hget
    obtain rfl : st.setField copy name v = st₁ := (Prod.mk.inj hbind).2
    have first : State.Progress {copy} R st R (st.setField copy name v) := .write hst hidden _
    have keeps₁ : Store.Keeps s.tables.size s (st.setField copy name v).store :=
      keeps.trans (.modifyTable hcopy _)
    obtain ⟨progress, natives, present⟩ :=
      each_copyField_hidden settled hcopy hidden first.sound keeps₁ hrun
    refine ⟨first.trans progress fun _ => .inl, natives, fun name' hname' => ?_⟩
    rcases List.mem_cons.1 hname' with rfl | hname'
    · exact Except.ok.inj hread ▸ hv
    · exact present name' hname'

theorem copyFields_hidden {L : Pledge} {module : String} {source copy : TableId} {fields : List String}
    (hst : st.Footing L R) (settled : st.store.Settled source behind)
    (h : (copyFields Environment.host module source fields).on st = (.ok copy, st')) :
    State.Progress ∅ R st R st' ∧ st'.store.natives = st.store.natives
      ∧ ∀ name ∈ fields, st.store.getThrough source behind (.text name) ≠ .nil := by
  obtain ⟨c, st₁, hnew, h⟩ := bind_ok h
  obtain ⟨_, st₂, hcopy, h⟩ := bind_ok h
  obtain ⟨rfl, rfl⟩ := pure_ok h
  obtain ⟨rfl, rfl⟩ := newNamespace_ok hnew
  have made := newTable_progress hst
  obtain ⟨progress, natives, present⟩ := each_copyField_hidden settled (Nat.le_refl _)
    (newTable_hidden hst) made.sound (.newTable (Nat.le_refl _) {}) hcopy
  refine ⟨made.trans progress ?_, natives, present⟩
  rintro _ rfl
  exact .inr (Nat.le_refl _)

variable {c : Config}

/-- A rule for a native module names nothing that the module registered last disables. -/
def Clean (natives : List NativeModule) (r : Rule) : Prop :=
  ∀ module fields, r = .native module fields →
    ∃ m, LastNamed natives module m ∧ ∀ name ∈ fields, name ∉ m.disabled

/-- The module registered last under a name has the table, and what it disables is not there. -/
def Cleared (natives : List NativeModule) (ns : TableId) (name : String) (R : Realm) (st : State)
    (v : Value) : Prop :=
  ∃ m t, LastNamed natives name m ∧ v = .table t ∧ Withholds ns m.disabled R st t

theorem cleared_lasts (natives : List NativeModule) (ns : TableId) (name : String) :
    Lasts ns (Cleared natives ns name) := by
  rintro R st R' st' v advance ⟨m, t, hm, rfl, behind, stands, reads⟩
  obtain ⟨stands', same⟩ := stands.advance advance
  exact ⟨m, t, hm, rfl, behind, stands', fun d hd => (same _).trans (reads d hd)⟩

section

variable (openers : ∀ m ∈ c.natives, BuildsApart m.opener)

include openers

theorem loader_builds (name : String) (m : NativeModule) (h : c.loader.module? name = some m) :
    BuildsApart m.opener :=
  openers m ((c.loader_module? name m).1 h).mem

theorem bindTrusted_cleared (name : String) :
    Binds Pledge.named R ns name (fun _ => Cleared c.natives ns name)
      (bindTrusted c.loader ns name) := by
  intro names R st st' _ hst hn hns hrun
  obtain ⟨t, st₁, hload, hrun⟩ := bind_ok hrun
  obtain ⟨advance, footing, m, hm, withholds⟩ :=
    NativeLoader.load_apart (loader_builds openers name) hst hn hns (mapError_ok hload)
  exact ⟨R, st₁, .table t, advance, footing, nofun,
    ⟨m, t, (c.loader_module? name m).1 hm, rfl, withholds⟩, (Prod.mk.inj hrun).2.symm⟩

theorem native_clean {module : String} {fields : List String} :
    Binds Pledge.named R ns module (fun _ _ _ _ => Clean c.natives (.native module fields))
      (Assembly.apply Environment.host c.loader.native ns (.native module fields)) := by
  intro names R st st' _ hst hn hns hrun
  obtain ⟨source, st₁, hload, hrun⟩ := bind_ok hrun
  obtain ⟨advance, footing, m, hm, behind, stands, reads⟩ :=
    NativeLoader.load_apart (loader_builds openers module) hst hn hns (mapError_ok (mapError_ok hload))
  obtain ⟨copy, st₂, hcopy, hrun⟩ := bind_ok hrun
  obtain ⟨progress, natives, present⟩ := copyFields_hidden footing stands.settled hcopy
  refine ⟨R, st₂, .table copy, advance.trans (.of_progress progress natives) fun _ => .inl,
    footing.progress progress natives, nofun, ?_, (Prod.mk.inj hrun).2.symm⟩
  rintro _ _ ⟨⟩
  exact ⟨m, (c.loader_module? module m).1 hm,
    fun name hname hdisabled => present name hname (reads name hdisabled)⟩

theorem apply_clean {r : Rule} (hr : r.Sound) :
    Binds Pledge.named R ns r.target (fun _ _ _ _ => Clean c.natives r)
      (Assembly.apply Environment.host c.loader.native ns r) := by
  cases r with
  | bare name => exact (apply_binds widens_named hr nofun).mono fun _ _ _ _ _ => nofun
  | library module fields =>
    exact (apply_binds widens_named hr nofun).mono fun _ _ _ _ _ => nofun
  | native module fields => exact native_clean openers

end

/-- If a sandbox could be built, no rule for a native module names an entry point that the module
registered last disables, and a regular read of such an entry point on a trusted module's table gives
nil. So a policy that names one makes building the sandbox fail. -/
theorem create_exposes_no_disabled (c : Config) (around : Surroundings)
    (openers : ∀ m ∈ c.natives, BuildsApart m.opener) :
    (∀ sb, (create c around).1 = .ok sb →
      (∀ module fields, .native module fields ∈ c.policy.rules →
        ∃ m, LastNamed c.natives module m ∧ ∀ name ∈ fields, name ∉ m.disabled)
      ∧ ∀ name ∈ c.trusted, ∃ m t, LastNamed c.natives name m
        ∧ (sb.state.store.table sb.env).get (.text name) = .table t
        ∧ ∀ d ∈ m.disabled, NativeLoader.ReadsNil sb.state t d)
    ∧ ∀ module fields m d, .native module fields ∈ c.policy.rules → LastNamed c.natives module m →
      d ∈ fields → d ∈ m.disabled → ∃ e, (create c around).1 = .error e := by
  -- what rules and trusted modules promise when they are bound lasts until the sandbox is built
  have exposes (sb : Sandbox) (h : (create c around).1 = .ok sb) :
      (∀ r ∈ c.policy.rules, Clean c.natives r)
      ∧ ∃ R, ∀ name ∈ c.trusted, HasField R sb.state sb.env name (Cleared c.natives sb.env name) := by
    have sound := (firstDefect_eq_none_iff c.policy.rules).1 c.policy.sound
    obtain ⟨-, R, _, _, _, _, _, -, built⟩ := create_built widens_named
      (P := fun _ r _ _ _ => Clean c.natives r) (Q := Cleared c.natives) (fun _ _ _ _ _ _ _ _ h => h)
      (cleared_lasts c.natives) (fun _ _ r hr => apply_clean openers (sound.1 r hr))
      (fun _ _ name _ => bindTrusted_cleared openers name) h
    exact ⟨fun r hr => (built.rules r hr).elim fun _ hv => hv.2.2, R, built.trusted⟩
  refine ⟨fun sb h => ⟨fun module fields hr => ?_, fun name hname => ?_⟩,
    fun module fields m d hr hm hd hdisabled => ?_⟩
  · exact (exposes sb h).1 _ hr module fields rfl
  · obtain ⟨-, R, trusted⟩ := exposes sb h
    obtain ⟨v, -, hget, m, t, hm, rfl, behind, stands, reads⟩ := trusted name hname
    exact ⟨m, t, hm, hget, fun d hd => (NativeLoader.readsNil_iff stands.settled d).2 (reads d hd)⟩
  · rcases h : (create c around).1 with e | sb
    · exact ⟨e, rfl⟩
    · obtain ⟨m', hm', clean⟩ := (exposes sb h).1 _ hr module fields rfl
      have same : some m' = some m :=
        ((c.loader_module? module m').2 hm').symm.trans ((c.loader_module? module m).2 hm)
      obtain rfl := Option.some.inj same
      exact absurd hdisabled (clean d hd)

/-- A module with an entry point that is taken out. -/
def guardedNetio : NativeModule where
  name := "netio"
  opener := Opener.fields [("connect", .value (.bool true)), ("raw_socket", .value (.bool true))] .none
  disabled := ["raw_socket"]

/-- A configuration that trusts the module. -/
def trustingConfig : Config where
  policy := .empty
  natives := [guardedNetio]
  trusted := ["netio"]

/-- A configuration whose policy names what the module takes out. -/
def leakyConfig : Config where
  policy := ⟨[.native "netio" ["connect", "raw_socket"]], by decide +kernel⟩
  natives := [guardedNetio]

theorem build_trustingConfig {st : State} (natives : st.store.natives = []) :
    ∃ env st', (build trustingConfig).on st = (.ok env, st') := by
  let env : TableId := ⟨st.store.tables.size⟩
  let st₁ := withTable st
  have assembled : (Assembly.assemble Environment.host trustingConfig.loader.native .empty).on st
      = (.ok env, st₁) := rfl
  have opened : guardedNetio.opener.on (NativeLoader.beginOpening guardedNetio st₁)
      = (.ok ⟨st₁.store.tables.size⟩, _) := on_eq rfl
  obtain ⟨st₂, hopen⟩ := NativeLoader.openModule_bare "netio" opened (Opener.fields_bare opened)
  have hload : (trustingConfig.loader.load "netio").on st₁ = (.ok ⟨st₁.store.tables.size⟩, st₂) := by
    have natives₁ : st₁.store.natives = [] := natives
    have permitted : trustingConfig.loader.permits "netio" := by decide
    have registered : trustingConfig.loader.module? "netio" = some guardedNetio := rfl
    rw [NativeLoader.load_on, if_pos permitted, registered, natives₁]
    exact hopen
  let st₃ := st₂.setField env "netio" (.table ⟨st₁.store.tables.size⟩)
  have trusted : (bindTrusted trustingConfig.loader env "netio").on st₁ = (.ok (), st₃) := by
    unfold bindTrusted
    rw [on_bind, on_mapError, hload]
    rfl
  have each_trusted : (each (bindTrusted trustingConfig.loader env) ["netio"]).on st₁ = (.ok (), st₃) :=
    bind_on trusted
  refine ⟨env, st₃, ?_⟩
  unfold build
  rw [show trustingConfig.capturesOutput = false from rfl]
  exact (bind_on assembled).trans ((bind_on each_trusted).trans rfl)

theorem create_trustingConfig (around : Surroundings) :
    ∃ sb, (create trustingConfig around).1 = .ok sb := by
  obtain ⟨env, st', built⟩ := build_trustingConfig (State.fresh_blank around).natives
  have sound : trustingConfig.defect = none := by decide
  refine ⟨⟨st', env, false⟩, ?_⟩
  unfold create
  rw [sound]
  dsimp only
  rw [built]
  rfl

theorem create_exposes_no_disabled_netio :
    (∃ sb t, (create trustingConfig {}).1 = .ok sb
      ∧ (sb.state.store.table sb.env).get (.text "netio") = .table t
      ∧ NativeLoader.ReadsNil sb.state t "raw_socket")
    ∧ ∃ e, (create leakyConfig {}).1 = .error e := by
  have apart : BuildsApart guardedNetio.opener := (Opener.fields_makes _).apart
  have openers : ∀ m ∈ [guardedNetio], BuildsApart m.opener := List.forall_mem_singleton.2 apart
  have last : LastNamed [guardedNetio] "netio" guardedNetio := ⟨rfl, [], [], rfl, nofun⟩
  constructor
  · obtain ⟨sb, h⟩ := create_trustingConfig {}
    obtain ⟨exposed, -⟩ := create_exposes_no_disabled trustingConfig {} openers
    obtain ⟨m, t, hm, hget, reads⟩ := (exposed sb h).2 "netio" (List.mem_singleton_self _)
    obtain rfl := List.mem_singleton.1 hm.mem
    exact ⟨sb, t, h, hget, reads "raw_socket" (List.mem_singleton_self _)⟩
  · obtain ⟨-, refused⟩ := create_exposes_no_disabled leakyConfig {} openers
    exact refused "netio" ["connect", "raw_socket"] guardedNetio "raw_socket" (List.mem_singleton_self _)
      last (by simp) (List.mem_singleton_self _)

end Sandbox

end Enclosure
