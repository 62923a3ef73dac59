import Enclosure.Proofs.Reach.Openings
import Enclosure.Proofs.Sandbox.Binding
import Enclosure.Proofs.Sandbox.Loader
import Enclosure.Proofs.Sandbox.Phases
import Enclosure.Proofs.Sandbox.Tasks

/-!
# What is opened in building

A task opens the modules it asks for and no others (`run_opens`). No two tasks ask for the same module,
so nothing is kept under a name when its turn comes, and each load is an opening of the module registered
last under the name (`carryOut_eq`). What was opened when a task fails is a first part of what the
configuration asks for (`create_opens`).
-/

namespace Enclosure

open Lua Attempt

variable {R : Realm} {st st' : State} {name : String} {ns t : TableId}

/-! ## Loads -/

namespace Config

/-- The module that was registered last under a name. -/
def last? (c : Config) (name : String) : Option NativeModule :=
  c.natives.reverse.find? (·.name == name)

theorem last?_eq_some_iff (c : Config) (name : String) (m : NativeModule) :
    c.last? name = some m ↔ LastNamed c.natives name m := by
  rw [last?, List.find?_eq_some_iff_append]
  simp only [beq_iff_eq, Bool.not_eq_true', beq_eq_false_iff_ne]
  refine and_congr_right fun _ => ⟨?_, ?_⟩
  · rintro ⟨after, before, hsplit, hafter⟩
    refine ⟨before.reverse, after.reverse, ?_, by simpa using hafter⟩
    rw [← List.reverse_reverse c.natives, hsplit]
    simp
  · rintro ⟨before, after, hsplit, hafter⟩
    exact ⟨after.reverse, before.reverse, by simp [hsplit], by simpa using hafter⟩

theorem loader_module?_eq (c : Config) (name : String) : c.loader.module? name = c.last? name :=
  Option.ext fun m => (c.loader_module? name m).trans (c.last?_eq_some_iff name m).symm

/-- Opens the module that was registered last under a name, if it may be loaded. -/
def openLast (c : Config) : Sandbox.Load := fun name =>
  if c.loader.permits name then
    match c.last? name with
    | some m => NativeLoader.openModule m name
    | none => Attempt.fail (.notRegistered name)
  else Attempt.fail (.notPermitted name)

variable {c : Config}

theorem load_eq_openLast (fresh : st.store.natives.lookup name = none) :
    (c.loader.load name).on st = (c.openLast name).on st := by
  rw [NativeLoader.load_on, loader_module?_eq, openLast]
  split_ifs
  · rcases c.last? name with _ | m
    · rfl
    · dsimp only
      rw [fresh]
  · rfl

theorem openLast_on {m : NativeModule} (permitted : c.loader.permits name) (last : LastNamed c.natives name m)
    (st : State) : (c.openLast name).on st
      = NativeLoader.finishOpening name m.disabled (m.opener.on (NativeLoader.beginOpening m st)) := by
  rw [openLast, if_pos permitted, (c.last?_eq_some_iff name m).2 last]
  exact NativeLoader.openModule_on m name st

/-- A name that may not be loaded, or under which nothing is registered, runs no opener. -/
theorem openLast_refused (h : ¬ (c.loader.permits name ∧ ∃ m, LastNamed c.natives name m)) (st : State) :
    ((c.openLast name).on st).2 = st := by
  rw [openLast]
  split_ifs with hpermits
  · rcases hm : c.last? name with _ | m
    · rfl
    · exact absurd ⟨hpermits, m, (c.last?_eq_some_iff name m).1 hm⟩ h
  · rfl

theorem openLast_opens (alone : ∀ m ∈ c.natives, Opener.Alone m.opener) (hst : st.Sound R) :
    (c.openLast name).Opens [name] R (fun R' _ t => t ∈ R'.tables) st := by
  have refused (e : LoadRefusal) : (Attempt.fail e : Attempt State LoadRefusal TableId).Opens [name] R
      (fun R' _ t => t ∈ R'.tables) st := ⟨[], R, List.nil_prefix, .refl hst⟩
  rw [openLast]
  split_ifs
  · rcases hm : c.last? name with _ | m
    · exact refused _
    · have last := (c.last?_eq_some_iff name m).1 hm
      obtain rfl := last.1
      exact NativeLoader.openModule_alone (alone m last.mem) hst
  · exact refused _

end Config

/-! ## Tasks -/

namespace Sandbox

open Assembly (copyField copyFields expose)

theorem newTable_opens (sound : st.Sound R) (holds : st.Holds R) :
    Action.newTable.Opens [] R (fun R' st' t => Beyond t R' st') st := by
  have progress : State.Progress ∅ R st R (withTable st) := .newTable sound holds
  refine ⟨R, .of_progress progress rfl rfl, progress.sound, progress.holds holds, fun hmem => ?_, ?_⟩
  · exact absurd (holds.table _ hmem) (Nat.lt_irrefl _)
  · show st.store.tables.size < (withTable st).store.tables.size
    simp [withTable]

theorem newNamespace_opens (sound : st.Sound R) (holds : st.Holds R) :
    (Environment.host.newNamespace.mapError Fault.host).Opens [] R (fun R' st' t => Beyond t R' st')
      st :=
  .mapError (.mapError (g := Environment.causeOf) (newTable_opens sound holds))

theorem bind_opens (hst : Beyond ns R st) (name : String) (v : Value) :
    ((Environment.bind ns name v).mapError Fault.host).Opens [] R (fun _ _ _ => True) st :=
  .mapError (.mapError (g := Environment.causeOf) (.setText hst name v))

/-- A value that is found in the realm is bound out of reach of it. -/
theorem bindFound_opens {m : Attempt State Fault (Option Value)} {P : Realm → Option Value → Prop}
    (hm : m.Tame R P) (hst : Beyond ns R st) (e : Fault) (name : String) :
    Opens [] R (fun _ _ _ => True) (do
      let value ← m
      let value ← Attempt.orFail e value
      (Environment.bind ns name value).mapError .host) st := by
  refine (hm.opens hst.sound).andThen fun value? R₁ st₁ openings _ => ?_
  have hst₁ := hst.openings openings
  refine (Opens.orFail (P := fun _ _ _ => True) hst₁.sound fun _ _ => trivial).andThen ?_
  exact fun v _ _ openings _ => bind_opens (hst₁.openings openings) name v

theorem copyField_opens {source : TableId} (hst : Beyond t R st) (hsource : source ∈ R.tables)
    (module name : String) :
    (copyField Environment.host module source t name).Opens [] R (fun _ _ _ => True) st :=
  bindFound_opens (Environment.field_tame hsource name).mapError hst _ name

theorem expose_opens {source : TableId} (hst : Beyond ns R st) (hsource : source ∈ R.tables)
    (module : String) (fields : List String) :
    (expose Environment.host ns module source fields).Opens [] R (fun _ _ _ => True) st := by
  have copied : (copyFields Environment.host module source fields).Opens [] R (fun _ _ _ => True) st := by
    refine (newNamespace_opens hst.sound hst.holds).andThen fun t R₁ st₁ openings ht => ?_
    have filled := Opens.each (o := fun _ => []) (g := copyField Environment.host module source t)
      (I := fun R st => Beyond t R st ∧ source ∈ R.tables) (fun h => h.1.sound)
      (fun h ho => ⟨h.1.openings ho, ho.progress.le.1 h.2⟩)
      (fun name _ _ h => copyField_opens h.1 h.2 module name) fields ⟨ht, openings.progress.le.1 hsource⟩
    rw [List.flatMap_eq_nil_iff.2 fun _ _ => rfl] at filled
    exact filled.andThen fun _ _ _ openings' _ =>
      .pure (ht.openings openings').sound trivial
  exact copied.andThen fun copy _ _ openings _ =>
    bind_opens (hst.openings openings) module (.table copy)

theorem scriptTable_opens (hst : st.Sound R) (directory name : String) :
    (scriptTable directory name).Opens [] R (fun _ _ _ => True) st := by
  have tried : (hosted (Action.modify fun s =>
      { s with tried := scriptPath directory name :: s.tried })).Opens [] R (fun _ _ _ => True) st :=
    ⟨R, .of_progress (.note hst _ _ _ (W := ∅)) rfl rfl, trivial⟩
  rw [scriptTable_eq]
  exact tried.andThen fun _ _ _ openings _ =>
    ((scriptAnswer_tame directory name).opens openings.progress.sound).imp fun _ _ _ _ _ => trivial

theorem setTexts_opens : ∀ (texts : List String) (i : Nat) {R : Realm} {st : State},
    Beyond t R st → (setTexts t i texts).Opens [] R (fun _ _ _ => True) st
  | [], _, _, _, hst => .pure hst.sound trivial
  | _ :: rest, i, _, _, hst => (Opens.write hst _).andThen fun _ _ _ openings _ =>
    setTexts_opens rest (i + 1) (hst.openings openings)

theorem bindArgs_opens (hst : Beyond ns R st) (args : List String) :
    (bindArgs ns args).Opens [] R (fun _ _ _ => True) st := by
  have made : Action.newTable.Opens [] R (fun R' st' t => Beyond t R' st') st :=
    newTable_opens hst.sound hst.holds
  unfold bindArgs
  split_ifs
  · exact .pure hst.sound trivial
  · refine .mapError (made.andThen fun u R₁ st₁ openings₁ hu => ?_)
    refine (setTexts_opens args 1 hu).andThen fun _ R₂ st₂ openings₂ _ => ?_
    exact .setText ((hst.openings openings₁).openings openings₂) Config.argsName (.table u)

variable {c : Config}

theorem apply_opens (alone : ∀ m ∈ c.natives, Opener.Alone m.opener) (hst : Beyond ns R st) :
    ∀ r : Rule, (Task.run c.openLast c ns (.rule r)).Opens (Task.opens (.rule r)) R
      (fun _ _ _ => True) st
  | .bare name => bindFound_opens (Environment.global_tame name).mapError hst _ name
  | .library module fields =>
    ((Environment.require_tame module).mapError.opens hst.sound).andThen
      fun _ _ _ openings hsource => expose_opens (hst.openings openings) hsource module fields
  | .native module fields =>
    (Config.openLast_opens alone hst.sound).mapError.mapError.andThen
      fun _ _ _ openings hsource => expose_opens (hst.openings openings) hsource module fields

theorem run_opens (alone : ∀ m ∈ c.natives, Opener.Alone m.opener) (hst : Beyond ns R st) :
    ∀ task : Task, (task.run c.openLast c ns).Opens task.opens R (fun _ _ _ => True) st
  | .rule r => apply_opens alone hst r
  | .trusted name => (Config.openLast_opens alone hst.sound).mapError.andThen
    fun t _ _ openings _ => (Opens.setText (hst.openings openings) name (.table t)).mapError
  | .function f => by
    have made : (Action.newCallback f.run).Opens [] R (fun _ _ _ => True) st :=
      ⟨R, .of_progress (.newCallback hst.sound hst.holds f.run (W := ∅)) rfl rfl, trivial⟩
    exact .mapError (g := fun f => .host (Environment.causeOf f))
      (made.andThen fun g _ _ openings _ => .setText (hst.openings openings) f.name g)
  | .script name => (scriptTable_opens hst.sound c.modulePath name).andThen
    fun t _ _ openings _ => (Opens.setText (hst.openings openings) name (.table t)).mapError
  | .args => bindArgs_opens hst c.args

/-- A task is carried out as if there was no cache, if nothing is kept under the names it asks for. -/
theorem run_eq : ∀ task : Task,
    (∀ name ∈ task.opens, st.store.natives.lookup name = none) →
      (task.run c.loader.load c ns).on st = (task.run c.openLast c ns).on st
  | .rule (.native module fields), fresh => by
    have same := Config.load_eq_openLast (c := c) (fresh module (List.mem_singleton_self _))
    simp only [Task.run, Assembly.apply, on_bind, on_mapError, same]
  | .trusted name, fresh => by
    have same := Config.load_eq_openLast (c := c) (fresh name (List.mem_singleton_self _))
    simp only [Task.run, on_bind, on_mapError, same]
  | .rule (.bare _), _ | .rule (.library _ _), _ | .function _, _ | .script _, _ | .args, _ => rfl

/-- So are tasks that do not ask for the same module, one after another. -/
theorem each_run_eq (alone : ∀ m ∈ c.natives, Opener.Alone m.opener) : ∀ {tasks : List Task}
    {R : Realm} {st : State}, (tasks.flatMap Task.opens).Nodup → Beyond ns R st →
      (∀ name ∈ tasks.flatMap Task.opens, st.store.natives.lookup name = none) →
      (each (Task.run c.loader.load c ns) tasks).on st = (each (Task.run c.openLast c ns) tasks).on st
  | [], _, _, _, _, _ => rfl
  | task :: rest, R, st, nodup, hst, fresh => by
    rw [List.flatMap_cons] at nodup fresh
    obtain ⟨-, nodup, apart⟩ := nodup_append_out nodup
    obtain ⟨fresh_task, fresh⟩ := List.forall_mem_append.1 fresh
    have opens := run_opens alone hst task
    rw [each, each, on_bind, on_bind, run_eq task fresh_task]
    rcases hrun : (task.run c.openLast c ns).on st with ⟨e | _, st₁⟩
    · rfl
    · obtain ⟨R₁, openings, -⟩ := opens.ok hrun
      exact each_run_eq alone nodup (hst.openings openings) fun name hname =>
        (openings.natives name (apart name hname)).trans (fresh name hname)

/-! ## Building -/

theorem prepare_opens (c : Config) (sound : st.Sound R) (holds : st.Holds R) :
    (prepare c).Opens [] R (fun R' st' t => Beyond t R' st') st := by
  unfold prepare
  split_ifs
  · exact (capturePrint_tame.opens sound).andThen fun _ _ _ openings _ =>
      newNamespace_opens openings.progress.sound (openings.progress.holds holds)
  · exact newNamespace_opens sound holds

theorem carryOut_opens (alone : ∀ m ∈ c.natives, Opener.Alone m.opener) (sound : st.Sound R)
    (holds : st.Holds R) : (carryOut c.openLast c).Opens c.opens R (fun _ _ _ => True) st := by
  refine (prepare_opens c sound holds).bind fun env R₁ st₁ _ hst => ?_
  have tasks := Opens.each (I := Beyond env) (fun h => h.sound) (fun h => h.openings)
    (fun task _ _ h => run_opens alone h task) c.tasks hst
  rw [Config.tasks_opens] at tasks
  exact tasks.andThen fun _ _ _ openings _ => .pure openings.progress.sound trivial

theorem carryOut_eq (alone : ∀ m ∈ c.natives, Opener.Alone m.opener) (nodup : c.opens.Nodup)
    (sound : st.Sound R) (holds : st.Holds R) (natives : st.store.natives = []) :
    (carryOut c.loader.load c).on st = (carryOut c.openLast c).on st := by
  have prepared := prepare_opens c sound holds
  unfold carryOut
  rw [on_bind, on_bind]
  rcases hprepare : (prepare c).on st with ⟨e | env, st₁⟩
  · rfl
  · obtain ⟨R₁, openings, hst⟩ := prepared.ok hprepare
    dsimp only
    rw [on_bind, on_bind, each_run_eq alone (c.tasks_opens ▸ nodup) hst fun name _ => ?_]
    rw [openings.natives name List.not_mem_nil, natives]
    rfl

/-- All modules that a run asked for may be loaded and are registered, if it succeeded. -/
theorem carryOut_ok {env : TableId} (h : (carryOut c.openLast c).on st = (.ok env, st')) :
    ∀ name ∈ c.opens, c.loader.permits name ∧ ∃ m, LastNamed c.natives name m := by
  intro name hname
  rw [← Config.tasks_opens] at hname
  obtain ⟨task, htask, hname⟩ := List.mem_flatMap.1 hname
  obtain ⟨ns, st₁, -, h⟩ := bind_ok h
  obtain ⟨_, st₂, htasks, -⟩ := bind_ok h
  obtain ⟨st₃, st₄, hrun⟩ := each_ok_of_mem htasks htask
  have loaded : ∃ t st₅, (c.openLast name).on st₃ = (.ok t, st₅) := by
    unfold Task.opens at hname
    split at hname
    · obtain rfl := List.mem_singleton.1 hname
      obtain ⟨t, st₅, hload, -⟩ := bind_ok hrun
      exact ⟨t, st₅, mapError_ok (mapError_ok hload)⟩
    · obtain rfl := List.mem_singleton.1 hname
      obtain ⟨t, st₅, hload, -⟩ := bind_ok hrun
      exact ⟨t, st₅, mapError_ok hload⟩
    · cases hname
  obtain ⟨t, st₅, hload⟩ := loaded
  rw [Config.openLast] at hload
  split_ifs at hload with hpermits
  · rcases hm : c.last? name with _ | m <;> rw [hm] at hload
    · cases hload
    · exact ⟨hpermits, m, (c.last?_eq_some_iff name m).1 hm⟩
  · cases hload

theorem opens_nodup (h : c.defect = none) : c.opens.Nodup := by
  have natives : c.policy.natives.Sublist c.policy.targets := List.filter_sublist.map Rule.target
  obtain ⟨nodup, -⟩ := nodup_append_out (Config.keys_nodup h)
  obtain ⟨nodup, -⟩ := nodup_append_out nodup
  obtain ⟨nodup, -⟩ := nodup_append_out nodup
  exact (natives.append_right c.trusted).nodup nodup

theorem create_of_ok {around : Surroundings} {env : TableId} (h : c.defect = none)
    (hbuild : (build c).on (State.fresh around) = (.ok env, st)) :
    create c around = (.ok ⟨st, env, c.capturesOutput⟩, st) := by
  unfold create
  rw [h]
  dsimp only
  rw [hbuild]

theorem create_of_error {around : Surroundings} {e : Fault} (h : c.defect = none)
    (hbuild : (build c).on (State.fresh around) = (.error e, st)) :
    create c around = (.error e, st) := by
  unfold create
  rw [h]
  dsimp only
  rw [hbuild]

theorem build_of_create {around : Surroundings} {sb : Sandbox} (h : (create c around).1 = .ok sb) :
    c.defect = none ∧ ∃ env st, (build c).on (State.fresh around) = (.ok env, st) := by
  rcases hdefect : c.defect with _ | d
  · refine ⟨rfl, ?_⟩
    rcases hbuild : (build c).on (State.fresh around) with ⟨e | env, st⟩
    · rw [create_of_error hdefect hbuild] at h
      cases h
    · exact ⟨env, st, rfl⟩
  · rw [create_defect hdefect] at h
    cases h

theorem build_eq_openLast (alone : ∀ m ∈ c.natives, Opener.Alone m.opener) (h : c.defect = none)
    (around : Surroundings) :
    (build c).on (State.fresh around) = (carryOut c.openLast c).on (State.fresh around) := by
  obtain ⟨R, sound, holds⟩ := State.fresh_sound around
  rw [build_eq]
  exact carryOut_eq alone (opens_nodup h) sound holds (State.fresh_blank around).natives

theorem build_opened (alone : ∀ m ∈ c.natives, Opener.Alone m.opener) (h : c.defect = none)
    (around : Surroundings) :
    (build c).Ends (fun _ st' => st'.store.opened.reverse = c.opens)
      (fun st' => st'.store.opened.reverse <+: c.opens) (State.fresh around) := by
  obtain ⟨R, sound, holds⟩ := State.fresh_sound around
  have opened {names : List String} {R' : Realm} {st' : State}
      (openings : Openings names R (State.fresh around) R' st') : st'.store.opened.reverse = names := by
    rw [openings.opened, (State.fresh_blank around).opened, List.append_nil, List.reverse_reverse]
  rw [Ends, build_eq_openLast alone h]
  refine Ends.mono (carryOut_opens alone sound holds) ?_ ?_
  · rintro env st' ⟨R', openings, -⟩
    exact opened openings
  · rintro st' ⟨done, R', hdone, openings⟩
    exact opened openings ▸ hdone

theorem create_opened (alone : ∀ m ∈ c.natives, Opener.Alone m.opener) (around : Surroundings) :
    (create c around).2.store.opened.Nodup ∧ (create c around).2.store.opened.reverse <+: c.opens
      ∧ ∀ sb, (create c around).1 = .ok sb → (create c around).2.store.opened.reverse = c.opens := by
  rcases hdefect : c.defect with _ | d
  swap
  · rw [create_defect hdefect, (State.fresh_blank around).opened]
    exact ⟨List.nodup_nil, List.nil_prefix, fun _ h => (nomatch h)⟩
  have opened := build_opened alone hdefect around
  have nodup {names : List String} (h : names.reverse <+: c.opens) : names.Nodup :=
    List.nodup_reverse.1 (h.sublist.nodup (opens_nodup hdefect))
  rcases hbuild : (build c).on (State.fresh around) with ⟨e | env, st'⟩
  · rw [create_of_error hdefect hbuild]
    have some_first := opened.error hbuild
    exact ⟨nodup some_first, some_first, fun _ h => (nomatch h)⟩
  · rw [create_of_ok hdefect hbuild]
    have all := opened.ok hbuild
    have some_first : st'.store.opened.reverse <+: c.opens := all ▸ List.prefix_rfl
    exact ⟨nodup some_first, some_first, fun _ _ => all⟩

/-- Building opens the native modules that the policy names and those bound whole, each once and in this
order; if it fails, it has opened some of the first of them, each once; and no other module is opened,
registered and permitted or not. Where the names on top of the policy have no defect, a run is one in
which every load opens the module that was registered last under the name, by one run of its opener, and
otherwise does nothing; for all names asked for there is such a module and it may be loaded if building
succeeds. -/
theorem create_opens (c : Config) (alone : ∀ m ∈ c.natives, Opener.Alone m.opener)
    (around : Surroundings) :
    (c.defect = none →
        (build c).on (State.fresh around) = (carryOut c.openLast c).on (State.fresh around))
      ∧ (∀ (name : String) (st : State),
        (∀ m, c.loader.permits name → LastNamed c.natives name m → (c.openLast name).on st
          = NativeLoader.finishOpening name m.disabled (m.opener.on (NativeLoader.beginOpening m st)))
        ∧ (¬ (c.loader.permits name ∧ ∃ m, LastNamed c.natives name m) →
          ((c.openLast name).on st).2 = st))
      ∧ (∀ sb, (create c around).1 = .ok sb → c.opens.Nodup
        ∧ (create c around).2.store.opened.reverse = c.opens
        ∧ ∀ name ∈ c.opens, c.loader.permits name ∧ ∃ m, LastNamed c.natives name m)
      ∧ (∀ e, (create c around).1 = .error e → (create c around).2.store.opened.Nodup
        ∧ (create c around).2.store.opened.reverse <+: c.opens)
      ∧ ∀ name, name ∉ c.policy.natives → name ∉ c.trusted →
        name ∉ (create c around).2.store.opened := by
  obtain ⟨nodup, some_first, all⟩ := create_opened alone around
  refine ⟨fun h => build_eq_openLast alone h around, fun name st => ⟨?_, ?_⟩, fun sb h => ?_,
    fun _ _ => ⟨nodup, some_first⟩, fun name hnative htrusted hmem => ?_⟩
  · exact fun m permitted last => Config.openLast_on permitted last st
  · exact fun refused => Config.openLast_refused refused st
  · obtain ⟨hdefect, env, st, hbuild⟩ := build_of_create h
    rw [build_eq_openLast alone hdefect] at hbuild
    exact ⟨all sb h ▸ List.nodup_reverse.2 nodup, all sb h, carryOut_ok hbuild⟩
  · have asked := some_first.subset (List.mem_reverse.2 hmem)
    exact (List.mem_append.1 asked).elim hnative htrusted

/-- A configuration with two modules bound whole and a third that nothing names. -/
def clockConfig : Config where
  policy := .empty
  natives := [NativeLoader.openNetio, { NativeLoader.openNetio with name := "spare" },
    { name := "clock", opener := Opener.fields [("now", .value (.nat 3))] .none }]
  trusted := ["clock", "netio"]

theorem create_opens_clock : ((create clockConfig {}).1.toOption).isSome
    ∧ (clockConfig.openLast "netio").on (State.fresh {})
      = NativeLoader.finishOpening "netio" NativeLoader.openNetio.disabled
        (NativeLoader.openNetio.opener.on (NativeLoader.beginOpening NativeLoader.openNetio (State.fresh {})))
    ∧ (create clockConfig {}).2.store.opened.reverse = ["clock", "netio"]
    ∧ "spare" ∉ (create clockConfig {}).2.store.opened := by
  have hok : ((create clockConfig {}).1.toOption).isSome := by decide +kernel
  obtain ⟨sb, hsb⟩ := Option.isSome_iff_exists.1 hok
  have hcreate : (create clockConfig {}).1 = .ok sb := by
    generalize (create clockConfig {}).1 = r at hsb
    cases r <;> cases hsb
    rfl
  have alone : ∀ m ∈ clockConfig.natives, Opener.Alone m.opener := by
    intro m hm R
    simp only [clockConfig, List.mem_cons, List.not_mem_nil, or_false] at hm
    rcases hm with rfl | rfl | rfl <;> exact Opener.fields_tame (by simp [Datum.values])
  obtain ⟨-, opening, success, -, unopened⟩ := create_opens clockConfig alone {}
  have last : LastNamed clockConfig.natives "netio" NativeLoader.openNetio :=
    (clockConfig.last?_eq_some_iff "netio" _).1 rfl
  exact ⟨hok, (opening "netio" (State.fresh {})).1 _ rfl last, (success sb hcreate).2.1,
    unopened "spare" (by decide) (by decide)⟩

end Sandbox

end Enclosure
