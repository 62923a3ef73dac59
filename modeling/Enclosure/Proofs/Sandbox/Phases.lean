import Enclosure.Proofs.Sandbox.Binding
import Enclosure.Proofs.Sandbox.Misconfiguration

/-!
# The phases of building

The environment of a sandbox is a table out of reach of all that runs while it is built. Each phase of
building fills it with fields under its own names, which are all different. So it ends up with exactly
the fields that the configuration asks for, and each of them is what the phase that bound it put there
(`create_built`).
-/

namespace Enclosure

open Lua Attempt

variable {K : List String → Pledge} {R : Realm} {st st' : State}

/-- All names that a configuration binds, phase by phase. -/
def Config.keys (c : Config) : List String :=
  c.policy.targets ++ c.trusted ++ c.functions.map (·.name) ++ c.scriptModules
    ++ if c.args.isEmpty then [] else [argsName]

theorem Config.keys_eq (c : Config) : c.keys = c.policy.targets ++ c.bindings.map (·.name) := by
  unfold keys bindings
  split_ifs <;> simp [Function.comp_def]

theorem Config.keys_nodup {c : Config} (h : c.defect = none) : c.keys.Nodup := by
  obtain ⟨-, distinct, apart⟩ := (bindingDefect_eq_none_iff _ _).1 h
  rw [keys_eq, List.nodup_append]
  refine ⟨c.policy.targets_nodup, distinct, fun name htarget name' hname he => ?_⟩
  obtain ⟨b, hb, rfl⟩ := List.mem_map.1 hname
  exact apart b hb (he ▸ htarget)

theorem nodup_append_out {names names' : List String} (h : (names ++ names').Nodup) :
    names.Nodup ∧ names'.Nodup ∧ ∀ name ∈ names', name ∉ names := by
  obtain ⟨h₁, h₂, apart⟩ := List.nodup_append.1 h
  exact ⟨h₁, h₂, fun name hmem' hmem => apart name hmem name hmem' rfl⟩

namespace Sandbox

/-- The states between the phases of building. -/
structure Phases (c : Config) (st : State) (env : TableId) (st₀ st₁ st₂ st₃ st₄ st₅ : State) :
    Prop where
  start : (if c.capturesOutput then capturePrint else pure ()).on st = (.ok (), st₀)
  assembled : (Assembly.assemble Environment.host c.loader.native c.policy).on st₀ = (.ok env, st₁)
  trusted : (each (bindTrusted c.loader env) c.trusted).on st₁ = (.ok (), st₂)
  functions : (each (bindFunction env) c.functions).on st₂ = (.ok (), st₃)
  scripts : (each (bindScript c.modulePath env) c.scriptModules).on st₃ = (.ok (), st₄)
  args : (bindArgs env c.args).on st₄ = (.ok (), st₅)

theorem capturePrint_tame : capturePrint.Tame R fun _ _ => True :=
  .mapError (.bind .globals fun _ _ _ hg => .bind (.rawGetText hg _) fun _ _ h₁ hv =>
    .bind (.newBuiltin _ (Realm.hasAll_one hv)) fun _ _ h₂ hf => .rawSetText ((h₁.trans h₂).1 hg) _ hf)

/-- A state in which nothing is kept keeps any pledge. -/
theorem footing_of_empty (L : Pledge) (sound : st.Sound R) (holds : st.Holds R)
    (natives : st.store.natives = []) : st.Footing L R :=
  ⟨sound, holds, by simp [natives]⟩

/-- A sandbox that was built went through all phases, from a state in which there is a realm to stand
on and nothing is kept. -/
theorem create_phases {c : Config} {around : Surroundings} {sb : Sandbox}
    (h : (create c around).1 = .ok sb) : c.defect = none ∧ ∃ R st₀ st₁ st₂ st₃ st₄,
      (∀ L, st₀.Footing L R)
      ∧ Phases c (State.fresh around) sb.env st₀ st₁ st₂ st₃ st₄ sb.state := by
  have natives := (State.fresh_blank around).natives
  obtain ⟨R, sound, holds⟩ := State.fresh_sound around
  unfold create at h
  generalize State.fresh around = st at h natives sound holds ⊢
  -- to capture the output keeps the realm sound and loads nothing
  have started (st₀ : State) (hstart : (if c.capturesOutput then capturePrint else pure ()).on st
      = (.ok (), st₀)) : ∃ R, ∀ L, st₀.Footing L R := by
    split_ifs at hstart
    · obtain ⟨R₁, progress, ledger, -⟩ := capturePrint_tame _ sound
      rw [hstart] at progress ledger
      have hnatives : st₀.store.natives = [] := (congrArg Ledger.natives ledger).trans natives
      exact ⟨R₁, fun L => footing_of_empty L progress.sound (progress.holds holds) hnatives⟩
    · obtain ⟨-, rfl⟩ := pure_ok hstart
      exact ⟨R, fun L => footing_of_empty L sound holds natives⟩
  rcases hdefect : c.defect with _ | d <;> rw [hdefect] at h
  · dsimp only at h
    rcases hbuild : (build c).on st with ⟨e | env, st₅⟩ <;> rw [hbuild] at h <;> cases h
    refine ⟨rfl, ?_⟩
    have hbuild : ((if c.capturesOutput then capturePrint else pure ()) >>= fun _ => do
        let env ← Assembly.assemble Environment.host c.loader.native c.policy
        Attempt.each (bindTrusted c.loader env) c.trusted
        Attempt.each (bindFunction env) c.functions
        Attempt.each (bindScript c.modulePath env) c.scriptModules
        bindArgs env c.args
        return env : Attempt State Fault TableId).on st = (.ok env, st₅) := by
      rw [← hbuild]
      unfold build
      split_ifs <;> rfl
    obtain ⟨_, st₀, hstart, hrun⟩ := bind_ok hbuild
    obtain ⟨env', st₁, assembled, hrun⟩ := bind_ok hrun
    obtain ⟨_, st₂, htrusted, hrun⟩ := bind_ok hrun
    obtain ⟨_, st₃, hfunctions, hrun⟩ := bind_ok hrun
    obtain ⟨_, st₄, hscripts, hrun⟩ := bind_ok hrun
    obtain ⟨_, _, hargs, hrun⟩ := bind_ok hrun
    obtain ⟨rfl, rfl⟩ := pure_ok hrun
    obtain ⟨R₀, hst₀⟩ := started st₀ hstart
    exact ⟨R₀, st₀, st₁, st₂, st₃, st₄, hst₀,
      ⟨hstart, assembled, htrusted, hfunctions, hscripts, hargs⟩⟩
  · cases h

/-- A sandbox that was built: its environment has the names of its configuration for keys, something is
true of the values that rules and trusted modules have in it, and no phase changed a field that was
there. -/
structure Built (c : Config) (sb : Sandbox) (P : Rule → Realm → State → Value → Prop)
    (Q : String → Realm → State → Value → Prop) (R : Realm) (st₁ st₂ st₃ st₄ : State) : Prop where
  exact : (sb.state.store.table sb.env).Exact c.keys
  rules : ∀ r ∈ c.policy.rules, HasField R sb.state sb.env r.target (P r)
  trusted : ∀ name ∈ c.trusted, HasField R sb.state sb.env name (Q name)
  functions : ∀ f ∈ c.functions,
    HasField R sb.state sb.env f.name fun R st v => ∃ g, v = .func g ∧ Calls f R st g
  scripts : ∀ before name after, c.scriptModules = before ++ name :: after →
    ∃ st, (each (bindScript c.modulePath sb.env) before).on st₃ = (.ok (), st)
      ∧ HasField R sb.state sb.env name fun _ _ v => ∃ t st', v = .table t
        ∧ (scriptTable c.modulePath name).on st = (.ok t, st')
  args : c.args ≠ [] → HasField R sb.state sb.env Config.argsName fun R st v =>
    ∃ t, v = .table t ∧ Apart sb.env (· = Table.setTexts default 1 c.args) R st t
  keeps_trusted : KeepsFields sb.env st₁ st₂
  keeps_functions : KeepsFields sb.env st₂ st₃
  keeps_scripts : KeepsFields sb.env st₃ st₄
  keeps_args : KeepsFields sb.env st₄ sb.state

/-- A namespace that was assembled has the targets of the policy and nothing else. -/
theorem assemble_fills {load : NativeLoad State TableId} {p : Policy}
    {P : TableId → Rule → Realm → State → Value → Prop} (hlast : ∀ ns r, Lasts ns (P ns r))
    (hbinds : ∀ R ns, ∀ r ∈ p.rules, Binds K R ns r.target (fun _ => P ns r)
      (Assembly.apply Environment.host load ns r)) {env : TableId} (hst : st.Footing (K []) R)
    (h : (Assembly.assemble Environment.host load p).on st = (.ok env, st')) :
    ∃ R', Filled K R' st' env p.targets ∧ ∀ r ∈ p.rules, HasField R' st' env r.target (P env r) := by
  obtain ⟨t, st₁, hnew, h⟩ := bind_ok h
  obtain ⟨_, st₂, hfill, h⟩ := bind_ok h
  obtain ⟨rfl, rfl⟩ := pure_ok h
  obtain ⟨rfl, rfl⟩ := newNamespace_ok hnew
  have sound := (firstDefect_eq_none_iff p.rules).1 p.sound
  obtain ⟨R', filled, -, fields⟩ := each_fills Rule.target (fun r _ => P ⟨st.store.tables.size⟩ r)
    (hbinds R _) (fun r _ => hlast _ r) sound.2 (fun _ _ => List.not_mem_nil) (le_refl R)
    (filled_new hst) hfill
  refine ⟨R', by simpa [Policy.targets] using filled, fun r hr => ?_⟩
  obtain ⟨before, after, hsplit⟩ := List.append_of_mem hr
  exact (fields before r after hsplit).elim fun _ h => h.2

theorem bindArgs_fills {ns : TableId} {args names : List String} (hK : Widens K)
    (h : Filled K R st ns names) (hout : args ≠ [] → Config.argsName ∉ names)
    (hrun : (bindArgs ns args).on st = (.ok (), st')) :
    ∃ R', Filled K R' st' ns (names ++ if args.isEmpty then [] else [Config.argsName])
      ∧ Fills ns R st R' st' ∧ (args ≠ [] → HasField R' st' ns Config.argsName fun R st v =>
        ∃ t, v = .table t ∧ Apart ns (· = Table.setTexts default 1 args) R st t) := by
  by_cases hne : args = []
  · subst hne
    obtain ⟨-, rfl⟩ := pure_ok hrun
    exact ⟨R, by simpa using h, .refl h.footing.sound, fun hne => absurd rfl hne⟩
  · obtain ⟨R', filled, fills, field⟩ := (bindArgs_binds hK hne).fills (Apart.lasts ns _)
      (le_refl R) h (hout hne) hrun
    refine ⟨R', ?_, fills, fun _ => field⟩
    rwa [if_neg (by simpa using hne)]

/-- If the rules of the policy and the trusted modules bind what they are to bind, so does the whole
configuration, each name once. -/
theorem create_built {c : Config} {around : Surroundings} {sb : Sandbox} (hK : Widens K)
    {P : TableId → Rule → Realm → State → Value → Prop}
    {Q : TableId → String → Realm → State → Value → Prop} (hP : ∀ ns r, Lasts ns (P ns r))
    (hQ : ∀ ns name, Lasts ns (Q ns name))
    (rules : ∀ R ns, ∀ r ∈ c.policy.rules, Binds K R ns r.target (fun _ => P ns r)
      (Assembly.apply Environment.host c.loader.native ns r))
    (trusted : ∀ R ns, ∀ name ∈ c.trusted, Binds K R ns name (fun _ => Q ns name)
      (bindTrusted c.loader ns name))
    (h : (create c around).1 = .ok sb) :
    c.keys.Nodup ∧ ∃ R st₀ st₁ st₂ st₃ st₄,
      Phases c (State.fresh around) sb.env st₀ st₁ st₂ st₃ st₄ sb.state
      ∧ Built c sb (P sb.env) (Q sb.env) R st₁ st₂ st₃ st₄ := by
  obtain ⟨hdefect, R, st₀, st₁, st₂, st₃, st₄, footing, phases⟩ := create_phases h
  have nodup := Config.keys_nodup hdefect
  obtain ⟨R₁, filled₁, fields₁⟩ := assemble_fills hP rules (footing _) phases.assembled
  -- what each phase binds is not bound before
  obtain ⟨nodup₄, -, apart₅⟩ := nodup_append_out nodup
  obtain ⟨nodup₃, scripts, apart₄⟩ := nodup_append_out nodup₄
  obtain ⟨nodup₂, functions, apart₃⟩ := nodup_append_out nodup₃
  obtain ⟨-, distinct, apart₂⟩ := nodup_append_out nodup₂
  obtain ⟨R₂, filled₂, fills₂, fields₂⟩ := each_fills id (fun name _ => Q sb.env name)
    (trusted R₁ _) (fun name _ => hQ sb.env name) (by simpa using distinct) apart₂ (le_refl R₁)
    filled₁ phases.trusted
  rw [List.map_id] at filled₂
  obtain ⟨R₃, filled₃, fills₃, fields₃⟩ := each_fills HostFunction.name
    (fun f _ R st v => ∃ g, v = .func g ∧ Calls f R st g) (fun f _ => bindFunction_binds hK f)
    (fun f _ => calls_lasts sb.env f) functions
    (fun f hf => apart₃ f.name (List.mem_map_of_mem hf)) (le_refl R₂) filled₂ phases.functions
  obtain ⟨R₄, filled₄, fills₄, fields₄⟩ := each_fills id
    (fun name st _ _ v => ∃ t st₁, v = .table t ∧ (scriptTable c.modulePath name).on st = (.ok t, st₁))
    (fun name _ => bindScript_binds hK c.modulePath name) (fun _ _ _ _ _ _ _ _ h => h)
    (by simpa using scripts) apart₄ (le_refl R₃) filled₃ phases.scripts
  rw [List.map_id] at filled₄
  obtain ⟨R₅, filled₅, fills₅, field₅⟩ := bindArgs_fills hK filled₄
    (fun hne => apart₅ _ (by simp [hne])) phases.args
  have later₄ := fills₄.trans fills₅
  have later₃ := fills₃.trans later₄
  refine ⟨nodup, R₅, st₀, st₁, st₂, st₃, st₄, phases, {
    exact := filled₅.exact
    rules := fun r hr => (fields₁ r hr).fills (hP sb.env r) (fills₂.trans later₃)
    trusted := fun name hname => ?_
    functions := fun f hf => ?_
    scripts := fun before name after hsplit => ?_
    args := field₅
    keeps_trusted := fills₂.keeps
    keeps_functions := fills₃.keeps
    keeps_scripts := fills₄.keeps
    keeps_args := fills₅.keeps }⟩
  · obtain ⟨before, after, hsplit⟩ := List.append_of_mem hname
    obtain ⟨st, -, field⟩ := fields₂ before name after hsplit
    exact field.fills (hQ sb.env name) later₃
  · obtain ⟨before, after, hsplit⟩ := List.append_of_mem hf
    obtain ⟨st, -, field⟩ := fields₃ before f after hsplit
    exact field.fills (calls_lasts sb.env f) later₄
  · obtain ⟨st, hbefore, field⟩ := fields₄ before name after hsplit
    exact ⟨st, hbefore, field.fills (fun _ _ _ _ _ _ h => h) fills₅⟩

end Sandbox

end Enclosure
