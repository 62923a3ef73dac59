import Enclosure.Proofs.Attempt
import Enclosure.Proofs.Policy.Acceptance
import Enclosure.Proofs.Reach.Fresh
import Enclosure.Sandbox

/-!
# Misconfigured sandboxes

What a configuration binds on top of its policy can be bound if every name is usable and no two of them
or of the policy's targets are the same. Building a sandbox fails by the first name for which this is
not so, before anything is opened, read or required; and no later failure is told as one of the
configuration (`create_misconfigured`).
-/

namespace Enclosure

namespace Config

/-- The name of a file that lies in its directory and is not hidden. -/
structure PlainFileName (name : String) : Prop where
  chars : ∀ c ∈ name.toList, c.isAlphanum ∨ c = '_' ∨ c = '-' ∨ c = '.'
  visible : name.toList.head? ≠ some '.'
  inside : ¬ ['.', '.'] <:+: name.toList

theorem isFileChar_iff (c : Char) : isFileChar c ↔ c.isAlphanum ∨ c = '_' ∨ c = '-' ∨ c = '.' := by
  have alphanum : c.isAlphanum = (decide (c.val ≥ 65 ∧ c.val ≤ 90)
      || (decide (c.val ≥ 97) && decide (c.val ≤ 122)) || (decide (c.val ≥ 48) && decide (c.val ≤ 57))) :=
    rfl
  simp only [isFileChar, alphanum, Bool.or_eq_true, Bool.and_eq_true, decide_eq_true_eq, beq_iff_eq,
    Char.le_def, ge_iff_le]
  have h0 : '0'.val = 48 := rfl
  have h9 : '9'.val = 57 := rfl
  tauto

theorem hasTwoPoints_iff : ∀ cs : List Char, hasTwoPoints cs ↔ ['.', '.'] <:+: cs
  | [] => by simp [hasTwoPoints]
  | [a] => by simp [hasTwoPoints, List.infix_cons_iff]
  | a :: b :: rest => by
    rw [hasTwoPoints, List.infix_cons_iff, Bool.or_eq_true, hasTwoPoints_iff (b :: rest),
      List.cons_prefix_cons, List.cons_prefix_cons, Bool.and_eq_true, beq_iff_eq, beq_iff_eq]
    simp only [List.nil_prefix, and_true, eq_comm]

theorem plainFileName_iff (name : String) : plainFileName name ↔ PlainFileName name := by
  have hpoints := hasTwoPoints_iff name.toList
  simp only [plainFileName, Bool.and_eq_true, List.all_eq_true, isFileChar_iff, bne_iff_ne,
    Bool.not_eq_true', ← Bool.not_eq_true, hpoints]
  exact ⟨fun ⟨⟨chars, visible⟩, inside⟩ => ⟨chars, visible, inside⟩,
    fun ⟨chars, visible, inside⟩ => ⟨⟨chars, visible⟩, inside⟩⟩

namespace Binding

/-- A binding by its name: it can be a key, and that of a script module the name of its file. -/
def Usable (b : Binding) : Prop := UsableName b.name ∧ (b.ofFile → PlainFileName b.name)

theorem valid_iff (b : Binding) : b.valid ↔ b.Usable := by
  simp only [valid, Usable, Bool.and_eq_true, validName_iff, Bool.or_eq_true, Bool.not_eq_true',
    ← plainFileName_iff]
  cases b.ofFile <;> simp

/-- What is wrong with a binding that comes after others under the names `taken`. -/
inductive Offends (taken : List String) (b : Binding) : Defect → Prop
  | invalid (h : ¬ b.Usable) : Offends taken b (.invalidName b.name)
  | duplicate (h : b.Usable) (htaken : b.name ∈ taken) : Offends taken b (.duplicate none b.name)

end Binding

/-! ## The first offence -/

/-- Bindings that can be made after others under the names `taken`. -/
structure Bindable (taken : List String) (bs : List Binding) : Prop where
  usable : ∀ b ∈ bs, b.Usable
  distinct : (bs.map (·.name)).Nodup
  apart : ∀ b ∈ bs, b.name ∉ taken

theorem bindable_cons {taken : List String} {b : Binding} {rest : List Binding} :
    Bindable taken (b :: rest) ↔ b.Usable ∧ b.name ∉ taken ∧ Bindable (b.name :: taken) rest := by
  constructor
  · rintro ⟨usable, distinct, apart⟩
    obtain ⟨husable, usable⟩ := List.forall_mem_cons.1 usable
    obtain ⟨hapart, apart⟩ := List.forall_mem_cons.1 apart
    obtain ⟨hnot, distinct⟩ := List.nodup_cons.1 distinct
    refine ⟨husable, hapart, usable, distinct, fun b' hb' hmem => ?_⟩
    rcases List.mem_cons.1 hmem with he | hmem
    · exact hnot (List.mem_map.2 ⟨b', hb', he⟩)
    · exact apart b' hb' hmem
  · rintro ⟨husable, hapart, usable, distinct, apart⟩
    refine ⟨List.forall_mem_cons.2 ⟨husable, usable⟩, List.nodup_cons.2 ⟨fun hmem => ?_, distinct⟩,
      List.forall_mem_cons.2 ⟨hapart, fun b' hb' hmem => apart b' hb' (List.mem_cons_of_mem _ hmem)⟩⟩
    obtain ⟨b', hb', he⟩ := List.mem_map.1 hmem
    exact apart b' hb' (List.mem_cons.2 (.inl he))

theorem bindingDefect_eq_none_iff : ∀ (taken : List String) (bs : List Binding),
    bindingDefect taken bs = none ↔ Bindable taken bs
  | taken, [] => ⟨fun _ => ⟨by simp, by simp, by simp⟩, fun _ => rfl⟩
  | taken, b :: rest => by
    have ih := bindingDefect_eq_none_iff (b.name :: taken) rest
    rw [bindable_cons, ← ih, ← Binding.valid_iff, bindingDefect]
    split_ifs with hvalid htaken
    · simp only [Bool.not_eq_true'] at hvalid
      simp [hvalid]
    · simp only [List.contains_eq_mem, decide_eq_true_eq] at htaken
      simp [htaken]
    · simp only [Bool.not_eq_true', Bool.not_eq_false, List.contains_eq_mem, decide_eq_true_eq]
        at hvalid htaken
      simp [hvalid, htaken]

/-- The defect of the first binding that offends, where all before it can be made. -/
def FirstOffence (taken : List String) (bs : List Binding) (d : Defect) : Prop :=
  ∃ before b after, bs = before ++ b :: after ∧ Bindable taken before
    ∧ b.Offends (taken ++ before.map (·.name)) d

theorem bindable_nil (taken : List String) : Bindable taken [] := ⟨by simp, by simp, by simp⟩

theorem Binding.Offends.congr {taken taken' : List String} {b : Binding} {d : Defect}
    (h : b.Offends taken d) (hmem : ∀ name ∈ taken, name ∈ taken') : b.Offends taken' d := by
  cases h with
  | invalid h => exact .invalid h
  | duplicate h htaken => exact .duplicate h (hmem _ htaken)

theorem firstOffence_of_defect : ∀ {taken : List String} {bs : List Binding} {d : Defect},
    bindingDefect taken bs = some d → FirstOffence taken bs d
  | taken, b :: rest, d, h => by
    have hvalid := b.valid_iff
    rw [bindingDefect] at h
    split_ifs at h with hbad htaken
    · obtain rfl := Option.some.inj h
      refine ⟨[], b, rest, rfl, bindable_nil taken, .invalid fun husable => ?_⟩
      simp [hvalid.2 husable] at hbad
    · obtain rfl := Option.some.inj h
      have husable : b.Usable := hvalid.1 (by simpa using hbad)
      exact ⟨[], b, rest, rfl, bindable_nil taken, .duplicate husable (by simpa using htaken)⟩
    · obtain ⟨before, b', after, rfl, bindable, offends⟩ := firstOffence_of_defect h
      have husable : b.Usable := hvalid.1 (by simpa using hbad)
      refine ⟨b :: before, b', after, rfl, bindable_cons.2 ⟨husable, by simpa using htaken, bindable⟩,
        offends.congr fun name hmem => ?_⟩
      simp only [List.cons_append, List.mem_cons, List.mem_append, List.map_cons] at hmem ⊢
      tauto

theorem FirstOffence.defect : ∀ {taken : List String} {bs : List Binding} {d : Defect},
    FirstOffence taken bs d → bindingDefect taken bs = some d := by
  rintro taken bs d ⟨before, b, after, rfl, bindable, offends⟩
  induction before generalizing taken with
  | nil =>
    have hvalid := b.valid_iff
    rw [List.nil_append, bindingDefect]
    cases offends with
    | invalid h => rw [if_pos (by simpa [← hvalid] using h)]
    | duplicate h htaken => rw [if_neg (by simpa [← hvalid] using h), if_pos (by simpa using htaken)]
  | cons b₀ before ih =>
    obtain ⟨husable, hapart, bindable⟩ := bindable_cons.1 bindable
    have hvalid := b₀.valid_iff
    rw [List.cons_append, bindingDefect, if_neg (by simpa [← hvalid] using husable),
      if_neg (by simpa using hapart)]
    refine ih bindable (offends.congr fun name hmem => ?_)
    simp only [List.cons_append, List.mem_cons, List.mem_append, List.map_cons] at hmem ⊢
    tauto

/-- A binding that cannot be made: its name is not usable, or it is a target of the policy or the name
of a binding before. -/
def Misconfigured (c : Config) : Prop :=
  ∃ before b after, c.bindings = before ++ b :: after
    ∧ (¬ b.Usable ∨ b.name ∈ c.policy.targets ∨ b.name ∈ before.map (·.name))

theorem misconfigured_iff (c : Config) : c.Misconfigured ↔ ∃ d, c.defect = some d := by
  constructor
  · rintro ⟨before, b, after, hbindings, hbad⟩
    rcases hdefect : c.defect with _ | d
    · -- bindings without a defect can all be made, also this one
      obtain ⟨usable, distinct, apart⟩ := (bindingDefect_eq_none_iff _ _).1 hdefect
      rw [hbindings] at usable distinct apart
      have hmem : b ∈ before ++ b :: after := by simp
      rw [List.map_append, List.map_cons] at distinct
      rcases hbad with hbad | hbad | hbad
      · exact absurd (usable b hmem) hbad
      · exact absurd hbad (apart b hmem)
      · exact absurd rfl ((List.nodup_append.1 distinct).2.2 _ hbad _ (List.mem_cons_self ..))
    · exact ⟨d, rfl⟩
  · rintro ⟨d, hdefect⟩
    obtain ⟨before, b, after, hbindings, -, offends⟩ := firstOffence_of_defect hdefect
    refine ⟨before, b, after, hbindings, ?_⟩
    cases offends with
    | invalid h => exact .inl h
    | duplicate h htaken => exact .inr (List.mem_append.1 htaken)

end Config

/-! ## Later failures -/

/-- A failure that is not one of the configuration. -/
def Fault.Later (e : Fault) : Prop := e.isConfiguration = false

theorem Fault.unresolved_later (module : Option String) (name : String) :
    (Fault.unresolved module name).Later := rfl

namespace Assembly

open Attempt Fault

variable {σ Value Module Namespace : Type} (host : Host σ Value Module Namespace)

theorem expose_errs (ns : Namespace) (module : String) (source : Module) (names : List String) :
    Errs Fault.Later (expose host ns module source names) := by
  have copyField (copy : Namespace) (name : String) :
      Errs Fault.Later (copyField host module source copy name) :=
    .bind (.mapError fun _ => rfl) fun _ => .bind (.orFail (unresolved_later _ _) _) fun _ => .mapError fun _ => rfl
  have copyFields : Errs Fault.Later (copyFields host module source names) :=
    .bind (.mapError fun _ => rfl) fun copy => .bind (.each (copyField copy) names) fun _ => .pure copy
  exact .bind copyFields fun _ => .mapError fun _ => rfl

theorem apply_errs (load : NativeLoad σ Module) (ns : Namespace) (r : Rule) :
    Errs Fault.Later (apply host load ns r) := by
  cases r with
  | bare name =>
    exact .bind (.mapError fun _ => rfl) fun _ => .bind (.orFail (unresolved_later _ _) _) fun _ => .mapError fun _ => rfl
  | library module names | native module names =>
    exact .bind (.mapError fun _ => rfl) fun source => expose_errs host ns module source names

theorem assemble_errs (load : NativeLoad σ Module) (p : Policy) :
    Errs Fault.Later (assemble host load p) :=
  .bind (.mapError fun _ => rfl) fun ns => .bind (.each (apply_errs host load ns) p.rules)
    fun _ => .pure ns

end Assembly

namespace Sandbox

open Lua Attempt

theorem hosted_errs {α : Type} (m : Lua.Action α) : Errs Fault.Later (hosted m) :=
  .mapError fun _ => rfl

theorem bindTrusted_errs (loader : NativeLoader) (env : TableId) (name : String) :
    Errs Fault.Later (bindTrusted loader env name) :=
  .bind (.mapError fun _ => rfl) fun _ => hosted_errs _

theorem scriptTable_errs (directory name : String) :
    Errs Fault.Later (scriptTable directory name) := by
  refine .bind (hosted_errs _) fun _ => .bind (hosted_errs _) fun content => ?_
  cases content with
  | error e => exact .fail rfl
  | ok source =>
    refine .bind (.mapError fun _ => rfl) fun vs => ?_
    split
    · exact .pure _
    · exact .fail rfl

theorem bindArgs_errs (env : TableId) (args : List String) :
    Errs Fault.Later (bindArgs env args) := by
  unfold bindArgs
  split_ifs
  · exact .pure ()
  · exact hosted_errs _

/-- No failure in building from a configuration without defects is told as one of it. -/
theorem build_errs (c : Config) : Errs Fault.Later (build c) := by
  have rest : Errs Fault.Later (do
      let env ← Assembly.assemble Environment.host c.loader.native c.policy
      Attempt.each (bindTrusted c.loader env) c.trusted
      Attempt.each (bindFunction env) c.functions
      Attempt.each (bindScript c.modulePath env) c.scriptModules
      bindArgs env c.args
      return env : Attempt State Fault TableId) := by
    refine .bind (Assembly.assemble_errs _ _ _) fun env => ?_
    refine .bind (.each (bindTrusted_errs _ env) _) fun _ => ?_
    refine .bind (.each (fun _ => hosted_errs _) _) fun _ => ?_
    refine .bind (.each (fun name => .bind (scriptTable_errs _ name) fun _ => hosted_errs _) _) fun _ => ?_
    exact .bind (bindArgs_errs env _) fun _ => .pure env
  unfold build
  split_ifs
  · exact .bind (hosted_errs _) fun _ => rest
  · exact rest

theorem create_defect {c : Config} {d : Defect} (h : c.defect = some d) (around : Surroundings) :
    create c around = (.error (.defect d), State.fresh around) := by
  unfold create
  rw [h]

/-- Building fails with an error of the configuration exactly if a name on top of the policy is not
usable, a target of the policy, or there before. The error is then that of the first such name, and the
state is a fresh one: no opener ran, and no file was looked for. -/
theorem create_misconfigured (c : Config) (around : Surroundings) :
    ((∃ e, (create c around).1 = .error e ∧ e.isConfiguration = true) ↔ c.Misconfigured)
      ∧ (c.Misconfigured → ∃ d, Config.FirstOffence c.policy.targets c.bindings d)
      ∧ (∀ d, Config.FirstOffence c.policy.targets c.bindings d →
        create c around = (.error (.defect d), State.fresh around))
      ∧ (State.fresh around).store.opened = [] ∧ (State.fresh around).store.tried = [] := by
  refine ⟨⟨?_, fun h => ?_⟩, fun h => ?_, fun d h => create_defect h.defect around,
    (State.fresh_blank around).opened, (State.fresh_blank around).tried⟩
  · rintro ⟨e, hcreate, hconfiguration⟩
    rw [Config.misconfigured_iff]
    rcases hdefect : c.defect with _ | d
    · -- without a defect the error is one of building
      unfold create at hcreate
      generalize State.fresh around = st at hcreate
      have herrs := build_errs c st
      rw [hdefect] at hcreate
      dsimp only at hcreate
      generalize (build c).on st = r at herrs hcreate
      obtain ⟨e' | env, st⟩ := r <;> cases hcreate
      exact absurd (herrs e rfl) (by simp [Fault.Later, hconfiguration])
    · exact ⟨d, rfl⟩
  · obtain ⟨d, hdefect⟩ := (Config.misconfigured_iff c).1 h
    exact ⟨.defect d, by rw [create_defect hdefect], rfl⟩
  · obtain ⟨d, hdefect⟩ := (Config.misconfigured_iff c).1 h
    exact ⟨d, Config.firstOffence_of_defect hdefect⟩

end Sandbox

end Enclosure
