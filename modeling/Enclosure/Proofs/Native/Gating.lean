import Enclosure.Proofs.Native.Disabled

/-!
# Who may load what

Whether a loader refuses a name is settled by what was done to that loader and by nothing else: it has
to be allowed, by its name or together with all that were registered by then, and it has to be
registered. A refusal leaves the state as it is, and what others have opened there does not help
(`load_gated`).
-/

namespace Enclosure.NativeLoader

open Lua Attempt

/-- What is done to a loader itself. -/
inductive Deed
  | register (m : NativeModule)
  | allow (name : String)
  | allowRegistered

def Deed.on (l : NativeLoader) : Deed → NativeLoader
  | .register m => l.register m
  | .allow name => l.allow name
  | .allowRegistered => l.allowRegistered

/-- The past of each loader after one call more. A copy has the past of what it was copied from. -/
def pastAfter (past : Nat → List Deed) : Call → Nat → List Deed
  | .register l m, i => if i = l then past l ++ [.register m] else past i
  | .allow l name, i => if i = l then past l ++ [.allow name] else past i
  | .allowRegistered l, i => if i = l then past l ++ [.allowRegistered] else past i
  | .clone l l', i => if i = l' then past l else past i
  | .load .., i => past i

/-- What was done to each loader in a history, in order. -/
def past (calls : List Call) : Nat → List Deed := calls.foldl pastAfter fun _ => []

theorem past_snoc (calls : List Call) (c : Call) : past (calls ++ [c]) = pastAfter (past calls) c := by
  simp [past]

/-- A loader is what its past has made of it. -/
theorem loaders_eq (st : State) (calls : List Call) : ∀ l : Nat,
    (World.run { state := st } calls).loaders l = (past calls l).foldl Deed.on {} := by
  induction calls using List.reverseRecOn with
  | nil => exact fun _ => rfl
  | append_singleton calls c ih =>
    intro i
    rw [World.run_snoc, past_snoc]
    cases c with
    | load l name => exact ih i
    | register l m | allow l name | allowRegistered l | clone l l' =>
      simp only [World.step, World.setLoader, pastAfter]
      split_ifs
      · simp [ih, Deed.on]
      · exact ih i

/-! ## Permission -/

/-- A module of the name was registered. -/
def Registers (deeds : List Deed) (name : String) : Prop := ∃ m, .register m ∈ deeds ∧ m.name = name

/-- The name was allowed, or it was registered and all that was registered was allowed later. -/
def Permits (deeds : List Deed) (name : String) : Prop :=
  .allow name ∈ deeds ∨ ∃ before m after, deeds = before ++ .register m :: after ∧ m.name = name
    ∧ .allowRegistered ∈ after

variable {deeds : List Deed} {name : String}

theorem registers_snoc {d : Deed} : Registers (deeds ++ [d]) name
    ↔ Registers deeds name ∨ ∃ m, d = .register m ∧ m.name = name := by
  simp only [Registers, List.mem_append, List.mem_singleton, or_and_right, exists_or, eq_comm]

/-- A registration that a deed comes after is one of the deeds in front of it. -/
theorem permits_snoc {d : Deed} : Permits (deeds ++ [d]) name
    ↔ Permits deeds name ∨ d = .allow name ∨ d = .allowRegistered ∧ Registers deeds name := by
  constructor
  · rintro (hallow | ⟨before, m, after, hsplit, hname, hafter⟩)
    · rcases List.mem_append.1 hallow with h | h
      · exact .inl (.inl h)
      · exact .inr (.inl (List.mem_singleton.1 h).symm)
    · rcases List.eq_nil_or_concat after with rfl | ⟨after, last, rfl⟩
      · cases hafter
      rw [List.concat_eq_append] at hsplit hafter
      rw [← List.cons_append, ← List.append_assoc] at hsplit
      obtain ⟨rfl, hlast⟩ := List.append_inj' hsplit rfl
      obtain rfl := List.singleton_inj.1 hlast
      rcases List.mem_append.1 hafter with h | h
      · exact .inl (.inr ⟨before, m, after, rfl, hname, h⟩)
      · exact .inr (.inr ⟨(List.mem_singleton.1 h).symm, m, by simp, hname⟩)
  · rintro ((hallow | ⟨before, m, after, rfl, hname, hafter⟩) | rfl | ⟨rfl, m, hm, hname⟩)
    · exact .inl (List.mem_append_left _ hallow)
    · exact .inr ⟨before, m, after ++ [d], by simp, hname, List.mem_append_left _ hafter⟩
    · exact .inl (by simp)
    · obtain ⟨before, after, rfl⟩ := List.append_of_mem hm
      exact .inr ⟨before, m, after ++ [.allowRegistered], by simp, hname, by simp⟩

theorem registered_register (l : NativeLoader) (m : NativeModule) (name : String) :
    (l.register m).registered name ↔ l.registered name ∨ m.name = name := by
  rw [registered, module?_register, registered]
  by_cases h : name = m.name
  · simp [h]
  · simp [h, Ne.symm h]

theorem mem_names_iff (l : NativeLoader) (name : String) :
    name ∈ l.modules.map (·.1) ↔ l.registered name := by
  rw [registered, module?]
  generalize l.modules = modules
  induction modules with
  | nil => simp
  | cons entry rest ih =>
    obtain ⟨key, m⟩ := entry
    rw [List.map_cons, List.mem_cons, ih, List.lookup_cons]
    by_cases h : name = key
    · simp [h]
    · simp [h, beq_eq_false_iff_ne.2 h]

theorem registered_iff (deeds : List Deed) (name : String) :
    (deeds.foldl Deed.on {}).registered name ↔ Registers deeds name := by
  induction deeds using List.reverseRecOn with
  | nil => simp [registered, module?, Registers]
  | append_singleton deeds d ih =>
    rw [List.foldl_append, List.foldl_cons, List.foldl_nil, registers_snoc, ← ih]
    cases d with
    | register m =>
      rw [Deed.on, registered_register]
      simp
    | allow other | allowRegistered => simp [Deed.on, registered, module?, allow, allowRegistered]

theorem permits_iff (deeds : List Deed) (name : String) :
    (deeds.foldl Deed.on {}).permits name ↔ Permits deeds name := by
  induction deeds using List.reverseRecOn with
  | nil => simp [permits, Permits]
  | append_singleton deeds d ih =>
    rw [List.foldl_append, List.foldl_cons, List.foldl_nil, permits_snoc, ← ih,
      ← registered_iff]
    cases d with
    | register m => simp [Deed.on, permits, register]
    | allow other =>
      rw [Deed.on, permits, allow, List.contains_iff_mem, List.mem_cons, or_comm, eq_comm (a := name)]
      simp [permits]
    | allowRegistered =>
      rw [Deed.on, permits, allowRegistered, List.contains_iff_mem, List.mem_append, mem_names_iff]
      simp [permits, or_comm]

/-! ## Refusals -/

/-- An opening fails as an opening of that module, whatever goes wrong. -/
theorem openModule_errs (m : NativeModule) (name : String) :
    Errs (fun e => ∃ message, e = .opening name message) (openModule m name) := by
  have told {α : Type} (a : Lua.Action α) :
      Errs (fun e => ∃ message, e = .opening name message) (during name a) :=
    .mapError fun f => ⟨f.message, rfl⟩
  have disabled (t : TableId) (entry : String) :
      Errs (fun e => ∃ message, e = .opening name message) (disable name t entry) := by
    refine .bind (told _) fun _ => .bind (told _) fun v => ?_
    split_ifs
    · exact .pure ()
    · exact .fail ⟨_, rfl⟩
  exact .bind (told _) fun _ => .bind (told _) fun t => .bind (.each (disabled t) _) fun _ =>
    .bind (told _) fun _ => .pure t

theorem load_not_refused {l : NativeLoader} (hp : l.permits name) (hr : l.registered name) (st : State) :
    ∀ e, ((l.load name).on st).1 = .error e → ∃ message, e = .opening name message := by
  obtain ⟨m, hm⟩ := Option.isSome_iff_exists.1 hr
  rw [load_on, if_pos hp, hm]
  dsimp only
  split
  · exact nofun
  · exact openModule_errs m name st

theorem load_unpermitted {l : NativeLoader} (hp : ¬ l.permits name) (st : State) :
    (l.load name).on st = (.error (.notPermitted name), st) := by
  rw [load_on, if_neg hp]

theorem load_unregistered {l : NativeLoader} (hp : l.permits name) (hr : ¬ l.registered name) (st : State) :
    (l.load name).on st = (.error (.notRegistered name), st) := by
  have hnone : l.module? name = none := by simpa [registered] using hr
  rw [load_on, if_pos hp, hnone]

/-- A load that is refused in every state is refused for its own name. -/
theorem load_refused {l : NativeLoader} {refusal refusal' : LoadRefusal} {other : String} {st : State}
    (refused : ∀ st, (l.load name).on st = (.error refusal, st))
    (kind : refusal = .notPermitted name ∨ refusal = .notRegistered name)
    (kind' : refusal' = .notPermitted other ∨ refusal' = .notRegistered other)
    (h : ((l.load name).on st).1 = .error refusal') :
    other = name ∧ ∀ st', (l.load name).on st' = (.error refusal', st') := by
  rw [refused] at h
  obtain rfl := Except.error.inj h
  refine ⟨?_, refused⟩
  rcases kind with rfl | rfl <;> rcases kind' with kind' | kind' <;> cases kind'
  all_goals rfl

/-- After any history a loader permits a name exactly if its own past does. A load is refused for want
of permission exactly if the past does not permit the name, and as unregistered exactly if it does and
never registered it. A refusal changes nothing, and would be the same in any other state. -/
theorem load_gated (st : State) (calls : List Call) (l : Nat) (name : String) :
    let w := World.run { state := st } calls
    let load := (w.loaders l).load name
    ((w.loaders l).permits name ↔ Permits (past calls l) name)
    ∧ ((load.on w.state).1 = .error (.notPermitted name) ↔ ¬ Permits (past calls l) name)
    ∧ ((load.on w.state).1 = .error (.notRegistered name)
      ↔ Permits (past calls l) name ∧ ¬ Registers (past calls l) name)
    ∧ ∀ refusal other, refusal = .notPermitted other ∨ refusal = .notRegistered other →
      (load.on w.state).1 = .error refusal →
        other = name ∧ ∀ st', load.on st' = (.error refusal, st') := by
  dsimp only
  -- what a loader is hangs on its own past alone, so the state may be any
  rw [loaders_eq, ← permits_iff, ← registered_iff]
  generalize (past calls l).foldl Deed.on {} = loader
  generalize (World.run { state := st } calls).state = st₁
  refine ⟨Iff.rfl, ?_⟩
  by_cases hp : loader.permits name
  · by_cases hr : loader.registered name
    · have refused := load_not_refused hp hr st₁
      refine ⟨iff_of_false (fun h => ?_) (by simp [hp]), iff_of_false (fun h => ?_) (by simp [hr]), ?_⟩
      · obtain ⟨_, he⟩ := refused _ h
        cases he
      · obtain ⟨_, he⟩ := refused _ h
        cases he
      · rintro _ other (rfl | rfl) h
        all_goals
          obtain ⟨_, he⟩ := refused _ h
          cases he
    · have hload := load_unregistered hp hr
      exact ⟨by simp [hload, hp], by simp [hload, hp, hr], fun _ _ => load_refused hload (.inr rfl)⟩
  · have hload := load_unpermitted hp
    exact ⟨by simp [hload, hp], by simp [hload, hp], fun _ _ => load_refused hload (.inl rfl)⟩

/-- One loader has opened the module; another has it registered, too, but may not load it. -/
def unevenly : List Call :=
  [.register 0 openNetio, .allow 0 "netio", .load 0 "netio", .register 1 openNetio]

example : (World.run { state := bareState } unevenly).state.store.natives = [("netio", ⟨0⟩)]
    ∧ ((((World.run { state := bareState } unevenly).loaders 1).load "netio").on
        (World.run { state := bareState } unevenly).state).1 = .error (.notPermitted "netio") :=
  ⟨rfl, rfl⟩

end Enclosure.NativeLoader
