import Enclosure.Proofs.Native.Gating
import Enclosure.Proofs.Sandbox.Loader

/-!
# What settings permit

A configuration keeps of its settings the modules they give, the names they allow and the names they
trust, each in order, and whether any name was allowed at all. From these its loader is made, by one deed
after another. So the order of settings matters only among modules of one name, and the loader permits
what its settings say, wherever among them a name was allowed or trusted (`ofSettings_loads`).
-/

namespace Enclosure

open Lua Attempt NativeLoader

/-! ## What settings say -/

namespace Setting

/-- The native module that a setting gives, bound whole or not. -/
def module? : Setting → Option NativeModule
  | .native m | .trusted m => some m
  | _ => none

/-- The name that a setting binds a module under as a whole. -/
def trustedName? : Setting → Option String
  | .trusted m => some m.name
  | _ => none

/-- The name that a setting allows. -/
def allowedName? : Setting → Option String
  | .allow name => some name
  | _ => none

theorem module?_eq_some_iff {s : Setting} {m : NativeModule} :
    s.module? = some m ↔ s = .native m ∨ s = .trusted m := by
  cases s <;> simp [module?]

end Setting

namespace Config

/-- A module of the name is given. -/
def Gives (settings : List Setting) (name : String) : Prop :=
  ∃ m, (.native m ∈ settings ∨ .trusted m ∈ settings) ∧ m.name = name

/-- A module of the name is given, to be bound whole. -/
def Trusts (settings : List Setting) (name : String) : Prop :=
  ∃ m, .trusted m ∈ settings ∧ m.name = name

/-- Some name is allowed, so that what is only given is not permitted. -/
def Restricts (settings : List Setting) : Prop := ∃ name, .allow name ∈ settings

/-- The module that is given under the name, and after it no other of that name. -/
def GivesLast (settings : List Setting) (name : String) (m : NativeModule) : Prop :=
  m.name = name ∧ ∃ before s after, settings = before ++ s :: after ∧ (s = .native m ∨ s = .trusted m)
    ∧ ¬ Gives after name

/-! ## What a configuration keeps of them -/

variable {settings : List Setting} {name : String}

theorem ofSettings_snoc (settings : List Setting) (s : Setting) :
    ofSettings (settings ++ [s]) = (ofSettings settings).apply s := by
  simp [ofSettings]

theorem natives_ofSettings (settings : List Setting) :
    (ofSettings settings).natives = settings.filterMap Setting.module? := by
  induction settings using List.reverseRecOn with
  | nil => rfl
  | append_singleton settings s ih =>
    rw [ofSettings_snoc, List.filterMap_append, ← ih]
    cases s <;> simp [apply, Setting.module?]

theorem trusted_ofSettings (settings : List Setting) :
    (ofSettings settings).trusted = settings.filterMap Setting.trustedName? := by
  induction settings using List.reverseRecOn with
  | nil => rfl
  | append_singleton settings s ih =>
    rw [ofSettings_snoc, List.filterMap_append, ← ih]
    cases s <;> simp [apply, Setting.trustedName?]

theorem allowed_ofSettings (settings : List Setting) :
    (ofSettings settings).allowed.getD [] = settings.filterMap Setting.allowedName? := by
  induction settings using List.reverseRecOn with
  | nil => rfl
  | append_singleton settings s ih =>
    rw [ofSettings_snoc, List.filterMap_append, ← ih]
    cases s <;> simp [apply, Setting.allowedName?]

/-- There is a list of allowed names from the first one on. -/
theorem allowed_isSome (settings : List Setting) :
    (ofSettings settings).allowed.isSome ↔ Restricts settings := by
  induction settings using List.reverseRecOn with
  | nil => simp [ofSettings, Restricts]
  | append_singleton settings s ih =>
    rw [ofSettings_snoc]
    cases s with
    | allow name => simp [apply, Restricts]
    | _ => simpa [apply, Restricts] using ih

theorem mem_allowed : name ∈ (ofSettings settings).allowed.getD [] ↔ .allow name ∈ settings := by
  rw [allowed_ofSettings, List.mem_filterMap]
  constructor
  · rintro ⟨s, hs, h⟩
    cases s <;> cases h
    exact hs
  · exact fun hs => ⟨_, hs, rfl⟩

theorem mem_trusted : name ∈ (ofSettings settings).trusted ↔ Trusts settings name := by
  rw [trusted_ofSettings, List.mem_filterMap]
  constructor
  · rintro ⟨s, hs, h⟩
    cases s <;> cases h
    exact ⟨_, hs, rfl⟩
  · rintro ⟨m, hs, rfl⟩
    exact ⟨_, hs, rfl⟩

theorem gives_iff (settings : List Setting) (name : String) :
    Gives settings name ↔ ∃ m ∈ settings.filterMap Setting.module?, m.name = name := by
  simp only [Gives, List.mem_filterMap, Setting.module?_eq_some_iff, and_or_left, exists_or,
    exists_eq_right]

/-- What is trusted is given. -/
theorem Trusts.gives (h : Trusts settings name) : Gives settings name :=
  h.imp fun _ ⟨hs, hname⟩ => ⟨.inr hs, hname⟩

/-- The module given last is the last one of its name that the configuration keeps. -/
theorem lastNamed_iff (settings : List Setting) (name : String) (m : NativeModule) :
    LastNamed (ofSettings settings).natives name m ↔ GivesLast settings name m := by
  rw [natives_ofSettings]
  constructor
  · rintro ⟨hname, _, _, hsplit, hafter⟩
    obtain ⟨before, rest, rfl, rfl, hrest⟩ := List.filterMap_eq_append_iff.1 hsplit
    obtain ⟨silent, s, after, rfl, -, hs, rfl⟩ := List.filterMap_eq_cons_iff.1 hrest
    refine ⟨hname, before ++ silent, s, after, by simp, Setting.module?_eq_some_iff.1 hs,
      fun hgives => ?_⟩
    obtain ⟨m', hm', hname'⟩ := (gives_iff after name).1 hgives
    exact hafter m' hm' hname'
  · rintro ⟨hname, before, s, after, rfl, hs, hafter⟩
    refine ⟨hname, before.filterMap Setting.module?, after.filterMap Setting.module?, ?_,
      fun m' hm' he => ?_⟩
    · rw [List.filterMap_append, List.filterMap_cons_some (Setting.module?_eq_some_iff.2 hs)]
    · exact hafter ((gives_iff after name).2 ⟨m', hm', he⟩)

/-! ## The loader -/

/-- What is done to the loader of a configuration. -/
def deeds (c : Config) : List Deed :=
  c.natives.map .register ++ match c.allowed with
    | some names => (names ++ c.trusted).map .allow
    | none => [.allowRegistered]

theorem loader_eq (c : Config) : c.loader = c.deeds.foldl Deed.on {} := by
  unfold loader deeds
  rw [List.foldl_append, List.foldl_map]
  cases c.allowed with
  | none => rfl
  | some names => rw [List.foldl_map]; rfl

/-- Where not all that is registered is allowed at once, only names that are allowed are permitted. -/
theorem permits_of_not_mem {deeds : List Deed} (h : .allowRegistered ∉ deeds) :
    Permits deeds name ↔ .allow name ∈ deeds := by
  refine ⟨?_, .inl⟩
  rintro (hallow | ⟨before, m, after, rfl, -, hafter⟩)
  · exact hallow
  · exact absurd (by simp [hafter]) h

theorem loader_permits (c : Config) (name : String) : c.loader.permits name
    ↔ match c.allowed with
      | some names => name ∈ names ∨ name ∈ c.trusted
      | none => ∃ m ∈ c.natives, m.name = name := by
  rw [loader_eq, permits_iff, deeds]
  cases c.allowed with
  | none =>
    rw [permits_snoc, permits_of_not_mem (by simp)]
    simp [Registers]
  | some names =>
    rw [permits_of_not_mem (by simp)]
    simp

theorem loader_registered (c : Config) (name : String) :
    c.loader.registered name ↔ ∃ m ∈ c.natives, m.name = name := by
  rw [loader_eq, registered_iff, deeds]
  cases c.allowed <;> simp [Registers]

theorem permits_ofSettings (settings : List Setting) (name : String) :
    (ofSettings settings).loader.permits name ↔ ¬ Restricts settings ∧ Gives settings name
      ∨ Restricts settings ∧ (.allow name ∈ settings ∨ Trusts settings name) := by
  have restricts := allowed_isSome settings
  have allows := @mem_allowed settings name
  rw [loader_permits, gives_iff, ← natives_ofSettings, ← mem_trusted, ← restricts, ← allows]
  cases (ofSettings settings).allowed <;> simp

/-- A load of a name that is trusted is refused by nobody, wherever in the settings it is trusted. -/
theorem load_trusted (h : Trusts settings name) (st : State) (e : LoadRefusal)
    (he : (((ofSettings settings).loader.load name).on st).1 = .error e) :
    ∃ message, e = .opening name message := by
  have permitted : (ofSettings settings).loader.permits name := by
    rw [permits_ofSettings]
    by_cases hrestricts : Restricts settings
    · exact .inr ⟨hrestricts, .inr h⟩
    · exact .inl ⟨hrestricts, h.gives⟩
  have registered : (ofSettings settings).loader.registered name := by
    rw [loader_registered, natives_ofSettings, ← gives_iff]
    exact h.gives
  exact load_not_refused permitted registered st e he

/-- The loader of a configuration permits what is given, if no setting allows a name, and otherwise what
is allowed or trusted. Of the modules of one name it has the one given last, and a load that is permitted
opens this one, unless one was opened in the state before. A load of what is trusted is never refused. -/
theorem ofSettings_loads (settings : List Setting) (name : String) :
    let loader := (ofSettings settings).loader
    (loader.permits name ↔ ¬ Restricts settings ∧ Gives settings name
        ∨ Restricts settings ∧ (.allow name ∈ settings ∨ Trusts settings name))
      ∧ (∀ m, loader.module? name = some m ↔ GivesLast settings name m)
      ∧ (∀ m, GivesLast settings name m → loader.permits name → ∀ st, (loader.load name).on st
        = match st.store.natives.lookup name with
          | some t => (.ok t, st)
          | none => (openModule m name).on st)
      ∧ (Trusts settings name → ∀ st e, ((loader.load name).on st).1 = .error e →
        ∃ message, e = .opening name message) := by
  have module (m : NativeModule) : (ofSettings settings).loader.module? name = some m
      ↔ GivesLast settings name m :=
    (loader_module? _ name m).trans (lastNamed_iff settings name m)
  refine ⟨permits_ofSettings settings name, module, fun m hm hp st => ?_, load_trusted⟩
  have hload := load_on (ofSettings settings).loader name st
  rw [if_pos hp, (module m).2 hm] at hload
  exact hload

/-- A module that is trusted before another name is allowed, and is given once more after that. -/
example :
    let settings := [.trusted openNetio, .allow "clock",
      .native { openNetio with disabled := ["raw_socket"] }, .native { openNetio with name := "spare" }]
    (ofSettings settings).loader.permits "netio" ∧ ¬ (ofSettings settings).loader.permits "spare"
      ∧ ((ofSettings settings).loader.module? "netio").map (·.disabled) = some ["raw_socket"] := by
  decide

end Config

end Enclosure
