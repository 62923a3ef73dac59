import Enclosure.Proofs.Assembly.ClosedWorld

/-!
# The two sides of a host

The tables of a host fall into those that are its own, the globals and the modules that it or a loader
gives out, and those that assemblies make. An assembly leaves all tables there were as they are, its own
are new, and none of them is ever on the side of the host (`assemble_apart`).
-/

namespace Enclosure

/-- The tables on the side of the host. -/
structure Outside (σ Ref : Type) where
  globals : Ref
  /-- The tables that are modules of the host or of a loader. -/
  Module : σ → Ref → Prop

def Outside.Has {σ Ref : Type} (O : Outside σ Ref) (s : σ) (r : Ref) : Prop :=
  r = O.globals ∨ O.Module s r

namespace Tables

variable {σ Value Module Namespace Ref : Type}

section

variable (T : Tables σ Value Module Namespace Ref) (O : Outside σ Ref)

/-- The tables there were are as they were but for those spared from the promise, and modules are
modules still and nothing else became one. -/
structure LeavesBut (spared : Ref → Prop) (s s' : σ) : Prop extends T.Grows s s' where
  get_eq : ∀ r, T.Live s r → ¬ spared r → T.get s' r = T.get s r
  module_iff : ∀ r, T.Live s r → (O.Module s' r ↔ O.Module s r)

/-- The tables there were are as they were. -/
def Leaves (s s' : σ) : Prop := T.LeavesBut O (fun _ => False) s s'

/-- One key of one table is set, to nothing if it is removed. -/
structure Puts (s : σ) (r : Ref) (key : String) (v : Option Value) (s' : σ) : Prop
    extends T.LeavesBut O (· = r) s s' where
  get_self : T.get s' r key = v
  get_other : ∀ k, k ≠ key → T.get s' r k = T.get s r k

/-- The primitives of a host and of a loader act on the tables and keep to their side: what they give out
as a module is a module from then on, and a new namespace is none. -/
structure ActsApart (host : Host σ Value Module Namespace) (load : NativeLoad σ Module) : Prop where
  globals_live : ∀ {s}, T.Good s → T.Live s O.globals
  module_live : ∀ {s r}, T.Good s → O.Module s r → T.Live s r
  global : ∀ {s s' name answer}, T.Good s → (host.global name).on s = (answer, s') → T.Leaves O s s'
  require : ∀ {s s' module answer}, T.Good s →
    (host.require module).on s = (answer, s') → T.Leaves O s s'
  native : ∀ {s s' module answer}, T.Good s → (load module).on s = (answer, s') → T.Leaves O s s'
  field : ∀ {s s' source name answer}, T.Good s →
    (host.field source name).on s = (answer, s') → T.Leaves O s s'
  required : ∀ {s s' module source}, T.Good s →
    (host.require module).on s = (.ok source, s') → O.Module s' (T.ofModule source)
  loaded : ∀ {s s' module source}, T.Good s →
    (load module).on s = (.ok source, s') → O.Module s' (T.ofModule source)
  newNamespace : ∀ {s s' n}, T.Good s → host.newNamespace.on s = (.ok n, s') →
    T.Leaves O s s' ∧ T.Makes s n s' ∧ ¬ O.Module s' (T.ofNamespace n)
  bind : ∀ {s s' n key v}, T.Good s → T.Live s (T.ofNamespace n) →
    (host.bind n key v).on s = (.ok (), s') → T.Puts O s (T.ofNamespace n) key (some v) s'
  install : ∀ {s s' n key child}, T.Good s → T.Live s (T.ofNamespace n) →
    (host.install n key child).on s = (.ok (), s') →
      T.Puts O s (T.ofNamespace n) key (some (T.value child)) s'

end

variable {T : Tables σ Value Module Namespace Ref} {O : Outside σ Ref} {s s₁ s' : σ}
  {spared spared' : Ref → Prop}

namespace LeavesBut

theorem refl (good : T.Good s) : T.LeavesBut O spared s s :=
  ⟨⟨good, fun _ h => h⟩, fun _ _ _ => rfl, fun _ _ => Iff.rfl⟩

theorem trans (h : T.LeavesBut O spared s s₁) (h' : T.LeavesBut O spared s₁ s') :
    T.LeavesBut O spared s s' where
  toGrows := h.toGrows.trans h'.toGrows
  get_eq r hr hs := by rw [h'.get_eq r (h.live r hr) hs, h.get_eq r hr hs]
  module_iff r hr := (h'.module_iff r (h.live r hr)).trans (h.module_iff r hr)

/-- What was not there need not be spared. -/
theorem mono (h : T.LeavesBut O spared s s') (hs : ∀ r, T.Live s r → spared r → spared' r) :
    T.LeavesBut O spared' s s' :=
  { h with get_eq := fun r hr hr' => h.get_eq r hr fun hspared => hr' (hs r hr hspared) }

theorem not_module (h : T.LeavesBut O spared s s') {r : Ref} (live : T.Live s r)
    (hr : ¬ O.Module s r) : ¬ O.Module s' r :=
  (h.module_iff r live).not.2 hr

theorem has_iff (h : T.LeavesBut O spared s s') {r : Ref} (live : T.Live s r) :
    O.Has s' r ↔ O.Has s r :=
  or_congr_right (h.module_iff r live)

end LeavesBut

theorem Leaves.but (h : T.Leaves O s s') : T.LeavesBut O spared s s' :=
  LeavesBut.mono h fun _ _ => False.elim

theorem Leaves.keeps (h : T.Leaves O s s') : T.Keeps s s' :=
  ⟨h.toGrows, fun _ live => h.get_eq _ live id⟩

theorem Puts.sets {n : Namespace} {key : String} {v : Value}
    (h : T.Puts O s (T.ofNamespace n) key (some v) s') : T.Sets s n key v s' :=
  ⟨h.toGrows, h.get_self, h.get_other, fun r hr live => h.get_eq r live hr⟩

section

variable {host : Host σ Value Module Namespace} {load : NativeLoad σ Module}

theorem ActsApart.has_live (apart : T.ActsApart O host load) (good : T.Good s) {r : Ref} :
    O.Has s r → T.Live s r
  | .inl hr => hr ▸ apart.globals_live good
  | .inr hr => apart.module_live good hr

/-- To act apart is in particular to act on tables. -/
theorem ActsApart.acts (apart : T.ActsApart O host load) : T.Acts host load where
  global good run := (apart.global good run).keeps
  require good run := (apart.require good run).keeps
  native good run := (apart.native good run).keeps
  field good run := (apart.field good run).keeps
  required good run := apart.module_live (apart.require good run).good (apart.required good run)
  loaded good run := apart.module_live (apart.native good run).good (apart.loaded good run)
  newNamespace good run := (apart.newNamespace good run).2.1
  bind good live run := (apart.bind good live run).sets
  install good live run := (apart.install good live run).sets

end

end Tables

namespace Event

variable {Value Module Namespace : Type}

/-- The namespace that was installed in another. -/
def installed? : Event Value Module Namespace → Option Namespace
  | .install _ _ child (.ok _) => some child
  | _ => none

end Event

namespace Assembly

variable {σ Value Module Namespace Ref : Type}

/-- The tables that the rules of a policy installed. -/
def installed (host : Host σ Value Module Namespace) (load : NativeLoad σ Module) (p : Policy) (s : σ) :
    List Namespace :=
  (events host load p s).filterMap Event.installed?

section Installed

variable {ns : Namespace}

theorem installed_fieldEvents (source : Module) (table : Namespace) (fields : List (String × Value)) :
    (Copy.fieldEvents source table fields).filterMap Event.installed? = [] := by
  simp [Copy.fieldEvents, List.filterMap_flatMap, Event.installed?]

theorem installed_copy (module : String) (c : Copy Value Module Namespace) :
    (c.events ns module).filterMap Event.installed? = [c.table] := by
  simp [Copy.events, List.filterMap_cons, installed_fieldEvents, Event.installed?]

/-- The tables that rules installed are their copies. -/
theorem installed_done : ∀ done : List (Done Value Module Namespace),
    (done.flatMap (Done.events ns)).filterMap Event.installed? = (copies done).map Copy.table
  | [] => rfl
  | d :: rest => by
    rw [List.flatMap_cons, List.filterMap_append, installed_done rest, copies, copies,
      List.filterMap_cons]
    cases d <;> simp [Done.events, Done.copy?, List.filterMap_cons, installed_copy, Event.installed?]

end Installed

section Leaves

variable {T : Tables σ Value Module Namespace Ref} {O : Outside σ Ref}
  {host : Host σ Value Module Namespace} {load : NativeLoad σ Module}
  (apart : T.ActsApart O host load)

include apart

theorem filled_leaves {source : Module} {table : Namespace} {fields : List (String × Value)} {s s' : σ}
    (h : Filled host source table s fields s') (good : T.Good s) (live : T.Live s (T.ofNamespace table)) :
    T.LeavesBut O (· = T.ofNamespace table) s s' := by
  induction h with
  | nil => exact .refl good
  | cons read bind _ ih =>
    have field := apart.field good read
    have put := apart.bind field.good (field.live _ live) bind
    exact (field.but.trans put.toLeavesBut).trans (ih put.good (put.live _ (field.live _ live)))

/-- A copy is made apart, and then one key of the namespace is set. -/
theorem exposed_leaves {ns : Namespace} {module : String} {c : Copy Value Module Namespace} {s s' : σ}
    (h : Exposed host ns module s c s') (good : T.Good s) (live : T.Live s (T.ofNamespace ns)) :
    T.LeavesBut O (· = T.ofNamespace ns) s s' ∧ ¬ O.Module s' (T.ofNamespace c.table) := by
  obtain ⟨made, filled, installed⟩ := h
  obtain ⟨new, makes, hmodule⟩ := apart.newNamespace good made
  have fill := filled_leaves apart filled makes.good makes.made
  have put := apart.install fill.good (fill.live _ (new.live _ live)) installed
  refine ⟨?_, put.not_module (fill.live _ makes.made) (fill.not_module makes.made hmodule)⟩
  have copied : T.LeavesBut O (· = T.ofNamespace ns) s _ :=
    (new.but.trans fill).mono fun r hr he => absurd hr (he ▸ makes.fresh)
  exact copied.trans put.toLeavesBut

theorem carried_leaves {ns : Namespace} {d : Done Value Module Namespace} {s s' : σ}
    (h : Carried host load ns s d s') (good : T.Good s) (live : T.Live s (T.ofNamespace ns)) :
    T.LeavesBut O (· = T.ofNamespace ns) s s' ∧
      ∀ c, d.copy? = some c → ¬ O.Module s' (T.ofNamespace c.table) := by
  cases h with
  | bare read bind =>
    have global := apart.global good read
    have put := apart.bind global.good (global.live _ live) bind
    exact ⟨global.but.trans put.toLeavesBut, by simp [Done.copy?]⟩
  | library found exposed =>
    have require := apart.require good found
    obtain ⟨leaves, hmodule⟩ := exposed_leaves apart exposed require.good (require.live _ live)
    exact ⟨require.but.trans leaves, fun _ hc => Option.some.inj hc ▸ hmodule⟩
  | native found exposed =>
    have native := apart.native good found
    obtain ⟨leaves, hmodule⟩ := exposed_leaves apart exposed native.good (native.live _ live)
    exact ⟨native.but.trans leaves, fun _ hc => Option.some.inj hc ▸ hmodule⟩

theorem allCarried_leaves {ns : Namespace} {done : List (Done Value Module Namespace)} {s s' : σ}
    (h : AllCarried host load ns s done s') (good : T.Good s) (live : T.Live s (T.ofNamespace ns))
    (sound : ∀ d ∈ done, d.rule.Sound) :
    T.LeavesBut O (· = T.ofNamespace ns) s s' ∧
      ∀ c ∈ copies done, ¬ O.Module s' (T.ofNamespace c.table) := by
  induction h with
  | nil => exact ⟨.refl good, by simp [copies]⟩
  | @cons s s₁ s' d rest carried _ ih =>
    obtain ⟨head, hhead⟩ := carried_leaves apart carried good live
    obtain ⟨-, copied⟩ := carried_effect apart.acts carried good live (sound d (by simp))
    obtain ⟨tail, htail⟩ := ih head.good (head.live _ live) fun d hd => sound d (by simp [hd])
    refine ⟨head.trans tail, fun c hc => ?_⟩
    obtain hc | hc := mem_copies_cons.1 hc
    · exact tail.not_module (copied c hc).live (hhead c hc)
    · exact htail c hc

/-- An assembly changes no table that there was, and the tables that it makes are new, different from
each other, and not on the side of the host. -/
structure Apart (T : Tables σ Value Module Namespace Ref) (O : Outside σ Ref) (s : σ)
    (made : List Ref) (s' : σ) : Prop where
  leaves : T.Leaves O s s'
  nodup : made.Nodup
  fresh : ∀ r ∈ made, ¬ T.Live s r
  live : ∀ r ∈ made, T.Live s' r
  not_module : ∀ r ∈ made, ¬ O.Module s' r

theorem assemble_apart (p : Policy) {s s' : σ} {ns : Namespace} (good : T.Good s)
    (h : (assemble host load p).on s = (.ok ns, s')) :
    Apart T O s ((ns :: installed host load p s).map T.ofNamespace) s' := by
  obtain ⟨s₁, done, made, carried, hrules, hevents⟩ := assemble_ok h
  obtain ⟨new, makes, hmodule⟩ := apart.newNamespace good made
  have sound : ∀ d ∈ done, d.rule.Sound := fun d hd =>
    p.rule_sound (hrules ▸ List.mem_map_of_mem hd)
  -- the namespace is made first and differs from each copy, since it was live when the copy was new
  have effect := policy_effect apart.acts carried hrules makes.good makes.made
  obtain ⟨rest, hcopies⟩ := allCarried_leaves apart carried makes.good makes.made sound
  have hinstalled : installed host load p s = (copies done).map Copy.table := by
    rw [installed, hevents, List.filterMap_cons_none rfl, installed_done]
  have hmade : (ns :: installed host load p s).map T.ofNamespace
      = T.ofNamespace ns :: (copies done).map fun c => T.ofNamespace c.table := by
    rw [hinstalled, List.map_cons, List.map_map]
    rfl
  rw [hmade]
  refine ⟨(new.but.trans rest).mono fun r hr he => makes.fresh (he ▸ hr), ?_, ?_, ?_, ?_⟩
  · refine List.nodup_cons.2 ⟨fun hns => ?_, List.pairwise_map.2 effect.distinct⟩
    obtain ⟨c, hc, he⟩ := List.mem_map.1 hns
    exact (effect.copied c hc).fresh (he ▸ makes.made)
  · simp only [List.forall_mem_cons, List.forall_mem_map]
    exact ⟨makes.fresh, fun c hc hlive => (effect.copied c hc).fresh (new.live _ hlive)⟩
  · simp only [List.forall_mem_cons, List.forall_mem_map]
    exact ⟨rest.live _ makes.made, fun c hc => (effect.copied c hc).live⟩
  · simp only [List.forall_mem_cons, List.forall_mem_map]
    exact ⟨rest.not_module makes.made hmodule, hcopies⟩

end Leaves

end Assembly

end Enclosure
