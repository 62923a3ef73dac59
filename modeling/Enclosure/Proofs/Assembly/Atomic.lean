import Enclosure.Proofs.Assembly.ClosedWorld
import Enclosure.Proofs.Assembly.HeapSides

/-!
# What is left of an assembly that fails

A rule is carried out as a whole or not at all: a rule that fails, at whatever primitive, leaves every
table there was as it was, since all it has done until then is to fill a table of its own. So a namespace
holds what it held before and on top of it the bindings of the rules before the one that failed, and no
other table is touched (`assembleInto_atomic`).
-/

namespace Enclosure

open Attempt

namespace Tables

variable {σ Value Module Namespace Ref : Type}

section

variable (T : Tables σ Value Module Namespace Ref)

/-- The tables of the first state are in the second as they were, but for those spared from the
promise. -/
structure KeepsBut (spared : Ref → Prop) (s s' : σ) : Prop extends T.Grows s s' where
  get_eq : ∀ r, T.Live s r → ¬ spared r → T.get s' r = T.get s r

def KeepsAll (s s' : σ) : Prop := T.KeepsBut (fun _ => False) s s'

/-- The primitives of a host and of a loader act on the tables, and those that fail or only look something
up change no table there is. -/
structure ActsWholly (host : Host σ Value Module Namespace) (load : NativeLoad σ Module) : Prop where
  global : ∀ {s s' name answer}, T.Good s → (host.global name).on s = (answer, s') → T.KeepsAll s s'
  require : ∀ {s s' module answer}, T.Good s →
    (host.require module).on s = (answer, s') → T.KeepsAll s s'
  native : ∀ {s s' module answer}, T.Good s → (load module).on s = (answer, s') → T.KeepsAll s s'
  field : ∀ {s s' source name answer}, T.Good s →
    (host.field source name).on s = (answer, s') → T.KeepsAll s s'
  required : ∀ {s s' module source}, T.Good s →
    (host.require module).on s = (.ok source, s') → T.Live s' (T.ofModule source)
  loaded : ∀ {s s' module source}, T.Good s →
    (load module).on s = (.ok source, s') → T.Live s' (T.ofModule source)
  newNamespace : ∀ {s s' n}, T.Good s → host.newNamespace.on s = (.ok n, s') →
    T.KeepsAll s s' ∧ T.Makes s n s'
  bind : ∀ {s s' n key v}, T.Good s → T.Live s (T.ofNamespace n) →
    (host.bind n key v).on s = (.ok (), s') → T.Sets s n key v s'
  install : ∀ {s s' n key child}, T.Good s → T.Live s (T.ofNamespace n) →
    (host.install n key child).on s = (.ok (), s') → T.Sets s n key (T.value child) s'
  newNamespace_fails : ∀ {s s' e}, T.Good s →
    host.newNamespace.on s = (.error e, s') → T.KeepsAll s s'
  bind_fails : ∀ {s s' n key v e}, T.Good s → T.Live s (T.ofNamespace n) →
    (host.bind n key v).on s = (.error e, s') → T.KeepsAll s s'
  install_fails : ∀ {s s' n key child e}, T.Good s → T.Live s (T.ofNamespace n) →
    (host.install n key child).on s = (.error e, s') → T.KeepsAll s s'

end

variable {T : Tables σ Value Module Namespace Ref} {s₀ s s₁ s' : σ} {spared spared' : Ref → Prop}

namespace KeepsBut

theorem refl (good : T.Good s) : T.KeepsBut spared s s := ⟨⟨good, fun _ h => h⟩, fun _ _ _ => rfl⟩

theorem trans (h : T.KeepsBut spared s s₁) (h' : T.KeepsBut spared s₁ s') : T.KeepsBut spared s s' where
  toGrows := h.toGrows.trans h'.toGrows
  get_eq r hr hs := by rw [h'.get_eq r (h.live r hr) hs, h.get_eq r hr hs]

/-- What was not there need not be spared. -/
theorem mono (h : T.KeepsBut spared s s') (hs : ∀ r, T.Live s r → spared r → spared' r) :
    T.KeepsBut spared' s s' :=
  { h with get_eq := fun r hr hr' => h.get_eq r hr fun hspared => hr' (hs r hr hspared) }

end KeepsBut

theorem KeepsAll.but (h : T.KeepsAll s s') : T.KeepsBut spared s s' := h.mono fun _ _ => False.elim

theorem KeepsAll.keeps (h : T.KeepsAll s s') : T.Keeps s s' :=
  ⟨h.toGrows, fun _ live => h.get_eq _ live id⟩

theorem Sets.keepsBut {n : Namespace} {key : String} {v : Value} (h : T.Sets s n key v s') :
    T.KeepsBut (· = T.ofNamespace n) s s' :=
  ⟨h.toGrows, fun r hr hne => h.frame r hne hr⟩

theorem Leaves.keepsAll {O : Outside σ Ref} (h : T.Leaves O s s') : T.KeepsAll s s' :=
  ⟨h.toGrows, h.get_eq⟩

theorem ActsWholly.acts {host : Host σ Value Module Namespace} {load : NativeLoad σ Module}
    (acts : T.ActsWholly host load) : T.Acts host load where
  global good run := (acts.global good run).keeps
  require good run := (acts.require good run).keeps
  native good run := (acts.native good run).keeps
  field good run := (acts.field good run).keeps
  required := acts.required
  loaded := acts.loaded
  newNamespace good run := (acts.newNamespace good run).2
  bind := acts.bind
  install := acts.install

end Tables

namespace Heap

variable {α : Type} {h h₁ h' : Heap α}

theorem Same.keepsAll (same : Same h h') (good : sidedView.Good h) : sidedView.KeepsAll h h' :=
  (same.leaves good).keepsAll

theorem Quiet.ends {ε β : Type} {m : Attempt (Heap α) ε β} (hm : Quiet m) (same : Same h h₁) :
    Ends (fun _ => Same h) (Same h) m h₁ :=
  .of (fun _ _ run => same.trans (hm.same run)) fun _ _ run => same.trans (hm.same run)

theorem newNamespace_ends (h : Heap α) : Ends (fun _ _ => True) (Same h) newNamespace h := by
  refine ((Quiet.read _).ends (⟨rfl, rfl, rfl, rfl⟩)).bind fun k h₁ same => ?_
  have counted : Quiet (Attempt.modify fun h : Heap α => { h with made := h.made + 1 } :
    Attempt (Heap α) Cause Unit) := fun _ => ⟨rfl, rfl, rfl, rfl⟩
  exact (counted.ends same).bind fun _ _ same => ((Quiet.note _ _).ends same).bind fun _ _ _ => trivial

theorem noted_write_ends (h : Heap α) (primitive : Primitive) (what : String) (id : Nat) (key : String)
    (v : Value α) : Ends (fun _ _ => True) (Same h)
      (do note primitive what; Attempt.modify fun h => h.write id key v) h :=
  ((Quiet.note primitive what).ends (⟨rfl, rfl, rfl, rfl⟩)).bind fun _ _ _ => trivial

/-- The primitives of a heap that fail have done nothing but write themselves down. -/
theorem actsWholly : sidedView.ActsWholly (host (α := α)) load where
  global good run := (actsApart.global good run).keepsAll
  require good run := (actsApart.require good run).keepsAll
  native good run := (actsApart.native good run).keepsAll
  field good run := (actsApart.field good run).keepsAll
  required := actsApart.acts.required
  loaded := actsApart.acts.loaded
  newNamespace good run :=
    have ⟨leaves, makes, _⟩ := actsApart.newNamespace good run
    ⟨leaves.keepsAll, makes⟩
  bind := actsApart.acts.bind
  install := actsApart.acts.install
  newNamespace_fails good run := ((newNamespace_ends _).error run).keepsAll good
  bind_fails good _ run := ((noted_write_ends _ _ _ _ _ _).error run).keepsAll good
  install_fails good _ run := ((noted_write_ends _ _ _ _ _ _).error run).keepsAll good

end Heap

/-! ## Rules -/

namespace Assembly

variable {σ Value Module Namespace Ref : Type} {T : Tables σ Value Module Namespace Ref}
  {host : Host σ Value Module Namespace} {load : NativeLoad σ Module} {ns : Namespace} {s₀ s : σ}

theorem read_ends {ε α : Type} {m : Attempt σ ε α} {spared : Ref → Prop}
    (run : ∀ {s' answer}, m.on s = (answer, s') → T.KeepsAll s s') (hs : T.KeepsBut spared s₀ s) :
    Ends (fun _ => T.KeepsBut spared s₀) (T.KeepsBut spared s₀) m s :=
  .of (fun _ _ hm => hs.trans (run hm).but) fun _ _ hm => hs.trans (run hm).but

theorem lookup_ends {ε ε' α : Type} {m : Attempt σ ε (Option α)} {spared : Ref → Prop} {fault : ε → ε'}
    {absent : ε'} (run : ∀ {s' answer}, m.on s = (answer, s') → T.KeepsAll s s')
    (hs : T.KeepsBut spared s₀ s) :
    Ends (fun _ => T.KeepsBut spared s₀) (T.KeepsBut spared s₀)
      (m.mapError fault >>= orFail absent) s :=
  (read_ends run hs).mapError.bind fun a? _ hs' => .orFail absent a? hs' fun _ => id

/-- To set a key of a table changes that table, or none if it fails. -/
theorem set_ends {ε ε' : Type} {m : Attempt σ ε Unit} {key : String} {v : Value} {fault : ε → ε'}
    (set : ∀ {s'}, m.on s = (.ok (), s') → T.Sets s ns key v s')
    (fails : ∀ {e s'}, m.on s = (.error e, s') → T.KeepsAll s s') (hs : T.KeepsAll s₀ s) :
    Ends (fun _ => T.KeepsBut (· = T.ofNamespace ns) s₀) (T.KeepsAll s₀) (m.mapError fault) s :=
  .mapError <| .of (fun _ _ hm => hs.but.trans (set hm).keepsBut) fun _ _ hm => hs.trans (fails hm)

section

variable (acts : T.ActsWholly host load)

include acts

/-- To copy a field changes the copy at most. -/
theorem copyField_ends {copy : Namespace} (live : T.Live s₀ (T.ofNamespace copy)) (module : String)
    (source : Module) (name : String) (hs : T.KeepsBut (· = T.ofNamespace copy) s₀ s) :
    Ends (fun _ => T.KeepsBut (· = T.ofNamespace copy) s₀) (T.KeepsBut (· = T.ofNamespace copy) s₀)
      (copyField host module source copy name) s := by
  rw [copyField, ← bind_assoc]
  refine (lookup_ends (acts.field hs.good) hs).bind fun v s₁ hs₁ => ?_
  have hlive := hs₁.live _ live
  have set : Ends (fun _ => T.KeepsBut (· = T.ofNamespace copy) s₁) (T.KeepsAll s₁)
      ((host.bind copy name v).mapError Fault.host) s₁ :=
    set_ends (acts.bind hs₁.good hlive) (acts.bind_fails hs₁.good hlive) (.refl hs₁.good)
  exact set.mono (fun _ _ h => hs₁.trans h) fun _ h => hs₁.trans (Tables.KeepsAll.but h)

/-- A copy is a table of its own, so that to fill it changes none there was. -/
theorem copyFields_ends (module : String) (source : Module) (names : List String)
    (hs : T.KeepsAll s₀ s) :
    Ends (fun _ => T.KeepsAll s₀) (T.KeepsAll s₀) (copyFields host module source names) s := by
  have made : Ends (fun copy s' => T.KeepsAll s₀ s' ∧ ¬ T.Live s₀ (T.ofNamespace copy)
      ∧ T.Live s' (T.ofNamespace copy)) (T.KeepsAll s₀) (host.newNamespace.mapError Fault.host) s :=
    .mapError <| .of
      (fun _ _ hm =>
        have ⟨keeps, makes⟩ := acts.newNamespace hs.good hm
        ⟨hs.trans keeps, fun live => makes.fresh (hs.live _ live), makes.made⟩)
      fun _ _ hm => hs.trans (acts.newNamespace_fails hs.good hm)
  refine made.bind fun copy s₁ ⟨hs₁, fresh, live⟩ => ?_
  have hall : ∀ s', T.KeepsBut (· = T.ofNamespace copy) s₁ s' → T.KeepsAll s₀ s' := fun s' h =>
    (hs₁.but.trans h).mono fun r hr he => fresh (he ▸ hr)
  have filled := Ends.each (fun name _ => copyField_ends acts live module source name) names
    (Tables.KeepsBut.refl hs₁.good)
  exact (filled.mono (fun _ => hall) hall).bind fun _ _ hs' => hs'

theorem expose_ends (live : T.Live s₀ (T.ofNamespace ns)) (module : String) (source : Module)
    (names : List String) (hs : T.KeepsAll s₀ s) :
    Ends (fun _ => T.KeepsBut (· = T.ofNamespace ns) s₀) (T.KeepsAll s₀)
      (expose host ns module source names) s :=
  (copyFields_ends acts module source names hs).bind fun _ _ hs' =>
    set_ends (acts.install hs'.good (hs'.live _ live)) (acts.install_fails hs'.good (hs'.live _ live)) hs'

/-- A rule changes the namespace at most, and nothing if it fails. -/
theorem apply_ends (good : T.Good s) (live : T.Live s (T.ofNamespace ns)) : ∀ r : Rule,
    Ends (fun _ => T.KeepsBut (· = T.ofNamespace ns) s) (T.KeepsAll s) (apply host load ns r) s
  | .bare name => by
    rw [apply, ← bind_assoc]
    exact (lookup_ends (acts.global good) (.refl good)).bind fun v s' hs' =>
      set_ends (acts.bind hs'.good (hs'.live _ live)) (acts.bind_fails hs'.good (hs'.live _ live)) hs'
  | .library module names =>
    (read_ends (acts.require good) (.refl good)).mapError.bind fun source _ hs' =>
      expose_ends acts live module source names hs'
  | .native module names =>
    (read_ends (acts.native good) (.refl good)).mapError.bind fun source _ hs' =>
      expose_ends acts live module source names hs'

end

/-! ## Leading rules -/

/-- The rules that were carried out are all of them, or those before one that failed. -/
inductive Leads (host : Host σ Value Module Namespace) (load : NativeLoad σ Module) (ns : Namespace)
    (rules : List Rule) (s : σ) (done : List (Done Value Module Namespace)) :
    Except Fault Unit → σ → Prop
  | all {s' : σ} (carried : AllCarried host load ns s done s') (h : done.map Done.rule = rules) :
    Leads host load ns rules s done (.ok ()) s'
  | fails {s₁ s' : σ} {r : Rule} {rest : List Rule} {e : Fault}
    (carried : AllCarried host load ns s done s₁) (h : done.map Done.rule ++ r :: rest = rules)
    (failed : (apply host load ns r).on s₁ = (.error e, s')) :
    Leads host load ns rules s done (.error e) s'

theorem Leads.cons {rules : List Rule} {s₁ s' : σ} {d : Done Value Module Namespace}
    {done : List (Done Value Module Namespace)} {answer : Except Fault Unit}
    (carried : Carried host load ns s d s₁) (h : Leads host load ns rules s₁ done answer s') :
    Leads host load ns (d.rule :: rules) s (d :: done) answer s' := by
  cases h with
  | all others hrules => exact .all (.cons carried others) (congrArg (d.rule :: ·) hrules)
  | fails others hrules failed =>
    exact .fails (.cons carried others) (congrArg (d.rule :: ·) hrules) failed

/-- Rule by rule the namespace is the only table that changes, up to the end or to a rule that fails. -/
theorem each_leads (acts : T.ActsWholly host load) {s' : σ} {answer : Except Fault Unit} :
    ∀ {rules : List Rule} {s : σ}, T.Good s → T.Live s (T.ofNamespace ns) →
      (each (apply host load ns) rules).on s = (answer, s') →
        ∃ done, Leads host load ns rules s done answer s' ∧ T.KeepsBut (· = T.ofNamespace ns) s s'
  | [], s, good, live, h => by
    obtain ⟨rfl, rfl⟩ := Prod.mk.inj h
    exact ⟨[], .all (.nil _) rfl, .refl good⟩
  | r :: rest, s, good, live, h => by
    have ends := apply_ends acts good live r
    rw [each, on_bind] at h
    rcases head : (apply host load ns r).on s with ⟨e | _, s₁⟩ <;> rw [head] at h
    · obtain ⟨rfl, rfl⟩ := Prod.mk.inj h
      exact ⟨[], .fails (.nil _) rfl head, Tables.KeepsAll.but (ends.error head)⟩
    · have keeps := ends.ok head
      obtain ⟨d, rfl, carried⟩ := apply_ok head
      obtain ⟨done, leads, keeps'⟩ := each_leads acts keeps.good (keeps.live _ live) h
      exact ⟨d :: done, leads.cons carried, keeps.trans keeps'⟩

theorem Leads.leading {rules : List Rule} {s' : σ} {done : List (Done Value Module Namespace)}
    {answer : Except Fault Unit} (h : Leads host load ns rules s done answer s') :
    done.map Done.rule <+: rules := by
  cases h with
  | all _ hrules => exact ⟨[], by rw [List.append_nil, hrules]⟩
  | fails _ hrules _ => exact ⟨_, hrules⟩

/-- What the rules that were carried out have done is still there where the next one failed. -/
theorem Leads.exists_carried (acts : T.ActsWholly host load) {rules : List Rule} {s' : σ}
    {done : List (Done Value Module Namespace)} {answer : Except Fault Unit}
    (h : Leads host load ns rules s done answer s') (good : T.Good s)
    (live : T.Live s (T.ofNamespace ns)) (sound : ∀ d ∈ done, d.rule.Sound)
    (nodup : (done.map Done.target).Nodup) :
    ∃ s₁, AllCarried host load ns s done s₁ ∧ T.KeepsAll s₁ s' := by
  cases h with
  | all carried _ =>
    exact ⟨_, carried, .refl (allCarried_effect acts.acts carried good live sound nodup).good⟩
  | fails carried _ failed =>
    have effect := allCarried_effect acts.acts carried good live sound nodup
    exact ⟨_, carried, (apply_ends acts effect.good (effect.live _ live) _).error failed⟩

theorem Copied.keeps {c : Copy Value Module Namespace} {s₁ s' : σ} (h : Copied T s c s₁)
    (keeps : T.KeepsAll s₁ s') : Copied T s c s' :=
  { h with
    live := keeps.live _ h.live
    holds := fun key => by rw [keeps.get_eq _ h.live id, h.holds] }

/-- A namespace on which the leading rules of a policy were carried out, and the tables around it. -/
structure Atomic (T : Tables σ Value Module Namespace Ref) (p : Policy) (ns : Namespace) (s : σ)
    (done : List (Done Value Module Namespace)) (s' : σ) : Prop where
  /-- It holds what it held, overwritten by what the rules bound. -/
  contents : ∀ key, T.get s' (T.ofNamespace ns) key
    = ((done.map (Done.entry T)).lookup key).or (T.get s (T.ofNamespace ns) key)
  old : ∀ key ∉ done.map Done.target, T.get s' (T.ofNamespace ns) key = T.get s (T.ofNamespace ns) key
  /-- No rule that was not carried out has bound anything, not even the one that failed. -/
  rest : ∀ r ∈ p.rules.drop done.length,
    T.get s' (T.ofNamespace ns) r.target = T.get s (T.ofNamespace ns) r.target
  /-- The tables that were installed are new ones and complete. -/
  copied : ∀ c ∈ copies done, Copied T s c s' ∧ T.ofNamespace c.table ≠ T.ofNamespace ns
  frame : ∀ r, T.Live s r → r ≠ T.ofNamespace ns → T.get s' r = T.get s r

theorem drop_target_not_mem {p : Policy} {done : List (Done Value Module Namespace)}
    (h : done.map Done.rule <+: p.rules) {r : Rule} (hr : r ∈ p.rules.drop done.length) :
    r.target ∉ done.map Done.target := by
  obtain ⟨rest, hrest⟩ := h
  have hnodup : (done.map Done.target ++ rest.map Rule.target).Nodup := by
    have := p.targets_nodup
    rw [Policy.targets, ← hrest, List.map_append, List.map_map] at this
    exact this
  rw [← hrest, ← List.length_map Done.rule, List.drop_left] at hr
  exact fun hmem => List.disjoint_of_nodup_append hnodup hmem (List.mem_map_of_mem hr)

/-- **Atomic rules.** An assembly into a namespace that exists, whatever it holds, carries out the leading
rules of the policy, all of them or those before the one that fails, and the namespace holds what it held
before overwritten by what these rules bound. Nothing else that was there is changed. -/
theorem assembleInto_atomic (acts : T.ActsWholly host load) (p : Policy) (good : T.Good s)
    (live : T.Live s (T.ofNamespace ns)) :
    ∃ done, Leads host load ns p.rules s done ((assembleInto host load ns p).on s).1
        ((assembleInto host load ns p).on s).2
      ∧ Atomic T p ns s done ((assembleInto host load ns p).on s).2 := by
  obtain ⟨done, leads, keepsBut⟩ :=
    each_leads acts good live (Prod.eta ((assembleInto host load ns p).on s)).symm
  have leading := leads.leading
  have sound : ∀ d ∈ done, d.rule.Sound := fun d hd =>
    p.rule_sound (leading.subset (List.mem_map_of_mem hd))
  have nodup : (done.map Done.target).Nodup := by
    have := (leading.map Rule.target).sublist.nodup p.targets_nodup
    rwa [List.map_map] at this
  -- the rule that failed has changed no table there was, so the effect is that of the rules before it
  obtain ⟨s₁, carried, keeps⟩ := leads.exists_carried acts good live sound nodup
  have effect := allCarried_effect acts.acts carried good live sound nodup
  have contents : ∀ key, T.get ((assembleInto host load ns p).on s).2 (T.ofNamespace ns) key
      = ((done.map (Done.entry T)).lookup key).or (T.get s (T.ofNamespace ns) key) := fun key => by
    rw [keeps.get_eq _ (effect.live _ live) id, effect.get_eq]
  have old : ∀ key ∉ done.map Done.target, T.get ((assembleInto host load ns p).on s).2
      (T.ofNamespace ns) key = T.get s (T.ofNamespace ns) key := by
    intro key hkey
    have hnone : (done.map (Done.entry T)).lookup key = none := by
      rw [Tables.lookup_eq_none_iff, List.map_map]
      exact hkey
    rw [contents, hnone, Option.none_or]
  refine ⟨done, leads, contents, old, fun r hr => old _ (drop_target_not_mem leading hr),
    fun c hc => ⟨(effect.copied c hc).keeps keeps, fun he => ?_⟩, fun r hr hne => ?_⟩
  · exact (effect.copied c hc).fresh (he ▸ live)
  · exact keepsBut.get_eq r hr hne

/-- The small heap with a namespace in use, in which the last rule of the small policy fails when its copy
is complete. -/
def brokenHeap : Heap Nat where
  tables := smallHeap.tables.push { fields := [("clock", .datum 7), ("math", .datum 8), ("old", .datum 9)] }
  globals := smallHeap.globals
  modules := smallHeap.modules
  natives := smallHeap.natives
  failing := [⟨.install, "clock"⟩]

theorem brokenHeap_atomic :
    ∃ done s', (assembleInto Heap.host Heap.load 2 smallPolicy).on brokenHeap
        = (.error (.host (.text "install clock failed")), s')
      ∧ Leads Heap.host Heap.load 2 smallPolicy.rules brokenHeap done
          (.error (.host (.text "install clock failed"))) s'
      ∧ Atomic Heap.sidedView smallPolicy 2 brokenHeap done s' := by
  have good : Heap.sidedView.Good brokenHeap := by
    simp [Heap.sidedView, Heap.tableView, brokenHeap, smallHeap]
  have live : Heap.sidedView.Live brokenHeap (some 2) := Heap.sidedView_live_some.2 (by decide)
  have h : ((assembleInto Heap.host Heap.load 2 smallPolicy).on brokenHeap).1
      = .error (.host (.text "install clock failed")) := by decide +kernel
  obtain ⟨done, leads, atomic⟩ := assembleInto_atomic Heap.actsWholly smallPolicy good live
  rw [h] at leads
  exact ⟨done, _, Attempt.on_eq h, leads, atomic⟩

end Assembly

end Enclosure
