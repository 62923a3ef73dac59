import Enclosure.Proofs.Assembly.Carried
import Enclosure.Proofs.Assembly.HeapTables
import Enclosure.Proofs.Policy.Sound

/-!
# The closed world of an assembly

On a host that acts on tables, the namespace an assembly returns holds what its policy names and nothing
else (`assemble_closedWorld`). Each rule sets one key of the namespace, makes at most one table, and
leaves the namespaces of the rules before it alone; since no two rules of a policy fill the same key,
nothing that one rule put down is lost to a later one.
-/

namespace Enclosure.Assembly

variable {σ Value Module Namespace Ref : Type}

namespace Done

/-- What the rule put under its key. -/
def value (T : Tables σ Value Module Namespace Ref) : Done Value Module Namespace → Value
  | bare _ v => v
  | library _ c => T.value c.table
  | native _ c => T.value c.table

/-- The key that was filled, with what it holds. -/
def entry (T : Tables σ Value Module Namespace Ref) (d : Done Value Module Namespace) :
    String × Value :=
  (d.target, d.value T)

end Done

def copies (done : List (Done Value Module Namespace)) : List (Copy Value Module Namespace) :=
  done.filterMap Done.copy?

section

variable (T : Tables σ Value Module Namespace Ref)

/-- A copy is none of the tables there were in the first state, and holds the fields copied in the
second. -/
structure Copied (s : σ) (c : Copy Value Module Namespace) (s' : σ) : Prop where
  fresh : ¬ T.Live s (T.ofNamespace c.table)
  live : T.Live s' (T.ofNamespace c.table)
  ne_source : T.ofNamespace c.table ≠ T.ofModule c.source
  holds : T.Holds s' c.table c.fields

/-- What it comes to if rules are carried out on a namespace. -/
structure Effect (s : σ) (ns : Namespace) (done : List (Done Value Module Namespace)) (s' : σ) :
    Prop extends T.Writes s ns (done.map (Done.entry T)) s' where
  copied : ∀ c ∈ copies done, Copied T s c s'
  distinct : (copies done).Pairwise fun c c' => T.ofNamespace c.table ≠ T.ofNamespace c'.table

end

section Copies

variable {T : Tables σ Value Module Namespace Ref} {s s₁ s' : σ} {c : Copy Value Module Namespace}

theorem mem_copies_cons {d : Done Value Module Namespace} {rest : List (Done Value Module Namespace)} :
    c ∈ copies (d :: rest) ↔ d.copy? = some c ∨ c ∈ copies rest := by
  simp [copies]

theorem Copied.before (h : Copied T s₁ c s') (grows : T.Grows s s₁) : Copied T s c s' :=
  { h with fresh := fun live => h.fresh (grows.live _ live) }

/-- A copy stays as it is while keys of an older namespace are set. -/
theorem Copied.after {ns : Namespace} {fields : List (String × Value)} (h : Copied T s c s₁)
    (w : T.Writes s₁ ns fields s') (live : T.Live s (T.ofNamespace ns)) : Copied T s c s' :=
  { h with
    live := w.live _ h.live
    holds := h.holds.of_writes w (fun he => h.fresh (he ▸ live)) h.live }

end Copies

section Effects

variable {T : Tables σ Value Module Namespace Ref} {host : Host σ Value Module Namespace}
  {load : NativeLoad σ Module} (acts : T.Acts host load)

include acts

theorem filled_writes {source : Module} {table : Namespace} {fields : List (String × Value)}
    {s s' : σ} (h : Filled host source table s fields s') (good : T.Good s)
    (live : T.Live s (T.ofNamespace table)) (nodup : (fields.map Prod.fst).Nodup) :
    T.Writes s table fields s' := by
  induction h with
  | nil s => exact ⟨⟨good, fun _ h => h⟩, fun _ => rfl, fun _ _ _ => rfl⟩
  | @cons s s₁ s₂ s' name v rest read bind _ ih =>
    have keeps := acts.field good read
    have sets := acts.bind keeps.good (keeps.live _ live) bind
    obtain ⟨hname, hrest⟩ := List.nodup_cons.1 nodup
    have head := (Tables.Writes.of_keeps keeps live).trans (.of_sets sets) (by simp)
    exact head.trans (ih sets.good (head.live _ live) hrest) (by simpa using hname)

theorem exposed_effect {ns : Namespace} {module : String} {c : Copy Value Module Namespace}
    {s s₀ s' : σ} (h : Exposed host ns module s₀ c s') (keeps : T.Keeps s s₀)
    (live : T.Live s (T.ofNamespace ns)) (source : T.Live s₀ (T.ofModule c.source))
    (nodup : c.names.Nodup) : T.Writes s ns [(module, T.value c.table)] s' ∧ Copied T s c s' := by
  obtain ⟨made, filled, installed⟩ := h
  have makes := acts.newNamespace keeps.good made
  have fill := filled_writes acts filled makes.good makes.made nodup
  have fresh : ¬ T.Live s (T.ofNamespace c.table) := fun h => makes.fresh (keeps.live _ h)
  have keeps' : T.Keeps s _ := fill.keeps (keeps.trans makes.toKeeps) fresh
  have sets := Tables.Writes.of_sets (acts.install fill.good (keeps'.live _ live) installed)
  have hne : T.ofNamespace c.table ≠ T.ofNamespace ns := fun he => fresh (he ▸ live)
  have made' := fill.live _ makes.made
  exact ⟨(Tables.Writes.of_keeps keeps' live).trans sets (by simp), fresh, sets.live _ made',
    fun he => makes.fresh (he ▸ source), (fill.holds makes.empty).of_writes sets hne made'⟩

theorem carried_effect {ns : Namespace} {d : Done Value Module Namespace} {s s' : σ}
    (h : Carried host load ns s d s') (good : T.Good s) (live : T.Live s (T.ofNamespace ns))
    (sound : d.rule.Sound) :
    T.Writes s ns [d.entry T] s' ∧ ∀ c, d.copy? = some c → Copied T s c s' := by
  cases h with
  | bare read bind =>
    have keeps := acts.global good read
    have sets := acts.bind keeps.good (keeps.live _ live) bind
    exact ⟨(Tables.Writes.of_keeps keeps live).trans (.of_sets sets) (by simp), by simp [Done.copy?]⟩
  | library found exposed =>
    have h := exposed_effect acts exposed (acts.require good found) live (acts.required good found)
      sound.names_nodup
    exact ⟨h.1, fun _ hc => Option.some.inj hc ▸ h.2⟩
  | native found exposed =>
    have h := exposed_effect acts exposed (acts.native good found) live (acts.loaded good found)
      sound.names_nodup
    exact ⟨h.1, fun _ hc => Option.some.inj hc ▸ h.2⟩

/-- Each rule adds to what the rules before it left behind. -/
theorem allCarried_effect {ns : Namespace} {done : List (Done Value Module Namespace)} {s s' : σ}
    (h : AllCarried host load ns s done s') (good : T.Good s) (live : T.Live s (T.ofNamespace ns))
    (sound : ∀ d ∈ done, d.rule.Sound) (nodup : (done.map Done.target).Nodup) :
    Effect T s ns done s' := by
  induction h with
  | nil s => exact ⟨⟨⟨good, fun _ h => h⟩, fun _ => rfl, fun _ _ _ => rfl⟩, by simp [copies],
      by simp [copies]⟩
  | @cons s s₁ s' d rest carried _ ih =>
    obtain ⟨hd, hrest⟩ := List.nodup_cons.1 nodup
    obtain ⟨head, copied⟩ := carried_effect acts carried good live (sound d (by simp))
    have tail := ih head.good (head.live _ live) (fun d hd => sound d (by simp [hd])) hrest
    have hkeys : (rest.map (Done.entry T)).map Prod.fst = rest.map Done.target := by
      rw [List.map_map]
      rfl
    have hne : d.target ∉ (rest.map (Done.entry T)).map Prod.fst := by rwa [hkeys]
    refine ⟨head.trans tail.toWrites (List.singleton_disjoint.2 hne), fun c hc => ?_, ?_⟩
    · obtain hc | hc := mem_copies_cons.1 hc
      · exact (copied c hc).after tail.toWrites live
      · exact (tail.copied c hc).before head.toGrows
    · rw [copies, List.filterMap_cons]
      split
      · exact tail.distinct
      · rename_i c hc
        refine List.pairwise_cons.2 ⟨fun c' hc' he => ?_, tail.distinct⟩
        exact (tail.copied c' hc').fresh (he ▸ (copied c hc).live)

omit acts in
theorem map_target_of_rules {p : Policy} {done : List (Done Value Module Namespace)}
    (hrules : done.map Done.rule = p.rules) : done.map Done.target = p.targets := by
  rw [Policy.targets, ← hrules, List.map_map]
  rfl

/-- A policy is sound and has each target once, so all of its rules can be carried out in turn. -/
theorem policy_effect {p : Policy} {ns : Namespace} {done : List (Done Value Module Namespace)}
    {s s' : σ} (h : AllCarried host load ns s done s') (hrules : done.map Done.rule = p.rules)
    (good : T.Good s) (live : T.Live s (T.ofNamespace ns)) : Effect T s ns done s' := by
  refine allCarried_effect acts h good live (fun d hd => ?_) ?_
  · exact p.rule_sound (hrules ▸ List.mem_map_of_mem hd)
  · rw [map_target_of_rules hrules]
    exact p.targets_nodup

end Effects

/-- The namespace that an assembly returns, from the state before to the state after. -/
structure ClosedWorld (T : Tables σ Value Module Namespace Ref) (p : Policy) (s : σ) (ns : Namespace)
    (done : List (Done Value Module Namespace)) (s' : σ) : Prop where
  /-- Every rule was carried out, in order. -/
  rules : done.map Done.rule = p.rules
  fresh : ¬ T.Live s (T.ofNamespace ns)
  keys : ∀ key, (T.get s' (T.ofNamespace ns) key).isSome ↔ key ∈ p.targets
  /-- Under each key is what its rule put there. -/
  holds : T.Holds s' ns (done.map (Done.entry T))
  copied : ∀ c ∈ copies done, Copied T s c s' ∧ T.ofNamespace c.table ≠ T.ofNamespace ns
  distinct : (copies done).Pairwise fun c c' => T.ofNamespace c.table ≠ T.ofNamespace c'.table

/-- An assembly that succeeds has looked up each name once and in order, and its namespace holds the
very values found, each under its own key, the fields of a module in a table of their own. -/
theorem assemble_closedWorld {T : Tables σ Value Module Namespace Ref}
    {host : Host σ Value Module Namespace} {load : NativeLoad σ Module} (acts : T.Acts host load)
    (p : Policy) {s s' : σ} {ns : Namespace} (good : T.Good s)
    (h : (assemble host load p).on s = (.ok ns, s')) :
    ∃ done : List (Done Value Module Namespace),
      events host load p s = .newNamespace (.ok ns) :: done.flatMap (Done.events ns)
        ∧ ClosedWorld T p s ns done s' := by
  obtain ⟨s₁, done, made, carried, hrules, hevents⟩ := assemble_ok h
  have makes := acts.newNamespace good made
  have effect := policy_effect acts carried hrules makes.good makes.made
  have holds := effect.holds makes.empty
  refine ⟨done, hevents, hrules, makes.fresh, fun key => ?_, holds, fun c hc => ⟨?_, ?_⟩,
    effect.distinct⟩
  · rw [holds.isSome_iff, ← map_target_of_rules hrules, List.map_map]
    rfl
  · exact (effect.copied c hc).before makes.toGrows
  · exact fun he => (effect.copied c hc).fresh (he ▸ makes.made)

/-- One rule of each kind. -/
def smallPolicy : Policy :=
  ⟨[.bare "print", .library "math" ["pi"], .native "clock" ["now"]], by decide +kernel⟩

/-- A heap that has what the small policy names and more. -/
def smallHeap : Heap Nat where
  tables := #[{ owner := some "math", fields := [("pi", .datum 1), ("sin", .datum 2)] },
    { owner := some "clock", fields := [("now", .datum 3)] }]
  globals := [("load", .datum 4), ("print", .datum 5)]
  modules := [("math", 0)]
  natives := [("clock", 1)]

theorem smallHeap_closedWorld :
    ∃ done s', events Heap.host Heap.load smallPolicy smallHeap
        = .newNamespace (.ok 2) :: done.flatMap (Done.events 2)
      ∧ ClosedWorld Heap.tableView smallPolicy smallHeap 2 done s' := by
  have good : Heap.tableView.Good smallHeap := by
    simp [Heap.tableView, smallHeap]
  have h : ((assemble Heap.host Heap.load smallPolicy).on smallHeap).1 = .ok 2 := by decide +kernel
  obtain ⟨done, events, closed⟩ :=
    assemble_closedWorld Heap.acts smallPolicy good (Attempt.on_eq h)
  exact ⟨done, _, events, closed⟩

end Enclosure.Assembly
