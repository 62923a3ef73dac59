import Enclosure.Proofs.Assembly.ClosedWorld
import Enclosure.Proofs.Assembly.HeapAnswers

/-!
# The order of declarations

The order in which a policy declares its rules, and a rule its fields, does not matter: on a host whose
answers are settled, an assembly in another order succeeds if the first one does and fills a namespace
with the same contents (`assemble_rearranged`). What is told about a failure may differ.
-/

namespace Enclosure

open Attempt

variable {σ Value Module Namespace Ref : Type}

namespace Answers

variable (A : Answers Value Module Namespace)

/-- The fields hold what is said of them. -/
def TellsFields (source : Module) (fields : List (String × Value)) : Prop :=
  ∀ f ∈ fields, A.field source f.1 = .ok (some f.2)

/-- What was found for a rule is what is said of it. -/
def Tells : Assembly.Done Value Module Namespace → Prop
  | .bare name v => A.global name = .ok (some v)
  | .library module c => A.require module = .ok c.source ∧ A.TellsFields c.source c.fields
  | .native module c => A.native module = .ok c.source ∧ A.TellsFields c.source c.fields

variable {A}

theorem TellsFields.lookup {source : Module} {fields : List (String × Value)} {key : String} {v : Value}
    (h : A.TellsFields source fields) (hv : fields.lookup key = some v) :
    A.field source key = .ok (some v) :=
  h (key, v) (Heap.mem_of_lookup hv)

/-- Fields of one module that are told by their names are the same if the names are. -/
theorem TellsFields.lookup_eq {source : Module} {fields fields' : List (String × Value)}
    (h : A.TellsFields source fields) (h' : A.TellsFields source fields')
    (hnames : (fields.map Prod.fst).Perm (fields'.map Prod.fst)) (key : String) :
    fields.lookup key = fields'.lookup key := by
  have hnone : fields.lookup key = none ↔ fields'.lookup key = none := by
    rw [Tables.lookup_eq_none_iff, Tables.lookup_eq_none_iff, hnames.mem_iff]
  rcases hf : fields.lookup key with _ | v
  · exact (hnone.1 hf).symm
  · rcases hf' : fields'.lookup key with _ | v'
    · rw [hnone.2 hf'] at hf
      cases hf
    · have he := (h.lookup hf).symm.trans (h'.lookup hf')
      simpa using he

end Answers

namespace Assembly

section Told

variable {A : Answers Value Module Namespace} {At : Nat → σ → Prop}
  {host : Host σ Value Module Namespace} {load : NativeLoad σ Module} {ns : Namespace}
  {s s' : σ} {k : Nat}

theorem filled_told (govern : A.Govern At host load) {source : Module} {table : Namespace}
    {fields : List (String × Value)} (h : Filled host source table s fields s')
    (found : A.Finds source) (made : A.Makes table) (hs : At k s) :
    A.TellsFields source fields ∧ At k s' := by
  induction h with
  | nil => exact ⟨fun f hf => absurd hf List.not_mem_nil, hs⟩
  | cons read bind _ ih =>
    obtain ⟨told, hs₁⟩ := (govern.field k source _ found).of_ok hs read
    obtain ⟨-, hs₂⟩ := (govern.bind k table _ _ made).of_ok hs₁ bind
    obtain ⟨rest, hs'⟩ := ih hs₂
    exact ⟨List.forall_mem_cons.2 ⟨told, rest⟩, hs'⟩

theorem exposed_told (govern : A.Govern At host load) {module : String}
    {c : Copy Value Module Namespace} (h : Exposed host ns module s c s') (found : A.Finds c.source)
    (made : A.Makes ns) (hs : At k s) : A.TellsFields c.source c.fields ∧ At (k + 1) s' := by
  obtain ⟨copy, filled, installed⟩ := h
  obtain ⟨hcopy, hs₁⟩ := (govern.newNamespace k).of_ok hs copy
  obtain ⟨told, hs₂⟩ := filled_told govern filled found ⟨k, hcopy⟩ hs₁
  exact ⟨told, ((govern.install _ ns module _ made).of_ok hs₂ installed).2⟩

theorem carried_told (govern : A.Govern At host load) {d : Done Value Module Namespace}
    (h : Carried host load ns s d s') (made : A.Makes ns) (hs : At k s) :
    A.Tells d ∧ ∃ k', At k' s' := by
  cases h with
  | bare read bind =>
    obtain ⟨told, hs₁⟩ := (govern.global k _).of_ok hs read
    exact ⟨told, k, ((govern.bind k ns _ _ made).of_ok hs₁ bind).2⟩
  | library found exposed =>
    obtain ⟨source, hs₁⟩ := (govern.require k _).of_ok hs found
    obtain ⟨told, hs'⟩ := exposed_told govern exposed ⟨_, .inl source⟩ made hs₁
    exact ⟨⟨source, told⟩, _, hs'⟩
  | native found exposed =>
    obtain ⟨source, hs₁⟩ := (govern.native k _).of_ok hs found
    obtain ⟨told, hs'⟩ := exposed_told govern exposed ⟨_, .inr source⟩ made hs₁
    exact ⟨⟨source, told⟩, _, hs'⟩

theorem allCarried_told (govern : A.Govern At host load) {done : List (Done Value Module Namespace)}
    (h : AllCarried host load ns s done s') (made : A.Makes ns) (hs : At k s) :
    ∀ d ∈ done, A.Tells d := by
  induction h generalizing k with
  | nil => exact fun d hd => absurd hd List.not_mem_nil
  | cons carried _ ih =>
    obtain ⟨told, k', hs₁⟩ := carried_told govern carried made hs
    exact List.forall_mem_cons.2 ⟨told, ih hs₁⟩

end Told

/-- A namespace as far as the rules go that filled it. -/
structure Alike (T : Tables σ Value Module Namespace Ref) (rules : List Rule) (s : σ) (ns : Namespace)
    (s' : σ) (ns' : Namespace) : Prop where
  keys : ∀ key, (T.get s (T.ofNamespace ns) key).isSome ↔ (T.get s' (T.ofNamespace ns') key).isSome
  /-- The key of a global holds the same value. -/
  bare : ∀ name, .bare name ∈ rules → ∃ v, T.get s (T.ofNamespace ns) name = some v
    ∧ T.get s' (T.ofNamespace ns') name = some v
  /-- The key of a module holds tables with the same keys and the same values. -/
  table : ∀ module names, .library module names ∈ rules ∨ .native module names ∈ rules →
    ∃ c c', T.get s (T.ofNamespace ns) module = some (T.value c)
      ∧ T.get s' (T.ofNamespace ns') module = some (T.value c')
      ∧ (∀ key, (T.get s (T.ofNamespace c) key).isSome ↔ key ∈ names)
      ∧ ∀ key, T.get s (T.ofNamespace c) key = T.get s' (T.ofNamespace c') key

/-! ## Rules and the same rules in another order -/

/-- Two rules that were carried out and came to the same. -/
inductive Done.Matches : Done Value Module Namespace → Done Value Module Namespace → Prop
  | bare (name : String) (v : Value) : Matches (.bare name v) (.bare name v)
  | library (module : String) {c c' : Copy Value Module Namespace}
    (h : ∀ key, c.fields.lookup key = c'.fields.lookup key) :
    Matches (.library module c) (.library module c')
  | native (module : String) {c c' : Copy Value Module Namespace}
    (h : ∀ key, c.fields.lookup key = c'.fields.lookup key) :
    Matches (.native module c) (.native module c')

theorem Done.matches_of_reorders {A : Answers Value Module Namespace}
    {d d' : Done Value Module Namespace} (h : d.rule.Reorders d'.rule) (told : A.Tells d)
    (told' : A.Tells d') : d.Matches d' := by
  -- what is found is settled by the names, and for a module first of all the module is
  rcases d with ⟨name, v⟩ | ⟨module, c⟩ | ⟨module, c⟩ <;>
    rcases d' with ⟨name', v'⟩ | ⟨module', c'⟩ | ⟨module', c'⟩ <;> cases h
  case bare.bare =>
    have he := told.symm.trans told'
    obtain rfl : v = v' := by simpa using he
    exact .bare name v
  case library.library hnames =>
    obtain ⟨source, fields⟩ := told
    obtain ⟨source', fields'⟩ := told'
    rw [← Except.ok.inj (source.symm.trans source')] at fields'
    exact .library module (fields.lookup_eq fields' hnames)
  case native.native hnames =>
    obtain ⟨source, fields⟩ := told
    obtain ⟨source', fields'⟩ := told'
    rw [← Except.ok.inj (source.symm.trans source')] at fields'
    exact .native module (fields.lookup_eq fields' hnames)

theorem reorders_of_mem {rules rules' : List Rule} (h : Rearranges rules rules') {r : Rule}
    (hr : r ∈ rules) : ∃ r' ∈ rules', r.Reorders r' := by
  obtain ⟨between, hp, hreorders⟩ := h
  obtain ⟨r', hr', h⟩ := mem_of_reorders
    (List.Forall₂.imp (fun _ _ h => Rule.Reorders.symm h) hreorders.flip) (hp.mem_iff.1 hr)
  exact ⟨r', hr', h.symm⟩

theorem targets_perm {p q : Policy} (h : Rearranges p.rules q.rules) : p.targets.Perm q.targets := by
  obtain ⟨between, hp, hreorders⟩ := h
  have hq : q.targets = between.map Rule.target := targets_of_reorders hreorders
  exact hq ▸ hp.map Rule.target

/-! ## Contents -/

theorem lookup_entry (T : Tables σ Value Module Namespace Ref) {d : Done Value Module Namespace} :
    ∀ {done : List (Done Value Module Namespace)}, (done.map Done.target).Nodup → d ∈ done →
      (done.map (Done.entry T)).lookup d.target = some (d.value T)
  | d₀ :: rest, nodup, hd => by
    obtain ⟨hnot, hrest⟩ := List.nodup_cons.1 nodup
    rw [List.map_cons, Done.entry, List.lookup_cons]
    rcases List.mem_cons.1 hd with rfl | hd
    · simp
    · have hne : d.target ≠ d₀.target := fun he => hnot (he ▸ List.mem_map_of_mem hd)
      rw [beq_eq_false_iff_ne.2 hne]
      exact lookup_entry T hrest hd

/-- A namespace after an assembly, by the rules that were carried out on it. -/
structure Assembled (T : Tables σ Value Module Namespace Ref) (A : Answers Value Module Namespace)
    (p : Policy) (ns : Namespace) (done : List (Done Value Module Namespace)) (s : σ) : Prop where
  rules : done.map Done.rule = p.rules
  tells : ∀ d ∈ done, A.Tells d
  holds : T.Holds s ns (done.map (Done.entry T))
  copied : ∀ d ∈ done, ∀ c, d.copy? = some c → T.Holds s c.table c.fields

namespace Assembled

variable {T : Tables σ Value Module Namespace Ref} {A : Answers Value Module Namespace}
  {p : Policy} {ns : Namespace} {done : List (Done Value Module Namespace)} {s : σ}

theorem targets (h : Assembled T A p ns done s) : done.map Done.target = p.targets :=
  map_target_of_rules h.rules

theorem isSome_iff (h : Assembled T A p ns done s) (key : String) :
    (T.get s (T.ofNamespace ns) key).isSome ↔ key ∈ p.targets := by
  rw [h.holds.isSome_iff, ← h.targets, List.map_map]
  rfl

theorem get_target (h : Assembled T A p ns done s) {d : Done Value Module Namespace} (hd : d ∈ done) :
    T.get s (T.ofNamespace ns) d.target = some (d.value T) := by
  rw [h.holds, lookup_entry T (h.targets ▸ p.targets_nodup) hd]

theorem exists_done (h : Assembled T A p ns done s) {r : Rule} (hr : r ∈ p.rules) :
    ∃ d ∈ done, d.rule = r :=
  List.mem_map.1 (h.rules ▸ hr)

/-- Namespaces that are assembled by rules in different orders are alike. -/
theorem alike {q : Policy} {ns' : Namespace} {done' : List (Done Value Module Namespace)} {s' : σ}
    (h : Assembled T A p ns done s) (h' : Assembled T A q ns' done' s')
    (hpq : Rearranges p.rules q.rules) : Alike T p.rules s ns s' ns' := by
  -- each rule of the first order has one of the second with the same fields, and both found the same
  have partner : ∀ d ∈ done, ∃ d' ∈ done', d.Matches d' := by
    intro d hd
    obtain ⟨r', hr', hreorders⟩ := reorders_of_mem hpq (h.rules ▸ List.mem_map_of_mem hd)
    obtain ⟨d', hd', rfl⟩ := h'.exists_done hr'
    exact ⟨d', hd', Done.matches_of_reorders hreorders (h.tells d hd) (h'.tells d' hd')⟩
  have tables : ∀ {c c' : Copy Value Module Namespace}, T.Holds s c.table c.fields →
      T.Holds s' c'.table c'.fields → (∀ key, c.fields.lookup key = c'.fields.lookup key) →
      (∀ key, (T.get s (T.ofNamespace c.table) key).isSome ↔ key ∈ c.names)
        ∧ ∀ key, T.get s (T.ofNamespace c.table) key = T.get s' (T.ofNamespace c'.table) key :=
    fun holds holds' he => ⟨holds.isSome_iff, fun key => by rw [holds, holds', he]⟩
  refine ⟨fun key => ?_, fun name hr => ?_, fun module names hr => ?_⟩
  · rw [h.isSome_iff, h'.isSome_iff, (targets_perm hpq).mem_iff]
  · obtain ⟨d, hd, hrule⟩ := h.exists_done hr
    obtain ⟨d', hd', hmatch⟩ := partner d hd
    cases hmatch with
    | bare name v =>
      obtain rfl := Rule.bare.inj hrule
      exact ⟨v, h.get_target hd, h'.get_target hd'⟩
    | library | native => cases hrule
  · obtain ⟨d, hd, hrule⟩ : ∃ d ∈ done, d.rule = .library module names ∨ d.rule = .native module names :=
      hr.elim (fun hr => (h.exists_done hr).imp fun _ hd => hd.imp_right .inl)
        fun hr => (h.exists_done hr).imp fun _ hd => hd.imp_right .inr
    obtain ⟨d', hd', hmatch⟩ := partner d hd
    have get := h.get_target hd
    have get' := h'.get_target hd'
    cases hmatch with
    | bare => rcases hrule with hrule | hrule <;> cases hrule
    | library _ he | native _ he =>
      have alike := tables (h.copied _ hd _ rfl) (h'.copied _ hd' _ rfl) he
      rcases hrule with hrule | hrule <;> cases hrule
      exact ⟨_, _, get, get', alike⟩

end Assembled

theorem assemble_assembled {A : Answers Value Module Namespace} {At : Nat → σ → Prop}
    {host : Host σ Value Module Namespace} {load : NativeLoad σ Module}
    (govern : A.Govern At host load) {T : Tables σ Value Module Namespace Ref}
    (acts : T.Acts host load) {p : Policy} {k : Nat} {s s' : σ} {ns : Namespace} (hs : At k s)
    (good : T.Good s) (h : (assemble host load p).on s = (.ok ns, s')) :
    ∃ done, Assembled T A p ns done s' := by
  obtain ⟨s₁, done, made, carried, hrules, -⟩ := assemble_ok h
  have makes := acts.newNamespace good made
  have effect := policy_effect acts carried hrules makes.good makes.made
  obtain ⟨hns, hs₁⟩ := (govern.newNamespace k).of_ok hs made
  refine ⟨done, hrules, allCarried_told govern carried ⟨k, hns⟩ hs₁, effect.holds makes.empty, ?_⟩
  exact fun d hd c hc => (effect.copied c (List.mem_filterMap.2 ⟨d, hd, hc⟩)).holds

/-- **Declaration order does not matter.** On a host whose answers are settled by the names asked for, and
for a namespace by how many were asked for before, an assembly by the same rules in another order, with
their fields in another order, succeeds from the same state exactly if the first one does. On tables the
two namespaces are then alike. -/
theorem assemble_rearranged {A : Answers Value Module Namespace} {At : Nat → σ → Prop}
    {host : Host σ Value Module Namespace} {load : NativeLoad σ Module}
    (govern : A.Govern At host load) {p q : Policy} (h : Rearranges p.rules q.rules) {k : Nat} {s : σ}
    (hs : At k s) :
    ((∃ ns, ((assemble host load p).on s).1 = .ok ns) ↔ ∃ ns, ((assemble host load q).on s).1 = .ok ns)
      ∧ ∀ (Ref : Type) (T : Tables σ Value Module Namespace Ref), T.Acts host load → T.Good s →
        ∀ ns s₁ ns' s₂, (assemble host load p).on s = (.ok ns, s₁) →
          (assemble host load q).on s = (.ok ns', s₂) → Alike T p.rules s₁ ns s₂ ns' := by
  refine ⟨?_, fun _ T acts good ns s₁ ns' s₂ hp hq => ?_⟩
  · have allows := Answers.allows_iff (A := A) (k := k) h
    rw [← (assemble_hinges govern k p).succeeds_iff hs, ← (assemble_hinges govern k q).succeeds_iff hs]
      at allows
    exact allows
  · obtain ⟨done, assembled⟩ := assemble_assembled govern acts hs good hp
    obtain ⟨done', assembled'⟩ := assemble_assembled govern acts hs good hq
    exact assembled.alike assembled' h

/-- A rule of each kind, one of them with two fields. -/
def widePolicy : Policy :=
  ⟨[.bare "print", .library "math" ["pi", "sin"], .native "clock" ["now"]], by decide +kernel⟩

/-- The wide policy back to front. -/
def turnedPolicy : Policy :=
  ⟨[.native "clock" ["now"], .library "math" ["sin", "pi"], .bare "print"], by decide +kernel⟩

theorem widePolicy_rearranges : Rearranges widePolicy.rules turnedPolicy.rules :=
  ⟨widePolicy.rules.reverse, (List.reverse_perm _).symm,
    .cons (.native "clock" (.refl _)) (.cons (.library "math" (.swap _ _ _)) (.cons (.bare "print") .nil))⟩

theorem smallHeap_rearranged :
    ∃ s₁ ns' s₂, (assemble Heap.host Heap.load widePolicy).on smallHeap = (.ok 2, s₁)
      ∧ (assemble Heap.host Heap.load turnedPolicy).on smallHeap = (.ok ns', s₂)
      ∧ Alike Heap.tableView widePolicy.rules s₁ 2 s₂ ns' := by
  have good : Heap.tableView.Good smallHeap := by
    simp [Heap.tableView, smallHeap]
  have h : ((assemble Heap.host Heap.load widePolicy).on smallHeap).1 = .ok 2 := by decide +kernel
  obtain ⟨succeeds_iff, alike⟩ := assemble_rearranged (Heap.govern good)
    widePolicy_rearranges (Heap.Since.refl smallHeap)
  obtain ⟨ns', h'⟩ := succeeds_iff.1 ⟨2, h⟩
  exact ⟨_, ns', _, Attempt.on_eq h, Attempt.on_eq h',
    alike Nat Heap.tableView Heap.acts good 2 _ ns' _ (Attempt.on_eq h) (Attempt.on_eq h')⟩

end Assembly

end Enclosure
