import Mathlib.Tactic.Common
import Enclosure.Assembly.Host
import Enclosure.Proofs.Attempt

/-!
# Hosts that act on tables

What an assembly leaves behind can be told for every host whose primitives act on a heap of tables: what
is looked up or loaded leaves the namespaces there are as they are, a new namespace is empty and none of
the tables there are, and to bind or install sets one key of one namespace. Nothing is said of primitives
that fail, except that they free no table.
-/

namespace Enclosure

/-- The states of a host as heaps of tables that are told apart by references. -/
structure Tables (σ Value Module Namespace Ref : Type) where
  ofNamespace : Namespace → Ref
  ofModule : Module → Ref
  /-- A namespace as a value of the interpreter. -/
  value : Namespace → Value
  /-- The states that the interpreter can be in. -/
  Good : σ → Prop
  Live : σ → Ref → Prop
  get : σ → Ref → String → Option Value

namespace Tables

variable {σ Value Module Namespace Ref : Type}

section

variable (T : Tables σ Value Module Namespace Ref)

/-- No table of the first state is missing in the second. -/
structure Grows (s s' : σ) : Prop where
  good : T.Good s'
  live : ∀ r, T.Live s r → T.Live s' r

/-- No namespace of the first state is changed in the second. -/
structure Keeps (s s' : σ) : Prop extends T.Grows s s' where
  get_eq : ∀ n, T.Live s (T.ofNamespace n) →
    T.get s' (T.ofNamespace n) = T.get s (T.ofNamespace n)

/-- The second state has an empty namespace more. -/
structure Makes (s : σ) (n : Namespace) (s' : σ) : Prop extends T.Keeps s s' where
  fresh : ¬ T.Live s (T.ofNamespace n)
  made : T.Live s' (T.ofNamespace n)
  empty : ∀ key, T.get s' (T.ofNamespace n) key = none

/-- The second state differs from the first in one key of one namespace. -/
structure Sets (s : σ) (n : Namespace) (key : String) (v : Value) (s' : σ) : Prop
    extends T.Grows s s' where
  get_self : T.get s' (T.ofNamespace n) key = some v
  get_other : ∀ k, k ≠ key → T.get s' (T.ofNamespace n) k = T.get s (T.ofNamespace n) k
  frame : ∀ r, r ≠ T.ofNamespace n → T.Live s r → T.get s' r = T.get s r

/-- The primitives of a host and of a loader act on the tables. -/
structure Acts (host : Host σ Value Module Namespace) (load : NativeLoad σ Module) : Prop where
  global : ∀ {s s' name answer}, T.Good s → (host.global name).on s = (answer, s') → T.Keeps s s'
  require : ∀ {s s' module answer}, T.Good s →
    (host.require module).on s = (answer, s') → T.Keeps s s'
  native : ∀ {s s' module answer}, T.Good s → (load module).on s = (answer, s') → T.Keeps s s'
  field : ∀ {s s' source name answer}, T.Good s →
    (host.field source name).on s = (answer, s') → T.Keeps s s'
  required : ∀ {s s' module source}, T.Good s →
    (host.require module).on s = (.ok source, s') → T.Live s' (T.ofModule source)
  loaded : ∀ {s s' module source}, T.Good s →
    (load module).on s = (.ok source, s') → T.Live s' (T.ofModule source)
  newNamespace : ∀ {s s' n}, T.Good s → host.newNamespace.on s = (.ok n, s') → T.Makes s n s'
  bind : ∀ {s s' n key v}, T.Good s → T.Live s (T.ofNamespace n) →
    (host.bind n key v).on s = (.ok (), s') → T.Sets s n key v s'
  install : ∀ {s s' n key child}, T.Good s → T.Live s (T.ofNamespace n) →
    (host.install n key child).on s = (.ok (), s') → T.Sets s n key (T.value child) s'

end

variable {T : Tables σ Value Module Namespace Ref} {s s₁ s' : σ}

theorem lookup_eq_none_iff (fields : List (String × Value)) (key : String) :
    fields.lookup key = none ↔ key ∉ fields.map Prod.fst := by
  rw [List.lookup_eq_none_iff]
  simp only [List.mem_map, not_exists, not_and, bne_iff_ne]
  exact ⟨fun h f hf hk => h f hf hk.symm, fun h f hf hk => h f hf hk.symm⟩

theorem Grows.trans (h : T.Grows s s₁) (h' : T.Grows s₁ s') : T.Grows s s' :=
  ⟨h'.good, fun r hr => h'.live r (h.live r hr)⟩

theorem Keeps.trans (h : T.Keeps s s₁) (h' : T.Keeps s₁ s') : T.Keeps s s' :=
  ⟨h.toGrows.trans h'.toGrows, fun n hn => by rw [h'.get_eq n (h.live _ hn), h.get_eq n hn]⟩

/-- Some keys of a namespace are set, and no other namespace of the first state is changed. -/
structure Writes (T : Tables σ Value Module Namespace Ref) (s : σ) (n : Namespace)
    (fields : List (String × Value)) (s' : σ) : Prop extends T.Grows s s' where
  get_eq : ∀ key, T.get s' (T.ofNamespace n) key
    = (fields.lookup key).or (T.get s (T.ofNamespace n) key)
  frame : ∀ m, T.ofNamespace m ≠ T.ofNamespace n → T.Live s (T.ofNamespace m) →
    T.get s' (T.ofNamespace m) = T.get s (T.ofNamespace m)

namespace Writes

variable {n : Namespace}

theorem of_keeps (h : T.Keeps s s') (live : T.Live s (T.ofNamespace n)) : T.Writes s n [] s' :=
  ⟨h.toGrows, fun key => by rw [h.get_eq n live]; rfl, fun m _ hm => h.get_eq m hm⟩

theorem of_sets {key : String} {v : Value} (h : T.Sets s n key v s') :
    T.Writes s n [(key, v)] s' := by
  refine ⟨h.toGrows, fun k => ?_, fun _ hm live => h.frame _ hm live⟩
  by_cases hk : k = key
  · simp [hk, h.get_self]
  · simp [List.lookup_cons, beq_eq_false_iff_ne.2 hk, h.get_other k hk]

theorem trans {fields rest : List (String × Value)} (h : T.Writes s n fields s₁)
    (h' : T.Writes s₁ n rest s') (disjoint : (fields.map Prod.fst).Disjoint (rest.map Prod.fst)) :
    T.Writes s n (fields ++ rest) s' := by
  refine ⟨h.toGrows.trans h'.toGrows, fun key => ?_, fun m hm live => ?_⟩
  · rw [h'.get_eq, h.get_eq, List.lookup_append]
    rcases hr : rest.lookup key with _ | v
    · simp
    · have hk : key ∈ rest.map Prod.fst := by
        by_contra hk
        rw [(lookup_eq_none_iff _ _).2 hk] at hr
        cases hr
      have hf : fields.lookup key = none := (lookup_eq_none_iff _ _).2 fun hf => disjoint hf hk
      simp [hf]
  · rw [h'.frame m hm (h.live _ live), h.frame m hm live]

/-- To set keys of a namespace that was made since changes none that was there. -/
theorem keeps {fields : List (String × Value)} (h : T.Writes s₁ n fields s') (k : T.Keeps s s₁)
    (fresh : ¬ T.Live s (T.ofNamespace n)) : T.Keeps s s' :=
  ⟨k.toGrows.trans h.toGrows, fun m hm => by
    rw [h.frame m (fun he => fresh (he ▸ hm)) (k.live _ hm), k.get_eq m hm]⟩

end Writes

/-- The namespace has these keys and no other. -/
def Holds (T : Tables σ Value Module Namespace Ref) (s : σ) (n : Namespace)
    (fields : List (String × Value)) : Prop :=
  ∀ key, T.get s (T.ofNamespace n) key = fields.lookup key

theorem Holds.isSome_iff {n : Namespace} {fields : List (String × Value)} (h : T.Holds s n fields)
    (key : String) :
    (T.get s (T.ofNamespace n) key).isSome ↔ key ∈ fields.map Prod.fst := by
  rw [h key, ← not_iff_not, Option.not_isSome_iff_eq_none, lookup_eq_none_iff]

theorem Writes.holds {n : Namespace} {fields : List (String × Value)} (h : T.Writes s n fields s')
    (empty : ∀ key, T.get s (T.ofNamespace n) key = none) : T.Holds s' n fields :=
  fun key => by rw [h.get_eq, empty, Option.or_none]

theorem Holds.of_writes {n m : Namespace} {fields rest : List (String × Value)}
    (h : T.Holds s m fields) (w : T.Writes s n rest s') (hm : T.ofNamespace m ≠ T.ofNamespace n)
    (live : T.Live s (T.ofNamespace m)) : T.Holds s' m fields :=
  fun key => by rw [w.frame m hm live, h key]

end Tables

end Enclosure
