import Mathlib.Algebra.GroupWithZero.Nat
import Enclosure.Assembly
import Enclosure.Proofs.Attempt
import Enclosure.Proofs.Policy.Acceptance

/-!
# Hosts with settled answers

The primitives of a host may answer to the names they are asked for and to nothing else, and the request
for a namespace to how many were asked for before. What an assembly on such a host takes to succeed can be
said without carrying it out (`assemble_hinges`), and neither the order of the rules nor that of the fields
in them shows in it (`Answers.allows_iff`).
-/

namespace Enclosure

namespace Attempt

variable {σ ε ε' α β : Type}

/-- An attempt that gives one answer in all states of `I`, and leads from them to states of `J`. -/
def Gives (I : σ → Prop) (m : Attempt σ ε α) (answer : Except ε α) (J : σ → Prop) : Prop :=
  ∀ s, I s → (m.on s).1 = answer ∧ J (m.on s).2

/-- An attempt that in the states of `I` succeeds exactly if `C`, and then has a result of `P` and leads to
a state of `J`. -/
def Hinges (I : σ → Prop) (m : Attempt σ ε α) (C : Prop) (P : α → Prop) (J : σ → Prop) : Prop :=
  ∀ s, I s → (C ∧ ∃ a s', m.on s = (.ok a, s') ∧ P a ∧ J s') ∨ (¬ C ∧ ∃ e, (m.on s).1 = .error e)

namespace Hinges

variable {I J K : σ → Prop} {m : Attempt σ ε α} {f : α → Attempt σ ε β} {C D : Prop} {P : α → Prop}
  {Q : β → Prop}

theorem congr (h : Hinges I m C P J) (hC : C ↔ D) : Hinges I m D P J :=
  propext hC ▸ h

theorem succeeds_iff (h : Hinges I m C P J) {s : σ} (hs : I s) : (∃ a, (m.on s).1 = .ok a) ↔ C := by
  rcases h s hs with ⟨hC, a, s', hm, -, -⟩ | ⟨hC, e, he⟩
  · exact ⟨fun _ => hC, fun _ => ⟨a, congrArg Prod.fst hm⟩⟩
  · exact ⟨fun ⟨a, ha⟩ => absurd (ha.symm.trans he) (by simp), fun hC' => absurd hC' hC⟩

theorem mono {P' : α → Prop} (h : Hinges I m C P J) (hP : ∀ a, P a → P' a) : Hinges I m C P' J :=
  fun s hs => (h s hs).imp_left fun ⟨hC, a, s', hm, ha, hs'⟩ => ⟨hC, a, s', hm, hP a ha, hs'⟩

theorem pure {a : α} (ha : P a) : Hinges I (Pure.pure a : Attempt σ ε α) True P I :=
  fun s hs => .inl ⟨trivial, a, s, rfl, ha, hs⟩

theorem mapError {g : ε → ε'} (h : Hinges I m C P J) : Hinges I (m.mapError g) C P J := by
  intro s hs
  rw [on_mapError]
  rcases h s hs with ⟨hC, a, s', hm, ha, hs'⟩ | ⟨hC, e, he⟩
  · exact .inl ⟨hC, a, s', by rw [hm]; rfl, ha, hs'⟩
  · exact .inr ⟨hC, g e, by rw [he]; rfl⟩

theorem bind (h : Hinges I m C P J) (hf : ∀ a, P a → Hinges J (f a) D Q K) :
    Hinges I (m >>= f) (C ∧ D) Q K := by
  intro s hs
  rcases h s hs with ⟨hC, a, s', hm, ha, hs'⟩ | ⟨hC, e, he⟩
  · rw [bind_on hm]
    exact (hf a ha s' hs').imp (fun ⟨hD, hf⟩ => ⟨⟨hC, hD⟩, hf⟩) fun ⟨hD, hf⟩ => ⟨fun h => hD h.2, hf⟩
  · exact .inr ⟨fun h => hC h.1, e, by rw [on_bind, on_eq he]⟩

/-- What is left to do may hang on what was found, if only one thing can be found. -/
theorem bindOnly {D : α → Prop} (only : ∀ a b, P a → P b → a = b) (h : Hinges I m (∃ a, P a) P J)
    (hf : ∀ a, P a → Hinges J (f a) (D a) Q K) : Hinges I (m >>= f) (∃ a, P a ∧ D a) Q K := by
  have hall : Hinges I (m >>= f) ((∃ a, P a) ∧ ∀ a, P a → D a) Q K :=
    h.bind fun a ha => (hf a ha).congr
      ⟨fun hD b hb => only a b ha hb ▸ hD, fun hD => hD a ha⟩
  exact hall.congr ⟨fun ⟨⟨a, ha⟩, hD⟩ => ⟨a, ha, hD a ha⟩,
    fun ⟨a, ha, hD⟩ => ⟨⟨a, ha⟩, fun b hb => only a b ha hb ▸ hD⟩⟩

/-- Attempts in turn, each of which may need things that are numbered, the next ones in the order of their
numbers: all have to pass, and as many things as they need together have to be there. -/
theorem each {At : Nat → σ → Prop} {g : β → Attempt σ ε Unit} {Pass : β → Prop} {There : Nat → Prop}
    {needs : β → Nat} (hg : ∀ k b, Hinges (At k) (g b) (Pass b ∧ ∀ i < needs b, There (k + i))
      (fun _ => True) (At (k + needs b))) : ∀ (bs : List β) (k : Nat),
      Hinges (At k) (Attempt.each g bs)
        ((∀ b ∈ bs, Pass b) ∧ ∀ i < (bs.map needs).sum, There (k + i)) (fun _ => True)
        (At (k + (bs.map needs).sum))
  | [], k => (pure (a := ()) trivial).congr (by simp)
  | b :: rest, k => by
    have hrest := each hg rest (k + needs b)
    rw [List.map_cons, List.sum_cons, ← Nat.add_assoc]
    refine ((hg k b).bind fun _ _ => hrest).congr ?_
    rw [List.forall_mem_cons, and_and_and_comm]
    refine and_congr_right fun _ => ⟨fun ⟨hb, hr⟩ i hi => ?_, fun h => ⟨fun i hi => ?_, fun i hi => ?_⟩⟩
    · rcases Nat.lt_or_ge i (needs b) with hlt | hge
      · exact hb i hlt
      · have := hr (i - needs b) (by omega)
        rwa [Nat.add_assoc, Nat.add_sub_cancel' hge] at this
    · exact h i (by omega)
    · rw [Nat.add_assoc]
      exact h _ (by omega)

/-- If they need nothing, all have to pass. -/
theorem eachFree {g : β → Attempt σ ε Unit} {Pass : β → Prop}
    (hg : ∀ b, Hinges I (g b) (Pass b) (fun _ => True) I) : ∀ bs : List β,
      Hinges I (Attempt.each g bs) (∀ b ∈ bs, Pass b) (fun _ => True) I
  | [] => (pure (a := ()) trivial).congr (by simp)
  | b :: rest => ((hg b).bind fun _ _ => eachFree hg rest).congr List.forall_mem_cons.symm

end Hinges

namespace Gives

variable {I J : σ → Prop} {m : Attempt σ ε α} {answer : Except ε α}

theorem of_ok {s s' : σ} {a : α} (h : Gives I m answer J) (hs : I s) (hm : m.on s = (.ok a, s')) :
    answer = .ok a ∧ J s' := by
  obtain ⟨hanswer, hs'⟩ := h s hs
  rw [hm] at hanswer hs'
  exact ⟨hanswer.symm, hs'⟩

theorem read {f : σ → α} {a : α} (h : ∀ s, I s → f s = a) :
    Gives I (Attempt.read f : Attempt σ ε α) (.ok a) I :=
  fun s hs => ⟨congrArg Except.ok (h s hs), hs⟩

theorem bind {f : α → Attempt σ ε β} {next : α → Except ε β} (h : Gives I m answer J)
    (hf : ∀ a, Gives J (f a) (next a) J) : Gives I (m >>= f) (answer.bind next) J := by
  intro s hs
  obtain ⟨hanswer, hs'⟩ := h s hs
  rw [on_bind, on_eq hanswer]
  rcases answer with e | a
  · exact ⟨rfl, hs'⟩
  · exact hf a _ hs'

theorem hinges (h : Gives I m answer J) :
    Hinges I m (∃ a, answer = .ok a) (fun a => answer = .ok a) J := by
  intro s hs
  obtain ⟨hanswer, hs'⟩ := h s hs
  rcases answer with e | a
  · exact .inr ⟨by simp, e, hanswer⟩
  · exact .inl ⟨⟨a, rfl⟩, a, _, on_eq hanswer, rfl, hs'⟩

theorem completes {m : Attempt σ ε Unit} {answer : Except ε Unit} (h : Gives I m answer J) (f : ε → ε') :
    Hinges I (m.mapError f) (answer = .ok ()) (fun _ => True) J :=
  (h.hinges.mapError.mono fun _ _ => trivial).congr ⟨fun ⟨_, ha⟩ => ha, fun ha => ⟨(), ha⟩⟩

theorem lookup {m : Attempt σ ε (Option α)} {answer : Except ε (Option α)} (h : Gives I m answer J)
    (f : ε → ε') (absent : ε') : Hinges I (m.mapError f >>= Attempt.orFail absent)
      (∃ a, answer = .ok (some a)) (fun a => answer = .ok (some a)) J := by
  intro s hs
  obtain ⟨hanswer, hs'⟩ := h s hs
  rw [on_bind, on_mapError, hanswer]
  rcases answer with e | _ | a
  · exact .inr ⟨by simp, f e, rfl⟩
  · exact .inr ⟨by simp, absent, rfl⟩
  · exact .inl ⟨⟨a, rfl⟩, a, _, rfl, rfl, hs'⟩

end Gives

end Attempt

/-- How many namespaces a rule takes. -/
def Rule.tables (r : Rule) : Nat := if r.copies then 1 else 0

/-- What a host and a loader answer: to a name what is said here, and to the request for a namespace what
is said for the number of those before it. -/
structure Answers (Value Module Namespace : Type) where
  global : String → Except Cause (Option Value)
  require : String → Except Cause Module
  native : String → Except Cause Module
  field : Module → String → Except Cause (Option Value)
  newNamespace : Nat → Except Cause Namespace
  bind : String → Value → Except Cause Unit
  install : String → Except Cause Unit

namespace Answers

variable {σ Value Module Namespace : Type}

section

variable (A : Answers Value Module Namespace)

/-- The module is one that can be found. -/
def Finds (source : Module) : Prop := ∃ module, A.require module = .ok source ∨ A.native module = .ok source

/-- The namespace is one that is made for somebody. -/
def Makes (n : Namespace) : Prop := ∃ k, A.newNamespace k = .ok n

/-- The host and the loader answer so in the states `At`, which are told apart by how many namespaces
were asked for. -/
structure Govern (At : Nat → σ → Prop) (host : Host σ Value Module Namespace)
    (load : NativeLoad σ Module) : Prop where
  global : ∀ k name, (host.global name).Gives (At k) (A.global name) (At k)
  require : ∀ k module, (host.require module).Gives (At k) (A.require module) (At k)
  native : ∀ k module, (load module).Gives (At k) (A.native module) (At k)
  field : ∀ k source name, A.Finds source →
    (host.field source name).Gives (At k) (A.field source name) (At k)
  newNamespace : ∀ k, host.newNamespace.Gives (At k) (A.newNamespace k) (At (k + 1))
  bind : ∀ k n key v, A.Makes n → (host.bind n key v).Gives (At k) (A.bind key v) (At k)
  install : ∀ k n key child, A.Makes n → (host.install n key child).Gives (At k) (A.install key) (At k)

/-! ## What an assembly takes -/

/-- The request for a namespace is granted after `k` others. -/
def Grants (k : Nat) : Prop := ∃ n, A.newNamespace k = .ok n

/-- A field is there and can be copied. -/
def Copies (source : Module) (name : String) : Prop :=
  ∃ v, A.field source name = .ok (some v) ∧ A.bind name v = .ok ()

/-- A module is found, its fields can be copied, and the copy can be installed. -/
def Exposes (found : Except Cause Module) (module : String) (names : List String) : Prop :=
  (∃ source, found = .ok source ∧ ∀ name ∈ names, A.Copies source name) ∧ A.install module = .ok ()

/-- A rule can be carried out if it gets the namespace that it takes. -/
def Passes : Rule → Prop
  | .bare name => ∃ v, A.global name = .ok (some v) ∧ A.bind name v = .ok ()
  | .library module names => A.Exposes (A.require module) module names
  | .native module names => A.Exposes (A.native module) module names

/-- A list of rules can be carried out on a new namespace when `k` namespaces were asked for. -/
structure Allows (k : Nat) (rules : List Rule) : Prop where
  namespace_granted : A.Grants k
  passes : ∀ r ∈ rules, A.Passes r
  tables_granted : ∀ i < (rules.map Rule.tables).sum, A.Grants (k + 1 + i)

end

variable {A : Answers Value Module Namespace}

theorem passes_of_reorders {r r' : Rule} (h : r.Reorders r') (hr : A.Passes r) : A.Passes r' := by
  cases h with
  | bare => exact hr
  | library _ hp | native _ hp =>
    obtain ⟨⟨source, found, copies⟩, installed⟩ := hr
    exact ⟨⟨source, found, fun name hn => copies name (hp.mem_iff.2 hn)⟩, installed⟩

theorem tables_of_reorders {rules rules' : List Rule} (h : List.Forall₂ Rule.Reorders rules rules') :
    rules'.map Rule.tables = rules.map Rule.tables := by
  induction h with
  | nil => rfl
  | cons hr _ ih =>
    rw [List.map_cons, List.map_cons, ih]
    cases hr <;> rfl

theorem Allows.perm {k : Nat} {rules rules' : List Rule} (allows : A.Allows k rules)
    (h : rules.Perm rules') : A.Allows k rules' where
  namespace_granted := allows.namespace_granted
  passes r hr := allows.passes r (h.mem_iff.2 hr)
  tables_granted := (h.map Rule.tables).sum_nat ▸ allows.tables_granted

theorem Allows.reorders {k : Nat} {rules rules' : List Rule} (allows : A.Allows k rules)
    (h : List.Forall₂ Rule.Reorders rules rules') : A.Allows k rules' where
  namespace_granted := allows.namespace_granted
  passes r' hr' := by
    obtain ⟨r, hr, hreorders⟩ := mem_of_reorders h hr'
    exact passes_of_reorders hreorders (allows.passes r hr)
  tables_granted := tables_of_reorders h ▸ allows.tables_granted

/-- What an assembly takes does not hang on the order of anything. -/
theorem allows_iff {k : Nat} {rules rules' : List Rule} (h : Rearranges rules rules') :
    A.Allows k rules ↔ A.Allows k rules' := by
  obtain ⟨between, hp, hr⟩ := h
  have hback : List.Forall₂ Rule.Reorders rules' between :=
    List.Forall₂.imp (fun _ _ h => Rule.Reorders.symm h) hr.flip
  exact ⟨fun h => (h.perm hp).reorders hr, fun h => (h.reorders hback).perm hp.symm⟩

end Answers

/-! ## Assemblies -/

namespace Assembly

open Attempt

variable {σ Value Module Namespace : Type} {A : Answers Value Module Namespace} {At : Nat → σ → Prop}
  {host : Host σ Value Module Namespace} {load : NativeLoad σ Module} (govern : A.Govern At host load)
  {ns : Namespace}

include govern

theorem copyField_hinges {source : Module} (found : A.Finds source) (made : A.Makes ns) (k : Nat)
    (module name : String) : Hinges (At k) (copyField host module source ns name)
      (A.Copies source name) (fun _ => True) (At k) := by
  have read := (govern.field k source name found).lookup Fault.host (.unresolved (some module) name)
  rw [copyField, ← bind_assoc]
  exact .bindOnly (by simp_all) read fun v _ => (govern.bind k ns name v made).completes Fault.host

theorem copyFields_hinges {source : Module} (found : A.Finds source) (k : Nat) (module : String)
    (names : List String) : Hinges (At k) (copyFields host module source names)
      (A.Grants k ∧ ∀ name ∈ names, A.Copies source name) A.Makes (At (k + 1)) := by
  refine (govern.newNamespace k).hinges.mapError.bind fun copy hcopy => ?_
  have made : A.Makes copy := ⟨k, hcopy⟩
  have filled := Hinges.eachFree (copyField_hinges govern found made (k + 1) module) names
  exact (filled.bind fun _ _ => .pure made).congr (by simp)

theorem expose_hinges {m : Attempt σ Cause Module} {found : Except Cause Module} {k : Nat}
    (gives : m.Gives (At k) found (At k)) (finds : ∀ source, found = .ok source → A.Finds source)
    (made : A.Makes ns) (fault : Cause → Fault) (module : String) (names : List String) :
    Hinges (At k) (m.mapError fault >>= fun source => expose host ns module source names)
      (A.Exposes found module names ∧ A.Grants k) (fun _ => True) (At (k + 1)) := by
  refine (gives.hinges.mapError.bindOnly (by simp_all) fun source hsource =>
    (copyFields_hinges govern (finds source hsource) k module names).bind fun copy _ =>
      (govern.install (k + 1) ns module copy made).completes Fault.host).congr ?_
  rw [Answers.Exposes]
  grind

theorem apply_hinges (made : A.Makes ns) (k : Nat) : ∀ r : Rule, Hinges (At k) (apply host load ns r)
    (A.Passes r ∧ ∀ i < r.tables, A.Grants (k + i)) (fun _ => True) (At (k + r.tables))
  | .bare name => by
    have read := (govern.global k name).lookup Fault.host (.unresolved none name)
    have bound := fun v => (govern.bind k ns name v made).completes Fault.host
    rw [apply, ← bind_assoc]
    refine (Hinges.bindOnly (by simp_all) read fun v _ => bound v).congr ?_
    simp [Answers.Passes, Rule.tables, Rule.copies]
  | .library module names =>
    (expose_hinges govern (govern.require k module) (fun _ h => ⟨module, .inl h⟩) made _ module
      names).congr (by simp [Answers.Passes, Rule.tables, Rule.copies])
  | .native module names =>
    (expose_hinges govern (govern.native k module) (fun _ h => ⟨module, .inr h⟩) made _ module
      names).congr (by simp [Answers.Passes, Rule.tables, Rule.copies])

/-- An assembly succeeds exactly if what it takes is there, whatever else the state is. -/
theorem assemble_hinges (k : Nat) (p : Policy) : Hinges (At k) (assemble host load p)
    (A.Allows k p.rules) A.Makes (At (k + 1 + (p.rules.map Rule.tables).sum)) := by
  have made := (govern.newNamespace k).hinges.mapError (g := Fault.host)
  have filled := fun (ns : Namespace) (hns : A.Makes ns) =>
    Hinges.each (apply_hinges govern hns) p.rules (k + 1)
  refine (made.bind fun ns hns => (filled ns ⟨k, hns⟩).bind fun _ _ =>
    .pure (P := A.Makes) ⟨k, hns⟩).congr ?_
  rw [and_true]
  exact ⟨fun ⟨hns, passes, tables⟩ => ⟨hns, passes, tables⟩,
    fun ⟨hns, passes, tables⟩ => ⟨hns, passes, tables⟩⟩

end Assembly

end Enclosure
