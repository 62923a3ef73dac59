import Enclosure.Proofs.Assembly.Record

/-!
# Where an assembly stops

The steps of a policy are known before anything is done (`Policy.steps`). An assembly carries them out
one after the other, each on what the ones before it gave, up to the first that fails or finds nothing,
and that step alone says which fault is told (`assemble_failFast`).
-/

namespace Enclosure

open Attempt

/-! ## Steps -/

/-- A primitive by what it is asked for. -/
inductive Step
  | global (name : String)
  | require (module : String)
  | load (module : String)
  | field (module name : String)
  | newNamespace
  | bind (key : String)
  | install (key : String)
  deriving DecidableEq, Repr

/-- The steps that copy fields of a module and install the copy. -/
def Step.expose (module : String) (names : List String) : List Step :=
  .newNamespace :: (names.flatMap fun name => [.field module name, .bind name]) ++ [.install module]

def Rule.steps : Rule → List Step
  | .bare name => [.global name, .bind name]
  | .library module names => .require module :: Step.expose module names
  | .native module names => .load module :: Step.expose module names

/-- The steps of an assembly, in the order of the rules. -/
def Policy.steps (p : Policy) : List Step := .newNamespace :: p.rules.flatMap Rule.steps

/-- What came of a step. -/
inductive Verdict
  | passed
  /-- The name was looked up and is not there. -/
  | absent
  | failed (c : Cause)

/-- The fault of a step that does not pass. -/
def Step.fault? : Step → Verdict → Option Fault
  | .global name, .absent => some (.unresolved none name)
  | .field module name, .absent => some (.unresolved (some module) name)
  | .require module, .failed c => some (.moduleLoad module c)
  | .load module, .failed c => some (.restrictedLoad module c)
  | _, .failed c => some (.host c)
  | _, _ => none

@[simp] theorem Step.fault?_passed (step : Step) : step.fault? .passed = none := by cases step <;> rfl

variable {σ Value Module Namespace : Type}

/-- What is at hand between two primitives. -/
structure Hands (Value Module Namespace : Type) where
  /-- The name of the module found last, and the module. -/
  module : String := ""
  source : Option Module := none
  /-- The value looked up last. -/
  value : Option Value := none
  /-- The namespaces that are being filled, innermost first. -/
  filling : List Namespace := []

namespace Event

/-- What a lookup came to. -/
def found {α : Type} : Except Cause (Option α) → Verdict
  | .ok (some _) => .passed
  | .ok none => .absent
  | .error c => .failed c

def done {α : Type} : Except Cause α → Verdict
  | .ok _ => .passed
  | .error c => .failed c

def verdict : Event Value Module Namespace → Verdict
  | .global _ answer | .field _ _ answer => found answer
  | .require _ answer | .load _ answer => done answer
  | .newNamespace answer => done answer
  | .bind _ _ _ answer | .install _ _ _ answer => done answer

/-- The step that a primitive carries out. -/
def step (h : Hands Value Module Namespace) : Event Value Module Namespace → Step
  | .global name _ => .global name
  | .require module _ => .require module
  | .load module _ => .load module
  | .field _ name _ => .field h.module name
  | .newNamespace _ => .newNamespace
  | .bind _ key _ _ => .bind key
  | .install _ key _ _ => .install key

/-- A primitive is asked of what is at hand: a field of the module found last, a binding of the value
looked up last in the innermost namespace, an installation of that namespace in the one around it. -/
def Uses (h : Hands Value Module Namespace) : Event Value Module Namespace → Prop
  | .field source _ _ => h.source = some source
  | .bind ns _ v _ => h.filling.head? = some ns ∧ h.value = some v
  | .install ns _ child _ => h.filling = [child, ns]
  | _ => True

end Event

/-- What is at hand after a primitive. -/
def Hands.after (h : Hands Value Module Namespace) :
    Event Value Module Namespace → Hands Value Module Namespace
  | .global _ (.ok v) | .field _ _ (.ok v) => { h with value := v }
  | .require module (.ok source) | .load module (.ok source) =>
    { h with module, source := some source }
  | .newNamespace (.ok ns) => { h with filling := ns :: h.filling }
  | .install _ _ _ (.ok _) => { h with filling := h.filling.tail }
  | _ => h

/-- The event carries out the step on what is at hand. -/
structure Event.Does (e : Event Value Module Namespace) (h : Hands Value Module Namespace)
    (step : Step) : Prop where
  step_eq : e.step h = step
  uses : e.Uses h

/-- All steps were carried out, each on what was at hand, and passed. -/
inductive Follows : Hands Value Module Namespace → List Step → List (Event Value Module Namespace) →
    Hands Value Module Namespace → Prop
  | nil (h : Hands Value Module Namespace) : Follows h [] [] h
  | cons {h h' : Hands Value Module Namespace} {e : Event Value Module Namespace} {step : Step}
    {steps : List Step} {es : List (Event Value Module Namespace)} (does : e.Does h step)
    (passed : e.verdict = .passed) (rest : Follows (h.after e) steps es h') :
    Follows h (step :: steps) (e :: es) h'

/-- The first steps were carried out and passed, then one did not, and nothing was done after it. -/
inductive Stops : Hands Value Module Namespace → List Step → List (Event Value Module Namespace) →
    Fault → Prop
  | here {h : Hands Value Module Namespace} {e : Event Value Module Namespace} {f : Fault}
    {step : Step} (steps : List Step) (does : e.Does h step)
    (fault : step.fault? e.verdict = some f) : Stops h (step :: steps) [e] f
  | later {h : Hands Value Module Namespace} {e : Event Value Module Namespace} {step : Step}
    {steps : List Step} {es : List (Event Value Module Namespace)} {f : Fault}
    (does : e.Does h step) (passed : e.verdict = .passed) (rest : Stops (h.after e) steps es f) :
    Stops h (step :: steps) (e :: es) f

section Append

variable {h h' h'' : Hands Value Module Namespace} {steps steps' : List Step}
  {es es' : List (Event Value Module Namespace)} {f : Fault}

theorem Follows.append (follows : Follows h steps es h') (more : Follows h' steps' es' h'') :
    Follows h (steps ++ steps') (es ++ es') h'' := by
  induction follows with
  | nil => exact more
  | cons does passed _ ih => exact .cons does passed (ih more)

theorem Follows.stops (follows : Follows h steps es h') (stops : Stops h' steps' es' f) :
    Stops h (steps ++ steps') (es ++ es') f := by
  induction follows with
  | nil => exact stops
  | cons does passed _ ih => exact .later does passed (ih stops)

/-- What comes after the step that did not pass does not matter. -/
theorem Stops.append (stops : Stops h steps es f) (steps' : List Step) :
    Stops h (steps ++ steps') es f := by
  induction stops with
  | here _ does fault => exact .here _ does fault
  | later does passed _ ih => exact .later does passed ih

/-- What was done says what came of it: what is at hand after it, that all passed or not, the fault. -/
theorem Follows.det {h₁ h₂ : Hands Value Module Namespace} (follows : Follows h steps es h₁)
    (follows' : Follows h steps es h₂) : h₁ = h₂ := by
  induction follows with
  | nil => cases follows'; rfl
  | cons _ _ _ ih =>
    cases follows' with
    | cons _ _ rest => exact ih rest

theorem Follows.not_stops (follows : Follows h steps es h') : ¬ Stops h steps es f := by
  intro stops
  induction stops with
  | here _ _ fault =>
    cases follows with
    | cons _ passed _ => rw [passed] at fault; exact absurd fault (by simp)
  | later _ _ _ ih =>
    cases follows with
    | cons _ _ rest => exact ih rest

theorem Stops.det {f f' : Fault} (stops : Stops h steps es f) (stops' : Stops h steps es f') :
    f = f' := by
  induction stops with
  | here _ _ fault =>
    cases stops' with
    | here _ _ fault' => exact Option.some.inj (fault.symm.trans fault')
    | later _ _ rest => cases rest
  | later _ _ rest ih =>
    cases stops' with
    | here => cases rest
    | later _ _ rest' => exact ih rest'

end Append

/-! ## Attempts that carry out steps -/

variable {α β : Type}

/-- How events go with steps, by the answer of the attempt that they are of. -/
def Goes (h : Hands Value Module Namespace) (steps : List Step)
    (es : List (Event Value Module Namespace)) (P : α → Hands Value Module Namespace → Prop) :
    Except Fault α → Prop
  | .ok a => ∃ h', Follows h steps es h' ∧ P a h'
  | .error f => Stops h steps es f

/-- An attempt on a recording host that carries out steps as far as they pass. -/
def CarriesOut (h : Hands Value Module Namespace) (steps : List Step)
    (m : Attempt (σ × List (Event Value Module Namespace)) Fault α)
    (P : α → Hands Value Module Namespace → Prop) : Prop :=
  ∀ s es, ∃ new, (m.on (s, es)).2.2 = es ++ new ∧ Goes h steps new P (m.on (s, es)).1

namespace CarriesOut

variable {h : Hands Value Module Namespace} {steps steps' : List Step}
  {m : Attempt (σ × List (Event Value Module Namespace)) Fault α}
  {k : α → Attempt (σ × List (Event Value Module Namespace)) Fault β}
  {P : α → Hands Value Module Namespace → Prop} {Q : β → Hands Value Module Namespace → Prop}

theorem pure {a : α} (ha : P a h) : CarriesOut (σ := σ) h [] (pure a) P :=
  fun _ es => ⟨[], by rw [on_pure, List.append_nil], h, .nil h, ha⟩

theorem bind (hm : CarriesOut h steps m P) (hk : ∀ a h', P a h' → CarriesOut h' steps' (k a) Q) :
    CarriesOut h (steps ++ steps') (m >>= k) Q := by
  intro s es
  obtain ⟨new, hes, hgoes⟩ := hm s es
  rw [on_bind]
  rcases hrun : m.on (s, es) with ⟨f | a, s₁, es₁⟩ <;> rw [hrun] at hes hgoes
  · exact ⟨new, hes, hgoes.append steps'⟩
  · obtain ⟨h', follows, ha⟩ := hgoes
    obtain ⟨more, hmore, hgoes'⟩ := hk a h' ha s₁ es₁
    refine ⟨new ++ more, by rw [← List.append_assoc, ← hes]; exact hmore, ?_⟩
    show Goes h (steps ++ steps') (new ++ more) Q ((k a).on (s₁, es₁)).1
    generalize ((k a).on (s₁, es₁)).1 = answer at hgoes'
    rcases answer with f | b
    · exact follows.stops hgoes'
    · obtain ⟨h'', follows', hb⟩ := hgoes'
      exact ⟨h'', follows.append follows', hb⟩

/-- An attempt that goes on to give something else. -/
theorem returning {b : β} (hm : CarriesOut h steps m P) (hb : ∀ a h', P a h' → Q b h') :
    CarriesOut h steps (m >>= fun _ => Pure.pure b) Q := by
  have hboth := hm.bind (k := fun _ => Pure.pure b) fun a h' ha => CarriesOut.pure (hb a h' ha)
  rwa [List.append_nil] at hboth

theorem each {f : β → Attempt (σ × List (Event Value Module Namespace)) Fault Unit}
    {plan : β → List Step} {I : Hands Value Module Namespace → Prop}
    (hf : ∀ b h, I h → CarriesOut h (plan b) (f b) fun _ h' => I h') :
    ∀ (bs : List β) {h : Hands Value Module Namespace}, I h →
      CarriesOut h (bs.flatMap plan) (Attempt.each f bs) fun _ h' => I h'
  | [], _, hi => pure hi
  | b :: rest, _, hi => (hf b _ hi).bind fun _ _ hi' => each hf rest hi'

/-- A primitive is one step, which passes if it does not fail. -/
theorem primitive {m : Attempt σ Cause α} {event : Except Cause α → Event Value Module Namespace}
    {step : Step} {fault : Cause → Fault} (does : ∀ answer, (event answer).Does h step)
    (verdict : ∀ answer, (event answer).verdict = Event.done answer)
    (hfault : ∀ c, step.fault? (.failed c) = some (fault c))
    (hP : ∀ a, P a (h.after (event (.ok a)))) :
    CarriesOut h [step] ((m.recorded event).mapError fault) P := by
  intro s es
  rw [on_mapError]
  refine ⟨[event (m.on s).1], rfl, ?_⟩
  show Goes h [step] [event (m.on s).1] P ((m.on s).1.mapError fault)
  rcases (m.on s).1 with c | a
  · exact .here [] (does _) (by rw [verdict]; exact hfault c)
  · exact ⟨_, .cons (does _) (verdict _) (.nil _), hP a⟩

/-- A lookup is one step, which passes if it neither fails nor finds nothing. -/
theorem lookup {v : Type} {m : Attempt σ Cause (Option v)}
    {event : Except Cause (Option v) → Event Value Module Namespace} {step : Step} {absent : Fault}
    (does : ∀ answer, (event answer).Does h step)
    (verdict : ∀ answer, (event answer).verdict = Event.found answer)
    (hfault : ∀ c, step.fault? (.failed c) = some (.host c))
    (habsent : step.fault? .absent = some absent) :
    CarriesOut h [step] ((m.recorded event).mapError Fault.host >>= orFail absent)
      fun a h' => h' = h.after (event (.ok (some a))) := by
  intro s es
  rw [on_bind, on_mapError]
  refine ⟨[event (m.on s).1], ?_⟩
  have hon : (m.recorded event).on (s, es) = ((m.on s).1, ((m.on s).2, es ++ [event (m.on s).1])) :=
    rfl
  rw [hon]
  rcases (m.on s).1 with c | _ | a
  · exact ⟨rfl, .here [] (does _) (by rw [verdict]; exact hfault c)⟩
  · exact ⟨rfl, .here [] (does _) (by rw [verdict]; exact habsent)⟩
  · exact ⟨rfl, _, .cons (does _) (verdict _) (.nil _), rfl⟩

end CarriesOut

namespace Assembly

variable (host : Host σ Value Module Namespace) (load : NativeLoad σ Module)
  {h : Hands Value Module Namespace} {ns copy : Namespace} {module : String} {source : Module}

/-- A module has been found and its copy is being filled. -/
structure Copying (ns copy : Namespace) (module : String) (source : Module)
    (h : Hands Value Module Namespace) : Prop where
  module_eq : h.module = module
  source_eq : h.source = some source
  filling_eq : h.filling = [copy, ns]

theorem copyField_carriesOut (name : String) (hc : Copying ns copy module source h) :
    CarriesOut h [.field module name, .bind name]
      (copyField (recording host) module source copy name)
      fun _ h' => Copying ns copy module source h' := by
  obtain ⟨hmodule, hsource, hfilling⟩ := hc
  have hfield : CarriesOut h [.field module name]
      (((recording host).field source name).mapError Fault.host
        >>= orFail (.unresolved (some module) name)) fun v h' => h' = { h with value := some v } :=
    .lookup (fun _ => ⟨congrArg (Step.field · name) hmodule, hsource⟩) (fun _ => rfl) (fun _ => rfl)
      rfl
  rw [copyField, ← bind_assoc]
  refine hfield.bind fun v h' hv => ?_
  obtain rfl := hv
  refine .primitive (fun _ => ⟨rfl, ?_, rfl⟩) (fun _ => rfl) (fun _ => rfl) fun _ => ?_
  · show h.filling.head? = some copy
    rw [hfilling, List.head?_cons]
  · exact ⟨hmodule, hsource, hfilling⟩

theorem copyFields_carriesOut (names : List String) (hmodule : h.module = module)
    (hsource : h.source = some source) (hns : h.filling = [ns]) :
    CarriesOut h (.newNamespace :: names.flatMap fun name => [.field module name, .bind name])
      (copyFields (recording host) module source names)
      fun copy h' => Copying ns copy module source h' := by
  have hnew : CarriesOut h [.newNamespace] ((recording host).newNamespace.mapError .host)
      fun copy h' => Copying ns copy module source h' :=
    .primitive (fun _ => ⟨rfl, trivial⟩) (fun _ => rfl) (fun _ => rfl)
      fun copy => ⟨hmodule, hsource, congrArg (copy :: ·) hns⟩
  refine hnew.bind fun copy h' hc => ?_
  exact (CarriesOut.each (fun name _ => copyField_carriesOut host name) names hc).returning
    fun _ _ hc' => hc'

theorem expose_carriesOut (names : List String) (hmodule : h.module = module)
    (hsource : h.source = some source) (hns : h.filling = [ns]) :
    CarriesOut h (Step.expose module names) (expose (recording host) ns module source names)
      fun _ h' => h'.filling = [ns] := by
  refine (copyFields_carriesOut host names hmodule hsource hns).bind fun copy h' hc => ?_
  refine .primitive (fun _ => ⟨rfl, hc.filling_eq⟩) (fun _ => rfl) (fun _ => rfl) fun _ => ?_
  show h'.filling.tail = [ns]
  rw [hc.filling_eq, List.tail_cons]

theorem apply_carriesOut (hns : h.filling = [ns]) :
    ∀ r, CarriesOut h (Rule.steps r) (apply (recording host) (recordingLoad load) ns r)
      fun _ h' => h'.filling = [ns]
  | .bare name => by
    have hglobal : CarriesOut h [.global name]
        (((recording host).global name).mapError Fault.host >>= orFail (.unresolved none name))
        fun v h' => h' = { h with value := some v } :=
      .lookup (fun _ => ⟨rfl, trivial⟩) (fun _ => rfl) (fun _ => rfl) rfl
    rw [apply, ← bind_assoc]
    refine hglobal.bind fun v h' hv => ?_
    obtain rfl := hv
    refine .primitive (fun _ => ⟨rfl, ?_, rfl⟩) (fun _ => rfl) (fun _ => rfl) fun _ => hns
    show h.filling.head? = some ns
    rw [hns, List.head?_cons]
  | .library module names => by
    have hrequire : CarriesOut h [.require module]
        (((recording host).require module).mapError (.moduleLoad module))
        fun source h' => h'.module = module ∧ h'.source = some source ∧ h'.filling = [ns] :=
      .primitive (fun _ => ⟨rfl, trivial⟩) (fun _ => rfl) (fun _ => rfl) fun _ => ⟨rfl, rfl, hns⟩
    exact hrequire.bind fun source h' ⟨hmodule, hsource, hns⟩ =>
      expose_carriesOut host names hmodule hsource hns
  | .native module names => by
    have hload : CarriesOut h [.load module]
        ((recordingLoad load module).mapError (.restrictedLoad module))
        fun source h' => h'.module = module ∧ h'.source = some source ∧ h'.filling = [ns] :=
      .primitive (fun _ => ⟨rfl, trivial⟩) (fun _ => rfl) (fun _ => rfl) fun _ => ⟨rfl, rfl, hns⟩
    exact hload.bind fun source h' ⟨hmodule, hsource, hns⟩ =>
      expose_carriesOut host names hmodule hsource hns

theorem assembleInto_carriesOut (p : Policy) (hns : h.filling = [ns]) :
    CarriesOut h (p.rules.flatMap Rule.steps)
      (assembleInto (recording host) (recordingLoad load) ns p) fun _ h' => h'.filling = [ns] :=
  .each (fun r _ hns => apply_carriesOut host load hns r) p.rules hns

theorem assemble_carriesOut (p : Policy) :
    CarriesOut {} p.steps (assemble (recording host) (recordingLoad load) p)
      fun ns h' => h'.filling = [ns] := by
  have hnew : CarriesOut {} [.newNamespace] ((recording host).newNamespace.mapError .host)
      fun ns h' => h'.filling = [ns] :=
    .primitive (fun _ => ⟨rfl, trivial⟩) (fun _ => rfl) (fun _ => rfl) fun _ => rfl
  refine hnew.bind fun ns h' hns => ?_
  exact (assembleInto_carriesOut host load p hns).returning fun _ _ hns' => hns'

/-- **Fail-fast with exact attribution.** An assembly gives a namespace exactly when all steps of the
policy were carried out and passed, and the namespace is the one of the first step. It fails exactly
when they were carried out up to one that did not pass and no further, with the fault of that step. -/
theorem assemble_failFast (p : Policy) (s : σ) :
    (∀ ns, ((assemble host load p).on s).1 = .ok ns ↔
      ∃ h', Follows {} p.steps (events host load p s) h' ∧ h'.filling = [ns]) ∧
    (∀ f, ((assemble host load p).on s).1 = .error f ↔
      Stops {} p.steps (events host load p s) f) := by
  obtain ⟨new, hes, hgoes⟩ := assemble_carriesOut host load p s []
  rw [assemble_on_recording] at hes hgoes
  obtain rfl : events host load p s = new := hes
  -- the same events cannot both follow the steps to the end and stop at one, nor stop in two ways
  generalize ((assemble host load p).on s).1 = answer at hgoes ⊢
  rcases answer with f | ns
  · refine ⟨fun ns => ⟨nofun, fun ⟨_, follows, _⟩ => absurd hgoes follows.not_stops⟩, fun f' => ?_⟩
    exact ⟨fun h => Except.error.inj h ▸ hgoes, fun stops => congrArg _ (hgoes.det stops)⟩
  · obtain ⟨h', follows, hns⟩ := hgoes
    refine ⟨fun ns' => ⟨fun h => ⟨h', follows, Except.ok.inj h ▸ hns⟩, fun ⟨_, follows', hns'⟩ => ?_⟩,
      fun f => ⟨nofun, fun stops => absurd stops follows.not_stops⟩⟩
    rw [follows.det follows', hns'] at hns
    rw [List.head_eq_of_cons_eq hns]

end Assembly

end Enclosure
