import Enclosure.Proofs.Assembly.Record

/-!
# Rules carried out

An assembly that succeeded carried out every rule of its policy, in order and to the end. `Carried` says
which primitives that took and what they answered; on a recording host these are all the record holds
(`assemble_ok`).
-/

namespace Enclosure.Assembly

open Attempt

variable {σ Value Module Namespace : Type}

/-- Fields copied from a module into a namespace of their own. -/
structure Copy (Value Module Namespace : Type) where
  source : Module
  table : Namespace
  fields : List (String × Value)

/-- A rule that was carried out, with what it was carried out on. -/
inductive Done (Value Module Namespace : Type)
  | bare (name : String) (v : Value)
  | library (module : String) (c : Copy Value Module Namespace)
  | native (module : String) (c : Copy Value Module Namespace)

namespace Copy

def names (c : Copy Value Module Namespace) : List String := c.fields.map Prod.fst

/-- The primitives that fill a namespace with copies of fields. -/
def fieldEvents (source : Module) (table : Namespace) (fields : List (String × Value)) :
    List (Event Value Module Namespace) :=
  fields.flatMap fun (name, v) =>
    [.field source name (.ok (some v)), .bind table name v (.ok ())]

/-- The primitives that make a copy and install it. -/
def events (ns : Namespace) (module : String) (c : Copy Value Module Namespace) :
    List (Event Value Module Namespace) :=
  .newNamespace (.ok c.table) :: fieldEvents c.source c.table c.fields
    ++ [.install ns module c.table (.ok ())]

end Copy

namespace Done

def rule : Done Value Module Namespace → Rule
  | bare name _ => .bare name
  | library module c => .library module c.names
  | native module c => .native module c.names

/-- The key that was filled. -/
def target (d : Done Value Module Namespace) : String := d.rule.target

def copy? : Done Value Module Namespace → Option (Copy Value Module Namespace)
  | bare _ _ => none
  | library _ c => some c
  | native _ c => some c

/-- The primitives that carry out a rule, with their answers. -/
def events (ns : Namespace) : Done Value Module Namespace → List (Event Value Module Namespace)
  | bare name v => [.global name (.ok (some v)), .bind ns name v (.ok ())]
  | library module c => .require module (.ok c.source) :: c.events ns module
  | native module c => .load module (.ok c.source) :: c.events ns module

end Done

/-- From one state to another by copying fields, each read and bound in turn. -/
inductive Filled (host : Host σ Value Module Namespace) (source : Module) (table : Namespace) :
    σ → List (String × Value) → σ → Prop
  | nil (s : σ) : Filled host source table s [] s
  | cons {s s₁ s₂ s' : σ} {name : String} {v : Value} {rest : List (String × Value)}
    (read : (host.field source name).on s = (.ok (some v), s₁))
    (bind : (host.bind table name v).on s₁ = (.ok (), s₂))
    (filled : Filled host source table s₂ rest s') :
    Filled host source table s ((name, v) :: rest) s'

/-- From one state to another by making a copy and installing it. -/
inductive Exposed (host : Host σ Value Module Namespace) (ns : Namespace) (module : String) :
    σ → Copy Value Module Namespace → σ → Prop
  | steps {s s₁ s₂ s' : σ} {c : Copy Value Module Namespace}
    (made : host.newNamespace.on s = (.ok c.table, s₁))
    (filled : Filled host c.source c.table s₁ c.fields s₂)
    (installed : (host.install ns module c.table).on s₂ = (.ok (), s')) :
    Exposed host ns module s c s'

section

variable (host : Host σ Value Module Namespace) (load : NativeLoad σ Module) (ns : Namespace)

/-- From one state to another by carrying out a rule. -/
inductive Carried : σ → Done Value Module Namespace → σ → Prop
  | bare {s s₁ s' : σ} {name : String} {v : Value}
    (read : (host.global name).on s = (.ok (some v), s₁))
    (bind : (host.bind ns name v).on s₁ = (.ok (), s')) : Carried s (.bare name v) s'
  | library {s s₁ s' : σ} {module : String} {c : Copy Value Module Namespace}
    (found : (host.require module).on s = (.ok c.source, s₁))
    (exposed : Exposed host ns module s₁ c s') : Carried s (.library module c) s'
  | native {s s₁ s' : σ} {module : String} {c : Copy Value Module Namespace}
    (found : (load module).on s = (.ok c.source, s₁))
    (exposed : Exposed host ns module s₁ c s') : Carried s (.native module c) s'

/-- From one state to another by carrying out rules in turn. -/
inductive AllCarried : σ → List (Done Value Module Namespace) → σ → Prop
  | nil (s : σ) : AllCarried s [] s
  | cons {s s₁ s' : σ} {d : Done Value Module Namespace} {rest : List (Done Value Module Namespace)}
    (carried : Carried host load ns s d s₁) (others : AllCarried s₁ rest s') :
    AllCarried s (d :: rest) s'

end

/-! ## What success takes -/

section Success

variable {host : Host σ Value Module Namespace} {load : NativeLoad σ Module} {ns : Namespace}
  {s s' : σ}

theorem copyField_ok {module : String} {source : Module} {table : Namespace} {name : String}
    (h : (copyField host module source table name).on s = (.ok (), s')) :
    ∃ v s₁, (host.field source name).on s = (.ok (some v), s₁)
      ∧ (host.bind table name v).on s₁ = (.ok (), s') := by
  obtain ⟨value?, s₁, read, h⟩ := bind_ok h
  obtain ⟨v, s₂, found, h⟩ := bind_ok h
  obtain ⟨rfl, rfl⟩ := orFail_ok found
  exact ⟨v, s₂, mapError_ok read, mapError_ok h⟩

theorem each_copyField_ok {module : String} {source : Module} {table : Namespace} :
    ∀ {names : List String} {s : σ},
      (each (copyField host module source table) names).on s = (.ok (), s') →
        ∃ fields, fields.map Prod.fst = names ∧ Filled host source table s fields s'
  | [], s, h => by
    obtain ⟨-, rfl⟩ := pure_ok h
    exact ⟨[], rfl, .nil _⟩
  | name :: rest, s, h => by
    obtain ⟨_, s₁, head, h⟩ := bind_ok h
    obtain ⟨v, s₂, read, bind⟩ := copyField_ok head
    obtain ⟨fields, hnames, filled⟩ := each_copyField_ok h
    exact ⟨(name, v) :: fields, by rw [List.map_cons, hnames], .cons read bind filled⟩

theorem expose_ok {module : String} {source : Module} {names : List String}
    (h : (expose host ns module source names).on s = (.ok (), s')) :
    ∃ c : Copy Value Module Namespace, c.source = source ∧ c.names = names
      ∧ Exposed host ns module s c s' := by
  obtain ⟨table, s₂, copied, installed⟩ := bind_ok h
  obtain ⟨table, s₁, made, copied⟩ := bind_ok copied
  obtain ⟨_, s₂, filled, copied⟩ := bind_ok copied
  obtain ⟨rfl, rfl⟩ := pure_ok copied
  obtain ⟨fields, hnames, filled⟩ := each_copyField_ok filled
  exact ⟨⟨source, table, fields⟩, rfl, hnames,
    .steps (mapError_ok made) filled (mapError_ok installed)⟩

theorem apply_ok : ∀ {r : Rule}, (apply host load ns r).on s = (.ok (), s') →
    ∃ d : Done Value Module Namespace, d.rule = r ∧ Carried host load ns s d s'
  | .bare name, h => by
    obtain ⟨value?, s₁, read, h⟩ := bind_ok h
    obtain ⟨v, s₂, found, h⟩ := bind_ok h
    obtain ⟨rfl, rfl⟩ := orFail_ok found
    exact ⟨.bare name v, rfl, .bare (mapError_ok read) (mapError_ok h)⟩
  | .library module names, h => by
    obtain ⟨source, s₁, found, h⟩ := bind_ok h
    obtain ⟨c, rfl, rfl, exposed⟩ := expose_ok h
    exact ⟨.library module c, rfl, .library (mapError_ok found) exposed⟩
  | .native module names, h => by
    obtain ⟨source, s₁, found, h⟩ := bind_ok h
    obtain ⟨c, rfl, rfl, exposed⟩ := expose_ok h
    exact ⟨.native module c, rfl, .native (mapError_ok found) exposed⟩

theorem each_apply_ok {s' : σ} : ∀ {rules : List Rule} {s : σ},
    (each (apply host load ns) rules).on s = (.ok (), s') →
      ∃ done, done.map Done.rule = rules ∧ AllCarried host load ns s done s'
  | [], s, h => by
    obtain ⟨-, rfl⟩ := pure_ok h
    exact ⟨[], rfl, .nil _⟩
  | r :: rest, s, h => by
    obtain ⟨_, s₁, head, h⟩ := bind_ok h
    obtain ⟨d, hrule, carried⟩ := apply_ok head
    obtain ⟨done, hrules, others⟩ := each_apply_ok h
    exact ⟨d :: done, by rw [List.map_cons, hrule, hrules], .cons carried others⟩

end Success

/-! ## What the record holds -/

section Recorded

variable {host : Host σ Value Module Namespace} {load : NativeLoad σ Module} {ns : Namespace}
  {t : σ × List (Event Value Module Namespace)}

theorem filled_recording {source : Module} {table : Namespace} {fields : List (String × Value)} :
    ∀ {s : σ} {es : List (Event Value Module Namespace)},
      Filled (recording host) source table (s, es) fields t →
        ∃ s', Filled host source table s fields s'
          ∧ t = (s', es ++ Copy.fieldEvents source table fields) := by
  induction fields with
  | nil =>
    rintro s es ⟨⟩
    exact ⟨s, .nil _, by simp [Copy.fieldEvents]⟩
  | cons field rest ih =>
    rintro s es (_ | ⟨hread, hbind, hrest⟩)
    obtain ⟨s₁, read, rfl⟩ := recorded_ok hread
    obtain ⟨s₂, bind, rfl⟩ := recorded_ok hbind
    obtain ⟨s', filled, rfl⟩ := ih hrest
    exact ⟨s', .cons read bind filled, by simp [Copy.fieldEvents]⟩

theorem exposed_recording {module : String} {s : σ} {es : List (Event Value Module Namespace)}
    {c : Copy Value Module Namespace} (h : Exposed (recording host) ns module (s, es) c t) :
    ∃ s', Exposed host ns module s c s' ∧ t = (s', es ++ c.events ns module) := by
  obtain ⟨hmade, hfilled, hinstalled⟩ := h
  obtain ⟨s₁, made, rfl⟩ := recorded_ok hmade
  obtain ⟨s₂, filled, rfl⟩ := filled_recording hfilled
  obtain ⟨s', installed, rfl⟩ := recorded_ok hinstalled
  exact ⟨s', .steps made filled installed, by simp [Copy.events]⟩

theorem carried_recording {s : σ} {es : List (Event Value Module Namespace)}
    {d : Done Value Module Namespace}
    (h : Carried (recording host) (recordingLoad load) ns (s, es) d t) :
    ∃ s', Carried host load ns s d s' ∧ t = (s', es ++ d.events ns) := by
  rcases h with ⟨hread, hbind⟩ | ⟨hfound, hexposed⟩ | ⟨hfound, hexposed⟩
  · obtain ⟨s₁, read, rfl⟩ := recorded_ok hread
    obtain ⟨s', bind, rfl⟩ := recorded_ok hbind
    exact ⟨s', .bare read bind, by simp [Done.events]⟩
  · obtain ⟨s₁, found, rfl⟩ := recorded_ok hfound
    obtain ⟨s', exposed, rfl⟩ := exposed_recording hexposed
    exact ⟨s', .library found exposed, by simp [Done.events]⟩
  · obtain ⟨s₁, found, rfl⟩ := recorded_ok hfound
    obtain ⟨s', exposed, rfl⟩ := exposed_recording hexposed
    exact ⟨s', .native found exposed, by simp [Done.events]⟩

theorem allCarried_recording {done : List (Done Value Module Namespace)} :
    ∀ {s : σ} {es : List (Event Value Module Namespace)},
      AllCarried (recording host) (recordingLoad load) ns (s, es) done t →
        ∃ s', AllCarried host load ns s done s'
          ∧ t = (s', es ++ done.flatMap (Done.events ns)) := by
  induction done with
  | nil =>
    rintro s es ⟨⟩
    exact ⟨s, .nil _, by simp⟩
  | cons d rest ih =>
    rintro s es (_ | ⟨hcarried, hothers⟩)
    obtain ⟨s₁, carried, rfl⟩ := carried_recording hcarried
    obtain ⟨s', others, rfl⟩ := ih hothers
    exact ⟨s', .cons carried others, by simp⟩

end Recorded

/-- A successful assembly made a namespace, carried out every rule of the policy on it in turn, and
asked for nothing else. -/
theorem assemble_ok {host : Host σ Value Module Namespace} {load : NativeLoad σ Module} {p : Policy}
    {ns : Namespace} {s s' : σ} (h : (assemble host load p).on s = (.ok ns, s')) :
    ∃ (s₁ : σ) (done : List (Done Value Module Namespace)),
      host.newNamespace.on s = (.ok ns, s₁) ∧ AllCarried host load ns s₁ done s'
        ∧ done.map Done.rule = p.rules
        ∧ events host load p s = .newNamespace (.ok ns) :: done.flatMap (Done.events ns) := by
  have h' := assemble_on_recording host load p s
  rw [h] at h'
  obtain ⟨ns, t₁, hmade, h'⟩ := bind_ok h'
  obtain ⟨_, t₂, hcarried, h'⟩ := bind_ok h'
  obtain ⟨rfl, ht⟩ := pure_ok h'
  obtain ⟨s₁, made, rfl⟩ := recorded_ok (mapError_ok hmade)
  obtain ⟨done, hrules, hcarried⟩ := each_apply_ok hcarried
  obtain ⟨s₂, carried, rfl⟩ := allCarried_recording hcarried
  obtain ⟨rfl, hes⟩ := Prod.mk.inj ht
  exact ⟨s₁, done, made, carried, hrules, by rw [hes]; rfl⟩

end Enclosure.Assembly
