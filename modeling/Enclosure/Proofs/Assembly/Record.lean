import Enclosure.Assembly
import Enclosure.Proofs.Attempt

/-!
# The record of an assembly

A host can be made to write down every primitive it is asked for, with its answer. That changes nothing
else: an assembly on the recording host answers as it does on the host itself and leaves the same state
(`assemble_recording`), so the record says what an assembly did.
-/

namespace Enclosure

/-- A primitive of a host or of a loader, with what it was asked for and its answer. -/
inductive Event (Value Module Namespace : Type)
  | global (name : String) (answer : Except Cause (Option Value))
  | require (module : String) (answer : Except Cause Module)
  | load (module : String) (answer : Except Cause Module)
  | field (source : Module) (name : String) (answer : Except Cause (Option Value))
  | newNamespace (answer : Except Cause Namespace)
  | bind (ns : Namespace) (key : String) (v : Value) (answer : Except Cause Unit)
  | install (ns : Namespace) (key : String) (child : Namespace) (answer : Except Cause Unit)

namespace Attempt

variable {σ ε ε' α β E : Type}

/-- The attempt, with what came of it added to a record. -/
def recorded (event : Except ε α → E) (m : Attempt σ ε α) : Attempt (σ × List E) ε α :=
  of fun (s, es) => ((m.on s).1, ((m.on s).2, es ++ [event (m.on s).1]))

/-- An attempt with a record does what the one without does, and only adds to the record. -/
def Records (m' : Attempt (σ × List E) ε α) (m : Attempt σ ε α) : Prop :=
  ∀ s es, ∃ new, m'.on (s, es) = ((m.on s).1, ((m.on s).2, es ++ new))

theorem recorded_records (event : Except ε α → E) (m : Attempt σ ε α) :
    Records (m.recorded event) m :=
  fun _ _ => ⟨_, rfl⟩

theorem recorded_ok {event : Except ε α → E} {m : Attempt σ ε α} {s : σ} {es : List E} {a : α}
    {t : σ × List E} (h : (m.recorded event).on (s, es) = (.ok a, t)) :
    ∃ s', m.on s = (.ok a, s') ∧ t = (s', es ++ [event (.ok a)]) := by
  have h₁ : (m.on s).1 = .ok a := congrArg Prod.fst h
  have h₂ : ((m.on s).2, es ++ [event (m.on s).1]) = t := congrArg Prod.snd h
  exact ⟨(m.on s).2, Prod.ext h₁ rfl, by rw [← h₂, h₁]⟩

namespace Records

theorem pure (a : α) : Records (E := E) (Pure.pure a) (Pure.pure a : Attempt σ ε α) :=
  fun _ es => ⟨[], by rw [on_pure, on_pure, List.append_nil]⟩

theorem orFail (e : ε) (a? : Option α) :
    Records (E := E) (Attempt.orFail e a?) (Attempt.orFail e a? : Attempt σ ε α) := by
  rcases a? with _ | a
  · exact fun s es => ⟨[], by rw [on_orFail_none, on_orFail_none, List.append_nil]⟩
  · exact fun s es => ⟨[], by rw [on_orFail_some, on_orFail_some, List.append_nil]⟩

theorem mapError (f : ε → ε') {m' : Attempt (σ × List E) ε α} {m : Attempt σ ε α}
    (h : Records m' m) : Records (m'.mapError f) (m.mapError f) := by
  intro s es
  obtain ⟨new, h⟩ := h s es
  exact ⟨new, by rw [on_mapError, on_mapError, h]⟩

theorem bind {m' : Attempt (σ × List E) ε α} {m : Attempt σ ε α}
    {f' : α → Attempt (σ × List E) ε β} {f : α → Attempt σ ε β} (h : Records m' m)
    (hf : ∀ a, Records (f' a) (f a)) : Records (m' >>= f') (m >>= f) := by
  intro s es
  obtain ⟨new, h⟩ := h s es
  rw [on_bind, on_bind, h]
  rcases m.on s with ⟨e | a, s₁⟩
  · exact ⟨new, rfl⟩
  · obtain ⟨more, hf⟩ := hf a s₁ (es ++ new)
    exact ⟨new ++ more, by rw [← List.append_assoc]; exact hf⟩

theorem each {f' : β → Attempt (σ × List E) ε Unit} {f : β → Attempt σ ε Unit}
    (h : ∀ b, Records (f' b) (f b)) : ∀ bs, Records (Attempt.each f' bs) (Attempt.each f bs)
  | [] => Records.pure ()
  | b :: rest => (h b).bind fun _ => each h rest

end Records

end Attempt

namespace Assembly

variable {σ Value Module Namespace : Type}

/-- The host, with a record of what it is asked for. -/
def recording (host : Host σ Value Module Namespace) :
    Host (σ × List (Event Value Module Namespace)) Value Module Namespace where
  global name := (host.global name).recorded (.global name)
  require module := (host.require module).recorded (.require module)
  field source name := (host.field source name).recorded (.field source name)
  newNamespace := host.newNamespace.recorded .newNamespace
  bind ns key v := (host.bind ns key v).recorded (.bind ns key v)
  install ns key child := (host.install ns key child).recorded (.install ns key child)

/-- The loader, with a record of what it is asked for. -/
def recordingLoad (load : NativeLoad σ Module) :
    NativeLoad (σ × List (Event Value Module Namespace)) Module :=
  fun module => (load module).recorded (.load module)

section Transparent

open Attempt

variable (host : Host σ Value Module Namespace) (load : NativeLoad σ Module)

theorem copyField_recording (module : String) (source : Module) (copy : Namespace)
    (name : String) : Records (copyField (recording host) module source copy name)
      (copyField host module source copy name) :=
  ((recorded_records _ _).mapError _).bind fun value? =>
    (Records.orFail _ value?).bind fun _ => (recorded_records _ _).mapError _

theorem expose_recording (ns : Namespace) (module : String) (source : Module)
    (names : List String) : Records (expose (recording host) ns module source names)
      (expose host ns module source names) := by
  refine Records.bind (m := copyFields host module source names) ?_
    fun copy => (recorded_records _ _).mapError _
  refine ((recorded_records _ _).mapError _).bind fun copy => ?_
  exact (Records.each (copyField_recording host module source copy) names).bind
    fun _ => Records.pure copy

theorem apply_recording (ns : Namespace) :
    ∀ r, Records (apply (recording host) (recordingLoad load) ns r) (apply host load ns r)
  | .bare _ => ((recorded_records _ _).mapError _).bind fun value? =>
    (Records.orFail _ value?).bind fun _ => (recorded_records _ _).mapError _
  | .library _ _ => ((recorded_records _ _).mapError _).bind fun _ => expose_recording host ns _ _ _
  | .native _ _ => ((recorded_records _ _).mapError _).bind fun _ => expose_recording host ns _ _ _

theorem assembleInto_recording (ns : Namespace) (p : Policy) :
    Records (assembleInto (recording host) (recordingLoad load) ns p)
      (assembleInto host load ns p) :=
  Records.each (apply_recording host load ns) p.rules

/-- A record changes nothing in what an assembly does. -/
theorem assemble_recording (p : Policy) :
    Records (assemble (recording host) (recordingLoad load) p) (assemble host load p) :=
  ((recorded_records _ _).mapError _).bind fun ns =>
    (assembleInto_recording host load ns p).bind fun _ => Records.pure ns

/-- What an assembly asks a host and a loader for, from first to last. -/
def events (p : Policy) (s : σ) : List (Event Value Module Namespace) :=
  ((assemble (recording host) (recordingLoad load) p).on (s, [])).2.2

theorem assemble_on_recording (p : Policy) (s : σ) :
    (assemble (recording host) (recordingLoad load) p).on (s, [])
      = (((assemble host load p).on s).1, (((assemble host load p).on s).2, events host load p s)) := by
  obtain ⟨new, h⟩ := assemble_recording host load p s []
  have hes : events host load p s = [] ++ new := congrArg (·.2.2) h
  rw [h, hes]

end Transparent

end Assembly

end Enclosure
