import Enclosure.Proofs.Assembly.Atomic
import Enclosure.Proofs.Policy.Merge

/-!
# Assembling a merged policy

An assembly goes through the rules of a policy one after the other and looks at none of them twice. So a
merge is assembled as its two parts are, the second on what the first one left, and only if that one
succeeded: the same primitives are asked for, with the same answers, and the same is left of it
(`assembleInto_merge`).
-/

namespace Enclosure

open Attempt

variable {σ ε ε' α β E : Type}

namespace Attempt

/-- What an attempt does to a record is to add to it, whatever it holds. -/
def Appends (m : Attempt (σ × List E) ε α) : Prop :=
  ∀ s es, m.on (s, es)
    = ((m.on (s, [])).1, ((m.on (s, [])).2.1, es ++ (m.on (s, [])).2.2))

theorem recorded_appends (event : Except ε α → E) (m : Attempt σ ε α) :
    Appends (m.recorded event) := fun _ _ => rfl

namespace Appends

variable {m : Attempt (σ × List E) ε α} {f : α → Attempt (σ × List E) ε β}

theorem pure (a : α) : Appends (Pure.pure a : Attempt (σ × List E) ε α) := fun s es => by
  rw [on_pure, on_pure, List.append_nil]

theorem orFail (e : ε) (a? : Option α) :
    Appends (Attempt.orFail e a? : Attempt (σ × List E) ε α) := by
  cases a? with
  | none => exact fun s es => by rw [on_orFail_none, on_orFail_none, List.append_nil]
  | some a => exact pure a

theorem mapError (g : ε → ε') (h : Appends m) : Appends (m.mapError g) := fun s es => by
  rw [on_mapError, on_mapError, h s es]

theorem bind (h : Appends m) (hf : ∀ a, Appends (f a)) : Appends (m >>= f) := by
  intro s es
  rw [on_bind, on_bind, h s es]
  rcases m.on (s, []) with ⟨e | a, s₁, new⟩
  · rfl
  · -- the second part adds the same to what the first one added
    have h₁ := hf a s₁ (es ++ new)
    have h₂ := hf a s₁ new
    simp only [h₁, h₂, List.append_assoc]

theorem each {g : β → Attempt (σ × List E) ε Unit} (h : ∀ b, Appends (g b)) :
    ∀ bs, Appends (Attempt.each g bs)
  | [] => pure ()
  | b :: rest => bind (h b) fun _ => each h rest

end Appends

end Attempt

namespace Assembly

variable {Value Module Namespace : Type} (host : Host σ Value Module Namespace)
  (load : NativeLoad σ Module)

theorem expose_appends (ns : Namespace) (module : String) (source : Module) (names : List String) :
    Appends (expose (recording host) ns module source names) := by
  have field (copy : Namespace) (name : String) :
      Appends (copyField (recording host) module source copy name) :=
    .bind (.mapError _ (recorded_appends _ _)) fun value? =>
      .bind (.orFail _ value?) fun _ => .mapError _ (recorded_appends _ _)
  have copied : Appends (copyFields (recording host) module source names) :=
    .bind (.mapError _ (recorded_appends _ _)) fun copy =>
      .bind (.each (field copy) names) fun _ => .pure copy
  exact .bind copied fun _ => .mapError _ (recorded_appends _ _)

theorem apply_appends (ns : Namespace) :
    ∀ r, Appends (apply (recording host) (recordingLoad load) ns r)
  | .bare _ => .bind (.mapError _ (recorded_appends _ _)) fun value? =>
    .bind (.orFail _ value?) fun _ => .mapError _ (recorded_appends _ _)
  | .library _ _ => .bind (.mapError _ (recorded_appends _ _)) fun _ => expose_appends host ns _ _ _
  | .native _ _ => .bind (.mapError _ (recorded_appends _ _)) fun _ => expose_appends host ns _ _ _

theorem assembleInto_appends (ns : Namespace) (p : Policy) :
    Appends (assembleInto (recording host) (recordingLoad load) ns p) :=
  .each (apply_appends host load ns) p.rules

/-- What an assembly into a namespace asks a host and a loader for, from first to last. -/
def eventsInto (ns : Namespace) (p : Policy) (s : σ) : List (Event Value Module Namespace) :=
  ((assembleInto (recording host) (recordingLoad load) ns p).on (s, [])).2.2

theorem assembleInto_on_recording (ns : Namespace) (p : Policy) (s : σ)
    (es : List (Event Value Module Namespace)) :
    (assembleInto (recording host) (recordingLoad load) ns p).on (s, es)
      = (((assembleInto host load ns p).on s).1, ((assembleInto host load ns p).on s).2,
        es ++ eventsInto host load ns p s) := by
  obtain ⟨new, h⟩ := assembleInto_recording host load ns p s []
  have happends := assembleInto_appends host load ns p s es
  rw [eventsInto, happends, h]

variable {a b p : Policy}

/-- The first policy, and if it was assembled the second. -/
theorem assembleInto_of_merge (h : a.merge b = .ok p) (ns : Namespace) :
    assembleInto host load ns p
      = assembleInto host load ns a >>= fun _ => assembleInto host load ns b := by
  rw [assembleInto, Policy.rules_of_merge h, each_append]
  rfl

/-- A merge is assembled as the first policy and, if that succeeded, the second one after it, whatever
the host and the loader do: with the same result, the same state left and the same events. -/
theorem assembleInto_merge (h : a.merge b = .ok p) (ns : Namespace) (s : σ) :
    (assembleInto host load ns p).on s = (match (assembleInto host load ns a).on s with
        | (.ok _, s') => (assembleInto host load ns b).on s'
        | (.error e, s') => (.error e, s'))
      ∧ eventsInto host load ns p s = eventsInto host load ns a s
        ++ match (assembleInto host load ns a).on s with
          | (.ok _, s') => eventsInto host load ns b s'
          | (.error _, _) => [] := by
  have recorded := assembleInto_on_recording host load ns a s []
  rw [eventsInto, assembleInto_of_merge host load h, assembleInto_of_merge _ _ h, on_bind, on_bind,
    recorded]
  rcases (assembleInto host load ns a).on s with ⟨e | _, s'⟩
  · exact ⟨rfl, by simp⟩
  · refine ⟨rfl, ?_⟩
    dsimp only
    rw [assembleInto_on_recording host load ns b s', List.nil_append]

/-- The rules of the small policy but the last one. -/
def frontPolicy : Policy := ⟨[.bare "print", .library "math" ["pi"]], by decide +kernel⟩

def clockPolicy : Policy := ⟨[.native "clock" ["now"]], by decide +kernel⟩

/-- On the broken heap the front is assembled, and the rule that comes after it fails. -/
theorem assembleInto_merge_broken :
    ∃ s', (assembleInto Heap.host Heap.load 2 frontPolicy).on brokenHeap = (.ok (), s')
      ∧ ((assembleInto Heap.host Heap.load 2 smallPolicy).on brokenHeap).1
        = .error (.host (.text "install clock failed"))
      ∧ (assembleInto Heap.host Heap.load 2 smallPolicy).on brokenHeap
        = (assembleInto Heap.host Heap.load 2 clockPolicy).on s'
      ∧ eventsInto Heap.host Heap.load 2 smallPolicy brokenHeap
        = eventsInto Heap.host Heap.load 2 frontPolicy brokenHeap
          ++ eventsInto Heap.host Heap.load 2 clockPolicy s' := by
  have merges : frontPolicy.merge clockPolicy = .ok smallPolicy :=
    (Policy.merge_eq_ok_iff _ _ _).2
      ⟨by simp [Policy.targets, frontPolicy, clockPolicy, Rule.target], rfl⟩
  have front : ((assembleInto Heap.host Heap.load 2 frontPolicy).on brokenHeap).1 = .ok () := by
    decide +kernel
  have merged := assembleInto_merge Heap.host Heap.load merges 2 brokenHeap
  rw [on_eq front] at merged
  exact ⟨_, on_eq front, by decide +kernel, merged⟩

end Assembly

end Enclosure
