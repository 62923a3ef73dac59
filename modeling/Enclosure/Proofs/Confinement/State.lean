import Enclosure.Lua.State
import Enclosure.Proofs.Attempt
import Enclosure.Proofs.Confinement.Harmless

/-!
# The host in a zone

What the host does with a confined state leaves it confined: it runs what is safe, also to find out
what an error says, and it loads sources in an environment that scripts may hold. Whatever it gets from
a run is something that scripts may hold.
-/

namespace Enclosure.Lua

variable {Z : Zone} {st : State}

/-- What the machine answers: results that scripts may hold, or such an error. -/
def Zone.Answered (Z : Zone) : Except (Option Value) (List Value) → Prop
  | .ok vs => Z.Publics vs
  | .error e => ∀ v, e = some v → Z.Public v

namespace State

theorem runRaw_safe (sound : Z.Sound) (serves : Z.Serves st.functions) {m : Run (List Value)}
    (hm : m.Safe Z Z.Publics) (hs : Z.Confined st.store) :
    Z.Answered (st.runRaw m).1 ∧ Z.Confined (st.runRaw m).2.store
      ∧ (st.runRaw m).2.functions = st.functions := by
  have hsafe := Machine.start_safe sound serves st.threads hm hs
  unfold runRaw
  generalize Machine.start st.functions st.threads m st.store = o at hsafe
  cases o with
  | returned vs store threads => exact ⟨hsafe.1, hsafe.2, rfl⟩
  | raised v store threads =>
    refine ⟨?_, hsafe.2, rfl⟩
    rintro _ ⟨⟩
    exact hsafe.1
  | exhausted store threads => exact ⟨nofun, hsafe, rfl⟩

/-- The text of an error may be found by a script's own function, which is run in turn. -/
theorem run_safe (sound : Z.Sound) (serves : Z.Serves st.functions) {m : Run (List Value)}
    (hm : m.Safe Z Z.Publics) (hs : Z.Confined st.store) :
    Z.Confined (st.run m).2.store ∧ ∀ vs, (st.run m).1 = .ok vs → Z.Publics vs := by
  obtain ⟨hanswer, hs₁, hfunctions⟩ := runRaw_safe sound serves hm hs
  unfold run
  generalize st.runRaw m = r at hanswer hs₁ hfunctions
  obtain ⟨answer, st₁⟩ := r
  match answer with
  | .ok vs =>
    refine ⟨hs₁, ?_⟩
    rintro _ ⟨⟩
    exact hanswer
  | .error none => exact ⟨hs₁, nofun⟩
  | .error (some v) =>
    have htext : (do return [← Failure.describe v] : Run (List Value)).Safe Z Z.Publics :=
      .bind (Failure.describe_safe sound (hanswer v rfl)) fun _ h => .pure (Zone.publics_one h)
    obtain ⟨-, hs₂, -⟩ := runRaw_safe sound (hfunctions ▸ serves) htext hs₁
    dsimp only
    generalize st₁.runRaw _ = r at hs₂
    obtain ⟨_ | _, st₂⟩ := r
    · exact ⟨hs₂, nofun⟩
    · exact ⟨hs₂, nofun⟩

end State

/-! ## Sources -/

theorem checkMode_binary {source : Bytes} (h : Chunk.isBinary source) :
    ∃ e, Chunk.checkMode source Action.textMode = .error e := by
  have hletter : Action.textMode.asList.contains 98 = false := by decide
  unfold Chunk.checkMode
  rw [if_pos h]
  dsimp only
  rw [hletter]
  exact ⟨_, rfl⟩

/-- Only texts are let in, and the function of a text has the environment for its one variable. -/
theorem Chunk.load_safe (closures : Z.closures) (own : ∀ c, Z.OwnCell c) (source name : Bytes)
    {env : TableId} (henv : Z.Public (.table env)) :
    (Chunk.load source name Action.textMode (.table env) 0).Safe Z
      fun r => ∀ f, r = .ok f → Z.Public f := by
  unfold Chunk.load
  split
  · exact .pure nofun
  · rename_i hmode
    refine .bind (.newCell henv) fun cell _ => .ite (fun hbinary => ?_) fun _ => ?_
    · obtain ⟨e, he⟩ := checkMode_binary hbinary
      exact absurd (hmode.symm.trans he) nofun
    · split
      · exact .pure nofun
      · refine .bind (.newFunction (.closure closures fun c _ => own c)) fun f hf => .pure ?_
        rintro _ ⟨⟩
        exact hf

end Enclosure.Lua
