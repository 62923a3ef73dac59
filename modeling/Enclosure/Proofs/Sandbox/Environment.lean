import Enclosure.Proofs.Sandbox.Loader
import Enclosure.Proofs.Sandbox.Phases

/-!
# The environment of a sandbox

Where all that openers do stays in the realm of the full environment, the environment of a sandbox has
exactly the fields that the configuration asks for, and each value is what its source gave
(`create_environment`).
-/

namespace Enclosure

open Lua Attempt

variable {K : List String → Pledge} {R : Realm} {st st' : State} {ns : TableId}

namespace Sandbox

theorem kept_lasts (ns : TableId) (name : String) :
    Lasts ns fun _ st v => ∃ t, v = .table t ∧ st.store.natives.lookup name = some t := by
  rintro R st R' st' v advance ⟨t, rfl, hkept⟩
  exact ⟨t, rfl, advance.retains name t hkept⟩

theorem bindTrusted_binds {R₀ : Realm} {L : Pledge} {loader : NativeLoader} {name : String}
    (hload : ∀ R, (loader.load name).Discreet L R Opener.InRealm) :
    Binds (fun _ => L) R₀ ns name
      (fun _ _ st v => ∃ t, v = .table t ∧ st.store.natives.lookup name = some t)
      (bindTrusted loader ns name) := by
  intro names R st st' _ hst _ _ hrun
  obtain ⟨t, st₁, hloaded, hrun⟩ := bind_ok hrun
  replace hloaded := mapError_ok hloaded
  obtain ⟨R₁, advance, footing, -⟩ := (hload R).ok hst hloaded
  exact ⟨R₁, st₁, .table t, advance, footing, nofun, ⟨t, rfl, NativeLoader.load_keeps hloaded⟩,
    (Prod.mk.inj hrun).2.symm⟩

/-- A configuration with a trusted module, a function and arguments. -/
def netioConfig : Config where
  policy := .empty
  natives := [NativeLoader.openNetio]
  trusted := ["netio"]
  functions := [⟨"say", fun args => pure args⟩]
  args := ["a", "b"]

end Sandbox

end Enclosure
