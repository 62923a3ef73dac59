import Mathlib.Data.List.Induction
import Mathlib.Tactic.Common
import Enclosure.Native.Loader
import Enclosure.Proofs.Attempt

/-!
# Histories of loaders

Any number of loaders may be used with one state. What was opened is kept in the state, so that an
opening by one loader is felt by all of them.
-/

namespace Enclosure.NativeLoader

open Lua

/-- The loaders, by number, and the state that they are used with. -/
structure World where
  loaders : Nat → NativeLoader := fun _ => {}
  state : State

/-- What is done with a loader, which is named by its number. -/
inductive Call
  | register (l : Nat) (m : NativeModule)
  | allow (l : Nat) (name : String)
  | allowRegistered (l : Nat)
  /-- The second loader becomes a copy of the first. -/
  | clone (l l' : Nat)
  | load (l : Nat) (name : String)

namespace World

/-- The world with one loader changed. -/
def setLoader (w : World) (l : Nat) (loader : NativeLoader) : World :=
  { w with loaders := fun i => if i = l then loader else w.loaders i }

def step (w : World) : Call → World
  | .register l m => w.setLoader l ((w.loaders l).register m)
  | .allow l name => w.setLoader l ((w.loaders l).allow name)
  | .allowRegistered l => w.setLoader l (w.loaders l).allowRegistered
  | .clone l l' => w.setLoader l' (w.loaders l)
  | .load l name => { w with state := (((w.loaders l).load name).on w.state).2 }

def run (w : World) (calls : List Call) : World := calls.foldl step w

theorem run_snoc (w : World) (calls : List Call) (c : Call) :
    w.run (calls ++ [c]) = (w.run calls).step c := by
  simp [run]

end World

/-! ## Registered modules -/

theorem lookup_put (m : NativeModule) (name : String) : ∀ modules : List (String × NativeModule),
    (put m modules).lookup name = if name = m.name then some m else modules.lookup name
  | [] => by
    by_cases h : name = m.name
    · simp [put, h]
    · simp [put, List.lookup_cons, h, beq_eq_false_iff_ne.2 h]
  | (key, old) :: rest => by
    have ih := lookup_put m name rest
    rw [put]
    by_cases hk : key = m.name
    · rw [if_pos hk, hk]
      by_cases h : name = m.name
      · simp [h]
      · simp [List.lookup_cons, h, beq_eq_false_iff_ne.2 h]
    · rw [if_neg hk, List.lookup_cons, ih, List.lookup_cons]
      by_cases h : name = m.name
      · rw [if_pos h, if_pos h, beq_eq_false_iff_ne.2 (h ▸ Ne.symm hk)]
      · rw [if_neg h, if_neg h]

theorem module?_register (l : NativeLoader) (m : NativeModule) (name : String) :
    (l.register m).module? name = if name = m.name then some m else l.module? name :=
  lookup_put m name l.modules

/-- Every module in a loader was registered in the history. -/
theorem registered_of_module? {st : State} {calls : List Call} : ∀ {l : Nat} {name : String}
    {m : NativeModule}, (((World.mk (fun _ => {}) st).run calls).loaders l).module? name = some m →
      ∃ l', .register l' m ∈ calls := by
  -- on the calls from the end: a call registers a module, hands on those of a loader, or does neither
  induction calls using List.reverseRecOn with
  | nil =>
    intro l name m h
    cases h
  | append_singleton calls c ih =>
    intro l name m h
    rw [World.run_snoc] at h
    have old : ∀ {l}, (((World.mk (fun _ => {}) st).run calls).loaders l).module? name = some m →
        ∃ l', .register l' m ∈ calls ++ [c] := fun h =>
      (ih h).imp fun l' hmem => List.mem_append_left _ hmem
    cases c with
    | register l' m' =>
      simp only [World.step, World.setLoader] at h
      split at h
      · rw [module?_register] at h
        split at h
        · cases h
          exact ⟨l', by simp⟩
        · exact old h
      · exact old h
    | allow l' name' | allowRegistered l' | clone l' l'' =>
      simp only [World.step, World.setLoader] at h
      split at h
      · exact old h
      · exact old h
    | load l' name' => exact old h

end Enclosure.NativeLoader
