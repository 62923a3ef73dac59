import Enclosure.Proofs.Native.History
import Enclosure.Sandbox.Config

/-!
# The loader of a configuration

The loader has under each name the module that was registered last under it.
-/

namespace Enclosure

open NativeLoader

/-- The module of a name after which none of the same name comes. -/
def LastNamed (modules : List NativeModule) (name : String) (m : NativeModule) : Prop :=
  m.name = name ∧ ∃ before after, modules = before ++ m :: after ∧ ∀ m' ∈ after, m'.name ≠ name

theorem LastNamed.mem {modules : List NativeModule} {name : String} {m : NativeModule}
    (h : LastNamed modules name m) : m ∈ modules := by
  obtain ⟨-, before, after, rfl, -⟩ := h
  simp

theorem lastNamed_snoc {modules : List NativeModule} {name : String} {m m' : NativeModule} :
    LastNamed (modules ++ [m']) name m
      ↔ if name = m'.name then m = m' else LastNamed modules name m := by
  constructor
  · rintro ⟨hname, before, after, hsplit, hafter⟩
    rcases List.eq_nil_or_concat after with rfl | ⟨after, last, rfl⟩
    · obtain ⟨-, hlast⟩ := List.append_inj' hsplit rfl
      obtain rfl := List.singleton_inj.1 hlast
      rw [if_pos hname.symm]
    · rw [List.concat_eq_append, ← List.cons_append, ← List.append_assoc] at hsplit
      obtain ⟨rfl, hlast⟩ := List.append_inj' hsplit rfl
      obtain rfl := List.singleton_inj.1 hlast
      rw [if_neg (Ne.symm (hafter _ (by simp)))]
      exact ⟨hname, before, after, rfl, fun m' hm' => hafter m' (by simp [hm'])⟩
  · split_ifs with hname
    · rintro rfl
      exact ⟨hname.symm, modules, [], rfl, by simp⟩
    · rintro ⟨hm, before, after, rfl, hafter⟩
      refine ⟨hm, before, after ++ [m'], by simp, fun m'' hm'' => ?_⟩
      rcases List.mem_append.1 hm'' with hm'' | hm''
      · exact hafter m'' hm''
      · rw [List.mem_singleton.1 hm'']
        exact Ne.symm hname

namespace NativeLoader

theorem module?_registered (modules : List NativeModule) (name : String) (m : NativeModule) :
    (modules.foldl register {}).module? name = some m ↔ LastNamed modules name m := by
  induction modules using List.reverseRecOn with
  | nil => simp [module?, LastNamed]
  | append_singleton modules m' ih =>
    rw [List.foldl_append, List.foldl_cons, List.foldl_nil, module?_register, lastNamed_snoc]
    split_ifs
    · simp [eq_comm]
    · exact ih

theorem modules_allow (l : NativeLoader) : ∀ names : List String,
    (names.foldl allow l).modules = l.modules
  | [] => rfl
  | name :: rest => modules_allow (l.allow name) rest

end NativeLoader

theorem Config.loader_module? (c : Config) (name : String) (m : NativeModule) :
    c.loader.module? name = some m ↔ LastNamed c.natives name m := by
  have hmodules : c.loader.modules = (c.natives.foldl register {}).modules := by
    unfold loader
    cases c.allowed with
    | none => rfl
    | some names => exact modules_allow _ _
  rw [module?, hmodules]
  exact module?_registered c.natives name m

end Enclosure
