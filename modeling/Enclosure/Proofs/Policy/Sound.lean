import Mathlib.Data.List.Nodup
import Mathlib.Tactic.SplitIfs
import Enclosure.Policy

/-!
# Sound rules

A list of rules has no defect exactly when every rule is `Sound` by itself and no two rules fill the
same key (`firstDefect_eq_none_iff`). The two lists of names seen so far in the search for a defect
only ever grow by names that were not on them, so a search that finds none has walked through a list
without repetitions that has nothing in common with what was seen before it.
-/

namespace Enclosure

namespace Rule

/-- Whether the rule fills its key with a table of copied fields. -/
def copies : Rule → Bool
  | .bare _ => false
  | .library .. => true
  | .native .. => true

/-- The rule can be carried out by itself: its names can be used as keys, and the fields it copies
are at least one and none twice. -/
structure Sound (r : Rule) : Prop where
  target : validName r.target
  names_ne_nil : r.copies → r.names ≠ []
  names_nodup : r.names.Nodup
  names_valid : ∀ name ∈ r.names, validName name

theorem namesDefect_eq_none_iff (module : String) : ∀ seen names : List String,
    namesDefect module seen names = none
      ↔ (∀ name ∈ names, validName name) ∧ names.Nodup ∧ ∀ name ∈ names, name ∉ seen
  | _, [] => by simp [namesDefect]
  | seen, name :: rest => by
    have ih := namesDefect_eq_none_iff module (name :: seen) rest
    rw [namesDefect]
    split_ifs with hv hs
    · simp only [Bool.not_eq_true'] at hv
      simp [hv]
    · simp only [List.contains_eq_mem, decide_eq_true_eq] at hs
      simp [hs]
    · simp only [Bool.not_eq_true', Bool.not_eq_false, List.contains_eq_mem, decide_eq_true_eq]
        at hv hs
      rw [ih]
      simp only [List.mem_cons, not_or, forall_eq_or_imp, List.nodup_cons, hv, hs,
        not_false_eq_true, true_and]
      constructor
      · rintro ⟨hrest, hnd, hout⟩
        exact ⟨hrest, ⟨fun h => (hout _ h).1 rfl, hnd⟩, fun n hn => (hout n hn).2⟩
      · rintro ⟨hrest, ⟨hnot, hnd⟩, hout⟩
        exact ⟨hrest, hnd, fun n hn => ⟨fun h => hnot (h ▸ hn), hout n hn⟩⟩

theorem fieldsDefect_eq_none_iff (module : String) (names : List String) :
    fieldsDefect module names = none
      ↔ names ≠ [] ∧ names.Nodup ∧ ∀ name ∈ names, validName name := by
  rw [fieldsDefect]
  split_ifs with h
  · simp [List.isEmpty_iff.1 h]
  · rw [namesDefect_eq_none_iff]
    simp only [List.isEmpty_iff] at h
    simp [h, and_comm]

theorem defect_eq_none_iff (r : Rule) : r.defect = none ↔ r.Sound := by
  unfold defect
  by_cases hv : validName r.target
  swap
  · simp only [hv, Bool.not_false, ↓reduceIte, reduceCtorEq, false_iff]
    exact fun h => hv h.target
  simp only [hv, Bool.not_true, Bool.false_eq_true, ↓reduceIte]
  rcases r with name | ⟨module, names⟩ | ⟨module, names⟩
  · exact ⟨fun _ => ⟨hv, by simp [copies], by simp [Rule.names], by simp [Rule.names]⟩, fun _ => rfl⟩
  all_goals
    simp only [fieldsDefect_eq_none_iff]
    exact ⟨fun h => ⟨hv, fun _ => h.1, h.2.1, h.2.2⟩,
      fun h => ⟨h.names_ne_nil rfl, h.names_nodup, h.names_valid⟩⟩

end Rule

theorem defectAfter_eq_none_iff : ∀ (seen : List String) (rules : List Rule),
    defectAfter seen rules = none
      ↔ (∀ r ∈ rules, r.Sound) ∧ (rules.map Rule.target).Nodup
        ∧ ∀ r ∈ rules, r.target ∉ seen
  | _, [] => by simp [defectAfter]
  | seen, r :: rest => by
    have ih := defectAfter_eq_none_iff (r.target :: seen) rest
    rw [defectAfter]
    split
    · rename_i d hd
      have hr : ¬ r.Sound := fun h => by simp [(Rule.defect_eq_none_iff r).2 h] at hd
      simp [hr]
    · rename_i hd
      have hr := (Rule.defect_eq_none_iff r).1 hd
      split_ifs with hs
      · simp only [List.contains_eq_mem, decide_eq_true_eq] at hs
        simp [hs]
      simp only [List.contains_eq_mem, decide_eq_true_eq] at hs
      rw [ih]
      simp only [List.mem_cons, not_or, forall_eq_or_imp, List.map_cons, List.nodup_cons, hr, hs,
        not_false_eq_true, true_and]
      constructor
      · rintro ⟨hrest, hnd, hout⟩
        refine ⟨hrest, ⟨fun h => ?_, hnd⟩, fun q hq => (hout q hq).2⟩
        obtain ⟨q, hq, he⟩ := List.mem_map.1 h
        exact (hout q hq).1 he
      · rintro ⟨hrest, ⟨hnot, hnd⟩, hout⟩
        exact ⟨hrest, hnd, fun q hq => ⟨fun h => hnot (h ▸ List.mem_map_of_mem hq), hout q hq⟩⟩

theorem firstDefect_eq_none_iff (rules : List Rule) :
    firstDefect rules = none ↔ (∀ r ∈ rules, r.Sound) ∧ (rules.map Rule.target).Nodup := by
  simp [firstDefect, defectAfter_eq_none_iff]

namespace Policy

theorem rule_sound (p : Policy) {r : Rule} (h : r ∈ p.rules) : r.Sound :=
  ((firstDefect_eq_none_iff _).1 p.sound).1 r h

theorem targets_nodup (p : Policy) : p.targets.Nodup :=
  ((firstDefect_eq_none_iff _).1 p.sound).2

/-- The rules of a policy make that policy again. -/
theorem ofRules_rules (p : Policy) : ofRules p.rules = .ok p := by
  unfold ofRules
  split
  · rfl
  · rename_i d h
    rw [p.sound] at h
    cases h

end Policy

end Enclosure
