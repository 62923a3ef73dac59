import Mathlib.Data.List.Find
import Enclosure.Proofs.Policy.FirstDefect

/-!
# Merging policies

Of two policies nothing has to be looked at again but their keys: a merge fails exactly if they share
one, and then for the first rule of the second policy whose key the first one has (`merge_error_iff`).
So merging is associative and has a neutral element wherever it is defined, and it is defined for two
policies in the one order if it is in the other (`merge_laws`).
-/

namespace Enclosure

/-- Rules that are acceptable by themselves can only meet a key that was seen before them. -/
theorem defectAfter_eq_find? : ∀ {rules : List Rule}, (∀ r ∈ rules, r.Sound) →
    (rules.map Rule.target).Nodup → ∀ seen : List String, defectAfter seen rules
      = (rules.find? fun r => seen.contains r.target).map fun r => .duplicate none r.target
  | [], _, _, _ => rfl
  | r :: rest, sound, nodup, seen => by
    obtain ⟨hr, sound⟩ := List.forall_mem_cons.1 sound
    obtain ⟨hout, nodup⟩ := List.nodup_cons.1 nodup
    rw [defectAfter, (Rule.defect_eq_none_iff r).2 hr, List.find?_cons]
    dsimp only
    rcases hseen : seen.contains r.target with _ | _
    swap
    · rfl
    · -- no later rule fills the key of this one
      have hrest : ∀ q ∈ rest, (r.target :: seen).contains q.target = seen.contains q.target := by
        intro q hq
        have hne : q.target ≠ r.target := fun he => hout (he ▸ List.mem_map_of_mem hq)
        simp [hne]
      dsimp only
      rw [if_neg Bool.false_ne_true, defectAfter_eq_find? sound nodup, List.find?_congr hrest]

theorem except_bind_eq_ok_iff {ε α β : Type} {x : Except ε α} {f : α → Except ε β} {b : β} :
    (x >>= f) = .ok b ↔ ∃ a, x = .ok a ∧ f a = .ok b := by
  cases x with
  | error e => exact ⟨nofun, nofun⟩
  | ok a => exact ⟨fun h => ⟨a, rfl, h⟩, fun ⟨_, ha, h⟩ => Except.ok.inj ha ▸ h⟩

namespace Policy

variable {a b c p : Policy}

theorem eq_of_rules (h : a.rules = b.rules) : a = b := by
  cases a
  cases b
  cases h
  rfl

theorem merge_ok_iff (a b : Policy) :
    (∃ p, a.merge b = .ok p) ↔ a.targets.Disjoint b.targets := by
  have sound : ∀ r ∈ a.rules ++ b.rules, r.Sound := fun r hr =>
    (List.mem_append.1 hr).elim a.rule_sound b.rule_sound
  rw [merge, ofRules_ok_iff, acceptable_iff, firstDefect_eq_none_iff, List.map_append]
  rw [List.nodup_append']
  exact ⟨fun h => h.2.2.2, fun h => ⟨sound, a.targets_nodup, b.targets_nodup, h⟩⟩

theorem rules_of_merge (h : a.merge b = .ok p) : p.rules = a.rules ++ b.rules := rules_of_ok h

theorem targets_of_merge (h : a.merge b = .ok p) : p.targets = a.targets ++ b.targets := by
  rw [targets, rules_of_merge h, List.map_append]
  rfl

/-- The defect of the first rule of `b` that fills a key of `a`. -/
def FirstShared (a b : Policy) (d : Defect) : Prop :=
  ∃ before r after, b.rules = before ++ r :: after ∧ (∀ q ∈ before, q.target ∉ a.targets)
    ∧ r.target ∈ a.targets ∧ d = .duplicate none r.target

theorem merge_error_iff (a b : Policy) (d : Defect) :
    a.merge b = .error d ↔ FirstShared a b d := by
  rw [merge, ofRules_error_iff_firstDefect, firstDefect, defectAfter_append, ← firstDefect, a.sound,
    Option.none_or, defectAfter_eq_find? (fun _ => b.rule_sound) b.targets_nodup,
    Option.map_eq_some_iff]
  simp only [List.find?_eq_some_iff_append, List.append_nil, List.contains_eq_mem, List.mem_reverse,
    decide_eq_true_eq, Bool.not_eq_true', decide_eq_false_iff_not]
  constructor
  · rintro ⟨r, ⟨shared, before, after, split, apart⟩, rfl⟩
    exact ⟨before, r, after, split, apart, shared, rfl⟩
  · rintro ⟨before, r, after, split, apart, shared, rfl⟩
    exact ⟨r, ⟨shared, before, after, split, apart⟩, rfl⟩

theorem empty_merge (a : Policy) : empty.merge a = .ok a := ofRules_rules a

theorem merge_empty (a : Policy) : a.merge empty = .ok a := by
  rw [merge]
  simpa [empty] using ofRules_rules a

theorem merge_eq_ok_iff (a b p : Policy) : a.merge b = .ok p
    ↔ a.targets.Disjoint b.targets ∧ p.rules = a.rules ++ b.rules := by
  rw [← merge_ok_iff]
  constructor
  · exact fun h => ⟨⟨p, h⟩, rules_of_merge h⟩
  · rintro ⟨⟨q, h⟩, hrules⟩
    rw [h, eq_of_rules ((rules_of_merge h).trans hrules.symm)]

/-- What has to hold for three policies to be merged, whichever two of them are merged first. -/
structure Together (a b c p : Policy) : Prop where
  left : a.targets.Disjoint b.targets
  right : b.targets.Disjoint c.targets
  apart : a.targets.Disjoint c.targets
  rules : p.rules = a.rules ++ b.rules ++ c.rules

theorem merge_left_iff (a b c p : Policy) :
    (a.merge b >>= fun q => q.merge c) = .ok p ↔ Together a b c p := by
  rw [except_bind_eq_ok_iff]
  constructor
  · rintro ⟨q, hq, hp⟩
    obtain ⟨hdisjoint, hrules⟩ := (merge_eq_ok_iff _ _ _).1 hp
    rw [targets_of_merge hq, List.disjoint_append_left] at hdisjoint
    rw [rules_of_merge hq] at hrules
    exact ⟨((merge_eq_ok_iff _ _ _).1 hq).1, hdisjoint.2, hdisjoint.1, hrules⟩
  · rintro ⟨left, right, apart, rules⟩
    obtain ⟨q, hq⟩ := (merge_ok_iff a b).2 left
    refine ⟨q, hq, (merge_eq_ok_iff _ _ _).2 ⟨?_, rules_of_merge hq ▸ rules⟩⟩
    rw [targets_of_merge hq, List.disjoint_append_left]
    exact ⟨apart, right⟩

theorem merge_right_iff (a b c p : Policy) :
    (b.merge c >>= fun q => a.merge q) = .ok p ↔ Together a b c p := by
  rw [except_bind_eq_ok_iff]
  constructor
  · rintro ⟨q, hq, hp⟩
    obtain ⟨hdisjoint, hrules⟩ := (merge_eq_ok_iff _ _ _).1 hp
    rw [targets_of_merge hq, List.disjoint_append_right] at hdisjoint
    rw [rules_of_merge hq, ← List.append_assoc] at hrules
    exact ⟨hdisjoint.1, ((merge_eq_ok_iff _ _ _).1 hq).1, hdisjoint.2, hrules⟩
  · rintro ⟨left, right, apart, rules⟩
    obtain ⟨q, hq⟩ := (merge_ok_iff b c).2 right
    refine ⟨q, hq, (merge_eq_ok_iff _ _ _).2 ⟨?_, ?_⟩⟩
    · rw [targets_of_merge hq, List.disjoint_append_right]
      exact ⟨left, apart⟩
    · rw [rules, rules_of_merge hq, List.append_assoc]

/-- Either way of merging three policies fails, or both give the same policy. -/
theorem merge_assoc (a b c : Policy) :
    (a.merge b >>= fun q => q.merge c).toOption = (b.merge c >>= fun q => a.merge q).toOption := by
  have h (p : Policy) := (merge_left_iff a b c p).trans (merge_right_iff a b c p).symm
  generalize (a.merge b >>= fun q => q.merge c) = left at h
  generalize (b.merge c >>= fun q => a.merge q) = right at h
  cases left with
  | ok p => rw [(h p).1 rfl]
  | error d =>
    cases right with
    | ok p => cases (h p).2 rfl
    | error d' => rfl

/-- Two policies can be merged exactly if they share no key, in the one order if in the other; then the
merge has the rules of both, and else it fails for the first key shared. The empty policy adds nothing,
and three policies merge to the same or not at all, whichever two come first. -/
theorem merge_laws :
    (∀ a b : Policy, ((∃ p, a.merge b = .ok p) ↔ ∀ name ∈ a.targets, name ∉ b.targets)
        ∧ (∀ p, a.merge b = .ok p → p.rules = a.rules ++ b.rules)
        ∧ (∀ d, a.merge b = .error d ↔ FirstShared a b d)
        ∧ ((∃ p, a.merge b = .ok p) ↔ ∃ p, b.merge a = .ok p))
      ∧ (∀ a : Policy, empty.merge a = .ok a ∧ a.merge empty = .ok a)
      ∧ ∀ a b c : Policy, (a.merge b >>= fun q => q.merge c).toOption
        = (b.merge c >>= fun q => a.merge q).toOption := by
  refine ⟨fun a b => ⟨merge_ok_iff a b, fun p => rules_of_merge, merge_error_iff a b, ?_⟩,
    fun a => ⟨empty_merge a, merge_empty a⟩, merge_assoc⟩
  rw [merge_ok_iff, merge_ok_iff, List.disjoint_comm]

end Policy

end Enclosure
