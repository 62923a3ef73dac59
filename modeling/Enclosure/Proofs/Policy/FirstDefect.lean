import Mathlib.Data.List.Induction
import Mathlib.Order.Bounds.Basic
import Enclosure.Proofs.Policy.Acceptance

/-!
# Which defect is told

A search for defects goes on to what comes next only where it found nothing before, so the defect that
it tells is that of the least part of the rules that cannot be accepted (`eq_some_iff_split`). That part
ends with the rule to blame, and what the defect is follows from this rule and the keys taken before it
(`ofRules_error`). Rules that are added at the end of rejected ones do not change the answer.
-/

namespace Enclosure

/-! ## Searches from left to right -/

section Search

variable {α β : Type} {f : List α → Option β}

/-- A search that finds nothing in no items and keeps to what it found when items are added. -/
structure Search (f : List α → Option β) : Prop where
  nil : f [] = none
  append : ∀ {items : List α} {found : β} (more : List α), f items = some found →
    f (items ++ more) = some found

theorem Search.eq_some_iff_split (hf : Search f) (items : List α) (found : β) :
    f items = some found ↔ ∃ before item after, items = before ++ item :: after
      ∧ f before = none ∧ f (before ++ [item]) = some found := by
  constructor
  · intro h
    induction items using List.reverseRecOn with
    | nil => cases hf.nil.symm.trans h
    | append_singleton front last ih =>
      rcases hfront : f front with _ | found'
      · exact ⟨front, last, [], rfl, hfront, h⟩
      · -- what is found in front is found in the whole
        obtain rfl : found' = found := Option.some.inj ((hf.append [last] hfront).symm.trans h)
        obtain ⟨before, item, after, rfl, hbefore, hitem⟩ := ih hfront
        exact ⟨before, item, after ++ [last], by simp, hbefore, hitem⟩
  · rintro ⟨before, item, after, rfl, -, hitem⟩
    simpa using hf.append after hitem

end Search

/-! ## The defect of one rule -/

namespace Rule

/-- What is wrong with the name of a field that comes after others. -/
inductive FieldOffends (module : String) (before : List String) (name : String) : Defect → Prop
  | invalid (h : ¬ UsableName name) : FieldOffends module before name (.invalidName name)
  | duplicate (h : UsableName name) (hbefore : name ∈ before) :
    FieldOffends module before name (.duplicate (some module) name)

/-- What is wrong with a rule that comes after rules with the keys `taken`: the first of the following
that applies. -/
inductive Offends (taken : List String) (r : Rule) : Defect → Prop
  | target (h : ¬ UsableName r.target) : Offends taken r (.invalidName r.target)
  | noNames (usable : UsableName r.target) (copies : r.copies) (h : r.names = []) :
    Offends taken r (.noNames r.target)
  /-- The first field that offends. -/
  | field (usable : UsableName r.target) {before : List String} {name : String} {after : List String}
    {d : Defect} (split : r.names = before ++ name :: after)
    (before_usable : ∀ name ∈ before, UsableName name) (before_nodup : before.Nodup)
    (h : FieldOffends r.target before name d) : Offends taken r d
  /-- Nothing is wrong with the rule by itself. -/
  | taken (sound : Acceptable [r]) (h : r.target ∈ taken) :
    Offends taken r (.duplicate none r.target)

theorem namesDefect_append (module : String) : ∀ seen names more : List String,
    namesDefect module seen (names ++ more)
      = (namesDefect module seen names).or (namesDefect module (names.reverse ++ seen) more)
  | _, [], _ => rfl
  | seen, name :: rest, more => by
    rw [List.cons_append, namesDefect, namesDefect, namesDefect_append module (name :: seen)]
    split_ifs <;> simp

theorem namesDefect_search (module : String) : Search (namesDefect module []) where
  nil := rfl
  append more h := by rw [namesDefect_append, h, Option.some_or]

theorem namesDefect_singleton_iff (module : String) (before : List String) (name : String)
    (d : Defect) :
    namesDefect module before.reverse [name] = some d ↔ FieldOffends module before name d := by
  have hvalid := validName_iff name
  rw [namesDefect]
  constructor
  · intro h
    split_ifs at h with hbad hseen
    · obtain rfl := Option.some.inj h
      exact .invalid (by simpa [← hvalid] using hbad)
    · obtain rfl := Option.some.inj h
      exact .duplicate (by simpa [← hvalid] using hbad) (by simpa using hseen)
    · cases h
  · intro h
    cases h with
    | invalid h => rw [if_pos (by simpa [← hvalid] using h)]
    | duplicate h hbefore =>
      rw [if_neg (by simpa [← hvalid] using h), if_pos (by simpa using hbefore)]

theorem namesDefect_eq_some_iff (module : String) (names : List String) (d : Defect) :
    namesDefect module [] names = some d ↔ ∃ before name after, names = before ++ name :: after
      ∧ ((∀ name ∈ before, UsableName name) ∧ before.Nodup) ∧ FieldOffends module before name d := by
  rw [(namesDefect_search module).eq_some_iff_split]
  refine exists_congr fun before => exists_congr fun name => exists_congr fun after =>
    and_congr_right fun _ => ?_
  rw [namesDefect_append, List.append_nil]
  constructor
  · rintro ⟨hnone, h⟩
    obtain ⟨valid, nodup, -⟩ := (namesDefect_eq_none_iff _ _ _).1 hnone
    rw [hnone, Option.none_or, namesDefect_singleton_iff] at h
    exact ⟨⟨fun name hname => (validName_iff name).1 (valid name hname), nodup⟩, h⟩
  · rintro ⟨⟨usable, nodup⟩, h⟩
    have hnone : namesDefect module [] before = none := (namesDefect_eq_none_iff _ _ _).2
      ⟨fun name hname => (validName_iff name).2 (usable name hname), nodup, by simp⟩
    rw [hnone, Option.none_or, namesDefect_singleton_iff]
    exact ⟨rfl, h⟩

theorem fieldsDefect_eq_some_iff (module : String) (names : List String) (d : Defect) :
    fieldsDefect module names = some d ↔ (names = [] ∧ d = .noNames module)
      ∨ ∃ before name after, names = before ++ name :: after
        ∧ ((∀ name ∈ before, UsableName name) ∧ before.Nodup) ∧ FieldOffends module before name d := by
  rw [fieldsDefect, ← namesDefect_eq_some_iff]
  cases names with
  | nil => simp [namesDefect, eq_comm]
  | cons name rest => simp

theorem defect_eq (r : Rule) : r.defect = if !validName r.target then some (.invalidName r.target)
    else if r.copies then fieldsDefect r.target r.names else none := by
  cases r <;> rfl

theorem names_eq_nil {r : Rule} (h : r.copies = false) : r.names = [] := by
  cases r with
  | bare name => rfl
  | library module names | native module names => cases h

theorem defect_eq_some_iff (r : Rule) (d : Defect) : r.defect = some d ↔
    (¬ UsableName r.target ∧ d = .invalidName r.target)
      ∨ UsableName r.target ∧ ((r.copies ∧ r.names = [] ∧ d = .noNames r.target)
        ∨ ∃ before name after, r.names = before ++ name :: after
          ∧ ((∀ name ∈ before, UsableName name) ∧ before.Nodup)
          ∧ FieldOffends r.target before name d) := by
  have hvalid := validName_iff r.target
  rw [defect_eq]
  split_ifs with hbad hcopies
  · have hbad : ¬ UsableName r.target := by simpa [← hvalid] using hbad
    refine ⟨fun h => .inl ⟨hbad, (Option.some.inj h).symm⟩, ?_⟩
    rintro (⟨-, rfl⟩ | ⟨husable, -⟩)
    · rfl
    · exact absurd husable hbad
  · have husable : UsableName r.target := by simpa [← hvalid] using hbad
    simp [husable, hcopies, fieldsDefect_eq_some_iff]
  · have husable : UsableName r.target := by simpa [← hvalid] using hbad
    have hnames : r.names = [] := names_eq_nil (by simpa using hcopies)
    simp [husable, hcopies, hnames]

/-- A rule has a defect by itself, or only its key is taken. -/
theorem offends_iff (taken : List String) (r : Rule) (d : Defect) : r.Offends taken d ↔
    r.defect = some d
      ∨ r.defect = none ∧ r.target ∈ taken ∧ d = .duplicate none r.target := by
  have hnone : r.defect = none ↔ Acceptable [r] := by
    rw [acceptable_iff, firstDefect_eq_none_iff, defect_eq_none_iff]
    simp
  rw [defect_eq_some_iff, hnone]
  constructor
  · intro h
    cases h with
    | target h => exact .inl (.inl ⟨h, rfl⟩)
    | noNames usable copies h => exact .inl (.inr ⟨usable, .inl ⟨copies, h, rfl⟩⟩)
    | field usable split before_usable before_nodup h =>
      exact .inl (.inr ⟨usable, .inr ⟨_, _, _, split, ⟨before_usable, before_nodup⟩, h⟩⟩)
    | taken sound h => exact .inr ⟨sound, h, rfl⟩
  · rintro ((⟨h, rfl⟩ | ⟨usable, ⟨copies, h, rfl⟩ | ⟨_, _, _, split, ⟨before_usable, before_nodup⟩, h⟩⟩)
      | ⟨sound, h, rfl⟩)
    · exact .target h
    · exact .noNames usable copies h
    · exact .field usable split before_usable before_nodup h
    · exact .taken sound h

end Rule

/-! ## The defect of a list -/

theorem defectAfter_append : ∀ (seen : List String) (rules more : List Rule),
    defectAfter seen (rules ++ more) = (defectAfter seen rules).or
      (defectAfter ((rules.map Rule.target).reverse ++ seen) more)
  | _, [], _ => rfl
  | seen, r :: rest, more => by
    rw [List.cons_append, defectAfter, defectAfter]
    cases r.defect with
    | some d => rfl
    | none =>
      dsimp only
      rw [defectAfter_append (r.target :: seen)]
      split_ifs <;> simp

theorem firstDefect_search : Search firstDefect where
  nil := rfl
  append more h := by rw [firstDefect, defectAfter_append, ← firstDefect, h, Option.some_or]

theorem firstDefect_append_singleton {before : List Rule} (h : Acceptable before) (r : Rule)
    (d : Defect) :
    firstDefect (before ++ [r]) = some d ↔ r.Offends (before.map Rule.target) d := by
  have hnone := (acceptable_iff before).1 h
  rw [firstDefect, defectAfter_append, ← firstDefect, hnone, Option.none_or, List.append_nil,
    Rule.offends_iff, defectAfter]
  cases r.defect with
  | some d' => simp
  | none => simp [defectAfter, eq_comm]

/-- The least number of a rule up to which the rules are not acceptable. -/
def FirstUnacceptable (rules : List Rule) (i : Nat) : Prop :=
  IsLeast {i | i < rules.length ∧ ¬ Acceptable (rules.take (i + 1))} i

theorem Acceptable.take {rules more : List Rule} (h : Acceptable (rules ++ more)) :
    Acceptable rules := by
  rw [acceptable_iff] at h ⊢
  by_contra hne
  obtain ⟨d, hd⟩ := Option.ne_none_iff_exists'.1 hne
  cases h.symm.trans (firstDefect_search.append more hd)

namespace FirstUnacceptable

theorem of_split {before : List Rule} {r : Rule} (after : List Rule) (h : Acceptable before)
    (hr : ¬ Acceptable (before ++ [r])) :
    FirstUnacceptable (before ++ r :: after) before.length := by
  refine ⟨⟨by simp, by simpa [List.take_length_add_append] using hr⟩, fun j hj => ?_⟩
  by_contra hlt
  -- a part of acceptable rules is acceptable
  refine hj.2 ?_
  rw [List.take_append_of_le_length (by omega)]
  rw [← List.take_append_drop (j + 1) before] at h
  exact h.take

theorem before {rules : List Rule} {i : Nat} (h : FirstUnacceptable rules i) :
    Acceptable (rules.take i) := by
  cases i with
  | zero => exact (acceptable_iff []).2 rfl
  | succ j =>
    by_contra hne
    have := h.2 ⟨Nat.lt_of_succ_lt h.1.1, hne⟩
    omega

end FirstUnacceptable

/-- The defect of rules is that of the first rule up to which they are not acceptable. -/
theorem firstDefect_eq_some_iff (rules : List Rule) (d : Defect) : firstDefect rules = some d
    ↔ ∃ i r, FirstUnacceptable rules i ∧ rules[i]? = some r
      ∧ r.Offends ((rules.take i).map Rule.target) d := by
  constructor
  · intro h
    obtain ⟨before, r, after, rfl, hbefore, hr⟩ := (firstDefect_search.eq_some_iff_split _ _).1 h
    have acceptable := (acceptable_iff before).2 hbefore
    refine ⟨before.length, r, .of_split after acceptable fun h => ?_, by simp, ?_⟩
    · cases hr.symm.trans ((acceptable_iff _).1 h)
    · simpa using (firstDefect_append_singleton acceptable r d).1 hr
  · rintro ⟨i, r, least, hr, offends⟩
    have acceptable := least.before
    obtain ⟨hi, rfl⟩ := List.getElem?_eq_some_iff.1 hr
    refine (firstDefect_search.eq_some_iff_split _ _).2 ⟨rules.take i, rules[i], rules.drop (i + 1),
      by simp, (acceptable_iff _).1 acceptable, ?_⟩
    exact (firstDefect_append_singleton acceptable _ d).2 offends

namespace Policy

theorem ofRules_error_iff_firstDefect (rules : List Rule) (d : Defect) :
    ofRules rules = .error d ↔ firstDefect rules = some d := by
  unfold ofRules
  split <;> simp_all

/-- What rejected rules are rejected for is the defect of the rule at the least place up to which they
are not acceptable: the first that applies to the rule and the keys of those before it. There is such a
place in all rules that are rejected, and rules that come after it change nothing. -/
theorem ofRules_error (rules : List Rule) :
    (∀ d, ofRules rules = .error d ↔ ∃ i r, FirstUnacceptable rules i ∧ rules[i]? = some r
        ∧ r.Offends ((rules.take i).map Rule.target) d)
      ∧ ((¬ ∃ p, ofRules rules = .ok p) → ∃ i, FirstUnacceptable rules i)
      ∧ ∀ d more, ofRules rules = .error d → ofRules (rules ++ more) = .error d := by
  simp only [ofRules_error_iff_firstDefect]
  refine ⟨firstDefect_eq_some_iff rules, fun h => ?_, fun d more => firstDefect_search.append more⟩
  rw [ofRules_ok_iff, acceptable_iff] at h
  obtain ⟨d, hd⟩ := Option.ne_none_iff_exists'.1 h
  obtain ⟨i, -, least, -⟩ := (firstDefect_eq_some_iff rules d).1 hd
  exact ⟨i, least⟩

/-- A field that is no name is told before the field that is there twice and the key that is taken. -/
example : ofRules [.bare "os", .library "os" ["time", "a b", "time"], .bare ""]
    = .error (.invalidName "a b") := by
  rw [ofRules_error_iff_firstDefect]
  decide +kernel

end Policy

end Enclosure
