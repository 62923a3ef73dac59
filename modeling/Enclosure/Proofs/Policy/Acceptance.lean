import Enclosure.Policy.File
import Enclosure.Proofs.Policy.Sound

/-!
# Which rules are a policy

A list of rules is taken as a policy exactly if it is `Acceptable`: a condition on the names and targets
alone, which says nothing of the order in which they are looked at. Every policy that can be made has
acceptable rules, also where no search for defects was made (`ofRules_ok_iff`).
-/

namespace Enclosure

/-- A name that can be a key: it is not empty and has neither blanks nor controls. -/
def UsableName (name : String) : Prop :=
  name ≠ "" ∧ ∀ c ∈ name.toList, isBlank c = false ∧ isControl c = false

theorem validName_iff (name : String) : validName name ↔ UsableName name := by
  simp [validName, UsableName]

namespace Rule

/-- The same rule with the fields that it copies in some other order. -/
inductive Reorders : Rule → Rule → Prop
  | bare (name : String) : Reorders (.bare name) (.bare name)
  | library (module : String) {names names' : List String} (h : names.Perm names') :
    Reorders (.library module names) (.library module names')
  | native (module : String) {names names' : List String} (h : names.Perm names') :
    Reorders (.native module names) (.native module names')

variable {r r' : Rule}

theorem Reorders.target_eq (h : Reorders r r') : r'.target = r.target := by
  cases h <;> rfl

theorem Reorders.symm (h : Reorders r r') : Reorders r' r := by
  cases h with
  | bare name => exact .bare name
  | library module h => exact .library module h.symm
  | native module h => exact .native module h.symm

end Rule

/-- The same rules in some other order, each with its fields in some other order. -/
def Rearranges (rules rules' : List Rule) : Prop :=
  ∃ between, rules.Perm between ∧ List.Forall₂ Rule.Reorders between rules'

/-- Rules that can be carried out without one undoing another. -/
structure Acceptable (rules : List Rule) : Prop where
  target : ∀ r ∈ rules, UsableName r.target
  /-- The table of a module, native or not, gets at least one field, and none twice. -/
  fields : ∀ module names, .library module names ∈ rules ∨ .native module names ∈ rules →
    names ≠ [] ∧ (∀ name ∈ names, UsableName name) ∧ names.Nodup
  /-- No two rules fill the same key, whatever their kinds. -/
  distinct : (rules.map Rule.target).Nodup

theorem Rule.sound_iff (r : Rule) : r.Sound ↔ UsableName r.target
    ∧ ∀ module names, r = .library module names ∨ r = .native module names →
      names ≠ [] ∧ (∀ name ∈ names, UsableName name) ∧ names.Nodup := by
  simp only [← validName_iff]
  constructor
  · rintro ⟨target, some_names, nodup, valid⟩
    refine ⟨target, fun module names h => ?_⟩
    rcases h with rfl | rfl <;> exact ⟨some_names rfl, valid, nodup⟩
  · rintro ⟨target, fields⟩
    rcases r with name | ⟨module, names⟩ | ⟨module, names⟩
    · exact ⟨target, by simp [copies], by simp [names], by simp [names]⟩
    · obtain ⟨some_names, valid, nodup⟩ := fields module names (.inl rfl)
      exact ⟨target, fun _ => some_names, nodup, valid⟩
    · obtain ⟨some_names, valid, nodup⟩ := fields module names (.inr rfl)
      exact ⟨target, fun _ => some_names, nodup, valid⟩

theorem acceptable_iff (rules : List Rule) : Acceptable rules ↔ firstDefect rules = none := by
  simp only [firstDefect_eq_none_iff, Rule.sound_iff]
  constructor
  · intro h
    refine ⟨fun r hr => ⟨h.target r hr, fun module names he => h.fields module names ?_⟩, h.distinct⟩
    rcases he with rfl | rfl
    · exact .inl hr
    · exact .inr hr
  · rintro ⟨sound, distinct⟩
    refine ⟨fun r hr => (sound r hr).1, fun module names h => ?_, distinct⟩
    rcases h with h | h
    · exact (sound _ h).2 module names (.inl rfl)
    · exact (sound _ h).2 module names (.inr rfl)

/-! ## Order -/

section Order

variable {rules rules' : List Rule}

theorem Acceptable.perm (h : Acceptable rules) (hp : rules.Perm rules') : Acceptable rules' where
  target r hr := h.target r (hp.mem_iff.2 hr)
  fields module names hm := h.fields module names (hm.imp hp.mem_iff.2 hp.mem_iff.2)
  distinct := (hp.map Rule.target).nodup_iff.1 h.distinct

theorem mem_of_reorders (h : List.Forall₂ Rule.Reorders rules rules') {r' : Rule} (hr : r' ∈ rules') :
    ∃ r ∈ rules, r.Reorders r' := by
  induction h with
  | nil => cases hr
  | @cons q q' rest rest' hq _ ih =>
    rcases List.mem_cons.1 hr with rfl | hr
    · exact ⟨q, List.mem_cons_self .., hq⟩
    · obtain ⟨r, hmem, hreorders⟩ := ih hr
      exact ⟨r, List.mem_cons_of_mem _ hmem, hreorders⟩

theorem targets_of_reorders (h : List.Forall₂ Rule.Reorders rules rules') :
    rules'.map Rule.target = rules.map Rule.target := by
  induction h with
  | nil => rfl
  | cons hq _ ih => rw [List.map_cons, List.map_cons, hq.target_eq, ih]

theorem Acceptable.reorders (h : Acceptable rules) (hr : List.Forall₂ Rule.Reorders rules rules') :
    Acceptable rules' where
  target r' hmem := by
    obtain ⟨r, hmem, hreorders⟩ := mem_of_reorders hr hmem
    exact hreorders.target_eq ▸ h.target r hmem
  fields module names hmem := by
    have carried : ∀ {names₀ : List String}, names₀.Perm names →
        names₀ ≠ [] ∧ (∀ name ∈ names₀, UsableName name) ∧ names₀.Nodup →
          names ≠ [] ∧ (∀ name ∈ names, UsableName name) ∧ names.Nodup := by
      rintro names₀ hp ⟨some_names, usable, nodup⟩
      exact ⟨fun he => some_names (he ▸ hp).eq_nil, fun name hn => usable name (hp.mem_iff.2 hn),
        hp.nodup_iff.1 nodup⟩
    rcases hmem with hmem | hmem
    · obtain ⟨r, hr, hreorders⟩ := mem_of_reorders hr hmem
      cases hreorders with
      | library _ hp => exact carried hp (h.fields _ _ (.inl hr))
    · obtain ⟨r, hr, hreorders⟩ := mem_of_reorders hr hmem
      cases hreorders with
      | native _ hp => exact carried hp (h.fields _ _ (.inr hr))
  distinct := targets_of_reorders hr ▸ h.distinct

theorem Rearranges.acceptable_iff (h : Rearranges rules rules') :
    Acceptable rules ↔ Acceptable rules' := by
  obtain ⟨between, hp, hr⟩ := h
  have hback : List.Forall₂ Rule.Reorders rules' between :=
    (List.Forall₂.imp (fun _ _ h => Rule.Reorders.symm h) hr.flip)
  exact ⟨fun h => (h.perm hp).reorders hr, fun h => (h.reorders hback).perm hp.symm⟩

end Order

/-! ## Making policies -/

namespace Policy

theorem rules_of_ok {rules : List Rule} {p : Policy} (h : ofRules rules = .ok p) : p.rules = rules := by
  unfold ofRules at h
  split at h
  · obtain rfl := Except.ok.inj h
    rfl
  · cases h

theorem ofRules_ok_iff (rules : List Rule) : (∃ p, ofRules rules = .ok p) ↔ Acceptable rules := by
  rw [acceptable_iff]
  constructor
  · rintro ⟨p, h⟩
    exact rules_of_ok h ▸ p.sound
  · exact fun h => ⟨⟨rules, h⟩, ofRules_rules ⟨rules, h⟩⟩

/-- One call on a draft. -/
inductive Draft.Call
  | bare (name : String)
  | bares (names : List String)
  | library (module : String) (names : List String)
  | native (module : String) (names : List String)
  | rule (r : Rule)

def Draft.call (d : Draft) : Call → Draft
  | .bare name => d.bare name
  | .bares names => d.bares names
  | .library module names => d.library module names
  | .native module names => d.native module names
  | .rule r => d.rule r

/-- The rules that a call adds. -/
def Draft.Call.rules : Call → List Rule
  | .bare name => [.bare name]
  | .bares names => names.map .bare
  | .library module names => [.library module names]
  | .native module names => [.native module names]
  | .rule r => [r]

theorem Draft.rules_call (d : Draft) (c : Draft.Call) : (d.call c).rules = d.rules ++ c.rules := by
  cases c <;> rfl

/-- A draft has the rules of the calls made on it, in the order of the calls. -/
theorem Draft.rules_calls : ∀ (calls : List Draft.Call) (d : Draft),
    (calls.foldl Draft.call d).rules = d.rules ++ calls.flatMap Draft.Call.rules
  | [], d => by simp
  | c :: rest, d => by
    rw [List.foldl_cons, rules_calls rest, rules_call, List.flatMap_cons, List.append_assoc]

/-- The rules that a text holds, if it is a document with rules. -/
def documentRules? (source : String) : Option (List Rule) := do
  let es ← Toml.Reader.document source
  (rulesOfData (Toml.Node.entriesData es)).toOption

theorem documentRules?_of_parse {source : String} {p : Policy} (h : parse source = .ok p) :
    documentRules? source = some p.rules := by
  unfold parse at h
  split at h
  swap
  · cases h
  rename_i q hread
  obtain rfl := Except.ok.inj h
  unfold Policy.read at hread
  unfold documentRules?
  rcases hes : Toml.Reader.document source with _ | es <;> rw [hes] at hread
  · cases hread
  dsimp only at hread
  rcases hrules : rulesOfData (Toml.Node.entriesData es) with e | rules <;> rw [hrules] at hread
  · cases hread
  dsimp only at hread
  split at hread
  · rename_i p' hp
    obtain rfl := Except.ok.inj hread
    simp [hrules, Except.toOption, rules_of_ok hp]
  · cases hread

/-- The policies that can be made, with the rules that were given for them. -/
inductive Made : List Rule → Policy → Prop
  | ofRules {rules : List Rule} {p : Policy} (h : ofRules rules = .ok p) : Made rules p
  | build {calls : List Draft.Call} {p : Policy} (h : (calls.foldl Draft.call {}).build = .ok p) :
    Made (calls.flatMap Draft.Call.rules) p
  | standard : Made standardRules standard
  | empty : Made [] empty
  | parse {source : String} {rules : List Rule} {p : Policy}
    (held : documentRules? source = some rules) (h : parse source = .ok p) : Made rules p
  | merge {rules rules' : List Rule} {a b p : Policy} (ha : Made rules a) (hb : Made rules' b)
    (h : a.merge b = .ok p) : Made (rules ++ rules') p

theorem Made.rules_eq {rules : List Rule} {p : Policy} (h : Made rules p) : p.rules = rules := by
  induction h with
  | ofRules h => exact rules_of_ok h
  | @build calls p h => exact (rules_of_ok h).trans (by simp [Draft.rules_calls])
  | standard | empty => rfl
  | parse held h => exact Option.some.inj ((documentRules?_of_parse h).symm.trans held)
  | merge _ _ h iha ihb => exact (rules_of_ok h).trans (by rw [iha, ihb])

/-- A list of rules is a policy exactly if it is acceptable, and then the policy has those rules in that
order; so neither the order of rules nor that of the fields in them matters. Whichever way a policy was
made, the rules given for it are acceptable. -/
theorem accepts_exactly_acceptable :
    (∀ rules, (∃ p, ofRules rules = .ok p) ↔ Acceptable rules)
      ∧ (∀ rules p, ofRules rules = .ok p → p.rules = rules)
      ∧ (∀ rules p, Made rules p → p.rules = rules ∧ Acceptable rules)
      ∧ ∀ rules rules', Rearranges rules rules' →
        ((∃ p, ofRules rules = .ok p) ↔ ∃ p, ofRules rules' = .ok p) := by
  refine ⟨ofRules_ok_iff, fun _ _ => rules_of_ok, fun rules p made => ?_, fun rules rules' h => ?_⟩
  · have hrules := made.rules_eq
    exact ⟨hrules, (acceptable_iff _).2 (hrules ▸ p.sound)⟩
  · rw [ofRules_ok_iff, ofRules_ok_iff, h.acceptable_iff]

end Policy

end Enclosure
