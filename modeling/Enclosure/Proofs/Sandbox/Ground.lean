import Enclosure.Lua.State
import Enclosure.Policy
import Enclosure.Proofs.Confinement.Harmless
import Enclosure.Proofs.Lua.Fresh

/-!
# The ground of a sandbox

The state that a sandbox is built on has every value that the standard policy names, and each of them
is plain or a harmless function. So its scripts can be confined to a zone that has none of the tables
that are there: what they hold is made by them or for them (`zone_sound`, `zone_serves`).
-/

namespace Enclosure.Sandbox

open Lua

variable {s s' : Store} {f : FuncId} {v : Value} {t m lib e : TableId} {tables : List TableId}
  {names : List String}

/-! ## What the policy names -/

/-- A harmless function of the library that holds at most harmless functions that hold nothing. -/
structure Harmless (s : Store) (f : FuncId) (b : Builtin) (captured : Array Value) : Prop where
  harmless : b.harmless
  offers : s.Offers f b captured
  captured : ∀ v ∈ captured.toList, s.Gives (·.harmless) [] v

/-- A value that a policy may hand out: a plain one that is there, or a harmless function. -/
inductive Grants (s : Store) : Value → Prop
  | plain {v : Value} (h : v.isPlain) (hn : v.isNil = false) : Grants s v
  | func {f : FuncId} {b : Builtin} {captured : Array Value} (h : Harmless s f b captured) :
    Grants s (.func f)

/-- Whether a store has what a rule names. -/
def Granted (s : Store) : Rule → Prop
  | .bare name => Grants s (s.rawGet s.globals (.text name))
  | .library module names => ∃ t, s.rawGet s.loaded (.text module) = .table t
    ∧ t.index < s.tables.size ∧ t ∉ [s.globals, s.loaded] ∧ (s.table t).metatable = none
    ∧ ∀ name ∈ names, Grants s (s.rawGet t (.text name))
  | .native .. => False

/-- What the standard policy and the confinement of scripts need of a store. -/
structure Ground (s : Store) : Prop where
  granted : ∀ r ∈ Policy.standardRules, Granted s r
  /-- The function that gives texts holds nothing. -/
  toText : s.Gives (·.harmless) [] (s.rawGet s.globals (.text "tostring"))
  modules : Fresh.Modules s s.globals s.loaded Fresh.modules
  require : Fresh.Requires s s.globals
  strings : ∃ m t, Fresh.Strings s m t ∧ m ∉ [s.globals, s.loaded] ∧ t ∉ [s.globals, s.loaded]
  failures : ∃ m, Fresh.Failures s m ∧ m ∉ [s.globals, s.loaded]
  globals_lt : s.globals.index < s.tables.size
  loaded_lt : s.loaded.index < s.tables.size
  loaded_bare : (s.table s.loaded).metatable = none
  cells : s.cells = #[]

theorem Grants.isNil (h : Grants s v) : v.isNil = false := by
  cases h with
  | plain _ hn => exact hn
  | func _ => rfl

theorem grants_of_offers {b : Builtin} (h : s.Offers f b #[]) (hb : b.harmless) :
    Grants s (.func f) := .func ⟨hb, h, fun _ hv => nomatch hv⟩

theorem Grants.extend (h : Grants s v) (he : s.Extends tables names s') : Grants s' v := by
  cases h with
  | plain h hn => exact .plain h hn
  | func h => exact .func ⟨h.harmless, h.offers.extend he, fun v hv => (h.captured v hv).extend he⟩

/-- Whether a function under a name is harmless. -/
def Stocked (shelf : Library.Names) (name : String) : Prop :=
  ∃ p ∈ shelf, p.1 = name ∧ p.2.harmless

instance (shelf : Library.Names) (name : String) : Decidable (Stocked shelf name) :=
  inferInstanceAs (Decidable (∃ p ∈ shelf, p.1 = name ∧ p.2.harmless))

theorem grants_of_stocks {shelf : Library.Names} (h : s.Stocks t shelf) {name : String}
    (hs : Stocked shelf name) : Grants s (s.rawGet t (.text name)) := by
  obtain ⟨⟨_, b⟩, hmem, rfl, hb⟩ := hs
  obtain ⟨f, hget, hf⟩ := h.get _ b hmem
  exact hget ▸ grants_of_offers hf hb

theorem granted_library {module : String} {shelf : Library.Names}
    (h : Fresh.Module s s.globals s.loaded module shelf t)
    (hnames : ∀ name ∈ names, Grants s (s.rawGet t (.text name))) :
    Granted s (.library module names) :=
  ⟨t, h.get, h.stocks.lt, h.own, h.bare, hnames⟩

/-- A function that begins an iteration holds the one that carries it on. -/
theorem granted_iterator {name : String} {b b' : Builtin} {g : FuncId}
    (h : ∃ f, s.rawGet s.globals (.text name) = .func f ∧ s.Offers f b #[.func g]) (hb : b.harmless)
    (hg : s.Offers g b' #[]) (hb' : b'.harmless) : Granted s (.bare name) := by
  obtain ⟨f, hget, hf⟩ := h
  show Grants s (s.rawGet s.globals (.text name))
  rw [hget]
  refine .func ⟨hb, hf, fun v hv => ?_⟩
  obtain rfl := List.mem_singleton.1 hv
  exact .func hb' hg

theorem ground_fresh (around : Surroundings) : Ground (State.fresh around).store := by
  have furnished := Fresh.store_furnished around
  unfold State.fresh
  generalize Fresh.store around = s at furnished
  have bare {name : String} (h : Stocked Library.globals name) : Granted s (.bare name) :=
    grants_of_stocks furnished.globals h
  have library {module : String} (shelf : Library.Names) {names : List String}
      (hmem : (module, shelf) ∈ Fresh.modules) (hnames : ∀ name ∈ names, Stocked shelf name) :
      Granted s (.library module names) := by
    obtain ⟨t, loaded⟩ := furnished.modules module shelf hmem
    exact granted_library loaded fun name hn => grants_of_stocks loaded.stocks (hnames name hn)
  obtain ⟨next, step, iteration⟩ := furnished.iteration
  obtain ⟨toText, hget, offers⟩ :=
    furnished.globals.get "tostring" (.base .toString) (by decide)
  refine ⟨fun r hr => ?_, hget ▸ .func rfl offers, furnished.modules, furnished.require,
    furnished.strings, furnished.failures, furnished.globals.lt, furnished.loaded_lt,
    furnished.loaded_bare, furnished.cells⟩
  simp only [Policy.standardRules, List.mem_cons, List.not_mem_nil, or_false] at hr
  -- only functions that iterate hold something, and only the numbers in `math` are no functions
  rcases hr with rfl | rfl | rfl | rfl | rfl | rfl | rfl | rfl | rfl | rfl
  · exact granted_iterator iteration.pairs rfl iteration.nextFunction.2 rfl
  · exact granted_iterator iteration.ipairs rfl iteration.stepFunction rfl
  · exact bare (by decide)
  · exact bare (by decide)
  · exact bare (by decide)
  · exact bare (by decide)
  · exact library Library.table (by simp [Fresh.modules]) (by decide)
  · obtain ⟨t, loaded⟩ := furnished.modules "math" Library.math (by simp [Fresh.modules])
    obtain ⟨t', hget, constants⟩ := furnished.constants
    obtain rfl := Value.table.inj (hget.symm.trans loaded.get)
    refine granted_library loaded fun name hn => ?_
    have hname : name = "huge" ∨ name = "pi" ∨ Stocked Library.math name := by
      revert name
      decide
    rcases hname with rfl | rfl | hname
    · exact constants.huge ▸ .plain rfl rfl
    · exact constants.pi ▸ .plain rfl rfl
    · exact grants_of_stocks loaded.stocks hname
  · exact library Library.os (by simp [Fresh.modules]) (by decide)
  · exact library Library.string (by simp [Fresh.modules]) (by decide)

/-- A ground stays one if nothing but the function that prints changes among what is there. -/
theorem Ground.extend (h : Ground s) (he : s.Builds [s.globals] ["print"] s')
    (hp : Grants s' (s'.rawGet s'.globals (.text "print"))) : Ground s' := by
  have wide : s.Extends [s.globals, s.loaded] ["print"] s' := he.toExtends.mono (by simp) (by simp)
  have field {name : String} (hn : name ≠ "print") :
      s'.rawGet s'.globals (.text name) = s.rawGet s.globals (.text name) := by
    rw [he.globals]
    exact he.field _ h.globals_lt _ (by simpa using hn)
  have loaded {name : String} (hn : name ≠ "print") :
      s'.rawGet s'.loaded (.text name) = s.rawGet s.loaded (.text name) := by
    rw [he.loaded]
    exact he.field _ h.loaded_lt _ (by simpa using hn)
  have own {t : TableId} (ht : t ∉ [s.globals, s.loaded]) : t ∉ [s.globals] := fun hm =>
    ht (List.mem_cons.2 (.inl (List.mem_singleton.1 hm)))
  constructor
  case granted =>
    intro r hr
    -- only one rule of the policy can tell that the function that prints is another one
    have printing : r.target = "print" → r = .bare "print" := by
      revert r
      decide
    by_cases hn : r.target = "print"
    · exact printing hn ▸ hp
    have hgranted := h.granted r hr
    cases r with
    | bare name =>
      show Grants s' (s'.rawGet s'.globals (.text name))
      exact field hn ▸ hgranted.extend he.toExtends
    | library module names =>
      obtain ⟨t, hget, hlt, ht, bare, hnames⟩ := hgranted
      refine ⟨t, (loaded hn).trans hget, Nat.lt_of_lt_of_le hlt he.tables_size, ?_,
        (he.metatable t hlt).trans bare, fun name hname => ?_⟩
      · rw [he.globals, he.loaded]
        exact ht
      · rw [he.get hlt (.inl (own ht))]
        exact (hnames name hname).extend he.toExtends
    | native module names => exact hgranted
  case toText =>
    rw [field (by decide : "tostring" ≠ "print")]
    exact h.toText.extend he.toExtends
  case modules =>
    rw [he.globals, he.loaded]
    intro name shelf hmem
    obtain ⟨t, module⟩ := h.modules name shelf hmem
    have hname : name ≠ "print" := by
      have listed : name ∈ Fresh.modules.map Prod.fst := List.mem_map_of_mem hmem
      rintro rfl
      exact absurd listed (by decide)
    exact ⟨t, module.extend wide h.loaded_lt (by simpa using hname)⟩
  case require =>
    obtain ⟨f, captured, hget, hf⟩ := h.require
    exact ⟨f, captured, (field (by decide)).trans hget, hf.extend he.toExtends⟩
  case strings =>
    obtain ⟨m, t, strings, hm, ht⟩ := h.strings
    rw [he.globals, he.loaded]
    exact ⟨m, t, strings.extend he.toExtends (own hm) (own ht) he.stringMeta, hm, ht⟩
  case failures =>
    obtain ⟨m, failures, hm⟩ := h.failures
    rw [he.globals, he.loaded]
    exact ⟨m, ⟨he.failureMeta.trans failures.failureMeta, failures.events.extend he.toExtends (own hm)⟩,
      hm⟩
  case globals_lt => exact he.globals ▸ Nat.lt_of_lt_of_le h.globals_lt he.tables_size
  case loaded_lt => exact he.loaded ▸ Nat.lt_of_lt_of_le h.loaded_lt he.tables_size
  case loaded_bare => exact he.loaded ▸ (he.metatable _ h.loaded_lt).trans h.loaded_bare
  case cells => exact he.cells.trans h.cells

/-! ## The zone -/

open scoped Classical in
/-- The zone of scripts in a sandbox. They have none of the tables that are there, and of the functions
those that the policy may hand out. What strings and errors of the host answer to is locked, with the
library of strings behind it. -/
noncomputable def zone (s : Store) (m lib e : TableId) : Zone where
  base := s
  tables := []
  functions := ((List.range s.functions.size).map FuncId.mk).filter fun f =>
    ∃ b captured, Harmless s f b captured
  locks := [m, e]
  windows := []
  behind := [lib]
  gates := []
  allows b := b.harmless
  closures := True

open scoped Classical in
theorem mem_functions : f ∈ (zone s m lib e).functions ↔ ∃ b captured, Harmless s f b captured := by
  refine List.mem_filter.trans ⟨fun h => of_decide_eq_true h.2, fun h => ⟨?_, decide_eq_true h⟩⟩
  obtain ⟨b, captured, h⟩ := h
  exact List.mem_map.2 ⟨f.index, List.mem_range.2 h.offers.lt, rfl⟩

theorem public_of_grants (h : Grants s v) : (zone s m lib e).Public v := by
  cases h with
  | plain h _ => exact Zone.public_of_isPlain h
  | func h => exact .inr (mem_functions.2 ⟨_, _, h⟩)

theorem public_of_gives {kind : Builtin → Prop} (h : s.Gives kind [] v)
    (hkind : ∀ b, kind b → b.harmless) : (zone s m lib e).Public v := by
  cases h with
  | plain h => exact Zone.public_of_isPlain h
  | table h => cases h
  | func hb h => exact public_of_grants (grants_of_offers h (hkind _ hb))

/-- Scripts have no table that was there. -/
theorem table_hidden (ht : t.index < s.tables.size) : ¬ (zone s m lib e).Public (.table t) := by
  rintro (h | h)
  · exact Nat.not_lt_of_le h ht
  · cases h

theorem function_hidden {b : Builtin} {captured : Array Value} (h : s.Offers f b captured)
    (hb : b.harmless = false) : ¬ (zone s m lib e).Public (.func f) := by
  rintro (hf | hf)
  · exact Nat.not_lt_of_le hf h.lt
  · obtain ⟨b', captured', harmless⟩ := mem_functions.1 hf
    obtain ⟨rfl, -⟩ := FunctionObject.builtin.inj (h.function.symm.trans harmless.offers.function)
    exact absurd harmless.harmless (by simp [hb])

theorem base_confined (s : Store) (m lib e : TableId) : (zone s m lib e).Confined s := by
  refine Zone.confined_base rfl nofun nofun fun f hf => ?_
  obtain ⟨b, captured, harmless⟩ := mem_functions.1 hf
  show Zone.Runs _ (s.function f)
  rw [harmless.offers.function]
  exact .builtin harmless.harmless fun v hv => public_of_gives (harmless.captured v hv) fun _ h => h

section

variable (strings : Fresh.Strings s m lib) (failures : Fresh.Failures s e)

include strings failures

theorem zone_sound : (zone s m lib e).Sound := by
  -- what is behind either lock is a function of the host that is harmless, or the library of strings
  have failure (event : String) : (zone s m lib e).Public (s.rawGet e (.text event)) :=
    public_of_gives (failures.events.entries.get (.plain rfl) _) fun b hb => by rw [hb]; rfl
  have operator {event : String} (hi : event ≠ "__index") :
      (zone s m lib e).Public (s.rawGet m (.text event)) :=
    public_of_gives (strings.operators event hi)
      (show ∀ b ∈ Library.stringEvents.map Prod.snd, b.harmless by decide)
  have lock {t : TableId} (ht : t ∈ (zone s m lib e).locks) : t = m ∨ t = e := by
    simpa [zone] using ht
  constructor
  case base => exact base_confined s m lib e
  case assert => rfl
  case lock =>
    intro t ht
    obtain rfl | rfl := lock ht
    · exact table_hidden strings.events.lt
    · exact table_hidden failures.events.lt
  case index =>
    intro t ht
    obtain rfl | rfl := lock ht
    · exact .inr ⟨lib, List.mem_singleton.2 rfl, strings.index⟩
    · exact (failure _).indexable
  case pairs =>
    intro t ht _
    obtain rfl | rfl := lock ht
    · exact (operator (by decide)).callable
    · exact (failure _).callable
  case handler =>
    intro t ht event hi _
    obtain rfl | rfl := lock ht
    · exact (operator hi).callable
    · exact (failure event).callable
  case behind =>
    intro b hb
    obtain rfl := List.mem_singleton.1 hb
    refine ⟨table_hidden strings.library.lt, strings.library.bare, ?_⟩
    exact strings.library.entries.mono fun v hv =>
      public_of_gives hv (show ∀ b ∈ Library.string.map Prod.snd, b.harmless by decide)
  case stringMeta =>
    intro t ht
    obtain rfl := Option.some.inj (strings.stringMeta.symm.trans ht)
    exact .inr ⟨by simp [zone], List.not_mem_nil⟩
  case failureMeta =>
    intro t ht
    obtain rfl := Option.some.inj (failures.failureMeta.symm.trans ht)
    exact .inr ⟨by simp [zone], List.not_mem_nil⟩

theorem zone_scripted (cells : s.cells = #[]) : (zone s m lib e).Scripted where
  sound := zone_sound strings failures
  closures := trivial
  own c := by
    show s.cells.size ≤ c.index
    simp [cells]

theorem zone_serves (cells : s.cells = #[]) (st : State) :
    (zone s m lib e).Serves st.functions where
  builtin _ _ _ _ s hb hf _ hc hargs hs :=
    Library.runHarmless_safe (zone_sound strings failures) rfl rfl hb hf hc hargs s hs
  gate _ hg := nomatch hg
  closure _ body env chunk _ _ hargs :=
    Evaluate.callBody_safe (zone_scripted strings failures cells) body env chunk hargs

end

end Enclosure.Sandbox
