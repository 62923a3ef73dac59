import Enclosure.Proofs.Confinement.Library
import Enclosure.Proofs.Lua.Fresh

/-!
# Tables that scripts do not have

A script has some tables and functions without being given them: the library of strings, what errors of
the host answer to, and what iteration hands out. A plain table is apart from them if nothing of them
leads to it. In a fresh store every new plain table is (`fresh_apart`).
-/

namespace Enclosure.Protection

open Lua

/-- A part of a store: what a script has without being given anything. -/
structure Part where
  tables : List TableId
  functions : List FuncId

namespace Part

/-- Whether a value is no object or is in the part. -/
def Has (c : Part) : Value → Prop
  | .table t => t ∈ c.tables
  | .func f => f ∈ c.functions
  | v => v.isPlain

/-- A part that nothing leads out of, and whose functions give no more than they are given. -/
structure Closed (c : Part) (s : Store) : Prop where
  tables_lt : ∀ t ∈ c.tables, t.index < s.tables.size
  functions_lt : ∀ f ∈ c.functions, f.index < s.functions.size
  entries : ∀ t ∈ c.tables, (s.table t).All c.Has
  metatable : ∀ t ∈ c.tables, ∀ m, (s.table t).metatable = some m → m ∈ c.tables
  tame : ∀ f ∈ c.functions, ∃ b captured, s.function f = .builtin b captured ∧ b.tame
    ∧ ∀ v ∈ captured.toList, c.Has v

end Part

/-- A plain table, and a part of the store that has what strings and errors of the host answer to and
the functions that iteration hands out, and does not have the table. -/
structure Apart (s : Store) (t : TableId) (c : Part) (next step : FuncId) : Prop where
  lt : t.index < s.tables.size
  bare : (s.table t).metatable = none
  entries : (s.table t).All (·.isPlain)
  closed : c.Closed s
  not_mem : t ∉ c.tables
  stringMeta : ∀ m, s.stringMeta = some m → m ∈ c.tables
  failureMeta : ∀ m, s.failureMeta = some m → m ∈ c.tables
  next : next ∈ c.functions
  step : step ∈ c.functions

/-! ## Fresh stores -/

/-- Some tables of a store, and its functions that hold no values and are tame. -/
def tamePart (s : Store) (tables : List TableId) : Part where
  tables := tables
  functions := ((List.range s.functions.size).map FuncId.mk).filter fun f =>
    match s.function f with
    | .builtin b captured => b.tame && captured.isEmpty
    | _ => false

variable {s : Store} {f : FuncId} {b : Builtin} {tables : List TableId}

theorem mem_tamePart (h : s.Offers f b #[]) (hb : b.tame) : f ∈ (tamePart s tables).functions := by
  refine List.mem_filter.2 ⟨List.mem_map.2 ⟨f.index, List.mem_range.2 h.lt, rfl⟩, ?_⟩
  simp [h.function, hb]

theorem offers_of_mem_tamePart (h : f ∈ (tamePart s tables).functions) :
    ∃ b, s.Offers f b #[] ∧ b.tame := by
  obtain ⟨hmem, htame⟩ := List.mem_filter.1 h
  obtain ⟨n, hn, rfl⟩ := List.mem_map.1 hmem
  split at htame
  · rename_i b captured hf
    obtain ⟨hb, hc⟩ := Bool.and_eq_true_iff.1 htame
    obtain rfl := Array.isEmpty_iff.1 hc
    exact ⟨b, ⟨List.mem_range.1 hn, hf⟩, hb⟩
  · cases htame

theorem has_of_gives {kind : Builtin → Prop} {inner : List TableId} {v : Value}
    (h : s.Gives kind inner v) (hkind : ∀ b, kind b → b.tame) (hinner : inner ⊆ tables) :
    (tamePart s tables).Has v := by
  cases h with
  | plain h => cases v <;> first | exact h | cases h
  | table h => exact hinner h
  | func hb h => exact mem_tamePart h (hkind _ hb)

theorem string_tame : ∀ b ∈ Library.string.map Prod.snd, b.tame := by
  decide

theorem stringEvents_tame : ∀ b ∈ Library.stringEvents.map Prod.snd, b.tame := by
  decide

variable {T : Table}

/-- Tables that hold only plain values, tame functions and one another make a closed part with the tame
functions, also where a table is new. -/
theorem tamePart_closed (shelves : ∀ u ∈ tables, ∃ kind inner, s.Shelf kind inner u ∧ inner ⊆ tables
    ∧ ∀ b, kind b → b.tame) : (tamePart s tables).Closed (s.newTable T).2 := by
  have hold : ∀ u, u.index < s.tables.size → (s.newTable T).2.table u = s.table u := fun u hu => by
    rw [Store.table_newTable, if_neg (by omega)]
  constructor
  case tables_lt =>
    intro u hu
    obtain ⟨kind, inner, shelf, -⟩ := shelves u hu
    exact Nat.lt_of_lt_of_le shelf.lt (by simp)
  case functions_lt =>
    intro f hf
    obtain ⟨b, offers, -⟩ := offers_of_mem_tamePart hf
    exact offers.lt
  case entries =>
    intro u hu
    obtain ⟨kind, inner, shelf, hinner, hkind⟩ := shelves u hu
    rw [hold u shelf.lt]
    exact shelf.entries.mono fun v hv => has_of_gives hv hkind hinner
  case metatable =>
    intro u hu n hn
    obtain ⟨kind, inner, shelf, -⟩ := shelves u hu
    rw [hold u shelf.lt, shelf.bare] at hn
    cases hn
  case tame =>
    intro f hf
    obtain ⟨b, offers, hb⟩ := offers_of_mem_tamePart hf
    exact ⟨b, #[], offers.function, hb, fun v hv => nomatch hv⟩

/-- A new plain table of a fresh store is apart from what scripts have. -/
theorem fresh_apart (furnished : Fresh.Furnished s) (bare : T.metatable = none)
    (entries : T.All (·.isPlain)) : ∃ c next step,
      Apart (s.newTable T).2 ⟨s.tables.size⟩ c next step
        ∧ s.rawGet s.globals (.text "next") = .func next := by
  obtain ⟨next, step, iteration⟩ := furnished.iteration
  obtain ⟨m, lib, strings, -⟩ := furnished.strings
  obtain ⟨e, failures, -⟩ := furnished.failures
  -- of its tables scripts have those that strings and errors of the host answer to
  have shelves : ∀ u ∈ [m, lib, e], ∃ kind inner, s.Shelf kind inner u ∧ inner ⊆ [m, lib, e]
      ∧ ∀ b, kind b → b.tame := by
    intro u hu
    simp only [List.mem_cons, List.not_mem_nil, or_false] at hu
    rcases hu with rfl | rfl | rfl
    · exact ⟨_, _, strings.events, by simp, stringEvents_tame⟩
    · exact ⟨_, _, strings.library, by simp, string_tame⟩
    · exact ⟨_, _, failures.events, by simp, fun b hb => by rw [hb]; rfl⟩
  refine ⟨tamePart s [m, lib, e], next, step, ?_, iteration.nextFunction.1⟩
  constructor
  case lt => simp
  case bare => rw [Store.table_newTable, if_pos rfl, bare]
  case entries =>
    rw [Store.table_newTable, if_pos rfl]
    exact entries
  case closed => exact tamePart_closed shelves
  case not_mem =>
    intro hmem
    obtain ⟨kind, inner, shelf, -⟩ := shelves _ hmem
    exact Nat.lt_irrefl _ shelf.lt
  case stringMeta =>
    intro u hu
    obtain rfl := Option.some.inj (strings.stringMeta.symm.trans hu)
    exact List.mem_cons_self ..
  case failureMeta =>
    intro u hu
    obtain rfl := Option.some.inj (failures.failureMeta.symm.trans hu)
    simp [tamePart]
  case next => exact mem_tamePart iteration.nextFunction.2 rfl
  case step => exact mem_tamePart iteration.stepFunction rfl

end Enclosure.Protection
