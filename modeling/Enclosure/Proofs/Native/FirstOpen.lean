import Enclosure.Proofs.Native.Backing
import Enclosure.Proofs.Reach.Fresh

/-!
# The first opening of a module

What decides an opening is what is read of each disabled name right after the name was taken out of the
table that the opener made: it has to be nil (`Clears`). If it always is, the table is handed out and
kept, and otherwise nothing is. Whatever comes of it, all that was there before is as it was
(`load_first`).
-/

namespace Enclosure

open Lua

variable {st st₁ : State}

namespace NativeLoader

open Attempt

variable {t : TableId} {m : NativeModule} {name : String}

/-! ## Taking out entry points -/

theorem rawGet_without (ht : t.index < st.store.tables.size) (b : TableId) (entry key : String) :
    (without st t entry).store.rawGet b (.text key)
      = if b = t ∧ key = entry then .nil else st.store.rawGet b (.text key) := by
  simp only [Store.rawGet_text, without, Store.table_modifyTable, ht, and_true]
  by_cases hb : b = t
  · simp [hb, Table.get_set, Store.text_inj]
  · simp [hb]

theorem metatable_without (b : TableId) (entry : String) :
    ((without st t entry).store.table b).metatable = (st.store.table b).metatable := by
  rw [without, Store.table_modifyTable]
  split_ifs with h
  · rw [Table.metatable_set, h.1]
  · rfl

theorem retains_without (st : State) (t : TableId) (entry : String) :
    st.Retains {t} (without st t entry) :=
  .modifyTable (Set.mem_singleton t) st _

theorem AlwaysRaises.later {g : FuncId} (h : AlwaysRaises st t g) (later : st.Retains {t} st₁) :
    AlwaysRaises st₁ t g := fun st₂ key h₂ =>
  h st₂ key (later.trans h₂ fun _ => .inl)

/-- Where a table is its own metatable, a field that is taken out may be the one that says what stands
behind it. -/
theorem handler_without (ht : t.index < st.store.tables.size) (entry : String) :
    (without st t entry).store.metamethod (.table t) "__index" = .nil
      ∨ (without st t entry).store.metamethod (.table t) "__index"
        = st.store.metamethod (.table t) "__index" := by
  simp only [Store.metamethod, Store.metatable, metatable_without]
  rcases (st.store.table t).metatable with _ | e
  · exact .inl rfl
  · dsimp only
    rw [rawGet_without ht]
    split_ifs
    · exact .inl rfl
    · exact .inr rfl

theorem Backed.without (h : Backed st t (st.store.metamethod (.table t) "__index"))
    (ht : t.index < st.store.tables.size) (entry : String) :
    Backed (without st t entry) t ((without st t entry).store.metamethod (.table t) "__index") := by
  rcases handler_without ht entry with hhandler | hhandler <;> rw [hhandler]
  · exact .nothing
  · generalize st.store.metamethod (.table t) "__index" = handler at h
    cases h with
    | nothing => exact .nothing
    | plain h => exact .plain ((metatable_without _ entry).trans h)
    | raising h => exact .raising (h.later (retains_without st t entry))

/-- Right after an entry point was taken out, its name is read. Unless it then reads as nil, taking it
out fails. -/
theorem disable_backed (module : String) (h : Backed st t (st.store.metamethod (.table t) "__index"))
    (ht : t.index < st.store.tables.size) (entry : String) :
    ReadsNil (without st t entry) t entry
        ∧ (disable module t entry).on st = (.ok (), without st t entry)
      ∨ ((Action.get (.table t) (.text entry)).on (without st t entry)).1 ≠ .ok .nil
        ∧ ∃ message st', (disable module t entry).on st = (.error (.opening module message), st')
          ∧ (without st t entry).Retains ∅ st' := by
  have raw : (without st t entry).store.rawGet t (.text entry) = .nil := by
    rw [rawGet_without ht, if_pos ⟨rfl, rfl⟩]
  have hset : (during module (Action.rawSetText t entry .nil)).on st = (.ok (), without st t entry) := rfl
  have hbacked := h.without ht entry
  generalize hhandler : (without st t entry).store.metamethod (.table t) "__index" = handler at hbacked
  -- the read after the removal ends at what backs the table
  cases hbacked with
  | nothing =>
    have hget := get_of_nothing raw hhandler
    have hread : (during module (Action.get (.table t) (.text entry))).on (without st t entry)
        = (.ok .nil, without st t entry) := by
      rw [during_on, hget]
      rfl
    refine .inl ⟨hget, ?_⟩
    unfold disable
    rw [bind_on hset, bind_on hread]
    rfl
  | @plain b plain =>
    have hget := get_of_plain raw hhandler plain
    have hread : (during module (Action.get (.table t) (.text entry))).on (without st t entry)
        = (.ok ((without st t entry).store.rawGet b (.text entry)), without st t entry) := by
      rw [during_on, hget]
      rfl
    unfold disable
    rw [bind_on hset, bind_on hread]
    by_cases hv : (without st t entry).store.rawGet b (.text entry) = .nil
    · rw [hv] at hget ⊢
      exact .inl ⟨hget, rfl⟩
    · rw [if_neg (mt Value.isNil_iff.1 hv)]
      refine .inr ⟨?_, _, _, rfl, .refl _ _⟩
      rw [hget]
      exact fun heq => hv (Except.ok.inj heq)
  | raising raises =>
    obtain ⟨f, st', hask, retains⟩ := raises _ (.text entry) (.refl _ _)
    have hget := (get_of_func raw hhandler).trans hask
    have hread : (during module (Action.get (.table t) (.text entry))).on (without st t entry)
        = (.error (.opening module f.message), st') := by
      rw [during_on, hget]
      rfl
    refine .inr ⟨by rw [hget]; nofun, f.message, st', ?_, retains⟩
    unfold disable
    rw [bind_on hset, on_bind, hread]

/-- The state with entry points taken out of a table. -/
def withoutAll (st : State) (t : TableId) (entries : List String) : State :=
  entries.foldl (without · t ·) st

/-- Right after each of the entry points was taken out, in their order, its name is read as nil. -/
def Clears (st : State) (t : TableId) (entries : List String) : Prop :=
  ∀ before entry after, entries = before ++ entry :: after →
    ((Action.get (.table t) (.text entry)).on (withoutAll st t (before ++ [entry]))).1 = .ok .nil

theorem clears_nil (st : State) (t : TableId) : Clears st t [] := fun before entry after h =>
  absurd h (by simp)

theorem clears_cons {entry : String} {rest : List String} : Clears st t (entry :: rest)
    ↔ ((Action.get (.table t) (.text entry)).on (without st t entry)).1 = .ok .nil
      ∧ Clears (without st t entry) t rest := by
  constructor
  · exact fun h => ⟨h [] entry rest rfl, fun before later after hrest =>
      h (entry :: before) later after (congrArg (entry :: ·) hrest)⟩
  · rintro ⟨first, others⟩ (_ | ⟨first', before⟩) later after h
    · obtain ⟨rfl, rfl⟩ := List.cons.inj h
      exact first
    · obtain ⟨rfl, hrest⟩ := List.cons.inj h
      exact others before later after hrest

/-- Where nothing stands behind a table, every entry point clears. -/
theorem clears_of_bare : ∀ (entries : List String) {st : State}, t.index < st.store.tables.size →
    (st.store.table t).metatable = none → Clears st t entries
  | [], st, _, _ => clears_nil st t
  | entry :: rest, st, ht, bare => by
    have bare : ((without st t entry).store.table t).metatable = none :=
      (metatable_without t entry).trans bare
    have raw : (without st t entry).store.rawGet t (.text entry) = .nil := by
      rw [rawGet_without ht, if_pos ⟨rfl, rfl⟩]
    have nothing : (without st t entry).store.metamethod (.table t) "__index" = .nil := by
      simp [Store.metamethod, Store.metatable, bare]
    refine clears_cons.2 ⟨congrArg Prod.fst (get_of_nothing raw nothing), ?_⟩
    exact clears_of_bare rest (ht.trans_le (retains_without st t entry).tables_size) bare

/-- Entry points can be taken out exactly if they clear; a failure is one of the opening and has changed
nothing but the fields of the table. -/
theorem each_disable_backed (module : String) : ∀ (entries : List String) {st : State},
    Backed st t (st.store.metamethod (.table t) "__index") → t.index < st.store.tables.size →
      Clears st t entries
          ∧ (each (disable module t) entries).on st = (.ok (), withoutAll st t entries)
        ∨ ¬ Clears st t entries ∧ ∃ message st',
          (each (disable module t) entries).on st = (.error (.opening module message), st')
            ∧ st.Retains {t} st'
  | [], st, _, _ => .inl ⟨clears_nil st t, rfl⟩
  | entry :: rest, st, h, ht => by
    have retains := retains_without st t entry
    rw [clears_cons, each]
    rcases disable_backed module h ht entry with ⟨reads, hdisable⟩ | ⟨hne, message, st', hdisable, later⟩
    · rw [bind_on hdisable]
      have reads : ((Action.get (.table t) (.text entry)).on (without st t entry)).1 = .ok .nil :=
        congrArg Prod.fst reads
      rcases each_disable_backed module rest (h.without ht entry)
        (ht.trans_le retains.tables_size) with ⟨clears, hrest⟩ | ⟨hnot, message, st', hrest, later⟩
      · exact .inl ⟨⟨reads, clears⟩, hrest⟩
      · exact .inr ⟨fun h => hnot h.2, message, st', hrest, retains.trans later fun _ => .inl⟩
    · rw [on_bind, hdisable]
      exact .inr ⟨fun h => hne h.1, message, st', rfl, retains.trans later fun _ => False.elim⟩

theorem retains_withoutAll (st : State) (t : TableId) (entries : List String) :
    st.Retains {t} (withoutAll st t entries) := by
  induction entries generalizing st with
  | nil => exact .refl _ st
  | cons entry rest ih => exact (retains_without st t entry).trans (ih _) fun _ => .inl

/-- The table without the entry points: their fields are gone, and all else is as it was. -/
theorem table_withoutAll (entries : List String) {st : State} (ht : t.index < st.store.tables.size) :
    ((withoutAll st t entries).store.table t).metatable = (st.store.table t).metatable
      ∧ ∀ key, ((withoutAll st t entries).store.table t).get key
        = if key ∈ entries.map .text then .nil else (st.store.table t).get key := by
  induction entries generalizing st with
  | nil => exact ⟨rfl, fun key => by simp [withoutAll]⟩
  | cons entry rest ih =>
    obtain ⟨metatable, get⟩ := ih (ht.trans_le (retains_without st t entry).tables_size)
    refine ⟨metatable.trans (metatable_without t entry), fun key => (get key).trans ?_⟩
    have self : (without st t entry).store.table t = (st.store.table t).set (.text entry) .nil :=
      Store.table_modifyTable_self ht _
    simp only [self, Table.get_set, List.map_cons, List.mem_cons]
    by_cases hrest : key ∈ rest.map .text <;> by_cases hentry : key = .text entry <;> simp [hrest, hentry]

/-! ## The opening -/

/-- How an opening ends if its opener opens afresh: with the table of the opener, without the entry points
that are disabled, if they clear; and otherwise it fails as an opening of the module. -/
theorem openModule_ends (name : String) (opens : OpensAfresh m.opener (beginOpening m st)) :
    (∃ t st₁, m.opener.on (beginOpening m st) = (.ok t, st₁) ∧ t.index < st₁.store.tables.size
        ∧ Clears st₁ t m.disabled ∧ (beginOpening m st).Retains ∅ (withoutAll st₁ t m.disabled)
        ∧ (openModule m name).on st = (.ok t, keep (withoutAll st₁ t m.disabled) name t))
      ∨ (¬ ∃ t st₁, m.opener.on (beginOpening m st) = (.ok t, st₁) ∧ Clears st₁ t m.disabled)
        ∧ ∃ message st₂, (beginOpening m st).Retains ∅ st₂
          ∧ (openModule m name).on st = (.error (.opening name message), st₂) := by
  have retains := opens.retains
  have hopen := openModule_on m name st
  unfold finishOpening at hopen
  rcases opened : m.opener.on (beginOpening m st) with ⟨f | t, st₁⟩ <;> rw [opened] at retains hopen
  · exact .inr ⟨by simp, f.message, st₁, retains, hopen⟩
  obtain ⟨new, ht, backed⟩ := opens.made opened
  -- what is taken out of a table that is new was not there
  have later {st₂ : State} (h : st₁.Retains {t} st₂) : (beginOpening m st).Retains ∅ st₂ :=
    retains.trans h fun u hu => .inr (Set.mem_singleton_iff.1 hu ▸ new)
  dsimp only at hopen
  rcases each_disable_backed name m.disabled backed ht with
    ⟨clears, hdisable⟩ | ⟨hnot, message, st₂, hdisable, hlater⟩
  all_goals rw [hdisable] at hopen
  · exact .inl ⟨t, st₁, rfl, ht, clears, later (retains_withoutAll st₁ t m.disabled), hopen⟩
  · refine .inr ⟨?_, message, st₂, later hlater, hopen⟩
    rintro ⟨_, _, ⟨⟩, clears⟩
    exact hnot clears

variable {l : NativeLoader}

/-- The first load of a module runs its opener, once. It hands out a table exactly if the opener makes one
that clears: the table that the opener made, without the fields of the entry points that are disabled.
That table is then kept; where the load fails, it fails as an opening of the module, and nothing is kept.
In either case all that was there is as it was, and scripts that ask for a module get what they got. -/
theorem load_first (permitted : l.permits name) (registered : l.module? name = some m)
    (first : st.store.natives.lookup name = none) (opens : OpensAfresh m.opener (beginOpening m st)) :
    let r := (l.load name).on st
    r.2.store.opened = m.name :: st.store.opened
    ∧ ((∃ t, r.1 = .ok t)
      ↔ ∃ t st₁, m.opener.on (beginOpening m st) = (.ok t, st₁) ∧ Clears st₁ t m.disabled)
    ∧ (∀ t, r.1 = .ok t → ∃ st₁, m.opener.on (beginOpening m st) = (.ok t, st₁)
      ∧ r.2 = keep (withoutAll st₁ t m.disabled) name t
      ∧ (r.2.store.table t).metatable = (st₁.store.table t).metatable
      ∧ (∀ key, (r.2.store.table t).get key
        = if key ∈ m.disabled.map .text then .nil else (st₁.store.table t).get key)
      ∧ r.2.store.natives = (name, t) :: st.store.natives)
    ∧ (∀ e, r.1 = .error e →
      (∃ message, e = .opening name message) ∧ r.2.store.natives = st.store.natives)
    ∧ (st.withNotes r.2.store.natives r.2.store.opened).Retains ∅ r.2
    ∧ (st.store.Sealed → ∀ captured args, st.store.Knows (Library.Package.packageOf captured) →
      (∀ v ∈ args, st.store.Knows v) →
        (Library.Package.require captured args).Starts st.store r.2.store (fun _ => True)
        ∧ (Library.Package.preloadSearcher args).Starts st.store r.2.store fun _ => True) := by
  have hload : (l.load name).on st = (openModule m name).on st := by
    rw [load_on, if_pos permitted, registered]
    dsimp only
    rw [first]
  rw [hload]
  -- what follows from the outcome of the opening alone
  have settle {st₂ : State} (h : (beginOpening m st).Retains ∅ st₂) : st₂.store.natives = st.store.natives
      ∧ st₂.store.opened = m.name :: st.store.opened :=
    ⟨(congrArg Store.natives h.aside :), (congrArg Store.opened h.aside :)⟩
  have requires {st₂ : State} {natives opened} (h : (st.withNotes natives opened).Retains ∅ st₂)
      (sealed : st.store.Sealed) (captured : Array Value) (args : Args)
      (hcaptured : st.store.Knows (Library.Package.packageOf captured))
      (hargs : ∀ v ∈ args, st.store.Knows v) :
      (Library.Package.require captured args).Starts st.store st₂.store (fun _ => True)
        ∧ (Library.Package.preloadSearcher args).Starts st.store st₂.store fun _ => True :=
    ⟨(h.agrees sealed).require_starts hargs hcaptured, (h.agrees sealed).preloadSearcher_starts hargs⟩
  rcases openModule_ends name opens with
    ⟨t, st₁, opened, ht, clears, retains, hopen⟩ | ⟨hnot, message, st₂, retains, hopen⟩
  all_goals
    rw [hopen]
    obtain ⟨natives, log⟩ := settle retains
  · obtain ⟨metatable, get⟩ := table_withoutAll m.disabled ht
    have kept := retains.withNotes ((name, t) :: (withoutAll st₁ t m.disabled).store.natives)
      (withoutAll st₁ t m.disabled).store.opened
    refine ⟨log, iff_of_true ⟨t, rfl⟩ ⟨t, st₁, opened, clears⟩, ?_, by simp, kept, requires kept⟩
    rintro _ ⟨⟩
    exact ⟨st₁, opened, rfl, metatable, get, congrArg (List.cons (name, t)) natives⟩
  · have kept := retains.withNotes st₂.store.natives st₂.store.opened
    refine ⟨log, iff_of_false (by simp) hnot, by simp, ?_, kept, requires kept⟩
    rintro _ ⟨⟩
    exact ⟨⟨_, rfl⟩, natives⟩

/-- A module that disables an entry point twice and one that its table does not have. -/
def tightNetio : NativeModule where
  name := "netio"
  opener := Opener.fields [("connect", .value (.bool true)), ("raw_socket", .value (.bool true))] .none
  disabled := ["raw_socket", "listen", "raw_socket"]

theorem load_first_tightNetio :
    let t : TableId := ⟨(State.fresh {}).store.tables.size⟩
    let r := ((({} : NativeLoader).register tightNetio).allowRegistered.load "netio").on (State.fresh {})
    r.1 = .ok t ∧ r.2.store.opened = ["netio"] ∧ r.2.store.natives = [("netio", t)]
      ∧ (∀ key, key ∈ tightNetio.disabled.map .text → (r.2.store.table t).get key = .nil)
      ∧ ((State.fresh {}).withNotes [("netio", t)] ["netio"]).Retains ∅ r.2
      ∧ (Library.Package.require #[.table (State.fresh {}).store.loaded] [.text "netio"]).Starts
        (State.fresh {}).store r.2.store fun _ => True := by
  -- Nothing but this is used of the fresh state, so that it is not built.
  obtain ⟨st, hst, blank, sealed⟩ : ∃ st, st = State.fresh {} ∧ st.Blank ∧ st.store.Sealed :=
    ⟨_, rfl, State.fresh_blank {}, State.fresh_sealed {}⟩
  rw [← hst]
  intro t r
  have opened := Attempt.on_eq (show (tightNetio.opener.on (beginOpening tightNetio st)).1 = .ok t from rfl)
  have settled := Opener.fields_bare opened
  have bare : ((tightNetio.opener.on (beginOpening tightNetio st)).2.store.table t).metatable = none := by
    rcases settled.reads with hnone | _
    exact hnone
  have opens : OpensAfresh tightNetio.opener (beginOpening tightNetio st) :=
    Opener.fields_opensAfresh _ .none _
  have permitted : (({} : NativeLoader).register tightNetio).allowRegistered.permits "netio" := rfl
  have registered : (({} : NativeLoader).register tightNetio).allowRegistered.module? "netio"
      = some tightNetio := rfl
  have first : st.store.natives.lookup "netio" = none := by rw [blank.natives, List.lookup_nil]
  obtain ⟨log, succeeds, handsOut, -, retains, requires⟩ := load_first permitted registered first opens
  obtain ⟨t', loaded⟩ := succeeds.2 ⟨_, _, opened, clears_of_bare _ settled.lt bare⟩
  obtain ⟨_, made, -, -, get, natives⟩ := handsOut t' loaded
  obtain rfl : t = t' := Except.ok.inj (Prod.mk.inj (opened.symm.trans made)).1
  rw [blank.opened] at log
  rw [blank.natives] at natives
  rw [natives, log] at retains
  refine ⟨loaded, log, natives, fun key hkey => (get key).trans (if_pos hkey), retains, ?_⟩
  refine (requires sealed #[.table st.store.loaded] _ sealed.loaded fun v hv => ?_).1
  obtain rfl := List.mem_singleton.1 hv
  trivial

end NativeLoader

end Enclosure
