import Enclosure.Proofs.Protection.Apart
import Enclosure.Proofs.Protection.Proxy
import Enclosure.Proofs.Protection.Session

/-!
# What a stand-in gives away

A script that holds a stand-in and no other way to the table behind it never gets hold of the table or
of the metatable, and never changes the table, exactly as long as it does not iterate over the stand-in
with `pairs` (`leaks_iff`): the first such call hands the table out.
-/

namespace Enclosure.Protection

open Lua

/-- The zone of a script that holds a stand-in and a part of the store. -/
def zone (s : Store) (c : Part) (t p e : TableId) (write length : FuncId) : Zone where
  base := s
  tables := p :: c.tables
  functions := c.functions
  locks := [e]
  windows := [e]
  behind := [t]
  gates := [write, length]
  allows b := b.tame
  closures := False

variable {s s' : Store} {t p e : TableId} {c : Part} {next step write length pairs : FuncId}
  {n : Value}

theorem public_of_has {v : Value} (h : c.Has v) : (zone s c t p e write length).Public v := by
  cases v with
  | table u => exact .inr (List.mem_cons_of_mem _ h)
  | func f => exact .inr h
  | thread | object => cases h
  | _ => trivial

section Proxy

variable (apart : Apart s t c next step) (proxy : Proxy s s' t p e write length pairs n)

include apart proxy

theorem behind_hidden : ¬ (zone s' c t p e write length).Public (.table t) := by
  have hlt := apart.lt
  have hsize := proxy.tables_size
  have hp := proxy.proxy
  rintro (h | h)
  · change s'.tables.size ≤ t.index at h
    omega
  · rcases List.mem_cons.1 h with rfl | h
    · omega
    · exact apart.not_mem h

theorem events_hidden : ¬ (zone s' c t p e write length).Public (.table e) := by
  have hsize := proxy.tables_size
  have hp := proxy.proxy
  have he := proxy.events
  rintro (h | h)
  · change s'.tables.size ≤ e.index at h
    omega
  · rcases List.mem_cons.1 h with rfl | h
    · omega
    · have := apart.closed.tables_lt e h
      omega

theorem gate_hidden {f : FuncId} (hf : s.functions.size ≤ f.index)
    (hlt : f.index < s.functions.size + 3) :
    ¬ (zone s' c t p e write length).Public (.func f) := by
  have hsize := proxy.functions_size
  rintro (h | h)
  · change s'.functions.size ≤ f.index at h
    omega
  · have := apart.closed.functions_lt f h
    omega

theorem base_confined : (zone s' c t p e write length).Confined s' := by
  refine Zone.confined_base rfl (fun u hu => ?_) (fun u hu m hm => ?_) fun f hf => ?_
  · show Table.All _ (s'.table u)
    obtain rfl | hu := List.mem_cons.1 hu
    · rw [proxy.proxyTable]
      exact .empty rfl rfl
    · rw [proxy.keeps.table u (apart.closed.tables_lt u hu)]
      exact (apart.closed.entries u hu).mono fun v hv => public_of_has hv
  · change (s'.table u).metatable = some m at hm
    obtain rfl | hu := List.mem_cons.1 hu
    · rw [proxy.proxyTable] at hm
      obtain rfl := Option.some.inj hm
      exact .inr (List.mem_cons_self ..)
    · rw [proxy.keeps.table u (apart.closed.tables_lt u hu)] at hm
      exact .inl (public_of_has (apart.closed.metatable u hu m hm))
  · obtain ⟨b, captured, hobj, hb, hc⟩ := apart.closed.tame f hf
    show Zone.Runs _ (s'.function f)
    rw [proxy.function f (apart.closed.functions_lt f hf), hobj]
    exact .builtin hb fun v hv => public_of_has (hc v hv)

theorem zone_sound : (zone s' c t p e write length).Sound where
  base := base_confined apart proxy
  assert := rfl
  lock m hm := by
    obtain rfl := List.mem_singleton.1 hm
    exact events_hidden apart proxy
  index m hm := by
    obtain rfl := List.mem_singleton.1 hm
    exact .inr ⟨t, List.mem_singleton.2 rfl, proxy.event _⟩
  pairs m hm hw := absurd hm hw
  -- the only events of the stand-in are those that `handler` lists
  handler m hm event hi hp := by
    obtain rfl := List.mem_singleton.1 hm
    show Zone.Callable _ (s'.rawGet m (.text event))
    rw [proxy.event]
    unfold handler
    rw [if_neg hp, if_neg hi]
    split_ifs
    · exact .inl trivial
    · exact .inr ⟨length, by simp [zone], rfl⟩
    · exact .inr ⟨write, by simp [zone], rfl⟩
    · exact .inl trivial
  behind b hb := by
    obtain rfl := List.mem_singleton.1 hb
    have htable : s'.table b = s.table b := proxy.keeps.table b apart.lt
    refine ⟨behind_hidden apart proxy, ?_, ?_⟩
    · exact (congrArg Table.metatable htable).trans apart.bare
    · show Table.All _ (s'.table b)
      rw [htable]
      exact apart.entries.mono fun v hv => Zone.public_of_isPlain hv
  stringMeta m hm := .inl (public_of_has (apart.stringMeta m (proxy.stringMeta ▸ hm)))
  failureMeta m hm := .inl (public_of_has (apart.failureMeta m (proxy.failureMeta ▸ hm)))

omit apart in
theorem zone_answers : (zone s' c t p e write length).Answers := by
  intro m hm
  obtain rfl := List.mem_singleton.1 hm
  have hshown : s'.rawGet m (.text "__metatable") = .bool false := proxy.event _
  show Zone.Public _ (s'.rawGet m _) ∧ (s'.rawGet m _).isNil = false
  rw [hshown]
  exact ⟨trivial, rfl⟩

theorem zone_serves (st : State) : (zone s' c t p e write length).Serves st.functions where
  builtin b f captured args s hb hf _ hc hargs hs :=
    Library.run_safe (zone_sound apart proxy) rfl hb hf hc hargs s hs
  gate g hg := by
    have hw := proxy.write_index
    have hl := proxy.length_index
    rcases List.mem_cons.1 hg with rfl | hg
    · exact ⟨gate_hidden apart proxy (by omega) (by omega), _, _, proxy.write,
        fun args _ => Library.Guard.refuseWrite_safe #[] args⟩
    · obtain rfl := List.mem_singleton.1 hg
      exact ⟨gate_hidden apart proxy (by omega) (by omega), _, _, proxy.length,
        fun args _ => (Library.Guard.length_plain args #[.table t]).publics⟩
  closure h := h.elim

/-- Of what the script holds, only the stand-in is behind a window. -/
theorem opens_proxy {use : Use} (h : (zone s' c t p e write length).Publics use.operands)
    (ho : use.Opens (zone s' c t p e write length)) :
    ∃ args, use = .call .pairs (.table p :: args) := by
  unfold Use.Opens at ho
  split at ho
  · rename_i v args
    obtain ⟨u, rfl, m, hm, hu⟩ := ho
    obtain rfl := List.mem_singleton.1 hm
    change (s'.table u).metatable = some m at hu
    refine ⟨args, ?_⟩
    rcases h (.table u) (List.mem_cons_self ..) with hnew | hmem
    · rw [Store.table_of_le (s := s') hnew] at hu
      cases hu
    · rcases List.mem_cons.1 hmem with rfl | hmem
      · rfl
      · rw [proxy.keeps.table u (apart.closed.tables_lt u hmem)] at hu
        have hin : c.Has (.table m) := apart.closed.metatable u hmem m hu
        exact absurd (public_of_has hin) (events_hidden apart proxy)
  · exact ho.elim

/-- A script that does not iterate over the stand-in stays away from the table. -/
theorem session_confined {st st' : State} {held held' : List Value} {uses : List Use}
    (session : Session next step st held uses st' held')
    (hs : (zone s' c t p e write length).Confined st.store)
    (hheld : (zone s' c t p e write length).Publics held)
    (hw : ∀ args, .call .pairs (.table p :: args) ∉ uses) :
    (zone s' c t p e write length).Confined st'.store
      ∧ (zone s' c t p e write length).Publics held' := by
  have hnext : c.Has (.func next) := apart.next
  have hstep : c.Has (.func step) := apart.step
  refine confined_session (zone_sound apart proxy) (zone_answers proxy) (public_of_has hnext)
    (public_of_has hstep) session (zone_serves apart proxy st) hs hheld fun use huse hops ho => ?_
  obtain ⟨args, rfl⟩ := opens_proxy apart proxy hops ho
  exact hw args huse

end Proxy

/-! ## The window -/

theorem held_subset {st st' : State} {held held' : List Value} {uses : List Use}
    (session : Session next step st held uses st' held') : held ⊆ held' := by
  induction session with
  | nil => exact fun _ h => h
  | cons hold made more ih => exact fun v hv => ih (List.mem_append_left _ hv)

theorem pairs_run {s : Store} {h : FuncId} (hh : s.metamethod (.table p) "__pairs" = .func h)
    (captured : Array Value) (args : List Value) :
    Library.Base.pairs captured (.table p :: args) s
      = .ask (.call (.func h) [.table p] { passable := true }) s fun vs s =>
        .done [Run.first vs, Run.first (vs.drop 1), Run.first (vs.drop 2)] s := by
  have hread : Run.metamethod (.table p) "__pairs" s = .done (.func h) s := by
    rw [← hh]
    rfl
  have hany : Args.any (.table p :: args) 1 s = .done (.table p) s := rfl
  unfold Library.Base.pairs
  rw [Run.bind_done hany, Run.bind_done hread]
  rfl

/-- Iterating over the stand-in hands out the table behind it. -/
theorem pairs_on {st : State} (apart : Apart s t c next step)
    (proxy : Proxy s s' t p e write length pairs n)
    (hs : (zone s' c t p e write length).Confined st.store) (args : List Value) :
    (st.runRaw ((Use.call .pairs (.table p :: args)).run next step)).1
      = .ok [n, .table t, .nil] := by
  have hmeta : (st.store.table p).metatable = some e :=
    ((hs.table p (.inr (List.mem_cons_self ..))).locked e (List.mem_cons_self ..)).2
      (congrArg Table.metatable proxy.proxyTable)
  have hhandler : st.store.metamethod (.table p) "__pairs" = .func pairs := by
    simp only [Store.metamethod, Store.metatable, hmeta]
    exact (hs.rawGet_hidden (events_hidden apart proxy) _).trans (proxy.event _)
  have hindex := proxy.pairs_index
  have hobject : st.store.function pairs = .builtin (.guard .pairs) #[.table t, n] :=
    (hs.hiddenFunction pairs (gate_hidden apart proxy (by omega) (by omega))).trans proxy.pairs
  have hstart : Machine.start st.functions st.threads _ st.store = _ :=
    Machine.start_call (pairs_run hhandler #[.func next] args) hobject rfl rfl
  show (State.runRaw st (Library.Base.pairs #[.func next] (.table p :: args))).1 = _
  unfold State.runRaw
  rw [hstart]
  rfl

/-- A session that iterates over the stand-in ends with the table in the script's hands. -/
theorem session_leaks {st st' : State} {held held' : List Value} {uses : List Use}
    (apart : Apart s t c next step) (proxy : Proxy s s' t p e write length pairs n)
    (session : Session next step st held uses st' held')
    (hs : (zone s' c t p e write length).Confined st.store)
    (hheld : (zone s' c t p e write length).Publics held) {args : List Value}
    (hw : .call .pairs (.table p :: args) ∈ uses) : .table t ∈ held' := by
  induction session with
  | nil => cases hw
  | @cons st st₁ st₂ held held₂ use rest answer hold made more ih =>
    -- before the first such use the store is confined, so the handler is still the one that was made
    by_cases hpairs : ∃ args, use = .call .pairs (.table p :: args)
    · obtain ⟨args, rfl⟩ := hpairs
      have hanswer : answer = .ok [n, .table t, .nil] :=
        (congrArg Prod.fst made).symm.trans (pairs_on apart proxy hs args)
      refine held_subset more ?_
      rw [hanswer]
      simp [handed]
    · have first : Session next step st held [use] st₁ (held ++ handed answer) :=
        .cons hold made .nil
      obtain ⟨hs₁, hheld₁⟩ := session_confined apart proxy first hs hheld fun args hmem =>
        hpairs ⟨args, (List.mem_singleton.1 hmem).symm⟩
      exact ih hs₁ hheld₁ ((List.mem_cons.1 hw).resolve_left fun he => hpairs ⟨args, he.symm⟩)

/-- A script that holds a stand-in for a plain table, and otherwise only what leads nowhere near the
table, never holds the table or the metatable and leaves the table as it was, exactly if it does not
iterate over the stand-in with `pairs`. -/
theorem leaks_iff {st st₀ st' : State} {held' : List Value} {uses : List Use}
    (apart : Apart st.store t c next step) (hp : (protect t).on st = (.ok p, st₀))
    (session : Session next step st₀ [.table p] uses st' held') :
    (.table t ∉ held' ∧ (∀ e, (st₀.store.table p).metatable = some e → .table e ∉ held')
        ∧ st'.store.table t = st.store.table t)
      ↔ ∀ args, .call .pairs (.table p :: args) ∉ uses := by
  obtain ⟨e, write, length, pairs, n, proxy⟩ := protect_ok hp
  have hs := base_confined apart proxy
  have hheld : (zone st₀.store c t p e write length).Publics [.table p] :=
    Zone.publics_one (.inr (List.mem_cons_self ..))
  constructor
  · rintro ⟨hnot, -, -⟩ args hmem
    exact hnot (session_leaks apart proxy session hs hheld hmem)
  · intro hnone
    obtain ⟨hs', hheld'⟩ := session_confined apart proxy session hs hheld hnone
    have ht := behind_hidden apart proxy
    refine ⟨fun h => ht (hheld' _ h), fun e' he' h => ?_, ?_⟩
    · rw [proxy.proxyTable] at he'
      obtain rfl := Option.some.inj he'
      exact events_hidden apart proxy (hheld' _ h)
    · exact (hs'.hidden t ht).trans (proxy.keeps.table t apart.lt)

theorem fresh_iterates : ∃ next, Iterates (Fresh.store {}).tables.size next (Fresh.store {}) := by
  have furnished := Fresh.store_furnished {}
  obtain ⟨next, _, iteration⟩ := furnished.iteration
  exact ⟨next, furnished.globals.lt, Nat.le_refl _, iteration.nextFunction.1⟩

theorem iterates_newTable {next : FuncId} (T : Table) (h : s.globals.index < s.tables.size)
    (hnext : s.rawGet s.globals (.text "next") = .func next) :
    Iterates (s.newTable T).2.tables.size next (s.newTable T).2 := by
  refine ⟨Nat.lt_of_lt_of_le h (by simp), Nat.le_refl _, ?_⟩
  have hold : (s.newTable T).2.table s.globals = s.table s.globals := by
    rw [Store.table_newTable, if_neg (Nat.ne_of_lt h)]
  exact (congrArg (Table.get · (.text "next")) hold).trans hnext

/-- A table that holds an oak. -/
def oak : Table := Table.set {} (.text "tree") (.text "oak")

/-- A fresh state with a table more. -/
def grove : State := { State.fresh {} with store := ((Fresh.store {}).newTable oak).2 }

/-- A new table can be protected, and then it is what it was and the `next` of the library is in use. -/
theorem newTable_protected {st : State} (T : Table) (furnished : Fresh.Furnished s)
    (store : st.store = (s.newTable T).2) : ∃ t p st₀ next, t.index < st.store.tables.size
      ∧ (protect t).on st = (.ok p, st₀) ∧ st₀.store.table t = T
      ∧ (∃ n, Iterates n next st.store ∧ Iterates n next st₀.store)
      ∧ st₀.store.function next = .builtin (.base .next) #[] := by
  obtain ⟨next, _, iteration⟩ := furnished.iteration
  obtain ⟨hnext, offers⟩ := iteration.nextFunction
  have iterates := iterates_newTable T furnished.globals.lt hnext
  rw [← store] at iterates
  let t : TableId := ⟨s.tables.size⟩
  obtain ⟨p, st₀, hp, -, iterates₀⟩ := protect_ends t st iterates
  obtain ⟨_, _, _, _, _, proxy⟩ := protect_ok hp
  have ht : t.index < st.store.tables.size := by simp [t, store]
  refine ⟨t, p, st₀, next, ht, hp, ?_, ⟨_, iterates, iterates₀⟩, ?_⟩
  · rw [proxy.keeps.table t ht, store, Store.table_newTable, if_pos rfl]
  · have hlt : next.index < st.store.functions.size := by
      rw [store]
      exact offers.lt
    rw [proxy.function next hlt, store]
    exact offers.function

theorem grove_protected : ∃ t p st₀ next, t.index < grove.store.tables.size
    ∧ (protect t).on grove = (.ok p, st₀) ∧ st₀.store.table t = oak
    ∧ (∃ n, Iterates n next grove.store ∧ Iterates n next st₀.store)
    ∧ st₀.store.function next = .builtin (.base .next) #[] :=
  newTable_protected oak (Fresh.store_furnished {}) rfl

/-- With a stand-in for the table of the oak, a script that reads, writes and takes the length does not
get hold of the table and does not change it; a script that iterates does. -/
theorem grove_leaks_iff : ∃ t p st₀ next step, (protect t).on grove = (.ok p, st₀) ∧
    (∃ st' held', Session next step st₀ [.table p] [.index (.table p) (.text "tree"),
        .assign (.table p) (.text "tree") .nil, .length (.table p)] st' held' ∧
      .table t ∉ held' ∧ (∀ e, (st₀.store.table p).metatable = some e → .table e ∉ held') ∧
      st'.store.table t = grove.store.table t) ∧
    ∃ st' held', Session next step st₀ [.table p] [.call .pairs [.table p]] st' held' ∧
      ¬ (.table t ∉ held' ∧ (∀ e, (st₀.store.table p).metatable = some e → .table e ∉ held') ∧
        st'.store.table t = grove.store.table t) := by
  have furnished := Fresh.store_furnished {}
  have store : grove.store = ((Fresh.store {}).newTable oak).2 := rfl
  generalize Fresh.store {} = s at furnished store
  generalize grove = st at store
  have entries : oak.All (·.isPlain) := Table.All.default.set rfl rfl
  obtain ⟨c, next, step, apart, hnext⟩ := fresh_apart furnished (Table.metatable_set ..) entries
  have iterates := iterates_newTable oak furnished.globals.lt hnext
  rw [← store] at apart iterates
  obtain ⟨p, st₀, hp, -⟩ := protect_ends ⟨s.tables.size⟩ st iterates
  refine ⟨_, p, st₀, next, step, hp, ?_, ?_⟩
  · obtain ⟨st', held', session⟩ := exists_session next step [.index (.table p) (.text "tree"),
        .assign (.table p) (.text "tree") .nil, .length (.table p)] st₀ [.table p]
      (by simp [Use.operands, Value.isPlain, Value.text])
    exact ⟨st', held', session, (leaks_iff apart hp session).2 (by simp)⟩
  · obtain ⟨st', held', session⟩ := exists_session next step [.call .pairs [.table p]] st₀ [.table p]
      (by simp [Use.operands])
    exact ⟨st', held', session, fun h => (leaks_iff apart hp session).1 h [] (by simp)⟩

end Enclosure.Protection
