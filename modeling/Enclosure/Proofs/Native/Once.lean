import Enclosure.Proofs.Native.Disabled
import Enclosure.Proofs.Reach.Fresh
import Enclosure.Proofs.Reach.Opener

/-!
# Modules are opened once

Any number of loaders are used with any number of states. What was opened is kept in the state that it
was opened in and nowhere else. So in each state the opener of a name runs for each load that is
permitted and registered until one of them succeeds, and for none afterwards; all loads that succeed
hand out one table (`load_once`).
-/

namespace Enclosure

open Lua

/-- Whatever waits or can be called in the state leaves alone what is kept of openings. -/
def Lua.State.Quiet (st : State) : Prop := st.Sound .all

theorem Lua.Realm.eq_all {R : Realm} (h : Realm.all ≤ R) : R = .all := by
  obtain ⟨tables, functions, callbacks⟩ := R
  obtain ⟨ht, hf, hc⟩ := h
  rw [Realm.all, Realm.mk.injEq]
  exact ⟨Set.eq_univ_of_univ_subset ht, Set.eq_univ_of_univ_subset hf, Set.eq_univ_of_univ_subset hc⟩

/-- A state in which only the main thread is there, and no function of the host, is quiet. -/
theorem Lua.State.quiet_of_bare {st : State} (threads : TameThreads .all st.threads)
    (callbacks : st.callbacks = #[]) : st.Quiet where
  closed := Realm.all_closed _
  threads := threads
  callback n _ R' args _ _ := by
    have hnone : st.functions.callback n = fun _ => pure [] := by
      simp [State.functions, callbacks]
    rw [hnone]
    exact .pure Realm.hasAll_nil

theorem Lua.State.fresh_quiet (around : Surroundings) : (State.fresh around).Quiet := by
  unfold State.fresh
  generalize Fresh.store around = s
  refine quiet_of_bare (fun i => ?_) rfl
  rcases i with _ | i <;> trivial

/-- What is tame in the realm of everything leaves a quiet state quiet and keeps the ledger. -/
theorem Attempt.Tame.quiet {ε α : Type} {P : Realm → α → Prop} {m : Attempt State ε α}
    (h : m.Tame .all P) {st : State} (hst : st.Quiet) :
    (m.on st).2.Quiet ∧ (m.on st).2.store.ledger = st.store.ledger := by
  obtain ⟨R, progress, ledger, -⟩ := h st hst
  obtain rfl := Realm.eq_all progress.le
  exact ⟨progress.sound, ledger⟩

/-- An opener that calls no loader, nor leaves behind functions that meddle with what is kept. -/
structure QuietOpener (opener : Lua.Action TableId) : Prop where
  quiet : ∀ st, st.Quiet → (opener.on st).2.Quiet
  natives : ∀ st, st.Quiet → (opener.on st).2.store.natives = st.store.natives
  opened : ∀ st, st.Quiet → (opener.on st).2.store.opened = st.store.opened

theorem QuietOpener.of_tame {P : Realm → TableId → Prop} {opener : Lua.Action TableId}
    (h : opener.Tame .all P) : QuietOpener opener where
  quiet _ hst := (h.quiet hst).1
  natives _ hst := congrArg Ledger.natives (h.quiet hst).2
  opened _ hst := congrArg Ledger.opened (h.quiet hst).2

namespace NativeLoader

open Attempt

variable {st st' : State} {l : NativeLoader} {m : NativeModule} {name : String} {t : TableId}

/-! ## One load -/

theorem openModule_quiet (hst : st.Quiet) (hm : QuietOpener m.opener) (name : String) :
    ((openModule m name).on st).2.Quiet
      ∧ ((openModule m name).on st).2.store.opened = m.name :: st.store.opened
      ∧ ((openModule m name).on st).2.store.natives
        = match ((openModule m name).on st).1 with
          | .ok t => (name, t) :: st.store.natives
          | .error _ => st.store.natives := by
  have hst₀ : (beginOpening m st).Quiet := (State.Progress.note (W := ∅) hst _ _ _).sound
  have quiet₁ := hm.quiet _ hst₀
  have natives₁ := hm.natives _ hst₀
  have opened₁ := hm.opened _ hst₀
  rw [openModule_on]
  unfold finishOpening
  generalize m.opener.on (beginOpening m st) = r at quiet₁ natives₁ opened₁
  obtain ⟨e | t, st₁⟩ := r
  · exact ⟨quiet₁, opened₁, natives₁⟩
  · have hdisable := (each_disable_tame name m.disabled (Set.mem_univ t)).quiet quiet₁
    dsimp only
    generalize (each (disable name t) m.disabled).on st₁ = r at hdisable
    obtain ⟨e | _, st₂⟩ := r
    · exact ⟨hdisable.1, (congrArg Ledger.opened hdisable.2).trans opened₁,
        (congrArg Ledger.natives hdisable.2).trans natives₁⟩
    · exact ⟨(State.Progress.note (W := ∅) hdisable.1 _ _ _).sound,
        (congrArg Ledger.opened hdisable.2).trans opened₁,
        congrArg (List.cons (name, t)) ((congrArg Ledger.natives hdisable.2).trans natives₁)⟩

/-- A load for which the opener has to run. -/
structure Due (l : NativeLoader) (name : String) (st : State) : Prop where
  permitted : l.permits name
  registered : l.registered name
  fresh : st.store.natives.lookup name = none

theorem load_due (h : Due l name st) :
    ∃ m, l.module? name = some m ∧ (l.load name).on st = (openModule m name).on st := by
  obtain ⟨m, hm⟩ := Option.isSome_iff_exists.1 h.registered
  refine ⟨m, hm, ?_⟩
  rw [load_on, if_pos h.permitted, hm]
  dsimp only
  rw [h.fresh]

/-- A load for which no opener has to run leaves the state as it is, and what it answers rests on the
loader and on what is kept under the name alone. -/
theorem load_not_due (h : ¬ Due l name st) : ((l.load name).on st).2 = st
    ∧ (∀ t, ((l.load name).on st).1 = .ok t → st.store.natives.lookup name = some t)
    ∧ ∀ st', st'.store.natives.lookup name = st.store.natives.lookup name →
      ((l.load name).on st').1 = ((l.load name).on st).1 := by
  have hload {st : State} := load_on l name st
  by_cases hp : l.permits name
  · rcases hm : l.module? name with _ | m
    · simp only [hp, hm, if_true] at hload
      simp [hload]
    · rcases hnone : st.store.natives.lookup name with _ | t
      · exact absurd ⟨hp, by simp [registered, hm], hnone⟩ h
      · have hon : (l.load name).on st = (.ok t, st) := by
          rw [hload, if_pos hp, hm]
          dsimp only
          rw [hnone]
        refine ⟨by rw [hon], ?_, fun st' hst' => ?_⟩
        · rw [hon]
          rintro _ ⟨⟩
          rfl
        · rw [hon, hload, if_pos hp, hm]
          dsimp only
          rw [hst']
  · simp only [hp, Bool.false_eq_true, if_false] at hload
    simp [hload]

/-! ## Histories in one state -/

section History

variable {calls : List Call}

/-- The world after calls that begin in a state. -/
abbrev after (st : State) (calls : List Call) : World := World.run { state := st } calls

/-- Each module stands under its own name. -/
theorem name_of_module? : ∀ {l : Nat} {name : String} {m : NativeModule},
    ((after st calls).loaders l).module? name = some m → m.name = name := by
  -- on the calls from the end: only a registration puts in a module, under its own name
  induction calls using List.reverseRecOn with
  | nil =>
    intro l name m h
    cases h
  | append_singleton calls c ih =>
    intro l name m h
    rw [after, World.run_snoc] at h
    cases c with
    | register l' m' =>
      simp only [World.step, World.setLoader] at h
      split at h
      · rw [module?_register] at h
        split at h
        · rename_i hname
          cases h
          exact hname.symm
        · exact ih h
      · exact ih h
    | allow l' name' | allowRegistered l' | clone l' l'' =>
      simp only [World.step, World.setLoader] at h
      split at h
      · exact ih h
      · exact ih h
    | load l' name' => exact ih h

/-- What a load answers after calls. -/
def answer (st : State) (calls : List Call) (l : Nat) (name : String) : Except LoadRefusal TableId :=
  ((((after st calls).loaders l).load name).on (after st calls).state).1

/-- A load of the history handed out a table under the name. -/
def Gave (st : State) (calls : List Call) (name : String) (t : TableId) : Prop :=
  ∃ before l rest, calls = before ++ .load l name :: rest ∧ answer st before l name = .ok t

theorem not_gave_nil (st : State) (name : String) (t : TableId) : ¬ Gave st [] name t := by
  rintro ⟨before, l, rest, h, -⟩
  exact absurd h.symm (by simp)

theorem gave_snoc {c : Call} : Gave st (calls ++ [c]) name t ↔
    Gave st calls name t ∨ ∃ l, c = .load l name ∧ answer st calls l name = .ok t := by
  constructor
  · rintro ⟨before, l, rest, h, hanswer⟩
    rcases List.eq_nil_or_concat rest with rfl | ⟨rest, c', rfl⟩
    · obtain ⟨rfl, hc⟩ := List.append_inj' h rfl
      exact .inr ⟨l, List.singleton_inj.1 hc, hanswer⟩
    · rw [List.concat_eq_append, ← List.cons_append, ← List.append_assoc] at h
      obtain ⟨rfl, -⟩ := List.append_inj' h rfl
      exact .inl ⟨before, l, rest, rfl, hanswer⟩
  · rintro (⟨before, l, rest, rfl, hanswer⟩ | ⟨l, rfl, hanswer⟩)
    · exact ⟨before, l, rest ++ [c], by simp, hanswer⟩
    · exact ⟨calls, l, [], rfl, hanswer⟩

theorem gave_load {l : Nat} {loaded name : String} :
    Gave st (calls ++ [.load l loaded]) name t ↔
      Gave st calls name t ∨ name = loaded ∧ answer st calls l loaded = .ok t := by
  rw [gave_snoc]
  refine or_congr_right ⟨?_, ?_⟩
  · rintro ⟨l', he, hanswer⟩
    cases he
    exact ⟨rfl, hanswer⟩
  · rintro ⟨rfl, hanswer⟩
    exact ⟨l, rfl, hanswer⟩

/-- Only loads hand out tables. -/
theorem gave_other {c : Call} (hc : ∀ l name, c ≠ .load l name) :
    Gave st (calls ++ [c]) name t ↔ Gave st calls name t := by
  rw [gave_snoc]
  exact ⟨fun h => h.elim id fun ⟨l, he, _⟩ => absurd he (hc l name), .inl⟩

/-- A history that begins quietly with nothing kept, and whose openers call no loader. -/
structure Calm (st : State) (calls : List Call) : Prop where
  quiet : st.Quiet
  empty : st.store.natives = []
  openers : ∀ l m, .register l m ∈ calls → QuietOpener m.opener

theorem Calm.of_append {rest : List Call} (h : Calm st (calls ++ rest)) : Calm st calls :=
  ⟨h.quiet, h.empty, fun l m hmem => h.openers l m (List.mem_append_left _ hmem)⟩

theorem Calm.opener (h : Calm st calls) {l : Nat}
    (hm : ((after st calls).loaders l).module? name = some m) : QuietOpener m.opener := by
  obtain ⟨l', hmem⟩ := registered_of_module? hm
  exact h.openers l' m hmem

/-- What a load does to the state: the opener runs, is told of, and its table is kept if it has one; or
nothing at all happens. -/
structure LoadEffect (w : World) (l : Nat) (name : String) (w' : World) : Prop where
  quiet : w'.state.Quiet
  due : Due (w.loaders l) name w.state → w'.state.store.opened = name :: w.state.store.opened
    ∧ w'.state.store.natives = match (((w.loaders l).load name).on w.state).1 with
      | .ok t => (name, t) :: w.state.store.natives
      | .error _ => w.state.store.natives
  idle : ¬ Due (w.loaders l) name w.state → w'.state = w.state

theorem Calm.loadEffect (h : Calm st calls) (hquiet : (after st calls).state.Quiet) (l : Nat)
    (name : String) :
    LoadEffect (after st calls) l name ((after st calls).step (.load l name)) := by
  by_cases hdue : Due ((after st calls).loaders l) name (after st calls).state
  · obtain ⟨m, hm, hload⟩ := load_due hdue
    have hopen := openModule_quiet hquiet (h.opener hm) name
    rw [← hload, name_of_module? hm] at hopen
    exact ⟨hopen.1, fun _ => hopen.2, fun hn => absurd hdue hn⟩
  · obtain ⟨hsame, -⟩ := load_not_due hdue
    refine ⟨?_, fun hd => absurd hd hdue, fun _ => hsame⟩
    show State.Quiet (((((after st calls).loaders l).load name).on (after st calls).state).2)
    rw [hsame]
    exact hquiet

/-- What is kept under a name is what loads of it handed out. -/
theorem Calm.kept : Calm st calls → (after st calls).state.Quiet
    ∧ ∀ name t, (after st calls).state.store.natives.lookup name = some t ↔ Gave st calls name t := by
  induction calls using List.reverseRecOn with
  | nil =>
    intro h
    refine ⟨h.quiet, fun name t => ?_⟩
    show st.store.natives.lookup name = some t ↔ _
    simp [h.empty, not_gave_nil]
  | append_singleton calls c ih =>
    intro h
    obtain ⟨quiet, kept⟩ := ih h.of_append
    have other (hstate : ((after st calls).step c).state = (after st calls).state)
        (hc : ∀ l name, c ≠ .load l name) : ((after st calls).step c).state.Quiet
          ∧ ∀ name t, ((after st calls).step c).state.store.natives.lookup name = some t
            ↔ Gave st (calls ++ [c]) name t := by
      rw [hstate]
      exact ⟨quiet, fun name t => (kept name t).trans (gave_other hc).symm⟩
    rw [after, World.run_snoc]
    cases c with
    | register l m | allow l name | allowRegistered l | clone l l' => exact other rfl nofun
    | load l name =>
      have effect := h.of_append.loadEffect quiet l name
      refine ⟨effect.quiet, fun name' t => ?_⟩
      rw [gave_load, ← kept name' t]
      -- a load that is not due hands out what is kept already, and one that is due finds nothing kept
      by_cases hdue : Due ((after st calls).loaders l) name (after st calls).state
      · rw [(effect.due hdue).2]
        show (match answer st calls l name with
          | .ok t => (name, t) :: (after st calls).state.store.natives
          | .error _ => (after st calls).state.store.natives).lookup name' = some t ↔ _
        rcases answer st calls l name with e | t'
        · simp
        · by_cases hname : name' = name
          · subst hname
            simp [hdue.fresh]
          · simp [List.lookup_cons, hname, beq_eq_false_iff_ne.2 hname]
      · rw [effect.idle hdue]
        refine ⟨.inl, fun hg => hg.elim id ?_⟩
        rintro ⟨rfl, hanswer⟩
        exact (load_not_due hdue).2.1 t hanswer

/-- A load runs the opener if and only if it is permitted and registered and none of the same name has
succeeded before. -/
theorem Calm.due_iff (h : Calm st calls) (l : Nat) (name : String) :
    Due ((after st calls).loaders l) name (after st calls).state
      ↔ ((after st calls).loaders l).permits name ∧ ((after st calls).loaders l).registered name
        ∧ ∀ t, ¬ Gave st calls name t := by
  have hkept := h.kept.2 name
  constructor
  · rintro ⟨permitted, registered, fresh⟩
    refine ⟨permitted, registered, fun t hgave => ?_⟩
    rw [(hkept t).2 hgave] at fresh
    cases fresh
  · rintro ⟨permitted, registered, hnone⟩
    refine ⟨permitted, registered, ?_⟩
    rw [Option.eq_none_iff_forall_ne_some]
    exact fun t ht => hnone t ((hkept t).1 ht)

theorem Calm.gave_unique (h : Calm st calls) {t' : TableId} (ht : Gave st calls name t)
    (ht' : Gave st calls name t') : t = t' := by
  have hkept := h.kept.2 name
  exact Option.some.inj (((hkept t).2 ht).symm.trans ((hkept t').2 ht'))

/-- A load changes nothing that is kept under other names. -/
theorem LoadEffect.lookup {w w' : World} {l : Nat} (h : LoadEffect w l name w') {other : String}
    (hne : other ≠ name) :
    w'.state.store.natives.lookup other = w.state.store.natives.lookup other := by
  by_cases hdue : Due (w.loaders l) name w.state
  · rw [(h.due hdue).2]
    rcases (((w.loaders l).load name).on w.state).1 with e | t
    · rfl
    · simp [List.lookup_cons, beq_eq_false_iff_ne.2 hne]
  · rw [h.idle hdue]

end History

/-! ## Many states -/

/-- The loaders and the states that they are used with, by number. -/
structure Scene where
  loaders : Nat → NativeLoader := fun _ => {}
  states : Nat → State

namespace Scene

/-- The loaders as they are used with one of the states. -/
def view (s : Scene) (k : Nat) : World := ⟨s.loaders, s.states k⟩

/-- A call that is made with one of the states. -/
def step (s : Scene) (move : Nat × Call) : Scene :=
  let w := (s.view move.1).step move.2
  ⟨w.loaders, fun k => if k = move.1 then w.state else s.states k⟩

def run (s : Scene) (moves : List (Nat × Call)) : Scene := moves.foldl step s

/-- What one of the states is concerned with: what is done to loaders, and the loads in it. -/
def concerning (k : Nat) : Nat × Call → Option Call
  | (j, .load l name) => if j = k then some (.load l name) else none
  | (_, c) => some c

/-- The calls that one of the states is concerned with, in order. -/
def history (k : Nat) (moves : List (Nat × Call)) : List Call := moves.filterMap (concerning k)

theorem view_step (s : Scene) (move : Nat × Call) (k : Nat) :
    (s.step move).view k = match concerning k move with
      | some c => (s.view k).step c
      | none => s.view k := by
  obtain ⟨j, c⟩ := move
  by_cases hk : k = j
  · subst hk
    have hconcerning : concerning k (k, c) = some c := by
      cases c <;> simp [concerning]
    rw [hconcerning]
    simp [view, step]
  · cases c with
    | load l name =>
      rw [concerning, if_neg (Ne.symm hk)]
      simp [view, step, World.step, hk]
    | register l m | allow l name | allowRegistered l | clone l l' =>
      simp [view, step, World.step, World.setLoader, concerning, hk]

/-- Loads in one state do not concern another. -/
theorem view_run (sts : Nat → State) (k : Nat) (moves : List (Nat × Call)) :
    (run { states := sts } moves).view k = after (sts k) (history k moves) := by
  induction moves using List.reverseRecOn with
  | nil => rfl
  | append_singleton moves move ih =>
    have hrun : run { states := sts } (moves ++ [move]) = (run { states := sts } moves).step move := by
      simp [run]
    rw [hrun, view_step, ih]
    rcases hmove : concerning k move with _ | c
    · simp [history, hmove]
    · simp [history, hmove, after, World.run_snoc]

theorem mem_history {k : Nat} {moves : List (Nat × Call)} {c : Call} (h : c ∈ history k moves) :
    ∃ j, (j, c) ∈ moves := by
  obtain ⟨⟨j, c'⟩, hmem, hc⟩ := List.mem_filterMap.1 h
  refine ⟨j, ?_⟩
  cases c' with
  | load l name =>
    rw [concerning] at hc
    split_ifs at hc
    obtain rfl := Option.some.inj hc
    exact hmem
  | register l m | allow l name | allowRegistered l | clone l l' =>
    obtain rfl := Option.some.inj hc
    exact hmem

end Scene

open Scene in
/-- Of any number of loaders that are used with any number of states, each state sees what is done to
loaders and the loads in it, as if there were no others. There the opener of a name runs once for each
load that is permitted and registered, up to the first that hands out a table, and for no other, which
leaves the state as it was; all loads of a name that hand out a table hand out the same; and a load has
no say in whether the opener of another name runs, or in what is answered where it does not. -/
theorem load_once {sts : Nat → State} (quiet : ∀ k, (sts k).Quiet)
    (empty : ∀ k, (sts k).store.natives = []) {moves : List (Nat × Call)}
    (openers : ∀ k l m, (k, .register l m) ∈ moves → QuietOpener m.opener) (k : Nat) :
    (run { states := sts } moves).view k = after (sts k) (history k moves)
      ∧ (∀ before l name rest, history k moves = before ++ .load l name :: rest →
        let w := after (sts k) before
        let w' := after (sts k) (before ++ [.load l name])
        ((w.loaders l).permits name ∧ (w.loaders l).registered name
            ∧ (∀ t, ¬ Gave (sts k) before name t) →
          (∃ m, (w.loaders l).module? name = some m
            ∧ ((w.loaders l).load name).on w.state = (openModule m name).on w.state
            ∧ (openModule m name).on w.state
              = finishOpening name m.disabled (m.opener.on (beginOpening m w.state)))
          ∧ w'.state.store.opened = name :: w.state.store.opened)
        ∧ (¬ ((w.loaders l).permits name ∧ (w.loaders l).registered name
            ∧ ∀ t, ¬ Gave (sts k) before name t) → w'.state = w.state)
        ∧ ∀ (loader : NativeLoader) (other : String), other ≠ name →
          (Due loader other w'.state ↔ Due loader other w.state)
          ∧ (¬ Due loader other w.state →
            ((loader.load other).on w'.state).1 = ((loader.load other).on w.state).1))
      ∧ ∀ name t t', Gave (sts k) (history k moves) name t → Gave (sts k) (history k moves) name t' →
        t = t' := by
  have calm : Calm (sts k) (history k moves) := by
    refine ⟨quiet k, empty k, fun l m hmem => ?_⟩
    obtain ⟨j, hj⟩ := mem_history hmem
    exact openers j l m hj
  -- each state sees a history of its own, so the rest is about one state
  refine ⟨view_run sts k moves, fun before l name rest hsplit => ?_, fun name t t' => calm.gave_unique⟩
  have calm := (hsplit ▸ calm).of_append
  have effect := calm.loadEffect calm.kept.1 l name
  dsimp only
  rw [← calm.due_iff l name, after, after, World.run_snoc]
  refine ⟨fun hdue => ⟨?_, (effect.due hdue).1⟩, effect.idle, fun loader other hne => ?_⟩
  · obtain ⟨m, hm, hload⟩ := load_due hdue
    exact ⟨m, hm, hload, openModule_on m name _⟩
  have same := effect.lookup hne
  refine ⟨?_, fun hnot => (load_not_due hnot).2.2 _ same⟩
  exact ⟨fun h => ⟨h.permitted, h.registered, same ▸ h.fresh⟩,
    fun h => ⟨h.permitted, h.registered, same.trans h.fresh⟩⟩

/-- A module whose table has a table with further fields behind it. -/
def backedNetio : NativeModule where
  name := "netio"
  opener := Opener.fields [("connect", .value (.bool true))] (.fields [("version", .value (.nat 1))])

/-- A module whose table is what a source answers. -/
def clock : NativeModule where
  name := "clock"
  opener := Opener.source "return {now = 3}"

/-- The calls of the history below that come before the first load. -/
def preparing : List Call := [.register 0 backedNetio, .register 0 clock, .allowRegistered 0]

/-- A module is loaded in one state, by way of two loaders, and in another state in between, and so is a
second module. -/
def reloading : List (Nat × Call) :=
  preparing.map (0, ·) ++ [(0, .load 0 "netio"), (1, .load 0 "netio"), (0, .load 0 "clock"), (0, .clone 0 1),
    (0, .load 1 "netio")]

theorem reloading_quiet {k l : Nat} {m : NativeModule} (h : (k, .register l m) ∈ reloading) :
    QuietOpener m.opener := by
  obtain rfl | rfl : m = backedNetio ∨ m = clock := by
    simp only [reloading, preparing, List.map_cons, List.map_nil, List.cons_append, List.nil_append,
      List.mem_cons, Prod.mk.injEq, Call.register.injEq, reduceCtorEq, and_false, List.not_mem_nil,
      or_false] at h
    exact h.imp (·.2.2) (·.2.2)
  · exact .of_tame (Opener.fields_behind_tame (Realm.all_hasAll _) (Realm.all_hasAll _))
  · exact .of_tame (Opener.source_tame _)

open Scene in
theorem load_once_reloading :
    let t : TableId := ⟨(State.fresh {}).store.tables.size⟩
    let calls := history 0 reloading
    (run { states := fun _ => State.fresh {} } reloading).view 0 = after (State.fresh {}) calls
      ∧ Gave (State.fresh {}) calls "netio" t ∧ (∀ t', Gave (State.fresh {}) calls "netio" t' → t' = t)
      ∧ (after (State.fresh {}) (preparing ++ [.load 0 "netio"])).state.store.opened = ["netio"]
      ∧ (after (State.fresh {}) calls).state = (after (State.fresh {})
        (preparing ++ [.load 0 "netio", .load 0 "clock", .clone 0 1])).state := by
  -- the fresh state is quiet and nothing was opened in it, and no more is used of it
  obtain ⟨st, hst, quiet, blank⟩ : ∃ st, st = State.fresh {} ∧ st.Quiet ∧ st.Blank :=
    ⟨_, rfl, State.fresh_quiet {}, State.fresh_blank {}⟩
  rw [← hst]
  intro t calls
  let earlier : List Call := preparing ++ [.load 0 "netio", .load 0 "clock", .clone 0 1]
  have quiet : ∀ k, ((fun _ => st : Nat → State) k).Quiet := fun _ => quiet
  obtain ⟨apart, each, unique⟩ :=
    load_once quiet (fun _ => blank.natives) (fun _ _ _ => reloading_quiet) 0
  have none (t' : TableId) : ¬ Gave st preparing "netio" t' := by
    rintro ⟨before, l, rest, h, -⟩
    have hmem : Call.load l "netio" ∈ preparing := h ▸ by simp
    simp [preparing] at hmem
  obtain ⟨⟨m, hm, hload, hopen⟩, opened⟩ := (each preparing 0 "netio" _ rfl).1 ⟨rfl, rfl, none⟩
  obtain rfl : backedNetio = m := Option.some.inj hm
  have made : (backedNetio.opener.on (beginOpening backedNetio st)).1 = .ok t := rfl
  have answered : answer st preparing 0 "netio" = .ok t := by
    rw [answer, hload, hopen]
    exact congrArg (fun r => (finishOpening "netio" [] r).1) (on_eq made)
  have gave : Gave st calls "netio" t := ⟨preparing, 0, _, rfl, answered⟩
  have gave_earlier : Gave st earlier "netio" t := ⟨preparing, 0, _, rfl, answered⟩
  refine ⟨apart, gave, fun t' h => unique "netio" t' t h gave, ?_, ?_⟩
  · rw [opened]
    exact congrArg (List.cons "netio") blank.opened
  · exact (each earlier 1 "netio" [] rfl).2.1 fun h => h.2.2 t gave_earlier

end NativeLoader

end Enclosure
