import Enclosure.Lua.Machine
import Enclosure.Proofs.Reach.Evaluate

/-!
# The machine in a realm

The machine runs tamely if the functions of the host that the realm has do: each call that waits, in
whichever thread, goes on tamely whatever it is answered, and what it has marked to be closed or to
handle its errors is in the realm. One step keeps this (`step_tame`), and so does a run (`start_tame`).
-/

namespace Enclosure.Lua

variable {R R' : Realm} {fs : Functions} {s s' : Store}

/-- What the functions of the library and of the host do that the realm has. -/
structure Realm.Serves (R : Realm) (fs : Functions) : Prop where
  builtin : ∀ (b : Builtin) (f : FuncId) (captured : Array Value) (args : List Value) (R' : Realm),
    f ∈ R'.functions → R'.HasAll captured.toList → R'.HasAll args →
      (fs.builtin b f captured args).Tame R' Realm.HasAll
  callback : ∀ n ∈ R.callbacks, ∀ (R' : Realm) (args : List Value), R ≤ R' → R'.HasAll args →
    (fs.callback n args).Tame R' Realm.HasAll

theorem Realm.Serves.later (h : R.Serves fs) (hp : Passage R s R' s') : R'.Serves fs :=
  ⟨h.builtin, fun n hn R'' args hle => h.callback n (hp.callbacks ▸ hn) R'' args (hp.le.trans hle)⟩

structure Frame.Tame (R : Realm) (f : Frame) : Prop where
  deferred : R.HasAll f.deferred
  handler : ∀ h through, f.role = .guarded (some h) through → R.Has h
  resume : ∀ vs R' s, R ≤ R' → R'.Closed s → R'.HasAll vs →
    (f.resume vs s).Tame Realm.HasAll R' s

theorem Frame.Tame.up {f : Frame} (h : f.Tame R) (hR : R ≤ R') : f.Tame R' :=
  ⟨h.deferred.up hR, fun a through ha => (h.handler a through ha).up hR,
    fun vs R'' s hle => h.resume vs R'' s (hR.trans hle)⟩

def ThreadState.Tame (R : Realm) : ThreadState → Prop
  | .fresh f => R.Has f
  | .suspended frames => ∀ f ∈ frames, f.Tame R
  | .running => True
  | .normal frames => ∀ f ∈ frames, f.Tame R
  | .finished => True
  | .failed e deferred => R.Has e ∧ R.HasAll deferred

theorem ThreadState.Tame.up {st : ThreadState} (h : st.Tame R) (hR : R ≤ R') : st.Tame R' := by
  cases st with
  | fresh f => exact Realm.Has.up h hR
  | suspended frames | normal frames => exact fun f hf => (h f hf).up hR
  | running | finished => trivial
  | failed e deferred => exact ⟨h.1.up hR, h.2.up hR⟩

/-- What threads are left with may be gone on with. -/
def TameThreads (R : Realm) (threads : Array Thread) : Prop :=
  ∀ i, (threads.getD i default).state.Tame R

theorem TameThreads.up {threads : Array Thread} (h : TameThreads R threads) (hR : R ≤ R') :
    TameThreads R' threads := fun i => (h i).up hR

/-- How a run from a store in a realm may end. -/
def Outcome.Tame (R : Realm) (s : Store) : Outcome → Prop
  | .returned vs s' threads => ∃ R', Passage R s R' s' ∧ R'.HasAll vs ∧ TameThreads R' threads
  | .raised e s' threads => ∃ R', Passage R s R' s' ∧ R'.Has e ∧ TameThreads R' threads
  | .exhausted s' threads => ∃ R', Passage R s R' s' ∧ TameThreads R' threads

theorem Outcome.Tame.after {o : Outcome} (hp : Passage R s R' s') (h : o.Tame R' s') :
    o.Tame R s := by
  cases o with
  | returned vs s' threads | raised e s' threads =>
    obtain ⟨R'', hp', h⟩ := h
    exact ⟨R'', hp.trans hp', h⟩
  | exhausted s' threads =>
    obtain ⟨R'', hp', h⟩ := h
    exact ⟨R'', hp.trans hp', h⟩

namespace Machine

/-- All calls of all threads go on tamely. -/
structure Tame (R : Realm) (m : Machine) : Prop where
  frames : ∀ f ∈ m.frames, f.Tame R
  threads : TameThreads R m.threads

def Next.Tame (R : Realm) (s : Store) : Next → Prop
  | .run m r => ∃ R' s', Passage R s R' s' ∧ m.Tame R' ∧ r.Tame Realm.HasAll R' s'
  | .stop o => o.Tame R s

theorem Next.Tame.after {n : Next} (hp : Passage R s R' s') (h : n.Tame R' s') :
    n.Tame R s := by
  cases n with
  | run m r =>
    obtain ⟨R'', s'', hp', h⟩ := h
    exact ⟨R'', s'', hp.trans hp', h⟩
  | stop o => exact Outcome.Tame.after hp h

variable {m : Machine} {vs args : List Value} {e f v : Value}

theorem Tame.up (h : m.Tame R) (hR : R ≤ R') : m.Tame R' :=
  ⟨fun f hf => (h.frames f hf).up hR, h.threads.up hR⟩

theorem Tame.withFrames (h : m.Tame R) {frames : List Frame} (hf : ∀ f ∈ frames, f.Tame R) :
    Tame R { m with frames } := ⟨hf, h.threads⟩

theorem Next.Tame.run (hs : R.Closed s) (h : m.Tame R) {r : Res (List Value)}
    (hr : r.Tame Realm.HasAll R s) : (Next.run m r).Tame R s := ⟨R, s, .refl hs, h, hr⟩

theorem errorValue?_has {e : Raise} {frames : List Frame} (he : R.Raisable e)
    (h : errorValue? s frames e = some v) : R.Has v := by
  cases e with
  | value w =>
    obtain rfl := Option.some.inj h
    exact he
  | located n b =>
    obtain rfl := Option.some.inj h
    trivial
  | atLine n b =>
    cases frames <;> cases h <;> trivial
  | argument n b =>
    obtain rfl := Option.some.inj h
    trivial
  | exhausted => cases h

/-! ## Threads -/

theorem setThread_tame (h : m.Tame R) (t : ThreadId) {g : Thread → Thread}
    (hg : ∀ th : Thread, th.state.Tame R → (g th).state.Tame R) : (m.setThread t g).Tame R := by
  refine ⟨h.frames, fun i => ?_⟩
  have hi := h.threads i
  simp only [setThread, Array.getD_eq_getD_getElem?, Array.getElem?_modify] at hi ⊢
  split_ifs
  · rcases hget : m.threads[i]? with _ | th
    · exact trivial
    · rw [hget] at hi
      exact hg th hi
  · exact hi

theorem setState_tame (h : m.Tame R) (t : ThreadId) (st : ThreadState) (hst : st.Tame R) :
    (m.setState t st).Tame R := setThread_tame h t fun _ _ => hst

/-! ## Parts of a step -/

theorem deliver_tame (h : m.Tame R) (hvs : R.HasAll vs) (hs : R.Closed s) :
    (m.deliver vs s).Tame R s := by
  unfold deliver
  split
  · rename_i f rest hf
    exact .run hs h ((h.frames f (hf ▸ List.mem_cons_self ..)).resume vs R s (le_refl R) hs hvs)
  · exact ⟨R, .refl hs, hvs, h.threads⟩

theorem switchBack_tame (h : m.Tame R) (st : ThreadState) (hst : st.Tame R)
    (hvs : R.HasAll vs) (hs : R.Closed s) : (m.switchBack st vs s).Tame R s := by
  have hset := setState_tame h m.current st hst
  unfold switchBack
  dsimp only
  split
  · rename_i frames hstate
    have hframes : ThreadState.Tame R (.normal frames) := hstate ▸ hset.threads _
    exact deliver_tame ⟨hframes, (setState_tame hset _ .running trivial).threads⟩ hvs hs
  · exact ⟨R, .refl hs, hvs, hset.threads⟩

theorem splitAtGuard_tame {frames inside below : List Frame} {handler : Option Value}
    (hframes : ∀ f ∈ frames, f.Tame R) (hsplit : splitAtGuard frames = some (inside, handler, below)) :
    (∀ f ∈ inside, f.Tame R) ∧ (∀ h, handler = some h → R.Has h) ∧ ∀ f ∈ below, f.Tame R := by
  obtain ⟨rfl, g, hg, through, hrole⟩ := splitAtGuard_split hsplit
  have hin : ∀ f ∈ inside, f.Tame R := fun f hf => hframes f (List.mem_append_left below hf)
  refine ⟨hin, ?_, fun f hf => hframes f (List.mem_append_right inside hf)⟩
  rintro h rfl
  exact (hin g hg).handler h through hrole

theorem deferredOf_has {frames : List Frame} (h : ∀ f ∈ frames, f.Tame R) :
    R.HasAll (deferredOf frames) := by
  intro v hv
  obtain ⟨f, hf, hv⟩ := List.mem_flatMap.1 hv
  exact (h f hf).deferred v hv

theorem closeAll_tame (passable : Bool) : ∀ (vs : List Value) (failed : Bool) (e : Value) {R : Realm},
    R.HasAll vs → R.Has e → (closeAll passable vs failed e).Tame R fun R' r => R'.Has r.2
  | [], _, _, _, _, he => .pure he
  | v :: rest, failed, e, R, hvs, he => by
    obtain ⟨hv, hrest⟩ := Realm.hasAll_cons.1 hvs
    refine .calmly (.metamethod hv _) fun h hh => ?_
    refine .bind (.ask ⟨hh, .cons hv (Realm.hasAll_one he), nofun⟩) fun ws R₁ h₁ hws => ?_
    split
    · exact closeAll_tame passable rest failed e (hrest.up h₁) (he.up h₁)
    · exact closeAll_tame passable rest true _ (hrest.up h₁) (hws _ (by simp))
    · exact closeAll_tame passable rest failed e (hrest.up h₁) (he.up h₁)

theorem unwind_tame (h : m.Tame R) (he : R.Has e) (hs : R.Closed s) :
    (m.unwind e s).Tame R s := by
  unfold unwind
  split
  · rename_i inside handler below hsplit
    obtain ⟨hin, -, hbelow⟩ := splitAtGuard_tame h.frames hsplit
    -- the calls inside the guard are gone, but the variables that they had to close are still to be
    refine .run hs (h.withFrames hbelow) ?_
    have hclose := closeAll_tame true (deferredOf inside) true e (deferredOf_has hin) he
    refine Run.Tame.bind hclose (fun r R₁ h₁ hr => ?_) s hs
    have hanswer : R₁.HasAll [.bool false, r.2] := .cons trivial (Realm.hasAll_one hr)
    cases below with
    | nil => exact .pure hanswer
    | cons f rest =>
      exact fun s hs => (hbelow f (List.mem_cons_self ..)).resume _ R₁ s h₁ hs hanswer
  · split_ifs
    · exact ⟨R, .refl hs, he, h.threads⟩
    · exact switchBack_tame h _ ⟨he, deferredOf_has h.frames⟩
        (.cons trivial (Realm.hasAll_one he)) hs

theorem resolve_has (hs : R.Closed s) {n : Nat} {f : Value} {args args' : List Value} {g : FuncId}
    (hf : R.Has f) (hargs : R.HasAll args) (h : resolve s n f args = some (g, args')) :
    g ∈ R.functions ∧ R.HasAll args' := by
  obtain ⟨hg, hargs'⟩ := resolve_keeps (P := fun v args => R.Has v ∧ R.HasAll args)
    (fun v args _ hv => ⟨hs.metamethod hv.1 _, .cons hv.1 hv.2⟩) ⟨hf, hargs⟩ h
  exact ⟨hg, hargs'⟩

theorem frame_tame {n : Entry} (hrole : ∀ h through, n.role = .guarded (some h) through → R.Has h)
    (f : Value) (chunk : Option Bytes) (line : Nat) : (n.frame f chunk line).Tame R :=
  ⟨Realm.hasAll_nil, hrole, fun _ _ _ _ hs hvs => .done (.refl hs) hvs⟩

theorem entered_tame (h : m.Tame R) {n : Entry}
    (hrole : ∀ h through, n.role = .guarded (some h) through → R.Has h) (f : Value)
    (chunk : Option Bytes) (line : Nat) (hs : R.Closed s) {r : Res (List Value)}
    (hr : r.Tame Realm.HasAll R s) :
    (Next.run { m with frames := n.frame f chunk line :: m.frames } r).Tame R s :=
  .run hs (h.withFrames (List.forall_mem_cons.2 ⟨frame_tame hrole f chunk line, h.frames⟩)) hr

theorem enter_tame (serves : R.Serves fs) (h : m.Tame R) {n : Entry}
    (hrole : ∀ h through, n.role = .guarded (some h) through → R.Has h) {g : FuncId}
    (hg : g ∈ R.functions) (hargs : R.HasAll args) (hs : R.Closed s) :
    (m.enter fs n g args s).Tame R s := by
  have hruns := hs.function g hg
  unfold enter
  generalize s.function g = o at hruns
  cases hruns with
  | closure body env chunk =>
    exact entered_tame h hrole _ _ _ hs (Evaluate.callBody_tame body env chunk hargs s hs)
  | builtin b hc =>
    exact entered_tame h hrole _ _ _ hs (serves.builtin b g _ args R hg hc hargs s hs)
  | callback hn =>
    exact entered_tame h hrole _ _ _ hs (serves.callback _ hn R args (le_refl R) hargs s hs)

theorem beginCall_tame (serves : R.Serves fs) (h : m.Tame R) (hf : R.Has f)
    (hargs : R.HasAll args) (site : Site) (hs : R.Closed s) :
    (m.beginCall fs f args site s).Tame R s := by
  unfold beginCall
  extract_lets library nesting
  split_ifs
  · exact .run hs h ((Operation.failAt_plain _ _).fails s hs)
  · exact .run hs h ((Operation.failAt_plain _ _).fails s hs)
  · split
    · rename_i hres
      obtain ⟨hg, hargs'⟩ := resolve_has hs hf hargs hres
      exact enter_tame serves h (by simp) hg hargs' hs
    · exact .run hs h ((Operation.failType_plain _ _ _ _).fails s hs)

theorem beginGuarded_tame (serves : R.Serves fs) (h : m.Tame R) (hf : R.Has f)
    (hargs : R.HasAll args) {handler : Option Value} (hh : ∀ a, handler = some a → R.Has a)
    (passable : Bool) (hs : R.Closed s) :
    (m.beginGuarded fs f args handler passable s).Tame R s := by
  have hrole : ∀ a through, Role.guarded handler passable = .guarded (some a) through → R.Has a :=
    fun a through he => hh a (Role.guarded.inj he).1
  unfold beginGuarded
  dsimp only
  split_ifs
  · exact entered_tame h hrole _ _ _ hs (Run.Tame.failPlain _ s hs)
  · split
    · rename_i hres
      obtain ⟨hg, hargs'⟩ := resolve_has hs hf hargs hres
      exact enter_tame serves h hrole hg hargs' hs
    · exact entered_tame h hrole _ _ _ hs ((Operation.failType_plain _ _ _ _).fails s hs)

theorem replaceCall_tame (serves : R.Serves fs) (h : m.Tame R) (hf : R.Has f)
    (hargs : R.HasAll args) (site : Site) (hs : R.Closed s) :
    (m.replaceCall fs f args site s).Tame R s := by
  unfold replaceCall
  split
  · rename_i top rest g vs hframes hres
    obtain ⟨hg, hvs⟩ := resolve_has hs hf hargs hres
    have htop := h.frames top (hframes ▸ List.mem_cons_self ..)
    have hbelow : Tame R { m with frames := rest } :=
      h.withFrames fun g hg => h.frames g (hframes ▸ List.mem_cons_of_mem _ hg)
    split
    · exact enter_tame serves hbelow htop.handler hg hvs hs
    · exact beginCall_tame serves h hf hargs site hs
  · exact beginCall_tame serves h hf hargs site hs

theorem handle_tame (serves : R.Serves fs) (h : m.Tame R) (hv : R.Has v) (hs : R.Closed s) :
    (m.handle fs v s).Tame R s := by
  unfold handle
  split
  · rename_i hsplit
    obtain ⟨-, hhandler, -⟩ := splitAtGuard_tame h.frames hsplit
    have hcall := hhandler _ rfl
    dsimp only
    split_ifs
    · exact unwind_tame h trivial hs
    · split
      · rename_i hres
        obtain ⟨hg, hargs⟩ := resolve_has hs hcall (Realm.hasAll_one hv) hres
        exact enter_tame serves h (by simp) hg hargs hs
      · exact entered_tame h (by simp) _ _ _ hs ((Operation.failType_plain _ _ _ _).fails s hs)
  · exact unwind_tame h hv hs

/-! ## Requests -/

theorem resume_tame (serves : R.Serves fs) (h : m.Tame R) (t : ThreadId)
    (hargs : R.HasAll args) (hs : R.Closed s) : (m.resume fs t args s).Tame R s := by
  have hstate := h.threads t.index
  unfold resume
  extract_lets refuse nesting paused running start e
  have refused (why : String) : (refuse why).Tame R s :=
    deliver_tame h (.cons trivial (Realm.hasAll_one trivial)) hs
  -- the threads are the same whichever calls the resumed one has
  have started (frames : List Frame) (hframes : ∀ f ∈ frames, f.Tame R) : (start frames).Tame R := by
    have set := setThread_tame (setState_tame h m.current (.normal m.frames) h.frames) t
      (g := fun _ => { state := .running, resumer := m.current }) fun _ _ => trivial
    exact ⟨hframes, set.threads⟩
  clear_value start refuse
  split
  · exact refused _
  · split
    · rename_i f hfresh
      rw [hfresh] at hstate
      split
      · exact refused _
      · split
        · rename_i hres
          obtain ⟨hg, hargs'⟩ := resolve_has hs hstate hargs hres
          exact enter_tame serves (started [] (List.forall_mem_nil _)) (by simp) hg hargs' hs
        · exact entered_tame (started [] (List.forall_mem_nil _)) (by simp) _ _ _ hs
            ((Operation.failType_plain _ _ _ _).fails s hs)
    · rename_i frames hsuspended
      rw [hsuspended] at hstate
      split
      · exact refused _
      · exact deliver_tame (started frames hstate) hargs hs
    · exact refused _
    · exact refused _
    · exact refused _
    · exact refused _

theorem closeThread_tame (h : m.Tame R) (t : ThreadId) (hs : R.Closed s) :
    (m.closeThread t s).Tame R s := by
  have hstate := h.threads t.index
  have hset := setState_tame h t .finished trivial
  unfold closeThread
  split
  rename_i failed e deferred hparts
  -- what is still to be closed is in the realm, whatever the thread was doing
  obtain ⟨he, hd⟩ : R.Has e ∧ R.HasAll deferred := by
    split at hparts
    · rename_i frames hsuspended
      rw [hsuspended] at hstate
      cases hparts
      exact ⟨trivial, deferredOf_has hstate⟩
    · rename_i hfailed
      rw [hfailed] at hstate
      cases hparts
      exact hstate
    · cases hparts
      exact ⟨trivial, Realm.hasAll_nil⟩
  dsimp only
  split
  · rename_i f rest hframes
    have hf := hset.frames f (hframes ▸ List.mem_cons_self ..)
    refine .run hs hset (Run.Tame.bind (closeAll_tame false deferred failed e hd he)
      (fun r R₁ h₁ hr => ?_) s hs)
    refine fun s hs => hf.resume _ R₁ s h₁ hs ?_
    split_ifs
    · exact .cons trivial (Realm.hasAll_one hr)
    · exact Realm.hasAll_one trivial
  · exact deliver_tame hset (Realm.hasAll_one trivial) hs

/-- Other values may be marked to be closed by the innermost call. -/
theorem deferred_tame (h : m.Tame R) {f : Frame} {rest : List Frame} (hframes : m.frames = f :: rest)
    {deferred : List Value} (hd : R.HasAll deferred) :
    Tame R { m with frames := { f with deferred } :: rest } := by
  have hf := h.frames f (hframes ▸ List.mem_cons_self ..)
  exact h.withFrames (List.forall_mem_cons.2 ⟨⟨hd, hf.handler, hf.resume⟩,
    fun g hg => h.frames g (hframes ▸ List.mem_cons_of_mem _ hg)⟩)

theorem spawn_tame (h : m.Tame R) (hf : R.Has f) :
    Tame R { m with threads := m.threads.push ⟨.fresh f, ⟨0⟩⟩ } := by
  refine ⟨h.frames, fun i => ?_⟩
  have hi := h.threads i
  simp only [Array.getD_eq_getD_getElem?, Array.getElem?_push] at hi ⊢
  split_ifs
  · exact hf
  · exact hi

theorem answer_tame (serves : R.Serves fs) (h : m.Tame R) {q : Request} (hq : R.Askable q)
    (hs : R.Closed s) : (m.answer fs q s).Tame R s := by
  cases q with
  | call f args site => exact beginCall_tame serves h hq.1 hq.2 site hs
  | tailCall f args site => exact replaceCall_tame serves h hq.1 hq.2 site hs
  | protectedCall f args handler passable =>
    exact beginGuarded_tame serves h hq.1 hq.2.1 hq.2.2 passable hs
  | defer v =>
    unfold answer
    dsimp only
    split
    · rename_i f rest hframes
      have hf := h.frames f (hframes ▸ List.mem_cons_self ..)
      exact deliver_tame (deferred_tame h hframes (.cons hq hf.deferred)) Realm.hasAll_nil hs
    · exact deliver_tame h Realm.hasAll_nil hs
  | closeLast line =>
    unfold answer
    dsimp only
    split
    · rename_i f rest hframes
      have hf := h.frames f (hframes ▸ List.mem_cons_self ..)
      split
      · rename_i v deferred hdeferred
        obtain ⟨hv, hrest⟩ := Realm.hasAll_cons.1 (hdeferred ▸ hf.deferred)
        exact beginCall_tame serves (deferred_tame h hframes hrest) (hs.metamethod hv _)
          (.cons hv (Realm.hasAll_one Realm.has_nil)) _ hs
      · exact deliver_tame h Realm.hasAll_nil hs
    · exact deliver_tame h Realm.hasAll_nil hs
  | spawn f => exact deliver_tame (spawn_tame h hq) (Realm.hasAll_one (Realm.has_thread _)) hs
  | resume t args => exact resume_tame serves h t hq hs
  | yield vs =>
    unfold answer
    dsimp only
    split_ifs
    · exact switchBack_tame h (.suspended m.frames) h.frames (.cons trivial hq) hs
    · exact .run hs h (Run.Tame.failPlain _ s hs)
    · exact .run hs h (Run.Tame.failPlain _ s hs)
  | status t => exact deliver_tame h (Realm.hasAll_one (Realm.has_text _)) hs
  | running =>
    exact deliver_tame h (.cons (Realm.has_thread _) (Realm.hasAll_one (Realm.has_bool _))) hs
  | isYieldable t => exact deliver_tame h (Realm.hasAll_one (Realm.has_bool _)) hs
  | closeThread t => exact closeThread_tame h t hs

/-! ## Steps -/

theorem leave_tame (h : m.Tame R) (hvs : R.HasAll vs) (hs : R.Closed s) :
    (m.leave vs s).Tame R s := by
  unfold leave
  split
  · exact ⟨R, .refl hs, hvs, h.threads⟩
  · rename_i f below hframes
    have hbelow : Tame R { m with frames := below } :=
      h.withFrames fun g hg => h.frames g (hframes ▸ List.mem_cons_of_mem _ hg)
    dsimp only
    split
    · exact deliver_tame hbelow hvs hs
    · exact deliver_tame hbelow (.cons trivial hvs) hs
    · exact unwind_tame hbelow hvs.headD hs
    · split_ifs
      · exact ⟨R, .refl hs, hvs, h.threads⟩
      · exact switchBack_tame hbelow .finished trivial (.cons trivial hvs) hs

theorem park_tame (h : m.Tame R) (q : Request) {k : List Value → Store → Res (List Value)}
    (hk : ∀ vs R' s, R ≤ R' → R'.Closed s → R'.HasAll vs →
      (k vs s).Tame Realm.HasAll R' s) : (m.park q k).Tame R := by
  unfold park
  split
  · rename_i f rest hframes
    have hf := h.frames f (hframes ▸ List.mem_cons_self ..)
    exact h.withFrames (List.forall_mem_cons.2 ⟨⟨hf.deferred, hf.handler, hk⟩,
      fun g hg => h.frames g (hframes ▸ List.mem_cons_of_mem _ hg)⟩)
  · exact h

theorem step_tame (serves : R.Serves fs) (h : m.Tame R) {r : Res (List Value)}
    (hr : r.Tame Realm.HasAll R s) : (m.step fs r).Tame R s := by
  cases hr with
  | done hp hvs => exact .after hp (leave_tame (h.up hp.le) hvs hp.closed)
  | raise hp he =>
    unfold step
    dsimp only
    split
    · rename_i hv
      exact .after hp (handle_tame (serves.later hp) (h.up hp.le) (errorValue?_has he hv) hp.closed)
    · exact ⟨_, hp, h.threads.up hp.le⟩
  | ask hp hq hk =>
    exact .after hp (answer_tame (serves.later hp) (park_tame (h.up hp.le) _ hk) hq hp.closed)

theorem run_tame : ∀ (n : Nat) {m : Machine} {r : Res (List Value)} {R : Realm} {s : Store},
    R.Serves fs → m.Tame R → r.Tame Realm.HasAll R s → (run fs n m r).Tame R s
  | 0, m, r, R, s, _, h, hr => by
    cases hr with
    | done hp _ | raise hp _ => exact ⟨_, hp, h.threads.up hp.le⟩
    | ask hp _ _ => exact ⟨_, hp, h.threads.up hp.le⟩
  | n + 1, m, r, R, s, serves, h, hr => by
    have hstep := step_tame serves h hr
    rw [run_succ]
    generalize m.step fs r = next at hstep
    cases next with
    | run m' r' =>
      obtain ⟨R', s', hp, hm, hr⟩ := hstep
      exact .after hp (run_tame n (serves.later hp) hm hr)
    | stop o => exact hstep

/-- A tame run on the main thread ends in a store that is closed over what the realm has grown to. -/
theorem start_tame (serves : R.Serves fs) {threads : Array Thread}
    (hthreads : TameThreads R threads) {m : Run (List Value)} (hm : m.Tame R Realm.HasAll)
    (hs : R.Closed s) : (start fs threads m s).Tame R s := by
  refine run_tame _ serves ⟨?_, hthreads⟩ (hm s hs)
  intro f hf
  obtain rfl := List.mem_singleton.1 hf
  exact ⟨Realm.hasAll_nil, by simp, fun _ _ _ _ hs hvs => .done (.refl hs) hvs⟩

end Machine

end Enclosure.Lua
