import Enclosure.Proofs.Confinement.Operation

/-!
# The machine in a zone

The machine runs safely if the functions that scripts may call do: each call that waits goes on safely,
whatever it is answered, and what it has marked to be closed or to handle its errors may be called. One
step keeps this (`step_safe`), and so does a run (`start_safe`).
-/

namespace Enclosure.Lua

variable {Z : Zone} {fs : Functions} {s : Store}

/-- What functions do that may be called on behalf of scripts. -/
structure Zone.Serves (Z : Zone) (fs : Functions) : Prop where
  builtin : ∀ (b : Builtin) (f : FuncId) (captured : Array Value) (args : List Value) (s : Store),
    Z.allows b → Z.Public (.func f) → s.function f = .builtin b captured →
    Z.Publics captured.toList → Z.Publics args → Z.Confined s →
      (fs.builtin b f captured args s).Safe Z Z.Publics
  gate : ∀ g ∈ Z.gates, ¬ Z.Public (.func g) ∧ ∃ b captured, Z.base.function g = .builtin b captured ∧
    ∀ args, Z.Publics args → (fs.builtin b g captured args).Safe Z Z.Publics
  closure : Z.closures → ∀ body env chunk args, (∀ c ∈ env, Z.OwnCell c) → Z.Publics args →
    (Evaluate.callBody body env chunk args).Safe Z Z.Publics

structure Frame.Safe (Z : Zone) (f : Frame) : Prop where
  deferred : Z.Publics f.deferred
  handler : ∀ h through, f.role = .guarded (some h) through → Z.Callable h
  resume : ∀ vs s, Z.Publics vs → Z.Confined s → (f.resume vs s).Safe Z Z.Publics

def Outcome.Safe (Z : Zone) : Outcome → Prop
  | .returned vs s _ => Z.Publics vs ∧ Z.Confined s
  | .raised e s _ => Z.Public e ∧ Z.Confined s
  | .exhausted s _ => Z.Confined s

namespace Machine

/-- The main thread runs, and all its calls go on safely. -/
structure Safe (Z : Zone) (m : Machine) : Prop where
  frames : ∀ f ∈ m.frames, f.Safe Z
  main : m.isMain

def Next.Safe (Z : Zone) : Next → Prop
  | .run m r => m.Safe Z ∧ r.Safe Z Z.Publics
  | .stop o => o.Safe Z

variable {m : Machine} {vs args : List Value} {e f v : Value}

theorem errorValue?_public {e : Raise} {frames : List Frame} (he : Z.Raisable e)
    (h : errorValue? s frames e = some v) : Z.Public v := by
  cases e with
  | value w =>
    obtain rfl := Option.some.inj h
    exact he
  | located n b =>
    obtain rfl := Option.some.inj h
    trivial
  | atLine n b =>
    cases frames <;> cases h <;> trivial
  | argument n b =>
    obtain rfl := Option.some.inj h
    trivial
  | exhausted => cases h

/-! ## Parts of a step -/

theorem deliver_safe (h : m.Safe Z) (hvs : Z.Publics vs) (hs : Z.Confined s) :
    (m.deliver vs s).Safe Z := by
  unfold deliver
  split
  · rename_i f rest hf
    exact ⟨h, (h.frames f (hf ▸ List.mem_cons_self ..)).resume vs s hvs hs⟩
  · exact ⟨hvs, hs⟩

theorem splitAtGuard_safe {frames inside below : List Frame} {handler : Option Value}
    (hframes : ∀ f ∈ frames, f.Safe Z) (hsplit : splitAtGuard frames = some (inside, handler, below)) :
    (∀ f ∈ inside, f.Safe Z) ∧ (∀ h, handler = some h → Z.Callable h) ∧ ∀ f ∈ below, f.Safe Z := by
  obtain ⟨rfl, g, hg, through, hrole⟩ := splitAtGuard_split hsplit
  have hin : ∀ f ∈ inside, f.Safe Z := fun f hf => hframes f (List.mem_append_left below hf)
  refine ⟨hin, ?_, fun f hf => hframes f (List.mem_append_right inside hf)⟩
  rintro h rfl
  exact (hin g hg).handler h through hrole

theorem deferredOf_public {frames : List Frame} (h : ∀ f ∈ frames, f.Safe Z) :
    Z.Publics (deferredOf frames) := by
  intro v hv
  obtain ⟨f, hf, hv⟩ := List.mem_flatMap.1 hv
  exact (h f hf).deferred v hv

theorem closeAll_safe (sound : Z.Sound) (passable : Bool) : ∀ (vs : List Value) (failed : Bool)
    (e : Value), Z.Publics vs → Z.Public e →
      (closeAll passable vs failed e).Safe Z fun r => Z.Public r.2
  | [], _, _, _, he => .pure he
  | v :: rest, failed, e, hvs, he => by
    obtain ⟨hv, hrest⟩ := Zone.publics_cons.1 hvs
    refine .bind (.metamethod sound hv (by decide) (by decide)) fun h hh => ?_
    refine .bind (.ask ⟨hh, Zone.publics_cons.2 ⟨hv, Zone.publics_one he⟩, by simp⟩) fun ws hws => ?_
    split
    · exact closeAll_safe sound passable rest failed e hrest he
    · refine closeAll_safe sound passable rest true _ hrest (hws _ ?_)
      simp
    · exact closeAll_safe sound passable rest failed e hrest he

theorem unwind_safe (sound : Z.Sound) (h : m.Safe Z) (he : Z.Public e) (hs : Z.Confined s) :
    (m.unwind e s).Safe Z := by
  unfold unwind
  split
  · rename_i inside handler below hsplit
    obtain ⟨hin, -, hbelow⟩ := splitAtGuard_safe h.frames hsplit
    -- the calls inside the guard are gone, but the variables that they had to close are still to be
    refine ⟨⟨hbelow, h.main⟩, ?_⟩
    have hclose := closeAll_safe sound true (deferredOf inside) true e (deferredOf_public hin) he
    refine Run.Safe.bind hclose (fun r hr => ?_) s hs
    have hanswer : Z.Publics [.bool false, r.2] :=
      Zone.publics_cons.2 ⟨trivial, Zone.publics_one hr⟩
    cases below with
    | nil => exact .pure hanswer
    | cons f rest =>
      exact fun s hs => (hbelow f (List.mem_cons_self ..)).resume _ s hanswer hs
  · rw [if_pos h.main]
    exact ⟨he, hs⟩

theorem resolve_callable (sound : Z.Sound) (hs : Z.Confined s) {n : Nat} {f : Value}
    {args args' : List Value} {g : FuncId} (hf : Z.Callable f) (hargs : Z.Publics args)
    (h : resolve s n f args = some (g, args')) : Z.Callable (.func g) ∧ Z.Publics args' := by
  refine resolve_keeps (P := fun v args => Z.Callable v ∧ Z.Publics args) (fun v args hne hv => ?_)
    ⟨hf, hargs⟩ h
  have hpublic : Z.Public v := hv.1.public_of_ne hne
  exact ⟨hs.metamethod sound hpublic (by decide) (by decide), Zone.publics_cons.2 ⟨hpublic, hv.2⟩⟩

theorem frame_safe {n : Entry} (hrole : ∀ h through, n.role = .guarded (some h) through → Z.Callable h)
    (f : Value) (chunk : Option Bytes) (line : Nat) : (n.frame f chunk line).Safe Z :=
  ⟨Zone.publics_nil, hrole, fun _ _ hvs hs => .done hs hvs⟩

theorem entered_safe (h : m.Safe Z) {n : Entry}
    (hrole : ∀ h through, n.role = .guarded (some h) through → Z.Callable h) (f : Value)
    (chunk : Option Bytes) (line : Nat) {r : Res (List Value)} (hr : r.Safe Z Z.Publics) :
    (Next.run { m with frames := n.frame f chunk line :: m.frames } r).Safe Z :=
  ⟨⟨List.forall_mem_cons.2 ⟨frame_safe hrole f chunk line, h.frames⟩, h.main⟩, hr⟩

theorem enter_safe (serves : Z.Serves fs) (h : m.Safe Z) {n : Entry}
    (hrole : ∀ h through, n.role = .guarded (some h) through → Z.Callable h) {g : FuncId}
    (hg : Z.Callable (.func g)) (hargs : Z.Publics args) (hs : Z.Confined s) :
    (m.enter fs n g args s).Safe Z := by
  rcases hg with hg | ⟨g', hgate, he⟩
  · have hruns := hs.function g hg
    unfold enter
    generalize hobj : s.function g = o at hruns
    cases hruns with
    | builtin hb hc =>
      exact entered_safe h hrole _ _ _ (serves.builtin _ g _ args s hb hg hobj hc hargs hs)
    | closure hcl henv =>
      exact entered_safe h hrole _ _ _ (serves.closure hcl _ _ _ args henv hargs s hs)
  · obtain rfl := Value.func.inj he
    obtain ⟨hidden, b, captured, hobj, hrun⟩ := serves.gate g hgate
    unfold enter
    rw [hs.hiddenFunction g hidden, hobj]
    exact entered_safe h hrole _ _ _ (hrun args hargs s hs)

theorem beginCall_safe (sound : Z.Sound) (serves : Z.Serves fs) (h : m.Safe Z) (hf : Z.Callable f)
    (hargs : Z.Publics args) (site : Site) (hs : Z.Confined s) :
    (m.beginCall fs f args site s).Safe Z := by
  unfold beginCall
  extract_lets library nesting
  split_ifs
  · exact ⟨h, (Operation.failAt_plain _ _).safe s hs⟩
  · exact ⟨h, (Operation.failAt_plain _ _).safe s hs⟩
  · split
    · rename_i hres
      obtain ⟨hg, hargs'⟩ := resolve_callable sound hs hf hargs hres
      exact enter_safe serves h (by simp) hg hargs' hs
    · exact ⟨h, (Operation.failType_plain _ _ _ _).safe s hs⟩

theorem beginGuarded_safe (sound : Z.Sound) (serves : Z.Serves fs) (h : m.Safe Z) (hf : Z.Callable f)
    (hargs : Z.Publics args) {handler : Option Value} (hh : ∀ a, handler = some a → Z.Callable a)
    (passable : Bool) (hs : Z.Confined s) :
    (m.beginGuarded fs f args handler passable s).Safe Z := by
  have hrole : ∀ a through, Role.guarded handler passable = .guarded (some a) through →
      Z.Callable a := by
    intro a through he
    exact hh a (Role.guarded.inj he).1
  unfold beginGuarded
  dsimp only
  split_ifs
  · exact entered_safe h hrole _ _ _ (Run.Safe.failPlain _ s hs)
  · split
    · rename_i hres
      obtain ⟨hg, hargs'⟩ := resolve_callable sound hs hf hargs hres
      exact enter_safe serves h hrole hg hargs' hs
    · exact entered_safe h hrole _ _ _ ((Operation.failType_plain _ _ _ _).safe s hs)

theorem replaceCall_safe (sound : Z.Sound) (serves : Z.Serves fs) (h : m.Safe Z) (hf : Z.Callable f)
    (hargs : Z.Publics args) (site : Site) (hs : Z.Confined s) :
    (m.replaceCall fs f args site s).Safe Z := by
  unfold replaceCall
  split
  · rename_i top rest g vs hframes hres
    obtain ⟨hg, hvs⟩ := resolve_callable sound hs hf hargs hres
    have htop := h.frames top (hframes ▸ List.mem_cons_self ..)
    have hbelow : Safe Z { m with frames := rest } :=
      ⟨fun g hg => h.frames g (hframes ▸ List.mem_cons_of_mem _ hg), h.main⟩
    split
    · exact enter_safe serves hbelow htop.handler hg hvs hs
    · exact beginCall_safe sound serves h hf hargs site hs
  · exact beginCall_safe sound serves h hf hargs site hs

theorem handle_safe (sound : Z.Sound) (serves : Z.Serves fs) (h : m.Safe Z) (hv : Z.Public v)
    (hs : Z.Confined s) : (m.handle fs v s).Safe Z := by
  unfold handle
  split
  · rename_i hsplit
    obtain ⟨-, hhandler, -⟩ := splitAtGuard_safe h.frames hsplit
    have hcall := hhandler _ rfl
    dsimp only
    split_ifs
    · exact unwind_safe sound h trivial hs
    · split
      · rename_i hres
        obtain ⟨hg, hargs⟩ := resolve_callable sound hs hcall (Zone.publics_one hv) hres
        exact enter_safe serves h (by simp) hg hargs hs
      · exact entered_safe h (by simp) _ _ _ ((Operation.failType_plain _ _ _ _).safe s hs)
  · exact unwind_safe sound h hv hs

/-! ## Steps -/

theorem answer_safe (sound : Z.Sound) (serves : Z.Serves fs) (h : m.Safe Z) {q : Request}
    (hq : Z.Askable q) (hs : Z.Confined s) : (m.answer fs q s).Safe Z := by
  cases q with
  | call f args site => exact beginCall_safe sound serves h hq.1 hq.2 site hs
  | tailCall f args site => exact replaceCall_safe sound serves h hq.1 hq.2 site hs
  | protectedCall f args handler passable =>
    exact beginGuarded_safe sound serves h hq.1 hq.2.1 hq.2.2 passable hs
  | defer v =>
    unfold answer
    dsimp only
    split
    · rename_i f rest hframes
      have hf := h.frames f (hframes ▸ List.mem_cons_self ..)
      refine deliver_safe ⟨List.forall_mem_cons.2 ⟨⟨?_, hf.handler, hf.resume⟩, fun g hg => ?_⟩,
        h.main⟩ Zone.publics_nil hs
      · exact Zone.publics_cons.2 ⟨hq, hf.deferred⟩
      · exact h.frames g (hframes ▸ List.mem_cons_of_mem _ hg)
    · exact deliver_safe h Zone.publics_nil hs
  | closeLast line =>
    unfold answer
    dsimp only
    split
    · rename_i f rest hframes
      have hf := h.frames f (hframes ▸ List.mem_cons_self ..)
      split
      · rename_i v deferred hdeferred
        obtain ⟨hv, hrest⟩ := Zone.publics_cons.1 (hdeferred ▸ hf.deferred)
        have hpopped : Safe Z { m with frames := { f with deferred } :: rest } :=
          ⟨List.forall_mem_cons.2 ⟨⟨hrest, hf.handler, hf.resume⟩,
            fun g hg => h.frames g (hframes ▸ List.mem_cons_of_mem _ hg)⟩, h.main⟩
        have hargs : Z.Publics [v, .nil] := Zone.publics_cons.2 ⟨hv, Zone.publics_one trivial⟩
        exact beginCall_safe sound serves hpopped
          (hs.metamethod sound hv (by decide) (by decide)) hargs _ hs
      · exact deliver_safe h Zone.publics_nil hs
    · exact deliver_safe h Zone.publics_nil hs
  -- scripts have no threads, so nothing that is safe asks for one
  | spawn | resume | yield | status | running | isYieldable | closeThread => exact hq.elim

theorem leave_safe (sound : Z.Sound) (h : m.Safe Z) (hvs : Z.Publics vs) (hs : Z.Confined s) :
    (m.leave vs s).Safe Z := by
  unfold leave
  split
  · exact ⟨hvs, hs⟩
  · rename_i f below hframes
    have hbelow : Safe Z { m with frames := below } :=
      ⟨fun g hg => h.frames g (hframes ▸ List.mem_cons_of_mem _ hg), h.main⟩
    dsimp only
    split
    · exact deliver_safe hbelow hvs hs
    · exact deliver_safe hbelow (Zone.publics_cons.2 ⟨trivial, hvs⟩) hs
    · exact unwind_safe sound hbelow hvs.headD hs
    · rw [if_pos hbelow.main]
      exact ⟨hvs, hs⟩

theorem park_safe (h : m.Safe Z) (q : Request) {k : List Value → Store → Res (List Value)}
    (hk : ∀ vs s, Z.Publics vs → Z.Confined s → (k vs s).Safe Z Z.Publics) : (m.park q k).Safe Z := by
  unfold park
  split
  · rename_i f rest hframes
    have hf := h.frames f (hframes ▸ List.mem_cons_self ..)
    exact ⟨List.forall_mem_cons.2 ⟨⟨hf.deferred, hf.handler, hk⟩,
      fun g hg => h.frames g (hframes ▸ List.mem_cons_of_mem _ hg)⟩, h.main⟩
  · exact h

theorem step_safe (sound : Z.Sound) (serves : Z.Serves fs) (h : m.Safe Z) {r : Res (List Value)}
    (hr : r.Safe Z Z.Publics) : (m.step fs r).Safe Z := by
  cases hr with
  | done hs hvs => exact leave_safe sound h hvs hs
  | raise hs he =>
    unfold step
    dsimp only
    split
    · rename_i hv
      exact handle_safe sound serves h (errorValue?_public he hv) hs
    · exact hs
  | ask hs hq hk => exact answer_safe sound serves (park_safe h _ hk) hq hs

theorem run_safe (sound : Z.Sound) (serves : Z.Serves fs) : ∀ (n : Nat) {m : Machine}
    {r : Res (List Value)}, m.Safe Z → r.Safe Z Z.Publics → (run fs n m r).Safe Z
  | 0, m, r, _, hr => by
    cases hr <;> assumption
  | n + 1, m, r, h, hr => by
    have hstep := step_safe sound serves h hr
    rw [run_succ]
    generalize m.step fs r = next at hstep
    cases next with
    | run m' r' => exact run_safe sound serves n hstep.1 hstep.2
    | stop o => exact hstep

/-- A safe run on the main thread ends in a confined store with what scripts may hold. -/
theorem start_safe (sound : Z.Sound) (serves : Z.Serves fs) (threads : Array Thread)
    {m : Run (List Value)} (hm : m.Safe Z Z.Publics) (hs : Z.Confined s) :
    (start fs threads m s).Safe Z := by
  refine run_safe sound serves _ ⟨?_, rfl⟩ (hm s hs)
  intro f hf
  obtain rfl := List.mem_singleton.1 hf
  exact ⟨Zone.publics_nil, by simp, fun _ _ hvs hs => .done hs hvs⟩

end Machine

end Enclosure.Lua
