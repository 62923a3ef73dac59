import Enclosure.Proofs.Plain.Run
import Enclosure.Proofs.Reach.Realm

/-!
# Tame runs

A run is tame in a realm if from every store that is closed over the realm it comes to stores that are
closed over what the realm has grown to, hands on nothing else, and leaves alone what is outside. Where
it asks for something, others may run before it is answered, and it goes on tamely in whatever realm
they leave. A calm run asks for nothing and makes neither tables nor functions, so that what is known of
the realm before is known of it afterwards.
-/

namespace Enclosure.Lua

namespace Realm

/-- What an error may carry. -/
def Raisable (R : Realm) : Raise → Prop
  | .value v => R.Has v
  | _ => True

/-- What may be asked for. -/
def Askable (R : Realm) : Request → Prop
  | .call f args _ => R.Has f ∧ R.HasAll args
  | .tailCall f args _ => R.Has f ∧ R.HasAll args
  | .protectedCall f args handler _ =>
    R.Has f ∧ R.HasAll args ∧ ∀ h, handler = some h → R.Has h
  | .defer v => R.Has v
  | .spawn f => R.Has f
  | .resume _ args => R.HasAll args
  | .yield vs => R.HasAll vs
  | _ => True

end Realm

variable {R R' : Realm} {α β : Type} {P : Realm → α → Prop} {Q : Realm → β → Prop}
  {s s' : Store}

/-- What a run from a store in a realm comes to. -/
inductive Res.Tame (P : Realm → α → Prop) : Realm → Store → Res α → Prop
  | done {R R' : Realm} {s s' : Store} {a : α} (h : Passage R s R' s') (ha : P R' a) :
    Tame P R s (.done a s')
  | raise {R R' : Realm} {s s' : Store} {e : Raise} (h : Passage R s R' s') (he : R'.Raisable e) :
    Tame P R s (.raise e s')
  | ask {R R' : Realm} {s s' : Store} {q : Request} {k : List Value → Store → Res α}
    (h : Passage R s R' s') (hq : R'.Askable q)
    (hk : ∀ vs R'' s'', R' ≤ R'' → R''.Closed s'' → R''.HasAll vs → Tame P R'' s'' (k vs s'')) :
    Tame P R s (.ask q s' k)

namespace Res.Tame

/-- What a run comes to after others have run. -/
theorem after (h : Passage R s R' s') {r : Res α} (hr : r.Tame P R' s') : r.Tame P R s := by
  cases hr with
  | done h' ha => exact .done (h.trans h') ha
  | raise h' he => exact .raise (h.trans h') he
  | ask h' hq hk => exact .ask (h.trans h') hq hk

theorem bind {r : Res α} {f : α → Store → Res β} (h : r.Tame P R s)
    (hf : ∀ a R' s', R ≤ R' → R'.Closed s' → P R' a → (f a s').Tame Q R' s') :
    (r.bind f).Tame Q R s := by
  induction h with
  | done h ha => exact .after h (hf _ _ _ h.le h.closed ha)
  | raise h he => exact .raise h he
  | ask h hq _ ih =>
    exact .ask h hq fun vs R'' s'' hle hs hvs => ih vs R'' s'' hle hs hvs
      fun a R₃ s₃ hle₃ => hf a R₃ s₃ (h.le.trans (hle.trans hle₃))

theorem mono {P' : Realm → α → Prop} {r : Res α} (h : r.Tame P R s)
    (hP : ∀ a R', R ≤ R' → P R' a → P' R' a) : r.Tame P' R s := by
  induction h with
  | done h ha => exact .done h (hP _ _ h.le ha)
  | raise h he => exact .raise h he
  | ask h hq _ ih =>
    exact .ask h hq fun vs R'' s'' hle hs hvs => ih vs R'' s'' hle hs hvs
      fun a R₃ hle₃ => hP a R₃ (h.le.trans (hle.trans hle₃))

end Res.Tame

namespace Run

def Tame (R : Realm) (P : Realm → α → Prop) (m : Run α) : Prop :=
  ∀ s, R.Closed s → (m s).Tame P R s

/-- Tame without making or asking for anything. -/
def Calm (R : Realm) (P : α → Prop) (m : Run α) : Prop :=
  m.Tame R fun R' a => R' = R ∧ P a

variable {m m' : Run α} {f : α → Run β} {A : α → Prop} {B : β → Prop}

namespace Tame

theorem pure {a : α} (ha : P R a) : Tame R P (Pure.pure a : Run α) :=
  fun _ hs => .done (.refl hs) ha

theorem bind (h : m.Tame R P) (hf : ∀ a R', R ≤ R' → P R' a → (f a).Tame R' Q) :
    Tame R Q (m >>= f) := fun s hs => by
  rw [bind_apply]
  exact (h s hs).bind fun a R' s' hle hs' ha => hf a R' hle ha s' hs'

/-- What follows a calm run may use what was known before. -/
theorem calmly (h : m.Calm R A) (hf : ∀ a, A a → (f a).Tame R Q) : Tame R Q (m >>= f) :=
  bind h fun a _ _ ha => ha.1 ▸ hf a ha.2

theorem mono {P' : Realm → α → Prop} (h : m.Tame R P) (hP : ∀ a R', R ≤ R' → P R' a → P' R' a) :
    m.Tame R P' := fun s hs => (h s hs).mono hP

theorem ite {c : Prop} [Decidable c] (h : c → m.Tame R P) (h' : ¬ c → m'.Tame R P) :
    Tame R P (if c then m else m') := by
  split_ifs with hc
  · exact h hc
  · exact h' hc

/-! ### Errors -/

theorem throw {e : Raise} (he : R.Raisable e) : Tame R P (Run.throw e : Run α) :=
  fun _ hs => .raise (.refl hs) he

theorem fail (message : String) : Tame R P (Run.fail message : Run α) := throw trivial

theorem failBytes (message : Bytes) : Tame R P (Run.failBytes message : Run α) := throw trivial

theorem failPlain (message : String) : Tame R P (Run.failPlain message : Run α) := throw trivial

theorem badArgument (n : Nat) (why : String) : Tame R P (Run.badArgument n why : Run α) :=
  throw trivial

/-- A check that fails or goes on. -/
theorem check {c : Prop} [Decidable c] {bad : Run Unit} {rest : Unit → Run α}
    (hbad : bad.Tame R fun _ _ => False) (hrest : (rest ()).Tame R P) :
    Tame R P (if c then bad >>= rest else rest ()) :=
  ite (fun _ => bind hbad fun _ _ _ h => h.elim) fun _ => hrest

/-! ### Requests -/

theorem ask {q : Request} (hq : R.Askable q) : Tame R Realm.HasAll (Run.ask q) :=
  fun _ hs => .ask (.refl hs) hq fun _ _ _ _ hs hvs => .done (.refl hs) hvs

theorem call {f : Value} {args : List Value} (hf : R.Has f) (hargs : R.HasAll args) (site : Site) :
    Tame R Realm.HasAll (Run.call f args site) := ask ⟨hf, hargs⟩

/-! ### What is made -/

theorem stepNewTable {T : Table} (entries : T.All R.Has) (bare : T.metatable = none) :
    Tame R (fun R' t => t ∈ R'.tables) (Run.step (·.newTable T)) :=
  fun _ hs => .done (.newTable hs entries bare) (.inl rfl)

theorem newTable : Tame R (fun R' t => t ∈ R'.tables) Run.newTable :=
  stepNewTable .default rfl

theorem newFunction {o : FunctionObject} (ho : R.Runs o) :
    Tame R Realm.Has (Run.newFunction o) := by
  have made : Tame R (fun R' f => f ∈ R'.functions) (Run.step (·.newFunction o)) :=
    fun _ hs => .done (.newFunction hs ho) (.inl rfl)
  exact bind made fun _ _ _ hf => pure hf

theorem newBuiltin (b : Builtin) {captured : List Value} (hc : R.HasAll captured) :
    Tame R Realm.Has (Run.newBuiltin b captured) := newFunction (.builtin b (by simpa using hc))

end Tame

namespace Calm

theorem pure {a : α} (ha : A a) : Calm R A (Pure.pure a : Run α) := Tame.pure ⟨rfl, ha⟩

theorem bind (h : m.Calm R A) (hf : ∀ a, A a → (f a).Calm R B) : Calm R B (m >>= f) :=
  Tame.calmly h hf

theorem tame (h : m.Calm R A) (hP : ∀ a, A a → P R a) : m.Tame R P :=
  Tame.mono h fun a _ _ ha => ha.1 ▸ hP a ha.2

theorem any (h : m.Calm R A) : m.Tame R fun _ _ => True := h.tame fun _ _ => trivial

theorem ite {c : Prop} [Decidable c] (h : c → m.Calm R A) (h' : ¬ c → m'.Calm R A) :
    Calm R A (if c then m else m') := Tame.ite h h'

theorem check {c : Prop} [Decidable c] {bad : Run Unit} {rest : Unit → Run α}
    (hbad : bad.Tame R fun _ _ => False) (hrest : (rest ()).Calm R A) :
    Calm R A (if c then bad >>= rest else rest ()) := Tame.check hbad hrest

/-! ### The store -/

theorem read {f : Store → α} (h : ∀ s, R.Closed s → A (f s)) : Calm R A (Run.read f) :=
  fun s hs => .done (.refl hs) ⟨rfl, h s hs⟩

theorem modify {f : Store → Store} (h : ∀ s, R.Closed s → Passage R s R (f s)) :
    Calm R (fun _ => True) (Run.modify f) := fun s hs => .done (h s hs) ⟨rfl, trivial⟩

/-- A step that changes nothing that leads anywhere. -/
theorem aside {f : Store → Store} (h : ∀ s, (f s).core = s.core) :
    Calm R (fun _ => True) (Run.modify f) := modify fun s hs => .aside hs (h s)

theorem setFiles (fs : FileSystem) :
    Calm R (fun _ => True) (Run.modify fun s => { s with files := fs }) := aside fun _ => rfl

theorem step {f : Store → α × Store}
    (h : ∀ s, R.Closed s → A (f s).1 ∧ Passage R s R (f s).2) : Calm R A (Run.step f) :=
  fun s hs => .done (h s hs).2 ⟨rfl, (h s hs).1⟩

theorem rawGet {t : TableId} (ht : t ∈ R.tables) (k : Value) : Calm R R.Has (Run.rawGet t k) :=
  read fun _ hs => hs.rawGet ht k

theorem rawSetKey {t : TableId} {k v : Value} (ht : t ∈ R.tables) (hk : R.Has k) (hv : R.Has v) :
    Calm R (fun _ => True) (Run.rawSetKey t k v) := modify fun _ hs => .set hs ht hk hv

theorem rawSetText {t : TableId} {k : String} {v : Value} (ht : t ∈ R.tables) (hv : R.Has v) :
    Calm R (fun _ => True) (Run.rawSetText t k v) := rawSetKey ht trivial hv

theorem rawLength (t : TableId) : Calm R (fun _ => True) (Run.rawLength t) :=
  read fun _ _ => trivial

theorem newObject (o : HostObject) : Calm R R.Has (Run.newObject o) := by
  have made : Calm R (fun _ => True) (Run.step (·.newObject o)) :=
    step fun _ hs => ⟨trivial, .aside hs rfl⟩
  exact bind made fun _ _ => pure trivial

theorem metatable {v : Value} (hv : R.Has v) :
    Calm R (fun m? => ∀ m, m? = some m → m ∈ R.tables) (Run.metatable v) :=
  read fun _ hs _ => hs.metatableOf hv

theorem metamethod {v : Value} (hv : R.Has v) (event : String) :
    Calm R R.Has (Run.metamethod v event) := read fun _ hs => hs.metamethod hv event

theorem setMetatable {t : TableId} (ht : t ∈ R.tables) {m : Option TableId}
    (hm : ∀ e, m = some e → e ∈ R.tables) : Calm R (fun _ => True) (Run.setMetatable t m) :=
  modify fun _ hs => .setMetatable hs ht hm

theorem newCell {v : Value} (hv : R.Has v) : Calm R (fun _ => True) (Run.newCell v) :=
  step fun _ hs => ⟨trivial, .newCell hs hv⟩

theorem readCell (c : CellId) : Calm R R.Has (Run.readCell c) := read fun _ hs => hs.cell c

theorem writeCell (c : CellId) {v : Value} (hv : R.Has v) :
    Calm R (fun _ => True) (Run.writeCell c v) := modify fun _ hs => .setCell hs c hv

end Calm

theorem Tame.failHost (text : Bytes) : Tame R P (Run.failHost text : Run α) :=
  .calmly (Calm.newObject _) fun _ ho => .throw ho

/-! ## Loops -/

namespace Tame

theorem iterate {σ : Type} {I : Realm → σ → Prop} {step : σ → Run (σ ⊕ α)}
    (h : ∀ R', R ≤ R' → ∀ x, I R' x →
      (step x).Tame R' fun R'' y => Sum.elim (I R'') (P R'') y) :
    ∀ n R', R ≤ R' → ∀ x, I R' x → Tame R' P (Run.iterate step n x)
  | 0, _, _, _, _ => throw trivial
  | n + 1, R', hle, x, hx => fun s hs => by
    have hstep := h R' hle x hx s hs
    unfold Run.iterate
    generalize step x s = r at hstep
    cases hstep with
    | @done _ R₁ _ s₁ y h₁ hy =>
      rcases y with x' | a
      · exact .after h₁ (iterate h n R₁ (hle.trans h₁.le) x' hy s₁ h₁.closed)
      · exact .done h₁ hy
    | raise h₁ he => exact .raise h₁ he
    | ask h₁ hq hk =>
      refine .ask h₁ hq fun vs R₂ s₂ hle₂ hs₂ hvs => (hk vs R₂ s₂ hle₂ hs₂ hvs).bind ?_
      intro y R₃ s₃ hle₃ hs₃ hy
      rcases y with x' | a
      · exact iterate h n R₃ (hle.trans (h₁.le.trans (hle₂.trans hle₃))) x' hy s₃ hs₃
      · exact .done (.refl hs₃) hy

theorem loopWith {σ : Type} {I : Realm → σ → Prop} {start : σ} {step : σ → Run (σ ⊕ α)}
    (hstart : I R start) (h : ∀ R', R ≤ R' → ∀ x, I R' x →
      (step x).Tame R' fun R'' y => Sum.elim (I R'') (P R'') y) :
    Tame R P (Run.loopWith start step) := iterate h _ R (le_refl R) start hstart

theorem repeatStep {m : Run (Option α)}
    (h : ∀ R', R ≤ R' → m.Tame R' fun R'' a? => ∀ a, a? = some a → P R'' a) :
    ∀ n R', R ≤ R' → Tame R' P (Run.repeatStep n m)
  | 0, _, _ => throw trivial
  | n + 1, R', hle => fun s hs => by
    have hstep := h R' hle s hs
    unfold Run.repeatStep
    generalize m s = r at hstep
    cases hstep with
    | @done _ R₁ _ s₁ a? h₁ ha =>
      rcases a? with _ | a
      · exact .after h₁ (repeatStep h n R₁ (hle.trans h₁.le) s₁ h₁.closed)
      · exact .done h₁ (ha a rfl)
    | raise h₁ he => exact .raise h₁ he
    | ask h₁ hq hk =>
      refine .ask h₁ hq fun vs R₂ s₂ hle₂ hs₂ hvs => (hk vs R₂ s₂ hle₂ hs₂ hvs).bind ?_
      intro a? R₃ s₃ hle₃ hs₃ ha
      rcases a? with _ | a
      · exact repeatStep h n R₃ (hle.trans (h₁.le.trans (hle₂.trans hle₃))) s₃ hs₃
      · exact .done (.refl hs₃) (ha a rfl)

theorem loop {m : Run (Option α)}
    (h : ∀ R', R ≤ R' → m.Tame R' fun R'' a? => ∀ a, a? = some a → P R'' a) :
    Tame R P (Run.loop m) := repeatStep h _ R (le_refl R)

end Tame

namespace Calm

theorem mapM {as : List α} {f : α → Run β} (h : ∀ a ∈ as, (f a).Calm R B) :
    Calm R (fun bs => ∀ b ∈ bs, B b) (as.mapM f) := by
  induction as with
  | nil =>
    rw [List.mapM_nil]
    exact pure fun _ h => nomatch h
  | cons a as ih =>
    rw [List.mapM_cons]
    refine bind (h a (List.mem_cons_self ..)) fun b hb => ?_
    refine bind (ih fun a' ha' => h a' (List.mem_cons_of_mem _ ha')) fun bs hbs => pure ?_
    rintro b' (_ | ⟨_, hb'⟩)
    · exact hb
    · exact hbs b' hb'

end Calm

/-! ## Plain runs -/

namespace Plain

theorem calm_of (h : m.Plain A) {B : α → Prop} (hA : ∀ a, A a → B a) : m.Calm R B := fun s hs => by
  have hm := h s
  generalize m s = r at hm
  cases hm with
  | done r ha => exact .done (.aside hs rfl) ⟨rfl, hA _ ha⟩
  | @raise r e he =>
    refine .raise (.aside hs rfl) ?_
    cases e with
    | value v => exact Realm.has_of_isPlain he
    | _ => trivial

theorem calm (h : m.Plain A) : m.Calm R A := h.calm_of fun _ => id

theorem calmAll {m : Run (List Value)} (h : m.Plain Value.AllPlain) : m.Calm R R.HasAll :=
  h.calm_of fun _ hvs v hv => Realm.has_of_isPlain (hvs v hv)

theorem tame {m : Run (List Value)} (h : m.Plain Value.AllPlain) : m.Tame R Realm.HasAll :=
  h.calmAll.tame fun _ => id

/-- A plain run that only fails. -/
theorem fails (h : m.Plain fun _ => False) : m.Tame R P := h.calm.tame fun _ h => h.elim

end Plain

end Run

end Enclosure.Lua
