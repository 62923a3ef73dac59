import Enclosure.Proofs.Confinement.Zone
import Enclosure.Proofs.Plain.Run

/-!
# Safe runs

A run is safe in a zone if from every confined store it goes to confined stores only, asks only for
calls of what scripts may call with what they may hold, and raises and answers nothing else. Whatever
it is answered it goes on safely, so that the machine can be stepped over without looking inside. Safety
is closed under the ways in which runs are put together.
-/

namespace Enclosure.Lua

namespace Zone

variable {Z : Zone}

/-- What an error may carry. -/
def Raisable (Z : Zone) : Raise → Prop
  | .value v => Z.Public v
  | _ => True

/-- What may be asked for. Threads are not for scripts. -/
def Askable (Z : Zone) : Request → Prop
  | .call f args _ => Z.Callable f ∧ Z.Publics args
  | .tailCall f args _ => Z.Callable f ∧ Z.Publics args
  | .protectedCall f args handler _ =>
    Z.Callable f ∧ Z.Publics args ∧ ∀ h, handler = some h → Z.Callable h
  | .defer v => Z.Public v
  | .closeLast _ => True
  | _ => False

end Zone

variable {Z : Zone} {α β : Type} {P : α → Prop} {Q : β → Prop} {s : Store}

inductive Res.Safe (Z : Zone) (P : α → Prop) : Res α → Prop
  | done {a : α} {s : Store} (hs : Z.Confined s) (ha : P a) : Safe Z P (.done a s)
  | raise {e : Raise} {s : Store} (hs : Z.Confined s) (he : Z.Raisable e) : Safe Z P (.raise e s)
  | ask {q : Request} {s : Store} {k : List Value → Store → Res α} (hs : Z.Confined s)
    (hq : Z.Askable q)
    (hk : ∀ vs s', Z.Publics vs → Z.Confined s' → Safe Z P (k vs s')) : Safe Z P (.ask q s k)

theorem Res.Safe.bind {r : Res α} {f : α → Store → Res β} (h : r.Safe Z P)
    (hf : ∀ a s, P a → Z.Confined s → (f a s).Safe Z Q) : (r.bind f).Safe Z Q := by
  induction h with
  | done hs ha => exact hf _ _ ha hs
  | raise hs he => exact .raise hs he
  | ask hs hq hk ih => exact .ask hs hq ih

namespace Run

def Safe (Z : Zone) (P : α → Prop) (m : Run α) : Prop := ∀ s, Z.Confined s → (m s).Safe Z P

/-- Safe whatever the answer. -/
abbrev Sound (Z : Zone) (m : Run α) : Prop := m.Safe Z fun _ => True

namespace Safe

variable {m : Run α} {f : α → Run β}

theorem pure {a : α} (ha : P a) : Safe Z P (Pure.pure a : Run α) := fun _ hs => .done hs ha

theorem bind (h : m.Safe Z P) (hf : ∀ a, P a → (f a).Safe Z Q) : Safe Z Q (m >>= f) := fun s hs => by
  rw [bind_apply]
  exact (h s hs).bind fun a s ha hs => hf a ha s hs

theorem ite {c : Prop} [Decidable c] {m m' : Run α} (h : c → m.Safe Z P) (h' : ¬ c → m'.Safe Z P) :
    Safe Z P (if c then m else m') := by
  split_ifs with hc
  · exact h hc
  · exact h' hc

/-! ## Errors -/

theorem throw {e : Raise} (he : Z.Raisable e) : Safe Z P (Run.throw e : Run α) :=
  fun _ hs => .raise hs he

theorem fail (message : String) : Safe Z P (Run.fail message : Run α) := throw trivial

theorem failPlain (message : String) : Safe Z P (Run.failPlain message : Run α) := throw trivial

theorem badArgument (n : Nat) (why : String) : Safe Z P (Run.badArgument n why : Run α) :=
  throw trivial

/-- A check that fails or goes on. -/
theorem check {c : Prop} [Decidable c] {bad : Run Unit} {rest : Unit → Run α}
    (hbad : bad.Safe Z fun _ => False) (hrest : (rest ()).Safe Z P) :
    Safe Z P (if c then bad >>= rest else rest ()) :=
  ite (fun _ => bind hbad fun _ h => h.elim) fun _ => hrest

/-! ## Requests -/

theorem ask {q : Request} (hq : Z.Askable q) : Safe Z Z.Publics (Run.ask q) :=
  fun _ hs => .ask hs hq fun _ _ hvs hs => .done hs hvs

theorem call {f : Value} {args : List Value} (hf : Z.Callable f) (hargs : Z.Publics args)
    (site : Site) : Safe Z Z.Publics (Run.call f args site) := ask ⟨hf, hargs⟩

/-! ## The store -/

theorem read {f : Store → α} (h : ∀ s, Z.Confined s → P (f s)) : Safe Z P (Run.read f) :=
  fun s hs => .done hs (h s hs)

theorem modify {f : Store → Store} (h : ∀ s, Z.Confined s → Z.Confined (f s)) :
    Sound Z (Run.modify f) := fun s hs => .done (h s hs) trivial

theorem step {f : Store → α × Store} (h : ∀ s, Z.Confined s → P (f s).1 ∧ Z.Confined (f s).2) :
    Safe Z P (Run.step f) := fun s hs => .done (h s hs).2 (h s hs).1

theorem rawGet {t : TableId} (ht : Z.Public (.table t)) (k : Value) :
    Safe Z Z.Public (Run.rawGet t k) := read fun _ hs => hs.rawGet ht k

theorem rawSetKey {t : TableId} {k v : Value} (ht : Z.Public (.table t)) (hk : Z.Public k)
    (hv : Z.Public v) : Sound Z (Run.rawSetKey t k v) := modify fun _ hs => hs.set ht hk hv

theorem rawLength (t : TableId) : Sound Z (Run.rawLength t) := read fun _ _ => trivial

theorem newTable : Safe Z (fun t => Z.Public (.table t)) Run.newTable :=
  step fun _ hs => ⟨.inl hs.tables_size, hs.newTable Table.All.default rfl⟩

theorem newFunction {o : FunctionObject} (ho : Z.Runs o) : Safe Z Z.Public (Run.newFunction o) :=
  bind (step fun _ hs => ⟨(.inl hs.functions_size : Z.Public (.func _)), hs.newFunction ho⟩)
    fun _ hf => pure hf

theorem newBuiltin {b : Builtin} {captured : List Value} (hb : Z.allows b)
    (hc : Z.Publics captured) : Safe Z Z.Public (Run.newBuiltin b captured) :=
  newFunction (.builtin hb (by simpa using hc))

theorem failHost (text : Bytes) : Safe Z P (Run.failHost text : Run α) :=
  bind (P := Z.Public) (bind (step fun _ hs => ⟨(hs.objects_size : Z.Public (.object _)),
    hs.newObject text⟩) fun _ ho => pure ho) fun _ ho => throw ho

theorem metamethod (sound : Z.Sound) {v : Value} (hv : Z.Public v) {event : String}
    (hi : event ≠ "__index") (hp : event ≠ "__pairs") :
    Safe Z Z.Callable (Run.metamethod v event) :=
  read fun _ hs => hs.metamethod sound hv hi hp

theorem newCell {v : Value} (hv : Z.Public v) : Safe Z Z.OwnCell (Run.newCell v) :=
  step fun _ hs => ⟨hs.cells_size, hs.newCell hv⟩

theorem readCell {c : CellId} (hc : Z.OwnCell c) : Safe Z Z.Public (Run.readCell c) :=
  read fun _ hs => hs.cell c hc

theorem writeCell (c : CellId) {v : Value} (hv : Z.Public v) : Sound Z (Run.writeCell c v) :=
  modify fun _ hs => hs.setCell c hv

/-! ## Loops -/

theorem iterate {σ : Type} {I : σ → Prop} {step : σ → Run (σ ⊕ α)}
    (h : ∀ x, I x → (step x).Safe Z (Sum.elim I P)) :
    ∀ n x, I x → Safe Z P (Run.iterate step n x)
  | 0, _, _ => throw trivial
  | n + 1, x, hx => fun s hs => by
    have hstep := h x hx s hs
    unfold Run.iterate
    generalize step x s = r at hstep
    cases hstep with
    | @done y s hs hy =>
      rcases y with x' | a
      · exact iterate h n x' hy _ hs
      · exact .done hs hy
    | raise hs he => exact .raise hs he
    | ask hs hq hk =>
      refine .ask hs hq fun vs s hvs hs => (hk vs s hvs hs).bind fun y s hy hs => ?_
      rcases y with x' | a
      · exact iterate h n x' hy s hs
      · exact .done hs hy

theorem repeatStep {m : Run (Option α)} (h : m.Safe Z fun a? => ∀ a, a? = some a → P a) :
    ∀ n, Safe Z P (Run.repeatStep n m)
  | 0 => throw trivial
  | n + 1 => fun s hs => by
    have hstep := h s hs
    unfold Run.repeatStep
    generalize m s = r at hstep
    cases hstep with
    | @done a? s hs ha =>
      rcases a? with _ | a
      · exact repeatStep h n _ hs
      · exact .done hs (ha a rfl)
    | raise hs he => exact .raise hs he
    | ask hs hq hk =>
      refine .ask hs hq fun vs s hvs hs => (hk vs s hvs hs).bind fun a? s ha hs => ?_
      rcases a? with _ | a
      · exact repeatStep h n s hs
      · exact .done hs (ha a rfl)

theorem loop {m : Run (Option α)} (h : m.Safe Z fun a? => ∀ a, a? = some a → P a) :
    Safe Z P (Run.loop m) := repeatStep h _

theorem loopWith {σ : Type} {I : σ → Prop} {start : σ} {step : σ → Run (σ ⊕ α)} (hstart : I start)
    (h : ∀ x, I x → (step x).Safe Z (Sum.elim I P)) : Safe Z P (Run.loopWith start step) :=
  iterate h _ start hstart

end Safe

/-! ## Plain runs -/

namespace Plain

variable {m : Run α}

theorem safe_of (h : m.Plain P) {P' : α → Prop} (hP : ∀ a, P a → P' a) : m.Safe Z P' := fun s hs => by
  have hm := h s
  generalize m s = r at hm
  cases hm with
  | done r ha => exact .done { hs with } (hP _ ha)
  | @raise r e he =>
    refine .raise { hs with } ?_
    cases e with
    | value v => exact Zone.public_of_isPlain he
    | _ => trivial

theorem safe (h : m.Plain P) : m.Safe Z P := h.safe_of fun _ => id

theorem publics {m : Run (List Value)} (h : m.Plain Value.AllPlain) : m.Safe Z Z.Publics :=
  h.safe_of fun _ hvs v hv => Zone.public_of_isPlain (hvs v hv)

end Plain

end Run

end Enclosure.Lua
