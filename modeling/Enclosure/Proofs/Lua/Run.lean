import Mathlib.Tactic.Common
import Enclosure.Lua.Machine

/-!
# Runs and their results

A run that asks for nothing ends at once, and the machine only hands its result on.
-/

namespace Enclosure.Lua

namespace Res

variable {α β γ : Type}

theorem bind_done (r : Res α) : r.bind .done = r := by
  induction r with
  | done a s => rfl
  | raise e s => rfl
  | ask q s k ih => exact congrArg (Res.ask q s) (funext fun vs => funext fun s => ih vs s)

theorem bind_assoc (r : Res α) (f : α → Store → Res β) (g : β → Store → Res γ) :
    (r.bind f).bind g = r.bind fun a s => (f a s).bind g := by
  induction r with
  | done a s => rfl
  | raise e s => rfl
  | ask q s k ih => exact congrArg (Res.ask q s) (funext fun vs => funext fun s => ih vs s)

end Res

namespace Run

variable {α β : Type} {m : Run α} {f : α → Run β} {a : α} {s s' : Store} {e : Raise}

theorem bind_apply (m : Run α) (f : α → Run β) (s : Store) : (m >>= f) s = (m s).bind fun a s => f a s := by
  show Run.bind m f s = _
  unfold Run.bind Res.bind
  split <;> simp_all

instance : LawfulMonad Run := LawfulMonad.mk' Run
  (fun m => funext fun s => (bind_apply m _ s).trans (Res.bind_done (m s)))
  (fun a f => funext fun s => bind_apply (pure a) f s)
  (fun m f g => funext fun s => by
    simp only [bind_apply, Res.bind_assoc])

theorem pure_apply (a : α) (s : Store) : (pure a : Run α) s = .done a s := rfl

theorem bind_done (h : m s = .done a s') : (m >>= f) s = f a s' := by
  rw [bind_apply, h]
  rfl

theorem bind_raise (h : m s = .raise e s') : (m >>= f) s = .raise e s' := by
  rw [bind_apply, h]
  rfl

end Run

namespace Machine

variable {fs : Functions} {threads : Array Thread} {m : Run (List Value)} {s s' : Store}

theorem run_succ (fs : Functions) (n : Nat) (m : Machine) (r : Res (List Value)) :
    run fs (n + 1) m r = match m.step fs r with
      | .run m r => run fs n m r
      | .stop o => o := rfl

theorem stepLimit_eq : stepLimit = (Nat.pow 2 62 - 1) + 1 := rfl

theorem start_done {vs : List Value} (h : m s = .done vs s') :
    start fs threads m s = .returned vs s' threads := by
  unfold start
  rw [h, stepLimit_eq, run_succ]
  rfl

theorem start_raise {v : Value} (h : m s = .raise (.value v) s') :
    start fs threads m s = .raised v s' threads := by
  unfold start
  rw [h, stepLimit_eq, run_succ]
  rfl

theorem start_raises {e : Raise} (h : m s = .raise e s') (he : e ≠ .exhausted) :
    ∃ v, start fs threads m s = .raised v s' threads := by
  unfold start
  rw [h, stepLimit_eq, run_succ]
  cases e with
  | exhausted => exact absurd rfl he
  | _ => exact ⟨_, rfl⟩

theorem stepLimit_eq_three : stepLimit = (Nat.pow 2 62 - 3) + 1 + 1 + 1 := rfl

/-- What a call does of a function that is no script's. -/
inductive Does (fs : Functions) (s : Store) (f : FuncId) (args : List Value) : Res (List Value) → Prop
  | builtin {b : Builtin} {captured : Array Value} (h : s.function f = .builtin b captured) :
    Does fs s f args (fs.builtin b f captured args s)
  | callback {n : Nat} (h : s.function f = .callback n) : Does fs s f args (fs.callback n args s)

/-- The machine as a run on the main thread calls a function and waits for it. -/
def calling (threads : Array Thread) (f : FuncId) (site : Site) (k : List Value → Store → Res (List Value)) :
    Machine where
  frames := [
    { function := .func f, chunk := none, line := 0, name := none, deferred := [], nesting := 1,
      depth := 1, role := .plain site.passable, resume := fun vs s => .done vs s },
    { function := .nil, chunk := none, line := site.line, name := none, deferred := [], nesting := 0,
      depth := 0, role := .entry, resume := k }]
  current := ⟨0⟩
  threads := threads

/-- A run that calls one function which is no script's takes a step to that call. -/
theorem start_ask {f : FuncId} {args : List Value} {site : Site}
    {k : List Value → Store → Res (List Value)} {r : Res (List Value)}
    (hm : m s = .ask (.call (.func f) args site) s k) (hf : Does fs s f args r) :
    start fs threads m s = run fs (Nat.pow 2 62 - 3 + 1 + 1) (calling threads f site k) r := by
  let waiting : Frame :=
    { function := .nil, chunk := none, line := site.line, name := none, deferred := [], nesting := 0,
      depth := 0, role := .entry, resume := k }
  have asked : beginCall fs ⟨[waiting], ⟨0⟩, threads⟩ (.func f) args site s
      = .run (calling threads f site k) r := by
    cases hf with
    | builtin h | callback h =>
      simp [beginCall, topNesting, topDepth, waiting, nestingLimit, depthLimit, resolve, enter, h,
        Entry.frame, calling]
  unfold start
  rw [hm, stepLimit_eq_three, run_succ]
  show (match beginCall fs ⟨[waiting], ⟨0⟩, threads⟩ (.func f) args site s with
    | .run m r => run fs _ m r
    | .stop o => o) = _
  rw [asked]

/-- A run that calls one function, which asks for nothing, takes three steps. -/
theorem start_call_done {f : FuncId} {args vs ws : List Value} {site : Site}
    {k : List Value → Store → Res (List Value)} {s₁ s₂ : Store}
    (hm : m s = .ask (.call (.func f) args site) s k) (hf : Does fs s f args (.done vs s₁))
    (hk : k vs s₁ = .done ws s₂) : start fs threads m s = .returned ws s₂ threads := by
  have answered : step fs (calling threads f site k) (.done vs s₁)
      = .run { calling threads f site k with frames := (calling threads f site k).frames.tail }
        (k vs s₁) := rfl
  rw [start_ask hm hf, run_succ, answered]
  dsimp only
  rw [hk, run_succ]
  rfl

theorem start_call {f : FuncId} {args vs ws : List Value} {site : Site} {b : Builtin}
    {captured : Array Value} {k : List Value → Store → Res (List Value)} {s₁ s₂ : Store}
    (hm : m s = .ask (.call (.func f) args site) s k) (hf : s.function f = .builtin b captured)
    (hb : fs.builtin b f captured args s = .done vs s₁) (hk : k vs s₁ = .done ws s₂) :
    start fs threads m s = .returned ws s₂ threads :=
  start_call_done hm (hb ▸ .builtin hf) hk

/-- A run that calls one function, which raises a value, raises it. -/
theorem start_call_raise {f : FuncId} {args : List Value} {site : Site} {v : Value}
    {k : List Value → Store → Res (List Value)} {s₁ : Store}
    (hm : m s = .ask (.call (.func f) args site) s k)
    (hf : Does fs s f args (.raise (.value v) s₁)) : start fs threads m s = .raised v s₁ threads := by
  rw [start_ask hm hf, run_succ]
  rfl

/-- What holds of a call to a value, and of the call to its `__call` in its place, holds of the call that
is made in the end. -/
theorem resolve_keeps {P : Value → List Value → Prop}
    (handler : ∀ v args, (∀ g, v ≠ .func g) → P v args → P (s.metamethod v "__call") (v :: args)) {n : Nat}
    {f : Value} {args args' : List Value} {g : FuncId} (hf : P f args)
    (h : resolve s n f args = some (g, args')) : P (.func g) args' := by
  fun_induction resolve s n f args with
  | case1 => cases h
  | case2 n f args =>
    obtain ⟨rfl, rfl⟩ := Prod.mk.inj (Option.some.inj h)
    exact hf
  | case3 => cases h
  | case4 n v args hne _ _ ih => exact ih (handler v args hne hf) h

/-- Calls are split behind a guarded one, whose handler is told. -/
theorem splitAtGuard_split {frames inside below : List Frame} {handler : Option Value}
    (h : splitAtGuard frames = some (inside, handler, below)) :
    frames = inside ++ below ∧ ∃ f ∈ inside, ∃ through, f.role = .guarded handler through := by
  induction frames generalizing inside with
  | nil => cases h
  | cons f rest ih =>
    unfold splitAtGuard at h
    split at h
    · rename_i guard through hrole
      obtain ⟨rfl, rfl, rfl⟩ : [f] = inside ∧ guard = handler ∧ rest = below := by simpa using h
      exact ⟨rfl, f, List.mem_singleton_self f, through, hrole⟩
    · obtain ⟨⟨inside', handler', below'⟩, hsplit, heq⟩ := Option.map_eq_some_iff.1 h
      obtain ⟨rfl, rfl, rfl⟩ : f :: inside' = inside ∧ handler' = handler ∧ below' = below := by
        simpa using heq
      obtain ⟨rfl, g, hg, hrole⟩ := ih hsplit
      exact ⟨rfl, g, List.mem_cons_of_mem f hg, hrole⟩

end Machine

end Enclosure.Lua
