import Enclosure.Proofs.Lua.Run
import Enclosure.Proofs.Lua.Table

/-!
# Plain runs

A plain run asks for nothing and makes nothing, and of the store it changes no more than what is
left to chance. What it raises is a message or a plain value. So it keeps whatever is known of where
the tables and functions of the store lead, and nothing need be known of its arguments.
-/

namespace Enclosure.Lua

namespace Value

def AllPlain (vs : List Value) : Prop := ∀ v ∈ vs, v.isPlain

variable {v : Value} {vs ws : List Value}

theorem isPlain_number (n : Numeral) : (number n).isPlain := by
  cases n <;> rfl

@[simp] theorem allPlain_nil : AllPlain [] := fun _ h => nomatch h

@[simp] theorem allPlain_cons : AllPlain (v :: vs) ↔ v.isPlain ∧ AllPlain vs := by
  simp [AllPlain]

theorem allPlain_one (h : v.isPlain) : AllPlain [v] := allPlain_cons.2 ⟨h, allPlain_nil⟩

theorem AllPlain.cons (h : v.isPlain) (hs : AllPlain vs) : AllPlain (v :: vs) :=
  allPlain_cons.2 ⟨h, hs⟩

theorem AllPlain.append (h : AllPlain vs) (h' : AllPlain ws) : AllPlain (vs ++ ws) := fun v hv =>
  (List.mem_append.1 hv).elim (h v) (h' v)

end Value

/-- An error that carries nothing which leads anywhere. -/
def Raise.Plain : Raise → Prop
  | .value v => v.isPlain
  | _ => True

variable {α β : Type} {P : α → Prop} {Q : β → Prop} {s : Store}

/-- What a plain run from a store comes to. -/
inductive Res.Plain (P : α → Prop) (s : Store) : Res α → Prop
  | done (c : Chance) {a : α} (ha : P a) : Plain P s (.done a { s with chance := c })
  | raise (c : Chance) {e : Raise} (he : e.Plain) : Plain P s (.raise e { s with chance := c })

theorem Res.Plain.after {r : Res α} {chance : Chance} (h : r.Plain P { s with chance }) :
    r.Plain P s := by
  cases h with
  | done c ha => exact .done c ha
  | raise c he => exact .raise c he

namespace Run

def Plain (P : α → Prop) (m : Run α) : Prop := ∀ s, (m s).Plain P s

namespace Plain

variable {m m' : Run α} {f : α → Run β}

theorem pure {a : α} (ha : P a) : Plain P (Pure.pure a : Run α) := fun s => .done s.chance ha

theorem bind (h : m.Plain P) (hf : ∀ a, P a → (f a).Plain Q) : Plain Q (m >>= f) := fun s => by
  have hm := h s
  rw [bind_apply]
  generalize m s = r at hm
  cases hm with
  | done c ha => exact .after (hf _ ha _)
  | raise c he => exact .raise c he

theorem ite {c : Prop} [Decidable c] (h : c → m.Plain P) (h' : ¬ c → m'.Plain P) :
    Plain P (if c then m else m') := by
  split_ifs with hc
  · exact h hc
  · exact h' hc

theorem mapM {f : α → Run β} {as : List α} (h : ∀ a ∈ as, (f a).Plain Q) :
    Plain (fun bs => ∀ b ∈ bs, Q b) (as.mapM f) := by
  induction as with
  | nil =>
    rw [List.mapM_nil]
    exact pure fun _ h => nomatch h
  | cons a as ih =>
    rw [List.mapM_cons]
    refine bind (h a (List.mem_cons_self ..)) fun b hb => ?_
    refine bind (ih fun a' ha' => h a' (List.mem_cons_of_mem _ ha')) fun bs hbs => pure ?_
    rintro b' (_ | ⟨_, hb'⟩)
    · exact hb
    · exact hbs b' hb'

/-! ## Errors -/

theorem throw {e : Raise} (he : e.Plain) : Plain P (Run.throw e : Run α) :=
  fun s => .raise s.chance he

theorem fail (message : String) : Plain P (Run.fail message : Run α) := throw trivial

theorem failBytes (message : Bytes) : Plain P (Run.failBytes message : Run α) := throw trivial

theorem badArgument (n : Nat) (why : String) : Plain P (Run.badArgument n why : Run α) :=
  throw trivial

/-- A check that fails or goes on. -/
theorem check {c : Prop} [Decidable c] {bad : Run Unit} {rest : Unit → Run α}
    (hbad : bad.Plain fun _ => False) (hrest : (rest ()).Plain P) :
    Plain P (if c then bad >>= rest else rest ()) :=
  ite (fun _ => bind hbad fun _ h => h.elim) fun _ => hrest

/-! ## The store -/

theorem read (f : Store → α) : Plain (fun _ => True) (Run.read f) := fun s => .done s.chance trivial

theorem draw (f : Chance → α × Chance) : Plain (fun _ => True) (Run.draw f) :=
  fun s => .done (f s.chance).2 trivial

end Plain

end Run

end Enclosure.Lua
