import Enclosure.Proofs.Confinement.State
import Enclosure.Proofs.Protection.Proxy

/-!
# Scripts with a stand-in

A script uses what it holds: it indexes, assigns, takes lengths, and calls the functions of the library
that work on tables. Whatever a use answers, an error included, it holds from then on. As long as no use
opens a window, a script that begins with what a zone lets it hold stays in the zone
(`confined_session`).
-/

namespace Enclosure.Protection

open Lua

/-- The functions of the library that a script calls. -/
inductive Tool
  | pairs | ipairs | next | insert | remove | sort | unpack | getMetatable | setMetatable
  deriving DecidableEq

/-- What a function of the library does; `next` and `step` are what iteration hands out. -/
def Tool.run (next step : FuncId) : Tool → Args → Run (List Value)
  | .pairs, args => Library.Base.pairs #[.func next] args
  | .ipairs, args => Library.Base.ipairs #[.func step] args
  | .next, args => Library.Base.next args
  | .insert, args => Library.List.insert args
  | .remove, args => Library.List.remove args
  | .sort, args => Library.List.sort args
  | .unpack, args => Library.List.unpack args
  | .getMetatable, args => Library.Base.getMetatable args
  | .setMetatable, args => Library.Base.setMetatable args

inductive Use
  | index (object key : Value)
  | assign (object key v : Value)
  | length (v : Value)
  | newTable
  | call (f : Tool) (args : List Value)
  deriving DecidableEq

namespace Use

/-- The values that a use is made with. -/
def operands : Use → List Value
  | .index object key => [object, key]
  | .assign object key v => [object, key, v]
  | .length v => [v]
  | .newTable => []
  | .call _ args => args

def run (next step : FuncId) : Use → Run (List Value)
  | .index object key => do return [← Operation.index .library none object key]
  | .assign object key v => do
    Operation.setIndex .library none object key v
    return []
  | .length v => do return [← Operation.length .library ⟨v, none⟩]
  | .newTable => do return [.table (← Run.newTable)]
  | .call f args => f.run next step args

end Use

/-- What a script holds after a use that it did not hold before. -/
def handed : Except (Option Value) (List Value) → List Value
  | .ok vs => vs
  | .error (some e) => [e]
  | .error none => []

/-- What a script holds when it has made some uses, and the state that it leaves. -/
inductive Session (next step : FuncId) :
    State → List Value → List Use → State → List Value → Prop
  | nil {st : State} {held : List Value} : Session next step st held [] st held
  | cons {st st₁ st₂ : State} {held held₂ : List Value} {use : Use} {rest : List Use}
    {answer : Except (Option Value) (List Value)} (hold : ∀ v ∈ use.operands, v ∈ held ∨ v.isPlain)
    (made : st.runRaw (use.run next step) = (answer, st₁))
    (more : Session next step st₁ (held ++ handed answer) rest st₂ held₂) :
    Session next step st held (use :: rest) st₂ held₂

/-- Uses of what a script holds from the start can always be made, whatever they answer. -/
theorem exists_session (next step : FuncId) : ∀ (uses : List Use) (st : State) (held : List Value),
    (∀ use ∈ uses, ∀ v ∈ use.operands, v ∈ held ∨ v.isPlain) →
    ∃ st' held', Session next step st held uses st' held'
  | [], st, held, _ => ⟨st, held, .nil⟩
  | use :: rest, st, held, h => by
    obtain ⟨huse, hrest⟩ := List.forall_mem_cons.1 h
    obtain ⟨st', held', more⟩ := exists_session next step rest (st.runRaw (use.run next step)).2
      (held ++ handed (st.runRaw (use.run next step)).1)
      fun u hu v hv => (hrest u hu v hv).imp_left fun hm => List.mem_append_left _ hm
    exact ⟨st', held', .cons huse rfl more⟩

variable {Z : Zone} {next step : FuncId} {st st' : State} {held held' : List Value} {uses : List Use}

/-- Whether a use opens a window. -/
def Use.Opens (Z : Zone) : Use → Prop
  | .call .pairs (v :: _) => Library.Base.Opens Z v
  | _ => False

theorem use_safe (sound : Z.Sound) (answers : Z.Answers) (hnext : Z.Public (.func next))
    (hstep : Z.Public (.func step)) {use : Use} (h : Z.Publics use.operands)
    (hw : ¬ use.Opens Z) : (use.run next step).Safe Z Z.Publics := by
  cases use with
  | index object key =>
    obtain ⟨ho, hk⟩ := Zone.publics_cons.1 h
    exact .bind (Operation.index_safe sound _ _ ho (Zone.publics_cons.1 hk).1)
      fun v hv => .pure (Zone.publics_one hv)
  | assign object key v =>
    obtain ⟨ho, h⟩ := Zone.publics_cons.1 h
    obtain ⟨hk, h⟩ := Zone.publics_cons.1 h
    exact .bind (Operation.setIndex_safe sound _ _ ho hk (Zone.publics_cons.1 h).1)
      fun _ _ => .pure Zone.publics_nil
  | length v =>
    exact .bind (Operation.length_safe sound _ (Zone.publics_cons.1 h).1)
      fun n hn => .pure (Zone.publics_one hn)
  | newTable => exact .bind .newTable fun t ht => .pure (Zone.publics_one ht)
  | call f args =>
    cases f with
    | pairs =>
      refine Library.Base.pairs_safe sound (Zone.publics_one hnext) h fun v hv hopens => hw ?_
      cases args with
      | nil => cases hv
      | cons w rest =>
        obtain rfl := Option.some.inj hv
        exact hopens
    | ipairs => exact Library.Base.ipairs_safe (Zone.publics_one hstep) h
    | next => exact Library.Base.next_safe h
    | insert => exact Library.List.insert_safe sound h
    | remove => exact Library.List.remove_safe sound h
    | sort => exact Library.List.sort_safe sound h
    | unpack => exact Library.List.unpack_safe sound h
    | getMetatable => exact Library.Base.getMetatable_safe sound answers h
    | setMetatable => exact Library.Base.setMetatable_safe sound answers h

theorem publics_handed {answer : Except (Option Value) (List Value)} (h : Z.Answered answer) :
    Z.Publics (handed answer) :=
  match answer with
  | .ok _ => h
  | .error none => Zone.publics_nil
  | .error (some v) => Zone.publics_one (h v rfl)

theorem confined_session (sound : Z.Sound) (answers : Z.Answers) (hnext : Z.Public (.func next))
    (hstep : Z.Public (.func step)) (session : Session next step st held uses st' held')
    (serves : Z.Serves st.functions) (hs : Z.Confined st.store) (hheld : Z.Publics held)
    (hw : ∀ use ∈ uses, Z.Publics use.operands → ¬ use.Opens Z) :
    Z.Confined st'.store ∧ Z.Publics held' := by
  induction session with
  | nil => exact ⟨hs, hheld⟩
  | cons hold made more ih =>
    obtain ⟨hfirst, hrest⟩ := List.forall_mem_cons.1 hw
    have hops : Z.Publics _ := fun v hv => (hold v hv).elim (hheld v) Zone.public_of_isPlain
    have hsafe := use_safe sound answers hnext hstep hops (hfirst hops)
    obtain ⟨hanswer, hs₁, hfunctions⟩ := State.runRaw_safe sound serves hsafe hs
    rw [made] at hanswer hs₁ hfunctions
    exact ih (hfunctions ▸ serves) hs₁ (hheld.append (publics_handed hanswer)) hrest

end Enclosure.Protection
