import Enclosure.Lua.Library
import Enclosure.Proofs.Confinement.List
import Enclosure.Proofs.Confinement.Machine
import Enclosure.Proofs.Confinement.Text

/-!
# Library functions in a zone

Functions that only work on their arguments are tame: a zone may let scripts hold them. Iteration with
`pairs` is safe away from the windows of the zone, and metatables are read and changed safely where
every lock answers for itself under `__metatable`.
-/

namespace Enclosure.Lua

/-- Functions of the library that give no more than they are given. -/
def Builtin.tame : Builtin → Bool
  | .string _ | .stringOperator _ => true
  | .table .insert | .table .remove | .table .sort | .table .unpack => true
  | .base .assert | .base .ipairsStep | .base .next => true
  | .guard .failureText => true
  | _ => false

namespace Library

variable {Z : Zone} {args : Args} {captured : Array Value}

/-! ## Global functions -/

namespace Base

theorem next_safe (h : Z.Publics args) : (next args).Safe Z Z.Publics := by
  refine .bind (Args.table_safe h 1) fun t ht => ?_
  refine .bind (P := fun n => ∀ k v, n = .entry k v → Z.Public k ∧ Z.Public v)
    (.read fun s hs k v he => (hs.table t ht).entries.next trivial (fun _ => trivial) he) ?_
  intro n hn
  split
  · obtain ⟨hk, hv⟩ := hn _ _ rfl
    exact .pure (Zone.publics_cons.2 ⟨hk, Zone.publics_one hv⟩)
  · exact .pure (Zone.publics_one trivial)
  · exact .failPlain _

theorem assert_safe (h : Z.Publics args) : (assert args).Safe Z Z.Publics := by
  refine .bind (Args.any_safe h 1) fun v _ => .ite (fun _ => .pure h) fun _ => ?_
  have hmessage : Z.Public (args.getD 1 (.text "assertion failed!")) := h.getD 1 trivial
  unfold raise
  split
  · exact .ite (fun _ => .throw trivial) fun _ => .throw hmessage
  · exact .throw hmessage

theorem held_public (hc : Z.Publics captured.toList) : Z.Public (held captured) := by
  unfold held
  rw [Array.getD_eq_getD_getElem?]
  rcases hv : captured[0]? with _ | v
  · trivial
  · exact hc v (Array.mem_toList_iff.2 (Array.mem_of_getElem? hv))

theorem ipairs_safe (hc : Z.Publics captured.toList) (h : Z.Publics args) :
    (ipairs captured args).Safe Z Z.Publics :=
  .bind (Args.any_safe h 1) fun _ hv =>
    .pure (Zone.publics_cons.2 ⟨held_public hc, Zone.publics_cons.2 ⟨hv, Zone.publics_one trivial⟩⟩)

theorem ipairsStep_safe (sound : Z.Sound) (h : Z.Publics args) :
    (ipairsStep args).Safe Z Z.Publics := by
  refine .bind (args.integer_plain 2).safe fun i _ => ?_
  refine .bind (Operation.index_safe sound _ _ (Args.arg_public h 1) trivial) fun v hv => .pure ?_
  split_ifs
  · exact Zone.publics_one trivial
  · exact Zone.publics_cons.2 ⟨trivial, Zone.publics_one hv⟩

/-- Whether iterating over a value opens a window. -/
def Opens (Z : Zone) (v : Value) : Prop :=
  ∃ t, v = .table t ∧ ∃ m ∈ Z.windows, (Z.base.table t).metatable = some m

theorem pairs_safe (sound : Z.Sound) (hc : Z.Publics captured.toList) (h : Z.Publics args)
    (hw : ∀ v, args.get? 1 = some v → ¬ Opens Z v) : (pairs captured args).Safe Z Z.Publics := by
  unfold pairs Args.any
  rcases hv : args.get? 1 with _ | v
  · exact .bind (P := fun _ => False) (.badArgument _ _) fun _ h => h.elim
  have hpub := Args.get?_public h hv
  have hpairs : (Run.metamethod v "__pairs").Safe Z Z.Callable :=
    .read fun s hs => hs.metamethod_pairs sound hpub fun t ht m hm he => hw v hv ⟨t, ht, m, hm, he⟩
  refine .bind (P := (· = v)) (.pure rfl) ?_
  rintro _ rfl
  refine .bind hpairs fun handler hh => .ite (fun _ => .pure ?_) fun _ => ?_
  · exact Zone.publics_cons.2 ⟨held_public hc, Zone.publics_cons.2 ⟨hpub, Zone.publics_one trivial⟩⟩
  · refine .bind (.call hh (Zone.publics_one hpub) _) fun vs hvs => .pure ?_
    exact Zone.publics_cons.2 ⟨hvs.headD, Zone.publics_cons.2
      ⟨(hvs.drop 1).headD, Zone.publics_one (hvs.drop 2).headD⟩⟩

end Base

end Library

/-- Every lock answers for itself when a metatable is asked for. -/
def Zone.Answers (Z : Zone) : Prop := ∀ m ∈ Z.locks,
  Z.Public (Z.base.rawGet m (.text "__metatable"))
    ∧ (Z.base.rawGet m (.text "__metatable")).isNil = false

namespace Library

variable {Z : Zone} {args : Args} {captured : Array Value}

namespace Base

theorem getMetatable_safe (sound : Z.Sound) (answers : Z.Answers) (h : Z.Publics args) :
    (getMetatable args).Safe Z Z.Publics := by
  refine .bind (Args.any_safe h 1) fun v hv => ?_
  refine .bind (P := fun m => ∀ e, m = some e → Z.Public (.table e) ∨ e ∈ Z.locks)
    (.read fun s hs e he => hs.metatable sound hv he) fun m hm => ?_
  split
  · exact .pure (Zone.publics_one trivial)
  · rename_i e
    by_cases hpub : Z.Public (.table e)
    · refine .bind (.rawGet hpub _) fun shown hs => .pure (Zone.publics_one ?_)
      split_ifs
      · exact hpub
      · exact hs
    · obtain ⟨hshown, hsome⟩ := answers e ((hm e rfl).resolve_left hpub)
      refine .bind (P := (· = Z.base.rawGet e (.text "__metatable")))
        (.read fun s hs => hs.rawGet_hidden hpub _) ?_
      rintro _ rfl
      rw [hsome]
      exact .pure (Zone.publics_one hshown)

/-- A table behind a lock keeps its metatable, and any other gets one that scripts hold. -/
theorem exchange_safe (sound : Z.Sound) (answers : Z.Answers) {t : TableId}
    (ht : Z.Public (.table t)) {m : Option TableId} (hm : ∀ e, m = some e → Z.Public (.table e)) :
    (do
      let shown ← Run.metamethod (.table t) "__metatable"
      if !shown.isNil then Run.fail "cannot change a protected metatable"
      Run.setMetatable t m
      return [.table t] : Run (List Value)).Safe Z Z.Publics := by
  intro s hs
  have hread : Run.metamethod (.table t) "__metatable" s
      = .done (s.metamethod (.table t) "__metatable") s := rfl
  rw [Run.bind_done hread]
  by_cases hn : (s.metamethod (.table t) "__metatable").isNil
  · have hfree : ∀ e ∈ Z.locks, (s.table t).metatable ≠ some e := by
      intro e he hlock
      have hshown : s.metamethod (.table t) "__metatable"
          = Z.base.rawGet e (.text "__metatable") := by
        simp only [Store.metamethod, Store.metatable, hlock]
        exact hs.rawGet_hidden (sound.lock e he) _
      rw [hshown, (answers e he).2] at hn
      cases hn
    rw [if_neg (by simp [hn])]
    exact .done (hs.setMetatable ht (fun e he => ⟨hm e he, fun hl => sound.lock e hl (hm e he)⟩) hfree)
      (Zone.publics_one ht)
  · rw [if_pos (by simp [hn])]
    exact .raise hs trivial

theorem setMetatable_safe (sound : Z.Sound) (answers : Z.Answers) (h : Z.Publics args) :
    (setMetatable args).Safe Z Z.Publics := by
  refine .bind (Args.table_safe h 1) fun t ht => ?_
  have hexchange := fun m => exchange_safe (m := m) sound answers ht
  split
  · exact hexchange none (by simp)
  · rename_i m hm
    exact hexchange (some m) fun e he => Option.some.inj he ▸ Args.get?_public h hm
  · exact .bind (P := fun _ => False) (args.failType_plain 2 _).safe fun _ h => h.elim

end Base

/-! ## Functions of protection -/

namespace Guard

theorem refuseWrite_safe (captured : Array Value) (args : Args) :
    (run .refuseWrite captured args).Safe Z Z.Publics := .failHost _

end Guard

theorem run_safe (sound : Z.Sound) (hz : Z.allows (.string .gmatchStep)) {b : Builtin} (hb : b.tame)
    {self : FuncId} (hself : Z.Public (.func self)) (hc : Z.Publics captured.toList)
    (h : Z.Publics args) : (run b self captured args).Safe Z Z.Publics := by
  cases b with
  | string f => exact Text.run_safe sound h f hz hself hc
  | stringOperator o => exact Text.applyOperator_safe sound h o
  | table f =>
    cases f with
    | insert => exact List.insert_safe sound h
    | remove => exact List.remove_safe sound h
    | sort => exact List.sort_safe sound h
    | unpack => exact List.unpack_safe sound h
    | concat | move | pack => cases hb
  | base f =>
    cases f with
    | assert => exact Base.assert_safe h
    | ipairsStep => exact Base.ipairsStep_safe sound h
    | next => exact Base.next_safe h
    | _ => cases hb
  | guard f =>
    cases f with
    | failureText => exact (Guard.failureText_plain args captured).publics
    | _ => cases hb
  | _ => cases hb

end Library

end Enclosure.Lua
