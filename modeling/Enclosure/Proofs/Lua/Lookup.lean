import Enclosure.Lua.Operation
import Enclosure.Proofs.Lua.Run
import Enclosure.Proofs.Lua.Table

/-!
# How far a lookup goes

A lookup passes from table to table through `__index`, but not through more tables than the limit. One
that is settled on the way gives the same from a higher limit (`indexFrom_succ`); any other fails at the
limit (`indexFrom_unsettled`).
-/

namespace Enclosure.Lua.Operation

/-- Whether a value itself has the field. -/
def holds (s : Store) (key : Value) : Value → Bool
  | .table t => !(s.rawGet t key).isNil
  | _ => false

/-- Whether a lookup that may pass `n` times on comes to an end: at a value that has the field or hands it
on to nobody or to a function. -/
def settles (s : Store) (key : Value) : Nat → Value → Bool
  | 0, v => holds s key v
  | n + 1, v => holds s key v || match s.metamethod v "__index" with
    | .nil | .func _ => true
    | handler => settles s key n handler

/-- A lookup that fails at the limit. -/
def failLong (w : Where) : Run Value := failTextAt w "'__index' chain too long; possibly a loop"

variable {s : Store} {key v : Value} (w : Where) (o : Option Origin)

/-- What a lookup does with the handler that it finds. -/
def follow (n : Nat) (object key : Value) (o : Option Origin) (handler : Value) : Run Value :=
  match handler with
  | .nil => match object with
    | .table _ => pure .nil
    | _ => failType w "index" object o
  | .func _ => do return Run.first (← Run.call handler [object, key] (siteOf w "index"))
  | _ => indexFrom w n none handler key

theorem indexFrom_holds {t : TableId} (h : holds s key (.table t)) (n : Nat) :
    indexFrom w n o (.table t) key s = .done (s.rawGet t key) s := by
  have hget : Run.rawGet t key s = .done (s.rawGet t key) s := rfl
  have hv : ¬ (s.rawGet t key).isNil = true := by simpa [holds] using h
  cases n with
  | zero =>
    rw [indexFrom, indexLast, Run.bind_done hget, if_neg hv]
    rfl
  | succ n =>
    rw [indexFrom, Run.bind_done hget, if_neg hv]
    rfl

theorem indexFrom_zero (h : holds s key v = false) : indexFrom w 0 o v key s = failLong w s := by
  cases v with
  | table t =>
    have hget : Run.rawGet t key s = .done (s.rawGet t key) s := rfl
    have hv : (s.rawGet t key).isNil = true := by simpa [holds] using h
    rw [indexFrom, indexLast, Run.bind_done hget, if_pos hv]
    rfl
  | _ => rfl

theorem indexFrom_follow (h : holds s key v = false) (n : Nat) :
    indexFrom w (n + 1) o v key s = follow w n v key o (s.metamethod v "__index") s := by
  have hread : Run.metamethod v "__index" s = .done (s.metamethod v "__index") s := rfl
  generalize s.metamethod v "__index" = handler at hread
  cases v with
  | table t =>
    have hget : Run.rawGet t key s = .done (s.rawGet t key) s := rfl
    have hv : (s.rawGet t key).isNil = true := by simpa [holds] using h
    rw [indexFrom, Run.bind_done hget, if_pos hv, Run.bind_done hread]
    cases handler <;> rfl
  | _ =>
    rw [indexFrom, Run.bind_done hread]
    · cases handler <;> rfl
    · exact nofun

theorem indexFrom_succ : ∀ (n : Nat) {v : Value} (o : Option Origin), settles s key n v →
    indexFrom w (n + 1) o v key s = indexFrom w n o v key s := by
  intro n
  induction n with
  | zero =>
    intro v o h
    cases v with
    | table t => rw [indexFrom_holds w o h, indexFrom_holds w o h]
    | _ => cases h
  | succ n ih =>
    intro v o h
    rcases hv : holds s key v with _ | _
    · rw [indexFrom_follow w o hv, indexFrom_follow w o hv]
      rw [settles, hv, Bool.false_or] at h
      generalize s.metamethod v "__index" = handler at h
      cases handler with
      | nil | func => rfl
      | _ => exact ih none h
    · cases v with
      | table t => rw [indexFrom_holds w o hv, indexFrom_holds w o hv]
      | _ => cases hv

theorem indexFrom_unsettled : ∀ (n : Nat) {v : Value} (o : Option Origin), settles s key n v = false →
    indexFrom w n o v key s = failLong w s := by
  intro n
  induction n with
  | zero => exact fun o h => indexFrom_zero w o h
  | succ n ih =>
    intro v o h
    rw [settles, Bool.or_eq_false_iff] at h
    obtain ⟨hv, h⟩ := h
    rw [indexFrom_follow w o hv]
    generalize s.metamethod v "__index" = handler at h
    cases handler with
    | nil | func => cases h
    | _ => exact ih none h

/-- A lookup that is settled only when it has passed as many tables as it may. -/
def Strains (s : Store) (key v : Value) : Prop :=
  settles s key chainLimit v ∧ settles s key (chainLimit - 1) v = false

/-- To begin one table further on makes a difference only to a lookup that goes all the way. -/
theorem indexFrom_pred (h : ¬ Strains s key v) :
    indexFrom w (chainLimit - 1) o v key s = indexFrom w chainLimit o v key s := by
  have hlimit : chainLimit = chainLimit - 1 + 1 := rfl
  rcases hs : settles s key (chainLimit - 1) v with _ | _
  · have hall : settles s key chainLimit v = false := by
      by_contra hne
      exact h ⟨by simpa using hne, hs⟩
    rw [indexFrom_unsettled w _ o hs, indexFrom_unsettled w _ o hall]
  · rw [hlimit]
    exact (indexFrom_succ w _ o hs).symm

theorem failLong_raises (w : Where) (s : Store) : ∃ e, failLong w s = .raise e s ∧ e ≠ .exhausted := by
  cases w <;> exact ⟨_, rfl, nofun⟩

end Enclosure.Lua.Operation
