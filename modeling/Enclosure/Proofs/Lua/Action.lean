import Enclosure.Lua.State
import Enclosure.Proofs.Attempt
import Enclosure.Proofs.Lua.Run
import Enclosure.Proofs.Lua.Store

/-!
# Actions of the host

What an action does to a state when the run behind it asks for nothing, and what a regular read of a
table gives when nothing but a plain table stands behind it. A plain table itself takes a regular write
as it is.
-/

namespace Enclosure.Lua

namespace State

variable {st : State} {m : Run (List Value)} {vs : List Value} {s : Store}

theorem runRaw_congr {m' : Run (List Value)} (h : m st.store = m' st.store) :
    st.runRaw m = st.runRaw m' := by
  unfold runRaw Machine.start
  rw [h]

theorem runRaw_done (h : m st.store = .done vs s) : st.runRaw m = (.ok vs, { st with store := s }) := by
  unfold runRaw
  rw [Machine.start_done h]

theorem runRaw_raise {v : Value} (h : m st.store = .raise (.value v) s) :
    st.runRaw m = (.error (some v), { st with store := s }) := by
  unfold runRaw
  rw [Machine.start_raise h]

theorem runRaw_raises {e : Raise} (h : m st.store = .raise e s) (he : e ≠ .exhausted) :
    ∃ v, st.runRaw m = (.error (some v), { st with store := s }) := by
  obtain ⟨v, hv⟩ : ∃ v, Machine.start st.functions st.threads m st.store = .raised v s st.threads :=
    Machine.start_raises h he
  unfold runRaw
  rw [hv]
  exact ⟨v, rfl⟩

section

variable {f : FuncId} {args : List Value} {site : Site} {k : List Value → Store → Res (List Value)}
  {s₁ : Store}

/-- A run that calls one function, which ends with a result. -/
theorem runRaw_call_done {ws : List Value} (h : m st.store = .ask (.call (.func f) args site) st.store k)
    (hf : Machine.Does st.functions st.store f args (.done vs s₁)) (hk : k vs s₁ = .done ws s) :
    st.runRaw m = (.ok ws, { st with store := s }) := by
  unfold runRaw
  rw [Machine.start_call_done h hf hk]

/-- A run that calls one function, which raises an error. -/
theorem runRaw_call_raise {v : Value} (h : m st.store = .ask (.call (.func f) args site) st.store k)
    (hf : Machine.Does st.functions st.store f args (.raise (.value v) s)) :
    st.runRaw m = (.error (some v), { st with store := s }) := by
  unfold runRaw
  rw [Machine.start_call_raise h hf]

end

theorem run_done (h : m st.store = .done vs s) : st.run m = (.ok vs, { st with store := s }) := by
  unfold run
  rw [runRaw_done h]

theorem run_raise_str {b : Bytes} (h : m st.store = .raise (.value (.str b)) s) :
    st.run m = (.error (.runtime b.textLossy), { st with store := s }) := by
  unfold run
  rw [runRaw_raise h]
  rfl

end State

namespace Action

variable {st : State} {s : Store}

theorem runFirst_done {m : Run (List Value)} {vs : List Value} (h : m st.store = .done vs s) :
    (runFirst m).on st = (.ok (Run.first vs), { st with store := s }) := by
  have hrun : (run m).on st = (.ok vs, { st with store := s }) := State.run_done h
  unfold runFirst
  rw [Attempt.on_bind, hrun]
  rfl

theorem runFirst_raise {m : Run (List Value)} {b : Bytes}
    (h : m st.store = .raise (.value (.str b)) s) :
    (runFirst m).on st = (.error (.runtime b.textLossy), { st with store := s }) := by
  have hrun : (run m).on st = (.error (.runtime b.textLossy), { st with store := s }) :=
    State.run_raise_str h
  unfold runFirst
  rw [Attempt.on_bind, hrun]

end Action

/-! ## Regular reads -/

namespace Store

/-- What stands behind a table for a read: nothing, or a table behind which there is nothing. -/
inductive Behind (s : Store) (t : TableId) : Option TableId → Prop
  | nothing (h : (s.table t).metatable = none) : Behind s t none
  | table {events behind : TableId} (h : (s.table t).metatable = some events)
    (hindex : s.rawGet events (.text "__index") = .table behind)
    (hbehind : (s.table behind).metatable = none) : Behind s t (some behind)

/-- The value of a table, or else of the table behind it. -/
def getThrough (s : Store) (t : TableId) (behind : Option TableId) (k : Value) : Value :=
  if (s.rawGet t k).isNil then behind.elim .nil (s.rawGet · k) else s.rawGet t k

end Store

namespace Operation

theorem chainLimit_eq : chainLimit = 1998 + 1 + 1 := rfl

/-- A table without a metatable answers with what it holds. -/
theorem indexFrom_bare {s : Store} {t : TableId} (h : (s.table t).metatable = none) (w : Where)
    (n : Nat) (o : Option Origin) (k : Value) :
    indexFrom w (n + 1) o (.table t) k s = .done (s.rawGet t k) s := by
  have hnone : s.metamethod (.table t) "__index" = .nil := by simp [Store.metamethod, Store.metatable, h]
  unfold indexFrom
  by_cases hv : (s.rawGet t k).isNil
  · simp [Run.bind_apply, Run.rawGet, Run.read, Run.metamethod, Res.bind, hnone,
      Run.pure_apply, Value.isNil_iff.1 hv]
  · simp [Run.bind_apply, Run.rawGet, Run.read, Res.bind, hv, Run.pure_apply]

/-- A table without a metatable takes what it is given, if the key can be one. -/
theorem setIndexFrom_bare {s : Store} {t : TableId} (h : (s.table t).metatable = none) (w : Where)
    (n : Nat) (o : Option Origin) (k v : Value) :
    setIndexFrom w (n + 1) o (.table t) k v s = rawSet w t k v s := by
  have hnone : s.metamethod (.table t) "__newindex" = .nil := by simp [Store.metamethod, Store.metatable, h]
  have hget : Run.rawGet t k s = .done (s.rawGet t k) s := rfl
  have hread : Run.metamethod (.table t) "__newindex" s = .done .nil s :=
    congrArg (fun v => Res.done v s) hnone
  rw [setIndexFrom, Run.bind_done hget]
  by_cases hv : (s.rawGet t k).isNil
  · rw [if_pos hv, Run.bind_done hread]
    rfl
  · rw [if_neg hv]

/-- Setting a field without metamethods either sets it or raises an error. -/
theorem rawSet_ends (w : Where) (t : TableId) (k v : Value) (s : Store) :
    (∃ k', rawSet w t k v s = .done () (s.modifyTable t (·.set k' v)))
      ∨ ∃ e, rawSet w t k v s = .raise e s ∧ e ≠ .exhausted := by
  unfold rawSet
  rcases k.asKey? with _ | k'
  · cases w <;> exact .inr ⟨_, rfl, nofun⟩
  · exact .inl ⟨k', rfl⟩

theorem index_behind {s : Store} {t : TableId} {behind : Option TableId} (h : s.Behind t behind)
    (w : Where) (o : Option Origin) (k : Value) :
    index w o (.table t) k s = .done (s.getThrough t behind k) s := by
  unfold index
  rw [chainLimit_eq]
  rcases h with h | ⟨h, hindex, hbehind⟩
  · rw [indexFrom_bare h]
    unfold Store.getThrough
    split_ifs with hv
    · rw [Value.isNil_iff.1 hv]
      rfl
    · rfl
  · rename_i events behind
    have hhandler : s.metamethod (.table t) "__index" = .table behind := by
      simp [Store.metamethod, Store.metatable, h, hindex]
    have hrest := indexFrom_bare hbehind w 1998 none k
    unfold indexFrom Store.getThrough
    by_cases hv : (s.rawGet t k).isNil
    · simp [Run.bind_apply, Run.rawGet, Run.read, Run.metamethod, Res.bind, hv, hhandler, hrest]
    · simp [Run.bind_apply, Run.rawGet, Run.read, Res.bind, hv, Run.pure_apply]

end Operation

namespace Action

theorem get_behind {st : State} {t : TableId} {behind : Option TableId}
    (h : st.store.Behind t behind) (k : Value) :
    (get (.table t) k).on st = (.ok (st.store.getThrough t behind k), st) := by
  have h : (do return [← Operation.index .library none (.table t) k] : Run (List Value)) st.store
      = .done [st.store.getThrough t behind k] st.store :=
    Run.bind_done (Operation.index_behind h _ _ k)
  exact runFirst_done h

end Action

end Enclosure.Lua
