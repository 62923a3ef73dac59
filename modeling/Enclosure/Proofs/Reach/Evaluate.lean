import Enclosure.Lua.Evaluate
import Enclosure.Proofs.Reach.Operation

/-!
# Programs in a realm

Whatever a program does is tame: each expression gives what the realm has, and each statement puts
nothing else anywhere. Between two parts of an expression others may run, so what the first part gave
is taken over into the realm that the second part begins in. The proof follows the program text, and
with it a call of a script's function is tame (`callBody_tame`).
-/

namespace Enclosure.Lua

namespace Realm

/-- What a function may be left with. -/
def HasSignal (R : Realm) : Signal → Prop
  | .ret vs => R.HasAll vs
  | _ => True

def HasLate (R : Realm) : Evaluate.Late → Prop
  | .known v => R.Has v
  | .later _ => True

def HasPlace (R : Realm) : Evaluate.Place → Prop
  | .variable _ => True
  | .field o k _ => R.HasLate o ∧ R.HasLate k

def HasReady (R : Realm) : Evaluate.ReadyPlace → Prop
  | .variable _ => True
  | .field o k _ => R.Has o ∧ R.Has k

variable {R R' : Realm}

theorem HasSignal.up {s : Signal} (h : R.HasSignal s) (hR : R ≤ R') : R'.HasSignal s := by
  cases s with
  | ret vs => exact HasAll.up h hR
  | normal | leave | jump l env => trivial

theorem HasReady.up {p : Evaluate.ReadyPlace} (h : R.HasReady p) (hR : R ≤ R') :
    R'.HasReady p := by
  cases p with
  | «variable» c => trivial
  | field o k origin => exact ⟨h.1.up hR, h.2.up hR⟩

theorem HasLate.up {l : Evaluate.Late} (h : R.HasLate l) (hR : R ≤ R') : R'.HasLate l := by
  cases l with
  | known v => exact Has.up h hR
  | later c => trivial

theorem HasPlace.up {p : Evaluate.Place} (h : R.HasPlace p) (hR : R ≤ R') : R'.HasPlace p := by
  cases p with
  | «variable» c => trivial
  | field o k origin => exact ⟨h.1.up hR, h.2.up hR⟩

end Realm

variable {R : Realm} {c : Scope} {v a b : Value} {vs : List Value}

namespace Evaluate

theorem first_has (h : R.HasAll vs) : R.Has (Run.first vs) := h.headD

theorem tail_hasAll (h : R.HasAll vs) : R.HasAll vs.tail := List.drop_one ▸ h.drop 1

theorem literal_has (l : Literal) : R.Has l.value := by
  cases l <;> trivial

theorem one_tame {m : Run Value} (h : m.Tame R Realm.Has) :
    (do return [← m] : Run (List Value)).Tame R Realm.HasAll :=
  .bind h fun _ _ _ hv => .pure (Realm.hasAll_one hv)

/-! ## Variables -/

theorem readSlot_calm (c : Scope) (slot : Nat) : (readSlot c slot).Calm R R.Has := .readCell _

theorem declare_calm : ∀ (n : Nat) {vs : List Value} (env : List CellId), R.HasAll vs →
    (declare n vs env).Calm R fun _ => True
  | 0, _, _, _ => .pure trivial
  | n + 1, _, _, hvs => .bind (.newCell (first_has hvs)) fun _ _ =>
    declare_calm n _ (tail_hasAll hvs)

theorem closure_tame (c : Scope) (body : FuncBody) : (closure c body).Tame R Realm.Has :=
  .newFunction (.closure _ _ _)

/-! ## Operators -/

theorem unary_tame (op : UnaryOp) (line : Nat) {a : Operation.Operand} (ha : R.Has a.value) :
    (unary op line a).Tame R Realm.Has := by
  cases op
  · exact Operation.minus_tame _ ha
  · exact .pure trivial
  · exact Operation.length_tame _ ha
  · exact Operation.bitNot_tame _ ha

theorem binary_tame (op : BinaryOp) (line : Nat) {a b : Operation.Operand} (ha : R.Has a.value)
    (hb : R.Has b.value) : (binary op line a b).Tame R Realm.Has := by
  unfold binary
  dsimp only
  split
  · exact Operation.concat_tame _ ha hb
  · exact .bind (Operation.equal_tame _ ha hb) fun _ _ _ _ => .pure trivial
  · exact .bind (Operation.equal_tame _ ha hb) fun _ _ _ _ => .pure trivial
  · exact .bind (Operation.less_tame _ ha hb) fun _ _ _ _ => .pure trivial
  · exact .bind (Operation.lessEq_tame _ ha hb) fun _ _ _ _ => .pure trivial
  · exact .bind (Operation.less_tame _ hb ha) fun _ _ _ _ => .pure trivial
  · exact .bind (Operation.lessEq_tame _ hb ha) fun _ _ _ _ => .pure trivial
  · exact Operation.arithmetic_tame _ _ ha hb

/-! ## Places that are assigned to -/

theorem late_read_calm {l : Late} (hl : R.HasLate l) : l.read.Calm R R.Has := by
  cases l
  · exact .pure hl
  · exact .readCell _

theorem ready_calm {p : Place} (hp : R.HasPlace p) : p.ready.Calm R R.HasReady := by
  cases p
  · exact .pure trivial
  · exact .bind (late_read_calm hp.1) fun _ ho => .bind (late_read_calm hp.2) fun _ hk =>
      .pure ⟨ho, hk⟩

theorem readyAll_calm : ∀ {ps : List Place}, (∀ p ∈ ps, R.HasPlace p) →
    (readyAll ps).Calm R fun ps => ∀ p ∈ ps, R.HasReady p
  | [], _ => .pure nofun
  | _ :: _, h => by
    obtain ⟨hp, hrest⟩ := List.forall_mem_cons.1 h
    exact .bind (ready_calm hp) fun _ hp => .bind (readyAll_calm hrest) fun _ hrest =>
      .pure (List.forall_mem_cons.2 ⟨hp, hrest⟩)

theorem write_tame (line : Nat) (hv : R.Has v) {p : ReadyPlace} (hp : R.HasReady p) :
    (p.write line v).Tame R fun _ _ => True := by
  cases p
  · exact (Run.Calm.writeCell _ hv).any
  · exact Operation.setIndex_tame _ _ hp.1 hp.2 hv

theorem writeAll_tame (line : Nat) : ∀ {ps : List ReadyPlace} {vs : List Value},
    (∀ p ∈ ps, R.HasReady p) → R.HasAll vs → (writeAll line ps vs).Tame R fun _ _ => True
  | [], _, _, _ => .pure trivial
  | _ :: _, _, h, hvs => by
    obtain ⟨hp, hrest⟩ := List.forall_mem_cons.1 h
    exact .bind (writeAll_tame line hrest (tail_hasAll hvs)) fun _ _ h₁ _ =>
      write_tame line ((first_has hvs).up h₁) (hp.up h₁)

/-! ## Closing -/

theorem deferClose_tame (line : Nat) (name : Bytes) (hv : R.Has v) :
    (deferClose line name v).Tame R fun _ _ => True := by
  refine .ite (fun _ => .pure trivial) fun _ => .calmly (.metamethod hv _) fun h _ => ?_
  exact .check (Operation.failAt_plain _ _).fails (.bind (.ask hv) fun _ _ _ _ => .pure trivial)

theorem closing_tame (marked : Bool) (line : Nat) {s : Signal} (hs : R.HasSignal s) :
    (closing marked line s).Tame R Realm.HasSignal :=
  .ite (fun _ => .bind (.ask trivial) fun _ _ h₁ _ => .pure (hs.up h₁))
    fun _ => .pure hs

/-! ## Loops -/

theorem withLabels_tame (body : List Stmt) {run : Landing → Run Signal}
    (h : ∀ R', R ≤ R' → ∀ l, (run l).Tame R' Realm.HasSignal) :
    (withLabels body run).Tame R Realm.HasSignal := by
  refine .loopWith (I := fun _ _ => True) trivial fun R' hle l _ => .bind (h R' hle l) ?_
  intro s _ _ hs
  split
  · exact .ite (fun _ => .pure trivial) fun _ => .pure trivial
  · exact .pure hs

/-- A loop ends as a round of its body did. -/
theorem afterRound_has {s s' : Signal} (hs : R.HasSignal s) (h : afterRound s = some s') :
    R.HasSignal s' := by
  cases s <;> cases h <;> exact hs

theorem overRange_tame (r : Evaluate.Range) {body : Value → Run Signal}
    (h : ∀ R', R ≤ R' → ∀ v, R'.Has v → (body v).Tame R' Realm.HasSignal) :
    (overRange r body).Tame R Realm.HasSignal := by
  cases r with
  | empty => exact .pure trivial
  | ints start step more =>
    refine .loopWith (I := fun _ _ => True) trivial ?_
    rintro R' hle ⟨i, more⟩ -
    refine .bind (h R' hle _ trivial) fun s _ _ hs => ?_
    split
    · rename_i hround
      exact .pure (afterRound_has hs hround)
    · split
      · exact .pure trivial
      · exact .pure trivial
  | doubles start limit step =>
    refine .loopWith (I := fun _ _ => True) trivial fun R' hle d _ =>
      .bind (h R' hle _ trivial) fun s _ _ hs => ?_
    split
    · rename_i hround
      exact .pure (afterRound_has hs hround)
    · exact .ite (fun _ => .pure trivial) fun _ => .pure trivial

theorem overIterator_tame (line : Nat) {f state control : Value} (hf : R.Has f)
    (hstate : R.Has state) (hcontrol : R.Has control) {body : List Value → Run Signal}
    (h : ∀ R', R ≤ R' → ∀ vs, R'.HasAll vs → (body vs).Tame R' Realm.HasSignal) :
    (overIterator line f state control body).Tame R Realm.HasSignal := by
  refine .loopWith (I := Realm.Has) hcontrol fun R' hle control hc => ?_
  refine .bind (.call (hf.up hle) (.cons (hstate.up hle) (Realm.hasAll_one hc)) _)
    fun vs R₁ h₁ hvs => .ite (fun _ => .pure trivial) fun _ => ?_
  refine .bind (h R₁ (hle.trans h₁) vs hvs) fun s R₂ h₂ hs => ?_
  split
  · rename_i hround
    exact .pure (afterRound_has hs hround)
  · exact .pure ((first_has hvs).up h₂)

/-! ## Expressions and statements -/

theorem storeFrom_calm {t : TableId} (ht : t ∈ R.tables) : ∀ (n : Nat) {vs : List Value},
    R.HasAll vs → (storeFrom t n vs).Calm R fun _ => True
  | _, [], _ => .pure trivial
  | n, _ :: _, h => by
    obtain ⟨hv, hvs⟩ := Realm.hasAll_cons.1 h
    exact .bind (.rawSetKey ht trivial hv) fun _ _ => storeFrom_calm ht (n + 1) hvs

mutual

theorem eval_tame (c : Scope) : ∀ (e : Expr) {R : Realm}, R.HasAll c.varargs →
    (eval c e).Tame R Realm.HasAll
  | .literal l, _, _ => by
    rw [eval]
    exact .pure (Realm.hasAll_one (literal_has l))
  | .vararg, _, hc => by
    rw [eval]
    exact .pure hc
  | .variable slot _ _, _, _ => by
    rw [eval]
    exact .calmly (readSlot_calm c slot) fun _ hv => .pure (Realm.hasAll_one hv)
  -- either part may be the first to run, and what it found is carried up to the realm that the other
  -- leaves
  | .index object key line, _, hc => by
    rw [eval]
    refine .ite (fun _ => ?_) fun _ => ?_
    · refine .bind (eval_tame c key hc) fun k R₁ h₁ hk => ?_
      exact .bind (eval_tame c object (hc.up h₁)) fun o R₂ h₂ ho =>
        one_tame (Operation.index_tame _ _ (first_has ho) ((first_has hk).up h₂))
    · refine .bind (eval_tame c object hc) fun o R₁ h₁ ho => ?_
      exact .bind (eval_tame c key (hc.up h₁)) fun k R₂ h₂ hk =>
        one_tame (Operation.index_tame _ _ ((first_has ho).up h₂) (first_has hk))
  | .call callee args line, _, hc => by
    rw [eval]
    refine .bind (eval_tame c callee hc) fun f R₁ h₁ hf => ?_
    exact .bind (evalList_tame c args (hc.up h₁)) fun vs R₂ h₂ hvs =>
      .call ((first_has hf).up h₂) hvs _
  | .method object name args selfLine line, _, hc => by
    rw [eval]
    refine .bind (eval_tame c object hc) fun o R₁ h₁ ho => ?_
    refine .bind (Operation.index_tame _ _ (first_has ho) trivial) fun f R₂ h₂ hf => ?_
    refine .bind (evalList_tame c args (hc.up (h₁.trans h₂))) fun vs R₃ h₃ hvs => ?_
    exact .call (hf.up h₃) (.cons ((first_has ho).up (h₂.trans h₃)) hvs) _
  | .function body, _, _ => by
    rw [eval]
    exact one_tame (closure_tame c body)
  | .unary op operand line, _, hc => by
    rw [eval]
    exact .bind (eval_tame c operand hc) fun v _ _ hv =>
      one_tame (unary_tame op line (first_has hv))
  | .binary op left right line, _, hc => by
    rw [eval]
    refine .ite (fun _ => ?_) fun _ => ?_
    · refine .bind (eval_tame c right hc) fun b R₁ h₁ hb => ?_
      exact .bind (eval_tame c left (hc.up h₁)) fun a R₂ h₂ ha =>
        one_tame (binary_tame op line (first_has ha) ((first_has hb).up h₂))
    · refine .bind (eval_tame c left hc) fun a R₁ h₁ ha => ?_
      exact .bind (eval_tame c right (hc.up h₁)) fun b R₂ h₂ hb =>
        one_tame (binary_tame op line ((first_has ha).up h₂) (first_has hb))
  | .and left right, _, hc => by
    rw [eval]
    refine .bind (eval_tame c left hc) fun a R₁ h₁ ha => .ite (fun _ => ?_) fun _ => ?_
    · exact .bind (eval_tame c right (hc.up h₁)) fun b _ _ hb =>
        .pure (Realm.hasAll_one (first_has hb))
    · exact .pure (Realm.hasAll_one (first_has ha))
  | .or left right, _, hc => by
    rw [eval]
    refine .bind (eval_tame c left hc) fun a R₁ h₁ ha => .ite (fun _ => ?_) fun _ => ?_
    · exact .pure (Realm.hasAll_one (first_has ha))
    · exact .bind (eval_tame c right (hc.up h₁)) fun b _ _ hb =>
        .pure (Realm.hasAll_one (first_has hb))
  | .paren inner, _, hc => by
    rw [eval]
    exact .bind (eval_tame c inner hc) fun v _ _ hv => .pure (Realm.hasAll_one (first_has hv))
  | .table items arrayRoom hashRoom, _, hc => by
    rw [eval]
    refine .bind (.stepNewTable (.empty rfl rfl) rfl) fun t R₁ h₁ ht => ?_
    exact .bind (evalItems_tame c t 1 items (hc.up h₁) ht) fun _ R₂ h₂ _ =>
      .pure (Realm.hasAll_one (h₂.1 ht))

theorem evalList_tame (c : Scope) : ∀ (es : List Expr) {R : Realm}, R.HasAll c.varargs →
    (evalList c es).Tame R Realm.HasAll
  | [], _, _ => by
    rw [evalList]
    exact .pure Realm.hasAll_nil
  | [e], _, hc => by
    rw [evalList]
    exact eval_tame c e hc
  | e :: e' :: rest, _, hc => by
    rw [evalList]
    · refine .bind (eval_tame c e hc) fun v R₁ h₁ hv => ?_
      exact .bind (evalList_tame c (e' :: rest) (hc.up h₁)) fun vs R₂ h₂ hvs =>
        .pure (.cons ((first_has hv).up h₂) hvs)
    · nofun

theorem evalItems_tame (c : Scope) (t : TableId) : ∀ (n : Nat) (items : List Item) {R : Realm},
    R.HasAll c.varargs → t ∈ R.tables → (evalItems c t n items).Tame R fun _ _ => True
  | _, [], _, _, _ => by
    rw [evalItems]
    exact .pure trivial
  | n, .positional e :: rest, _, hc, ht => by
    rw [evalItems]
    refine .bind (eval_tame c e hc) fun vs R₁ h₁ hvs =>
      .ite (fun _ => (storeFrom_calm (h₁.1 ht) n hvs).any) fun _ => ?_
    exact .calmly (.rawSetKey (h₁.1 ht) trivial (first_has hvs)) fun _ _ =>
      evalItems_tame c t (n + 1) rest (hc.up h₁) (h₁.1 ht)
  | n, .keyed key value line :: rest, _, hc, ht => by
    rw [evalItems]
    refine .bind (eval_tame c key hc) fun k R₁ h₁ hk => ?_
    refine .bind (eval_tame c value (hc.up h₁)) fun v R₂ h₂ hv => ?_
    have ht₂ := (h₁.trans h₂).1 ht
    exact .calmly (Operation.rawSet_calm _ ht₂ ((first_has hk).up h₂) (first_has hv)) fun _ _ =>
      evalItems_tame c t n rest (hc.up (h₁.trans h₂)) ht₂

theorem places_tame (c : Scope) : ∀ (es : List Expr) {R : Realm}, R.HasAll c.varargs →
    (places c es).Tame R fun R' ps => ∀ p ∈ ps, R'.HasPlace p
  | [], _, _ => by
    rw [places]
    exact .pure nofun
  | .variable slot outer name :: rest, _, hc => by
    rw [places]
    exact .bind (places_tame c rest hc) fun ps _ _ hps =>
      .pure (List.forall_mem_cons.2 ⟨trivial, hps⟩)
  | .index object key line :: rest, _, hc => by
    -- the table and the key are each read now or later, and the rest is the same in all four cases
    have field {R : Realm} (hc : R.HasAll c.varargs) (o k : Late) (ho : R.HasLate o)
        (hk : R.HasLate k) :
        (do return .field o k object.origin? :: (← places c rest) : Run (List Place)).Tame R
          fun R' ps => ∀ p ∈ ps, R'.HasPlace p :=
      .bind (places_tame c rest hc) fun ps _ h₁ hps =>
        .pure (List.forall_mem_cons.2 ⟨⟨ho.up h₁, hk.up h₁⟩, hps⟩)
    have onward {R : Realm} (hc : R.HasAll c.varargs) (o : Late) (ho : R.HasLate o) :
        (match ownCell? c key with
        | some cell => do
          let k ← pure (Late.later cell)
          return .field o k object.origin? :: (← places c rest)
        | none => do
          let v ← eval c key
          let k ← pure (Late.known (Run.first v))
          return .field o k object.origin? :: (← places c rest) : Run (List Place)).Tame R
          fun R' ps => ∀ p ∈ ps, R'.HasPlace p := by
      split
      · exact field hc o _ ho trivial
      · exact .bind (eval_tame c key hc) fun v _ h₁ hv =>
          field (hc.up h₁) o _ (ho.up h₁) (first_has hv)
    rw [places]
    split
    · exact onward hc _ trivial
    · exact .bind (eval_tame c object hc) fun v _ h₁ hv => onward (hc.up h₁) _ (first_has hv)
  | .literal _ :: rest, _, hc | .vararg :: rest, _, hc | .call .. :: rest, _, hc
  | .method .. :: rest, _, hc | .function _ :: rest, _, hc | .unary .. :: rest, _, hc
  | .binary .. :: rest, _, hc | .and .. :: rest, _, hc | .or .. :: rest, _, hc
  | .paren _ :: rest, _, hc | .table .. :: rest, _, hc => by
    rw [places]
    · exact places_tame c rest hc
    all_goals nofun

theorem exec_tame (c : Scope) : ∀ (st : Stmt) {R : Realm}, R.HasAll c.varargs →
    (exec c st).Tame R Realm.HasSignal
  | .assign targets values line, _, hc => by
    rw [exec]
    refine .bind (places_tame c targets hc) fun ps R₁ h₁ hps => ?_
    refine .bind (evalList_tame c values (hc.up h₁)) fun vs R₂ h₂ hvs => ?_
    refine .calmly (readyAll_calm fun p hp => (hps p hp).up h₂) fun ps hps => ?_
    exact .bind (writeAll_tame line hps hvs) fun _ _ _ _ => .pure trivial
  | .call e, _, hc => by
    rw [exec]
    exact .bind (eval_tame c e hc) fun _ _ _ _ => .pure trivial
  | .block body, _, hc => by
    rw [exec]
    exact withLabels_tame body fun _ hle l => execList_tame c l body (hc.up hle)
  -- a body is run again in whatever realm the rounds before it have left
  | .while condition body, _, hc => by
    rw [exec]
    refine .loop fun R' hle => .bind (eval_tame c condition (hc.up hle)) fun v R₁ h₁ _ =>
      .ite (fun _ => ?_) fun _ => ?_
    · have hc₁ := hc.up (hle.trans h₁)
      refine .bind (withLabels_tame body fun _ hle l => execList_tame c l body (hc₁.up hle))
        fun s _ _ hs => .pure fun s' hround => afterRound_has hs hround
    · refine .pure fun s' hnormal => ?_
      cases hnormal
      trivial
  | .repeat body, _, hc => by
    rw [exec]
    refine .loop fun R' hle => .bind (withLabels_tame body fun _ hle' l =>
      execList_tame c l body (hc.up (hle.trans hle'))) fun s _ _ hs => ?_
    exact .pure fun s' hround => afterRound_has hs hround
  | .leaveIf condition, _, hc => by
    rw [exec]
    refine .bind (eval_tame c condition hc) fun v _ _ _ => .pure ?_
    split_ifs
    · trivial
    · trivial
  | .ifThen condition thenBody elseBody, _, hc => by
    rw [exec]
    refine .bind (eval_tame c condition hc) fun v R₁ h₁ _ => .ite (fun _ => ?_) fun _ => ?_
    · exact withLabels_tame thenBody fun _ hle l => execList_tame c l thenBody (hc.up (h₁.trans hle))
    · exact withLabels_tame elseBody fun _ hle l => execList_tame c l elseBody (hc.up (h₁.trans hle))
  | .numericFor start limit step body line, _, hc => by
    rw [exec]
    refine .bind (eval_tame c start hc) fun a R₁ h₁ _ => ?_
    refine .bind (eval_tame c limit (hc.up h₁)) fun l R₂ h₂ _ => ?_
    refine .bind (eval_tame c step (hc.up (h₁.trans h₂))) fun s R₃ h₃ _ => ?_
    have hc₃ := hc.up (h₁.trans (h₂.trans h₃))
    refine .calmly (rangeOf_plain line _ _ _).calm fun r _ => overRange_tame r fun R₄ h₄ v hv => ?_
    exact .calmly (declare_calm 1 _ (Realm.hasAll_one hv)) fun env _ =>
      withLabels_tame body fun _ hle l =>
        execList_tame { c with env } l body (hc₃.up (h₄.trans hle))
  | .genericFor count values body line, _, hc => by
    rw [exec]
    refine .bind (evalList_tame c values hc) fun vs R₁ h₁ hvs => ?_
    refine .bind (deferClose_tame line _ (first_has (hvs.drop 3))) fun marked R₂ h₂ _ => ?_
    have hvs₂ := hvs.up h₂
    refine .bind (overIterator_tame line (first_has hvs₂) (first_has (hvs₂.drop 1))
      (first_has (hvs₂.drop 2)) fun R₃ h₃ vs hvs => ?_) fun s _ _ hs => closing_tame marked line hs
    have hc₃ := hc.up (h₁.trans (h₂.trans h₃))
    exact .calmly (declare_calm count _ hvs) fun env _ =>
      withLabels_tame body fun _ hle l => execList_tame { c with env } l body (hc₃.up hle)
  | .ret values, _, hc => by
    rw [exec]
    exact .bind (evalList_tame c values hc) fun vs _ _ hvs => .pure hvs
  | .tailCall callee args line, _, hc => by
    rw [exec]
    refine .bind (eval_tame c callee hc) fun f R₁ h₁ hf => ?_
    refine .bind (evalList_tame c args (hc.up h₁)) fun vs R₂ h₂ hvs => ?_
    exact .bind (.ask ⟨(first_has hf).up h₂, hvs⟩) fun vs _ _ hvs => .pure hvs
  | .tailMethod object name args selfLine line, _, hc => by
    rw [exec]
    refine .bind (eval_tame c object hc) fun o R₁ h₁ ho => ?_
    refine .bind (Operation.index_tame _ _ (first_has ho) trivial) fun f R₂ h₂ hf => ?_
    refine .bind (evalList_tame c args (hc.up (h₁.trans h₂))) fun vs R₃ h₃ hvs => ?_
    exact .bind (.ask ⟨hf.up h₃, .cons ((first_has ho).up (h₂.trans h₃)) hvs⟩)
      fun vs _ _ hvs => .pure hvs
  | .break, _, _ | .goto _, _, _ | .localVars .., _, _ | .localClose .., _, _
  | .localFunction _, _, _ | .label .., _, _ => by
    rw [exec]
    exact .pure trivial

theorem execList_tame (c : Scope) : ∀ (landing : Landing) (body : List Stmt) {R : Realm},
    R.HasAll c.varargs → (execList c landing body).Tame R Realm.HasSignal
  | _, [], _, _ => by
    rw [execList]
    exact .pure trivial
  | some (l, env), st :: rest, _, hc => by
    -- a jump is on its way to a label: what stands before that is passed over
    have hrest := execList_tame c (some (l, env)) rest hc
    cases st with
    | label n depth =>
      rw [execList]
      exact .ite (fun _ => execList_tame (landAt c env depth) none rest hc) fun _ => hrest
    | _ =>
      rw [execList]
      · exact hrest
      nofun
  | none, .localVars count values :: rest, _, hc => by
    rw [execList]
    refine .bind (evalList_tame c values hc) fun vs R₁ h₁ hvs => ?_
    exact .calmly (declare_calm count _ hvs) fun env _ =>
      execList_tame { c with env } none rest (hc.up h₁)
  | none, .localFunction body :: rest, _, hc => by
    rw [execList]
    refine .calmly (.newCell trivial) fun cell _ => ?_
    refine .bind (closure_tame _ body) fun f R₁ h₁ hf => ?_
    exact .calmly (.writeCell cell hf) fun _ _ =>
      execList_tame { c with env := cell :: c.env } none rest (hc.up h₁)
  | none, .localClose count values position name line :: rest, _, hc => by
    rw [execList]
    refine .bind (evalList_tame c values hc) fun vs R₁ h₁ hvs => ?_
    refine .calmly (declare_calm count _ hvs) fun env _ => ?_
    refine .bind (deferClose_tame line name (first_has (hvs.drop position))) fun marked R₂ h₂ _ => ?_
    have hc₂ := hc.up (h₁.trans h₂)
    refine .bind (withLabels_tame rest fun _ hle l => ?_) fun s _ _ hs => closing_tame marked line hs
    exact execList_tame { c with env } l rest (hc₂.up hle)
  | none, .label _ _ :: rest, _, hc => by
    rw [execList]
    exact execList_tame c none rest hc
  | none, .assign .. :: rest, _, hc | none, .call _ :: rest, _, hc | none, .block _ :: rest, _, hc
  | none, .while .. :: rest, _, hc | none, .repeat _ :: rest, _, hc
  | none, .leaveIf _ :: rest, _, hc | none, .ifThen .. :: rest, _, hc
  | none, .numericFor .. :: rest, _, hc | none, .genericFor .. :: rest, _, hc
  | none, .ret _ :: rest, _, hc | none, .tailCall .. :: rest, _, hc
  | none, .tailMethod .. :: rest, _, hc | none, .break :: rest, _, hc
  | none, .goto _ :: rest, _, hc => by
    rw [execList]
    · refine .bind (exec_tame c _ hc) fun s _ h₁ hs => ?_
      split
      · exact execList_tame c none rest (hc.up h₁)
      · exact .pure hs
    all_goals nofun

end

theorem callBody_tame (body : FuncBody) (env : List CellId) (chunk : Bytes) {args : List Value}
    (h : R.HasAll args) : (callBody body env chunk args).Tame R Realm.HasAll := by
  obtain ⟨params, variadic, statements, _⟩ := body
  unfold callBody
  refine .calmly (declare_calm params _ h) fun env _ => ?_
  have hvarargs : R.HasAll (if variadic then args.drop params else []) := by
    split_ifs
    · exact h.drop params
    · exact Realm.hasAll_nil
  refine .bind (withLabels_tame statements fun _ hle l =>
    execList_tame _ l statements (hvarargs.up hle)) fun s _ _ hs => ?_
  split
  · exact .pure hs
  · exact .pure Realm.hasAll_nil

end Evaluate

end Enclosure.Lua
