import Enclosure.Lua.Evaluate
import Enclosure.Proofs.Confinement.Operation

/-!
# Programs in a zone

Where scripts may have functions of their own and all variables are theirs, whatever a program does
is safe: each expression gives what scripts may hold, and each statement puts nothing else anywhere.
The proof follows the program text, and with it a call of a script's function is safe
(`callBody_safe`).
-/

namespace Enclosure.Lua

variable {Z : Zone} {c : Scope} {v a b : Value} {vs : List Value}

/-- A zone in which scripts may have functions, and all variables are theirs. -/
structure Zone.Scripted (Z : Zone) : Prop where
  sound : Z.Sound
  closures : Z.closures
  own : ∀ c, Z.OwnCell c

/-- What a function may be left with is what scripts may hold. -/
def Signal.Safe (Z : Zone) : Signal → Prop
  | .ret vs => Z.Publics vs
  | _ => True

namespace Evaluate

def Late.Safe (Z : Zone) : Late → Prop
  | .known v => Z.Public v
  | .later _ => True

def Place.Safe (Z : Zone) : Place → Prop
  | .variable _ => True
  | .field o k _ => o.Safe Z ∧ k.Safe Z

def ReadyPlace.Safe (Z : Zone) : ReadyPlace → Prop
  | .variable _ => True
  | .field o k _ => Z.Public o ∧ Z.Public k

theorem first_public (h : Z.Publics vs) : Z.Public (Run.first vs) := h.headD

theorem tail_publics (h : Z.Publics vs) : Z.Publics vs.tail := List.drop_one ▸ h.drop 1

theorem literal_public (l : Literal) : Z.Public l.value := by
  cases l <;> trivial

theorem one_safe {m : Run Value} (h : m.Safe Z Z.Public) :
    (do return [← m] : Run (List Value)).Safe Z Z.Publics :=
  .bind h fun _ hv => .pure (Zone.publics_one hv)

section

variable (scripted : Z.Scripted)

include scripted

/-! ## Variables -/

theorem readSlot_safe (c : Scope) (slot : Nat) : (readSlot c slot).Safe Z Z.Public :=
  .readCell (scripted.own _)

omit scripted in
theorem declare_safe : ∀ (n : Nat) {vs : List Value} (env : List CellId), Z.Publics vs →
    (declare n vs env).Sound Z
  | 0, _, _, _ => .pure trivial
  | n + 1, _, _, hvs => .bind (.newCell (first_public hvs)) fun _ _ =>
    declare_safe n _ (tail_publics hvs)

theorem closure_safe (c : Scope) (body : FuncBody) : (closure c body).Safe Z Z.Public :=
  .newFunction (.closure scripted.closures fun c _ => scripted.own c)

/-! ## Operators -/

theorem unary_safe (op : UnaryOp) (line : Nat) {a : Operation.Operand} (ha : Z.Public a.value) :
    (unary op line a).Safe Z Z.Public := by
  cases op
  · exact Operation.minus_safe scripted.sound _ ha
  · exact .pure trivial
  · exact Operation.length_safe scripted.sound _ ha
  · exact Operation.bitNot_safe scripted.sound _ ha

theorem binary_safe (op : BinaryOp) (line : Nat) {a b : Operation.Operand} (ha : Z.Public a.value)
    (hb : Z.Public b.value) : (binary op line a b).Safe Z Z.Public := by
  unfold binary
  dsimp only
  split
  · exact Operation.concat_safe scripted.sound _ ha hb
  · exact .bind (Operation.equal_safe scripted.sound _ ha hb) fun _ _ => .pure trivial
  · exact .bind (Operation.equal_safe scripted.sound _ ha hb) fun _ _ => .pure trivial
  · exact .bind (Operation.less_safe scripted.sound _ ha hb) fun _ _ => .pure trivial
  · exact .bind (Operation.lessEq_safe scripted.sound _ ha hb) fun _ _ => .pure trivial
  · exact .bind (Operation.less_safe scripted.sound _ hb ha) fun _ _ => .pure trivial
  · exact .bind (Operation.lessEq_safe scripted.sound _ hb ha) fun _ _ => .pure trivial
  · exact Operation.arithmetic_safe scripted.sound _ _ ha hb

/-! ## Places that are assigned to -/

theorem late_read_safe {l : Late} (hl : l.Safe Z) : l.read.Safe Z Z.Public := by
  cases l
  · exact .pure hl
  · exact .readCell (scripted.own _)

theorem ready_safe {p : Place} (hp : p.Safe Z) : p.ready.Safe Z (·.Safe Z) := by
  cases p
  · exact .pure trivial
  · exact .bind (late_read_safe scripted hp.1) fun _ ho =>
      .bind (late_read_safe scripted hp.2) fun _ hk => .pure ⟨ho, hk⟩

theorem readyAll_safe : ∀ {ps : List Place}, (∀ p ∈ ps, p.Safe Z) →
    (readyAll ps).Safe Z fun ps => ∀ p ∈ ps, p.Safe Z
  | [], _ => .pure nofun
  | _ :: _, h => by
    obtain ⟨hp, hrest⟩ := List.forall_mem_cons.1 h
    exact .bind (ready_safe scripted hp) fun _ hp => .bind (readyAll_safe hrest) fun _ hrest =>
      .pure (List.forall_mem_cons.2 ⟨hp, hrest⟩)

theorem write_safe (line : Nat) (hv : Z.Public v) {p : ReadyPlace} (hp : p.Safe Z) :
    (p.write line v).Sound Z := by
  cases p
  · exact .writeCell _ hv
  · exact Operation.setIndex_safe scripted.sound _ _ hp.1 hp.2 hv

theorem writeAll_safe (line : Nat) : ∀ {ps : List ReadyPlace} {vs : List Value},
    (∀ p ∈ ps, p.Safe Z) → Z.Publics vs → (writeAll line ps vs).Sound Z
  | [], _, _, _ => .pure trivial
  | _ :: _, _, h, hvs => by
    obtain ⟨hp, hrest⟩ := List.forall_mem_cons.1 h
    exact .bind (writeAll_safe line hrest (tail_publics hvs)) fun _ _ =>
      write_safe scripted line (first_public hvs) hp

/-! ## Closing -/

theorem deferClose_safe (line : Nat) (name : Bytes) (hv : Z.Public v) :
    (deferClose line name v).Sound Z := by
  refine .ite (fun _ => .pure trivial) fun _ => ?_
  refine .bind (.metamethod scripted.sound hv (by decide) (by decide)) fun h _ => ?_
  exact .check (Operation.failAt_plain _ _).safe (.bind (.ask hv) fun _ _ => .pure trivial)

omit scripted in
theorem closing_safe (marked : Bool) (line : Nat) {s : Signal} (hs : s.Safe Z) :
    (closing marked line s).Safe Z (·.Safe Z) :=
  .ite (fun _ => .bind (.ask trivial) fun _ _ => .pure hs) fun _ => .pure hs

end

/-! ## Loops -/

theorem withLabels_safe (body : List Stmt) {run : Landing → Run Signal}
    (h : ∀ l, (run l).Safe Z (·.Safe Z)) : (withLabels body run).Safe Z (·.Safe Z) := by
  refine .loopWith (I := fun _ => True) trivial fun l _ => .bind (h l) fun s hs => ?_
  split
  · exact .ite (fun _ => .pure trivial) fun _ => .pure trivial
  · exact .pure hs

/-- A loop ends as a round of its body did. -/
theorem afterRound_safe {s s' : Signal} (hs : s.Safe Z) (h : afterRound s = some s') :
    s'.Safe Z := by
  cases s <;> cases h <;> exact hs

theorem overRange_safe (r : Evaluate.Range) {body : Value → Run Signal}
    (h : ∀ v, Z.Public v → (body v).Safe Z (·.Safe Z)) : (overRange r body).Safe Z (·.Safe Z) := by
  cases r with
  | empty => exact .pure trivial
  | ints start step more =>
    refine .loopWith (I := fun _ => True) trivial ?_
    rintro ⟨i, more⟩ -
    refine .bind (h _ trivial) fun s hs => ?_
    split
    · rename_i hround
      exact .pure (afterRound_safe hs hround)
    · split
      · exact .pure trivial
      · exact .pure trivial
  | doubles start limit step =>
    refine .loopWith (I := fun _ => True) trivial fun d _ => .bind (h _ trivial) fun s hs => ?_
    split
    · rename_i hround
      exact .pure (afterRound_safe hs hround)
    · exact .ite (fun _ => .pure trivial) fun _ => .pure trivial

theorem overIterator_safe (line : Nat) {f state control : Value} (hf : Z.Public f)
    (hstate : Z.Public state) (hcontrol : Z.Public control) {body : List Value → Run Signal}
    (h : ∀ vs, Z.Publics vs → (body vs).Safe Z (·.Safe Z)) :
    (overIterator line f state control body).Safe Z (·.Safe Z) := by
  refine .loopWith (I := Z.Public) hcontrol fun control hc => ?_
  have hargs := Zone.publics_cons.2 ⟨hstate, Zone.publics_one hc⟩
  refine .bind (.call hf.callable hargs _) fun vs hvs => ?_
  refine .ite (fun _ => .pure trivial) fun _ => .bind (h vs hvs) fun s hs => ?_
  split
  · rename_i hround
    exact .pure (afterRound_safe hs hround)
  · exact .pure (first_public hvs)

/-! ## Expressions and statements -/

theorem storeFrom_safe {t : TableId} (ht : Z.Public (.table t)) : ∀ (n : Nat) {vs : List Value},
    Z.Publics vs → (storeFrom t n vs).Sound Z
  | _, [], _ => .pure trivial
  | n, _ :: _, h => by
    obtain ⟨hv, hvs⟩ := Zone.publics_cons.1 h
    exact .bind (.rawSetKey ht trivial hv) fun _ _ => storeFrom_safe ht (n + 1) hvs

mutual

theorem eval_safe (scripted : Z.Scripted) (c : Scope) (hc : Z.Publics c.varargs) :
    ∀ e, (eval c e).Safe Z Z.Publics
  | .literal l => by
    rw [eval]
    exact .pure (Zone.publics_one (literal_public l))
  | .vararg => by
    rw [eval]
    exact .pure hc
  | .variable slot _ _ => by
    rw [eval]
    exact one_safe (readSlot_safe scripted c slot)
  | .index object key line => by
    have ho := eval_safe scripted c hc object
    have hk := eval_safe scripted c hc key
    rw [eval]
    refine .ite (fun _ => .bind hk fun k hk => .bind ho fun o ho => ?_)
      fun _ => .bind ho fun o ho => .bind hk fun k hk => ?_
    all_goals
      exact one_safe (Operation.index_safe scripted.sound _ _ (first_public ho) (first_public hk))
  | .call callee args line => by
    rw [eval]
    exact .bind (eval_safe scripted c hc callee) fun f hf =>
      .bind (evalList_safe scripted c hc args) fun vs hvs => .call (first_public hf).callable hvs _
  | .method object name args selfLine line => by
    rw [eval]
    refine .bind (eval_safe scripted c hc object) fun o ho => ?_
    refine .bind (Operation.index_safe scripted.sound _ _ (first_public ho) trivial) fun f hf => ?_
    exact .bind (evalList_safe scripted c hc args) fun vs hvs =>
      .call hf.callable (Zone.publics_cons.2 ⟨first_public ho, hvs⟩) _
  | .function body => by
    rw [eval]
    exact one_safe (closure_safe scripted c body)
  | .unary op operand line => by
    rw [eval]
    exact .bind (eval_safe scripted c hc operand) fun v hv =>
      one_safe (unary_safe scripted op line (first_public hv))
  | .binary op left right line => by
    have hl := eval_safe scripted c hc left
    have hr := eval_safe scripted c hc right
    rw [eval]
    refine .ite (fun _ => .bind hr fun b hb => .bind hl fun a ha => ?_)
      fun _ => .bind hl fun a ha => .bind hr fun b hb => ?_
    all_goals exact one_safe (binary_safe scripted op line (first_public ha) (first_public hb))
  | .and left right => by
    rw [eval]
    refine .bind (eval_safe scripted c hc left) fun a ha => .ite (fun _ => ?_) fun _ => ?_
    · exact .bind (eval_safe scripted c hc right) fun b hb =>
        .pure (Zone.publics_one (first_public hb))
    · exact .pure (Zone.publics_one (first_public ha))
  | .or left right => by
    rw [eval]
    refine .bind (eval_safe scripted c hc left) fun a ha => .ite (fun _ => ?_) fun _ => ?_
    · exact .pure (Zone.publics_one (first_public ha))
    · exact .bind (eval_safe scripted c hc right) fun b hb =>
        .pure (Zone.publics_one (first_public hb))
  | .paren inner => by
    rw [eval]
    exact .bind (eval_safe scripted c hc inner) fun v hv =>
      .pure (Zone.publics_one (first_public hv))
  | .table items arrayRoom hashRoom => by
    rw [eval]
    refine .bind (P := fun t => Z.Public (.table t)) (.step fun s hs => ?_) fun t ht => ?_
    · exact ⟨.inl hs.tables_size, hs.newTable (.empty rfl rfl) rfl⟩
    · exact .bind (evalItems_safe scripted c hc ht 1 items) fun _ _ => .pure (Zone.publics_one ht)

theorem evalList_safe (scripted : Z.Scripted) (c : Scope) (hc : Z.Publics c.varargs) :
    ∀ es, (evalList c es).Safe Z Z.Publics
  | [] => by
    rw [evalList]
    exact .pure Zone.publics_nil
  | [e] => by
    rw [evalList]
    exact eval_safe scripted c hc e
  | e :: e' :: rest => by
    rw [evalList]
    · exact .bind (eval_safe scripted c hc e) fun v hv =>
        .bind (evalList_safe scripted c hc (e' :: rest)) fun vs hvs =>
          .pure (Zone.publics_cons.2 ⟨first_public hv, hvs⟩)
    · nofun

theorem evalItems_safe (scripted : Z.Scripted) (c : Scope) (hc : Z.Publics c.varargs) {t : TableId}
    (ht : Z.Public (.table t)) : ∀ n items, (evalItems c t n items).Sound Z
  | _, [] => by
    rw [evalItems]
    exact .pure trivial
  | n, .positional e :: rest => by
    rw [evalItems]
    refine .bind (eval_safe scripted c hc e) fun vs hvs =>
      .ite (fun _ => storeFrom_safe ht n hvs) fun _ => ?_
    exact .bind (.rawSetKey ht trivial (first_public hvs)) fun _ _ =>
      evalItems_safe scripted c hc ht (n + 1) rest
  | n, .keyed key value line :: rest => by
    rw [evalItems]
    refine .bind (eval_safe scripted c hc key) fun k hk => ?_
    refine .bind (eval_safe scripted c hc value) fun v hv => ?_
    exact .bind (Operation.rawSet_safe _ ht (first_public hk) (first_public hv)) fun _ _ =>
      evalItems_safe scripted c hc ht n rest

theorem places_safe (scripted : Z.Scripted) (c : Scope) (hc : Z.Publics c.varargs) :
    ∀ es, (places c es).Safe Z fun ps => ∀ p ∈ ps, p.Safe Z
  | [] => by
    rw [places]
    exact .pure nofun
  | .variable slot outer name :: rest => by
    rw [places]
    exact .bind (places_safe scripted c hc rest) fun ps hps =>
      .pure (List.forall_mem_cons.2 ⟨trivial, hps⟩)
  | .index object key line :: rest => by
    have ho := eval_safe scripted c hc object
    have hk := eval_safe scripted c hc key
    -- the table and the key are each read now or later, and the rest is the same in all four cases
    have field : ∀ o k, Late.Safe Z o → Late.Safe Z k →
        (do return .field o k object.origin? :: (← places c rest) : Run (List Place)).Safe Z
          fun ps => ∀ p ∈ ps, p.Safe Z := fun o k ho hk =>
      .bind (places_safe scripted c hc rest) fun ps hps =>
        .pure (List.forall_mem_cons.2 ⟨⟨ho, hk⟩, hps⟩)
    have onward : ∀ o, Late.Safe Z o → (match ownCell? c key with
        | some cell => do
          let k ← pure (Late.later cell)
          return .field o k object.origin? :: (← places c rest)
        | none => do
          let v ← eval c key
          let k ← pure (Late.known (Run.first v))
          return .field o k object.origin? :: (← places c rest) : Run (List Place)).Safe Z
          fun ps => ∀ p ∈ ps, p.Safe Z := by
      intro o ho
      split
      · exact field o _ ho trivial
      · exact .bind hk fun v hv => field o _ ho (first_public hv)
    rw [places]
    split
    · exact onward _ trivial
    · exact .bind ho fun v hv => onward _ (first_public hv)
  | .literal _ :: rest | .vararg :: rest | .call .. :: rest | .method .. :: rest
  | .function _ :: rest | .unary .. :: rest | .binary .. :: rest | .and .. :: rest | .or .. :: rest
  | .paren _ :: rest | .table .. :: rest => by
    rw [places]
    · exact places_safe scripted c hc rest
    all_goals nofun

theorem exec_safe (scripted : Z.Scripted) (c : Scope) (hc : Z.Publics c.varargs) :
    ∀ st, (exec c st).Safe Z (Signal.Safe Z)
  | .assign targets values line => by
    rw [exec]
    refine .bind (places_safe scripted c hc targets) fun ps hps => ?_
    refine .bind (evalList_safe scripted c hc values) fun vs hvs => ?_
    refine .bind (readyAll_safe scripted hps) fun ps hps => ?_
    exact .bind (writeAll_safe scripted line hps hvs) fun _ _ => .pure trivial
  | .call e => by
    rw [exec]
    exact .bind (eval_safe scripted c hc e) fun _ _ => .pure trivial
  | .block body => by
    rw [exec]
    exact withLabels_safe body fun l => execList_safe scripted c hc l body
  | .while condition body => by
    rw [exec]
    refine .loop (.bind (eval_safe scripted c hc condition) fun v _ =>
      .ite (fun _ => ?_) fun _ => ?_)
    · refine .bind (withLabels_safe body fun l => execList_safe scripted c hc l body) fun s hs => ?_
      exact .pure fun s' hround => afterRound_safe hs hround
    · refine .pure fun s' hnormal => ?_
      cases hnormal
      trivial
  | .repeat body => by
    rw [exec]
    refine .loop ?_
    refine .bind (withLabels_safe body fun l => execList_safe scripted c hc l body) fun s hs => ?_
    exact .pure fun s' hround => afterRound_safe hs hround
  | .leaveIf condition => by
    rw [exec]
    refine .bind (eval_safe scripted c hc condition) fun v _ => .pure ?_
    split_ifs
    · trivial
    · trivial
  | .ifThen condition thenBody elseBody => by
    rw [exec]
    refine .bind (eval_safe scripted c hc condition) fun v _ => .ite (fun _ => ?_) fun _ => ?_
    · exact withLabels_safe thenBody fun l => execList_safe scripted c hc l thenBody
    · exact withLabels_safe elseBody fun l => execList_safe scripted c hc l elseBody
  | .numericFor start limit step body line => by
    rw [exec]
    refine .bind (eval_safe scripted c hc start) fun a _ => ?_
    refine .bind (eval_safe scripted c hc limit) fun l _ => ?_
    refine .bind (eval_safe scripted c hc step) fun s _ => ?_
    refine .bind (rangeOf_plain line _ _ _).safe fun r _ => overRange_safe r fun v hv => ?_
    exact .bind (declare_safe 1 _ (Zone.publics_one hv)) fun env _ =>
      withLabels_safe body fun l => execList_safe scripted { c with env } hc l body
  | .genericFor count values body line => by
    rw [exec]
    refine .bind (evalList_safe scripted c hc values) fun vs hvs => ?_
    refine .bind (deferClose_safe scripted line _ (first_public (hvs.drop 3))) fun marked _ => ?_
    refine .bind (overIterator_safe line (first_public hvs) (first_public (hvs.drop 1))
      (first_public (hvs.drop 2)) fun vs hvs => ?_) fun s hs => closing_safe marked line hs
    exact .bind (declare_safe count _ hvs) fun env _ =>
      withLabels_safe body fun l => execList_safe scripted { c with env } hc l body
  | .ret values => by
    rw [exec]
    exact .bind (evalList_safe scripted c hc values) fun vs hvs => .pure hvs
  | .tailCall callee args line => by
    rw [exec]
    refine .bind (eval_safe scripted c hc callee) fun f hf => ?_
    refine .bind (evalList_safe scripted c hc args) fun vs hvs => ?_
    exact .bind (.ask ⟨(first_public hf).callable, hvs⟩) fun vs hvs => .pure hvs
  | .tailMethod object name args selfLine line => by
    rw [exec]
    refine .bind (eval_safe scripted c hc object) fun o ho => ?_
    refine .bind (Operation.index_safe scripted.sound _ _ (first_public ho) trivial) fun f hf => ?_
    refine .bind (evalList_safe scripted c hc args) fun vs hvs => ?_
    exact .bind (.ask ⟨hf.callable, Zone.publics_cons.2 ⟨first_public ho, hvs⟩⟩)
      fun vs hvs => .pure hvs
  | .break | .goto _ | .localVars .. | .localClose .. | .localFunction _ | .label .. => by
    rw [exec]
    exact .pure trivial

theorem execList_safe (scripted : Z.Scripted) (c : Scope) (hc : Z.Publics c.varargs) :
    ∀ landing body, (execList c landing body).Safe Z (Signal.Safe Z)
  | _, [] => by
    rw [execList]
    exact .pure trivial
  | some (l, env), st :: rest => by
    -- a jump is on its way to a label: what stands before that is passed over
    have hrest := execList_safe scripted c hc (some (l, env)) rest
    cases st with
    | label n depth =>
      rw [execList]
      exact .ite (fun _ => execList_safe scripted (landAt c env depth) hc none rest) fun _ => hrest
    | _ =>
      rw [execList]
      · exact hrest
      nofun
  | none, .localVars count values :: rest => by
    rw [execList]
    refine .bind (evalList_safe scripted c hc values) fun vs hvs => ?_
    exact .bind (declare_safe count _ hvs) fun env _ =>
      execList_safe scripted { c with env } hc none rest
  | none, .localFunction body :: rest => by
    rw [execList]
    refine .bind (.newCell trivial) fun cell _ => ?_
    refine .bind (closure_safe scripted _ body) fun f hf => ?_
    exact .bind (.writeCell cell hf) fun _ _ =>
      execList_safe scripted { c with env := cell :: c.env } hc none rest
  | none, .localClose count values position name line :: rest => by
    rw [execList]
    refine .bind (evalList_safe scripted c hc values) fun vs hvs => ?_
    refine .bind (declare_safe count _ hvs) fun env _ => ?_
    have hv := first_public (hvs.drop position)
    refine .bind (deferClose_safe scripted line name hv) fun marked _ => ?_
    refine .bind (withLabels_safe rest fun l => ?_) fun s hs => closing_safe marked line hs
    exact execList_safe scripted { c with env } hc l rest
  | none, .label _ _ :: rest => by
    rw [execList]
    exact execList_safe scripted c hc none rest
  | none, .assign .. :: rest | none, .call _ :: rest | none, .block _ :: rest
  | none, .while .. :: rest | none, .repeat _ :: rest | none, .leaveIf _ :: rest
  | none, .ifThen .. :: rest | none, .numericFor .. :: rest | none, .genericFor .. :: rest
  | none, .ret _ :: rest | none, .tailCall .. :: rest | none, .tailMethod .. :: rest
  | none, .break :: rest | none, .goto _ :: rest => by
    rw [execList]
    · refine .bind (exec_safe scripted c hc _) fun s hs => ?_
      split
      · exact execList_safe scripted c hc none rest
      · exact .pure hs
    all_goals nofun

end

theorem callBody_safe (scripted : Z.Scripted) (body : FuncBody) (env : List CellId) (chunk : Bytes)
    {args : List Value} (h : Z.Publics args) : (callBody body env chunk args).Safe Z Z.Publics := by
  obtain ⟨params, variadic, statements, _⟩ := body
  unfold callBody
  refine .bind (declare_safe params _ h) fun env _ => ?_
  have hvarargs : Z.Publics (if variadic then args.drop params else []) := by
    split_ifs
    · exact h.drop params
    · exact Zone.publics_nil
  refine .bind (withLabels_safe statements fun l => execList_safe scripted _ hvarargs l statements)
    fun s hs => ?_
  split
  · exact .pure hs
  · exact .pure Zone.publics_nil

end Evaluate

end Enclosure.Lua
