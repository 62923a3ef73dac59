import Enclosure.Proofs.Plain.Library
import Enclosure.Proofs.Reach.Evaluate

/-!
# Global functions, threads and guards in a realm

A source is loaded with an environment that the realm has, so its function leads nowhere else. What an
iterating or guarding function hands out it holds.
-/

namespace Enclosure.Lua

variable {R : Realm} {α : Type} {P : Realm → α → Prop} {args : Args}
  {captured : Array Value} {v f : Value} {vs : List Value}

theorem Realm.HasAll.held (hc : R.HasAll captured.toList) (n : Nat) :
    R.Has (captured.getD n .nil) := by
  have h := hc.getD n (d := .nil) trivial
  rwa [List.getD_eq_getElem?_getD, Array.getElem?_toList, ← Array.getD_eq_getD_getElem?] at h

/-! ## Sources -/

namespace Chunk

/-- What is loaded is a function of the realm. -/
def Loaded (R : Realm) (r : Except LoadError Value) : Prop := ∀ f, r = .ok f → R.Has f

theorem loaded_error (e : LoadError) : Loaded R (.error e) := nofun

theorem loaded_ok (h : R.Has v) : Loaded R (.ok v) := by
  rintro _ ⟨⟩
  exact h

theorem load_tame (source name mode : Bytes) {env : Value} (henv : R.Has env) (nesting : Nat) :
    (load source name mode env nesting).Tame R Loaded := by
  unfold load
  split
  · exact .pure (loaded_error _)
  · refine .calmly (.newCell henv) fun cell _ => .ite (fun _ => ?_) fun _ => ?_
    · split
      · exact .pure (loaded_error _)
      · refine .calmly (.read (A := fun _ => True) fun _ _ => trivial) fun o _ => ?_
        split
        · refine .calmly (.mapM (B := fun _ => True) fun _ _ => .newCell trivial) fun inner _ => ?_
          exact .bind (.newFunction (.closure _ _ _)) fun f _ _ hf => .pure (loaded_ok hf)
        · exact .pure (loaded_error _)
    · split
      · exact .pure (loaded_error _)
      · exact .bind (.newFunction (.closure _ _ _)) fun f _ _ hf => .pure (loaded_ok hf)

theorem loadFile_tame (path mode : Bytes) {env : Value} (henv : R.Has env) (nesting : Nat) :
    (loadFile path mode env nesting).Tame R Loaded := by
  refine .calmly (.read (A := fun _ => True) fun _ _ => trivial) fun content _ => ?_
  split
  · exact load_tame _ _ _ henv _
  · exact .pure (loaded_error _)

end Chunk

/-! ## Failures -/

namespace Failure

theorem describeFrom_tame : ∀ (n : Nat) {v : Value} {R : Realm}, R.Has v →
    (describeFrom n v).Tame R Realm.Has
  | 0, _, _, _ => .pure trivial
  | n + 1, v, R, hv => by
    unfold describeFrom
    split
    · exact .pure trivial
    · refine .calmly (.read (A := fun _ => True) fun _ _ => trivial) fun own _ =>
        .ite (fun _ => .pure hv) fun _ => ?_
      refine .calmly (.metamethod hv _) fun h hh => .ite (fun _ => ?_) fun _ => ?_
      · exact .calmly (Operation.plainText_plain v).calm fun _ _ => .pure trivial
      · refine .bind (.ask ⟨hh, Realm.hasAll_one hv, nofun⟩) fun vs R₁ h₁ hvs => ?_
        split
        · split
          · exact .pure trivial
          · exact .pure trivial
        · exact describeFrom_tame n (Evaluate.first_has (Evaluate.tail_hasAll hvs))

theorem describe_tame (hv : R.Has v) : (describe v).Tame R Realm.Has := describeFrom_tame _ hv

theorem raise_tame (f : Failure) : (f.raise : Run α).Tame R P := by
  unfold raise
  split
  · exact .throw trivial
  · exact .failHost _

theorem callFromHost_tame (hf : R.Has f) (hargs : R.HasAll args) :
    (callFromHost f args).Tame R Realm.HasAll := by
  refine .bind (.ask ⟨hf, hargs, nofun⟩) fun vs R₁ h₁ hvs => ?_
  split
  · exact .pure (Realm.hasAll_cons.1 hvs).2
  · refine .bind (describe_tame (Evaluate.first_has (Evaluate.tail_hasAll hvs))) fun e _ _ _ => ?_
    exact .calmly (.read (A := fun _ => True) fun _ _ => trivial) fun _ _ => raise_tame _

end Failure

namespace Library

/-! ## Guards -/

namespace Guard

theorem printed_tame {toText : Value} (ht : R.Has toText) (hv : R.Has v) :
    (printed toText v).Tame R fun _ _ => True := by
  refine .bind (Failure.callFromHost_tame ht (Realm.hasAll_one hv)) fun vs _ _ _ => ?_
  dsimp only
  split
  · exact .pure trivial
  · exact Failure.raise_tame _

theorem printedAll_tame {toText : Value} : ∀ {vs : List Value} {R : Realm}, R.Has toText →
    R.HasAll vs → (printedAll toText vs).Tame R fun _ _ => True
  | [], _, _, _ => .pure trivial
  | _ :: _, _, ht, hvs => by
    obtain ⟨hv, hvs⟩ := Realm.hasAll_cons.1 hvs
    exact .bind (printed_tame ht hv) fun _ _ h₁ _ =>
      .bind (printedAll_tame (ht.up h₁) (hvs.up h₁)) fun _ _ _ _ => .pure trivial

theorem run_tame (f : GuardFunction) (hc : R.HasAll captured.toList) (h : R.HasAll args) :
    (run f captured args).Tame R Realm.HasAll := by
  cases f with
  | print =>
    exact .bind (printedAll_tame (hc.held 0) h) fun _ _ _ _ =>
      .calmly (.aside fun _ => rfl) fun _ _ => .pure Realm.hasAll_nil
  | refuseWrite => exact .failHost _
  | length => exact (length_plain args captured).tame
  | pairs => exact .pure (.cons (hc.held 1) (.cons (hc.held 0) (Realm.hasAll_one trivial)))
  | constant => exact .pure hc
  | failureText => exact (failureText_plain args captured).tame

end Guard

/-! ## Threads -/

namespace Thread

theorem statusOf_tame (t : ThreadId) : (statusOf t).Tame R fun _ _ => True := by
  refine .bind (.ask trivial) fun vs _ _ _ => ?_
  split <;> exact .pure trivial

theorem wrapped_tame (h : R.HasAll args) : (wrapped captured args).Tame R Realm.HasAll := by
  unfold wrapped
  split
  · rename_i t ht
    refine .bind (.ask h) fun vs R₁ h₁ hvs => ?_
    split
    · exact .pure (Realm.hasAll_cons.1 hvs).2
    · have he := Evaluate.first_has (Evaluate.tail_hasAll hvs)
      refine .bind (statusOf_tame t) fun status R₂ h₂ _ => .ite (fun _ => ?_) fun _ => ?_
      · refine .bind (.ask trivial) fun ws R₃ h₃ hws => ?_
        split
        · refine .calmly (A := fun e => R₃.Has e) (.pure ?_) fun e he => ?_
          · split_ifs
            · exact he.up (h₂.trans h₃)
            · exact hws _ (by simp)
          · dsimp only
            split
            · exact .failBytes _
            · exact .throw he
        · refine .calmly (.pure (he.up (h₂.trans h₃))) fun e he => ?_
          dsimp only
          split
          · exact .failBytes _
          · exact .throw he
      · refine .calmly (.pure (he.up h₂)) fun e he => ?_
        dsimp only
        split
        · exact .failBytes _
        · exact .throw he
  · exact .pure Realm.hasAll_nil

theorem close_tame : (close args).Tame R Realm.HasAll :=
  .calmly (thread_plain args 1).calm fun t _ => .bind (statusOf_tame t) fun _ _ _ _ =>
    .ite (fun _ => .ask trivial) fun _ => .failBytes _

section

variable (h : R.HasAll args)

include h

theorem create_tame : (create args).Tame R Realm.Has :=
  .calmly (Args.function_calm h 1) fun _ hf => .bind (.ask hf) fun _ _ _ hvs =>
    .pure (Evaluate.first_has hvs)

theorem run_tame (f : CoroutineFunction) : (run f captured args).Tame R Realm.HasAll := by
  cases f with
  | close => exact close_tame
  | create => exact .bind (create_tame h) fun _ _ _ hv => .pure (Realm.hasAll_one hv)
  | isYieldable =>
    unfold run
    dsimp only
    split
    · exact .ask trivial
    · exact .calmly (thread_plain args 1).calm fun _ _ => .ask trivial
  | resume => exact .calmly (thread_plain args 1).calm fun _ _ => .ask (h.drop 1)
  | running => exact .ask trivial
  | status =>
    exact .calmly (thread_plain args 1).calm fun t _ => .bind (statusOf_tame t) fun _ _ _ _ =>
      .pure (Realm.hasAll_one trivial)
  | wrap =>
    exact .bind (create_tame h) fun _ _ _ hv => .bind (.newBuiltin _ (Realm.hasAll_one hv))
      fun _ _ _ hf => .pure (Realm.hasAll_one hf)
  | wrapped => exact wrapped_tame h
  | yield => exact .ask h

end

end Thread

/-! ## Global functions -/

namespace Base

theorem loaded_has {r : Except Chunk.LoadError Value} (hr : Chunk.Loaded R r) :
    R.HasAll (loaded r) := by
  cases r with
  | ok f => exact Realm.hasAll_one (hr f rfl)
  | error e => exact .cons trivial (Realm.hasAll_one trivial)

theorem raise_tame (hv : R.Has v) (level : Int64) : (raise v level : Run α).Tame R P := by
  unfold raise
  split
  · exact .ite (fun _ => .throw trivial) fun _ => .throw trivial
  · exact .throw hv

theorem protectedPieces_tame {reader : Value} (hr : R.Has reader) :
    (load.protectedPieces reader).Tame R fun R' r => ∀ e, r = .error e → R'.Has e := by
  have done (b : Bytes) {R : Realm} : ∀ e, (Except.ok b : Except Value Bytes) = .error e → R.Has e :=
    nofun
  have failed {e : Value} {R : Realm} (he : R.Has e) :
      ∀ e', (Except.error e : Except Value Bytes) = .error e' → R.Has e' := by
    rintro _ ⟨⟩
    exact he
  refine .loopWith (I := fun _ _ => True) trivial fun R₁ h₁ acc _ => ?_
  refine .bind (.ask ⟨hr.up h₁, Realm.hasAll_nil, nofun⟩) fun vs R₂ h₂ hvs => ?_
  split
  · split
    · exact .pure (done _)
    · split
      · exact .ite (fun _ => .pure (done _)) fun _ => .pure trivial
      · exact .pure (failed trivial)
  · exact .pure (failed (Evaluate.first_has (Evaluate.tail_hasAll hvs)))

theorem texts_tame : ∀ {vs : List Value} {R : Realm}, R.HasAll vs →
    (texts vs).Tame R fun _ _ => True
  | [], _, _ => .pure trivial
  | _ :: _, _, hvs => by
    obtain ⟨hv, hvs⟩ := Realm.hasAll_cons.1 hvs
    exact .bind (Operation.text_tame hv) fun _ _ h₁ _ =>
      .bind (texts_tame (hvs.up h₁)) fun _ _ _ _ => .pure trivial

theorem globals_calm : (Run.read fun s => Value.table s.globals).Calm R R.Has :=
  .read fun _ hs => hs.globals

theorem forIn_calm {β : Type} {body : β → PUnit → Run (ForInStep PUnit)}
    (hbody : ∀ b u, (body b u).Calm R fun _ => True) : ∀ (bs : List β) (u : PUnit),
    (forIn bs u body).Calm R fun _ => True
  | [], u => by
    rw [List.forIn_nil]
    exact .pure trivial
  | b :: bs, u => by
    rw [List.forIn_cons]
    refine .bind (hbody b u) fun step _ => ?_
    cases step
    · exact .pure trivial
    · exact forIn_calm hbody bs _

theorem doFile_tame : (doFile args).Tame R Realm.HasAll := by
  refine .calmly globals_calm fun env henv => .ite (fun _ => ?_) fun _ => ?_
  · refine .bind (Chunk.load_tame _ _ _ henv _) fun r _ _ hr => ?_
    cases r with
    | ok f => exact .call (hr f rfl) Realm.hasAll_nil _
    | error e => exact .throw trivial
  · refine .calmly (args.string_plain 1).calm fun path _ => ?_
    refine .bind (Chunk.loadFile_tame _ _ henv _) fun r _ _ hr => ?_
    cases r with
    | ok f => exact .call (hr f rfl) Realm.hasAll_nil _
    | error e => exact .throw trivial

section

variable (h : R.HasAll args)

include h

theorem assert_tame : (assert args).Tame R Realm.HasAll :=
  .calmly (Args.any_calm h 1) fun _ _ => .ite (fun _ => .pure h) fun _ =>
    raise_tame (h.getD 1 (Realm.has_text _)) 1

theorem environment_calm (n : Nat) : (environment args n).Calm R R.Has := by
  unfold environment
  split
  · exact .pure (Args.get?_has h ‹_›)
  · exact globals_calm

theorem load_tame : (load args).Tame R Realm.HasAll := by
  unfold load
  refine .calmly (args.stringOr_plain 3 _).calm fun mode _ =>
    .calmly (environment_calm h 4) fun env henv => ?_
  split
  · exact .calmly (args.stringOr_plain 2 _).calm fun name _ =>
      .bind (Chunk.load_tame _ _ _ henv _) fun r _ _ hr => .pure (loaded_has hr)
  · refine .calmly (args.stringOr_plain 2 _).calm fun name _ =>
      .calmly (Args.function_calm h 1) fun f hf => ?_
    refine .bind (protectedPieces_tame hf) fun r R₁ h₁ hr => ?_
    split
    · exact .bind (Chunk.load_tame _ _ _ (henv.up h₁) _) fun r _ _ hr => .pure (loaded_has hr)
    · exact .pure (.cons trivial (Realm.hasAll_one (hr _ rfl)))

theorem loadFile_tame : (loadFile args).Tame R Realm.HasAll := by
  refine .calmly (args.stringOr_plain 2 _).calm fun mode _ =>
    .calmly (environment_calm h 3) fun env henv => ?_
  refine .ite (fun _ => ?_) fun _ => .calmly (args.string_plain 1).calm fun path _ => ?_
  · exact .bind (Chunk.load_tame _ _ _ henv _) fun r _ _ hr => .pure (loaded_has hr)
  · exact .bind (Chunk.loadFile_tame _ _ henv _) fun r _ _ hr => .pure (loaded_has hr)

theorem getMetatable_calm : (getMetatable args).Calm R R.HasAll := by
  refine .bind (Args.any_calm h 1) fun v hv => .bind (.metatable hv) fun m hm => ?_
  split
  · exact .pure (Realm.hasAll_one trivial)
  · have ht := hm _ rfl
    refine .bind (.rawGet ht _) fun shown hshown => .pure (Realm.hasAll_one ?_)
    split_ifs
    · exact ht
    · exact hshown

theorem setMetatable_calm : (setMetatable args).Calm R R.HasAll := by
  unfold setMetatable
  refine .bind (Args.table_calm h 1) fun t ht => ?_
  have finish (m : Option TableId) (hm : ∀ e, m = some e → e ∈ R.tables) : (do
      let shown ← Run.metamethod (.table t) "__metatable"
      if !shown.isNil then Run.fail "cannot change a protected metatable"
      Run.setMetatable t m
      return [.table t] : Run (List Value)).Calm R R.HasAll :=
    .bind (.metamethod (v := .table t) ht _) fun _ _ => .check (.fail _)
      (.bind (.setMetatable ht hm) fun _ _ => .pure (Realm.hasAll_one ht))
  split
  · exact finish none nofun
  · rename_i m hm
    refine finish (some m) ?_
    rintro _ ⟨⟩
    exact Args.get?_has h hm
  · exact .bind (A := fun _ => False) (args.failType_plain 2 _).fails fun _ h => h.elim

theorem next_calm : (next args).Calm R R.HasAll := by
  refine .bind (Args.table_calm h 1) fun t ht => ?_
  refine .bind (.read (A := fun step => ∀ k v, step = .entry k v → R.Has k ∧ R.Has v)
    fun s hs k v he => ?_) fun step hstep => ?_
  · exact (hs.entries t ht).next trivial (fun _ => trivial) he
  · split
    · obtain ⟨hk, hv⟩ := hstep _ _ rfl
      exact .pure (.cons hk (Realm.hasAll_one hv))
    · exact .pure (Realm.hasAll_one trivial)
    · exact .failPlain _

theorem pairs_tame (hc : R.HasAll captured.toList) : (pairs captured args).Tame R Realm.HasAll := by
  refine .calmly (Args.any_calm h 1) fun v hv => .calmly (.metamethod hv _) fun handler hh =>
    .ite (fun _ => .pure (.cons (hc.held 0) (.cons hv (Realm.hasAll_one trivial)))) fun _ => ?_
  exact .bind (.call hh (Realm.hasAll_one hv) _) fun vs _ _ hvs =>
    .pure (.cons (Evaluate.first_has hvs) (.cons (Evaluate.first_has (hvs.drop 1))
      (Realm.hasAll_one (Evaluate.first_has (hvs.drop 2)))))

theorem ipairsStep_tame : (ipairsStep args).Tame R Realm.HasAll := by
  refine .calmly (args.integer_plain 2).calm fun i _ => ?_
  refine .bind (Operation.index_tame _ _ (Args.arg_has h 1) trivial) fun v _ _ hv => .pure ?_
  split_ifs
  · exact Realm.hasAll_one trivial
  · exact .cons trivial (Realm.hasAll_one hv)

theorem select_calm : (select args).Calm R R.HasAll := by
  have hrest (n : Nat) : R.HasAll ((args.drop 1).drop n) := (h.drop 1).drop n
  unfold select
  refine .bind (A := fun _ => True) (.pure trivial) fun all _ => ?_
  refine .ite (fun _ => .pure (Realm.hasAll_one (Realm.has_nat _))) fun _ => ?_
  refine .bind (args.integer_plain 1).calm fun i _ => .ite (fun _ => ?_) fun _ => ?_
  · exact .check (.badArgument _ _) (.pure (hrest _))
  · exact .check (.badArgument _ _) (.pure (hrest _))

theorem run_tame (f : BaseFunction) (hc : R.HasAll captured.toList) :
    (run f captured args).Tame R Realm.HasAll := by
  have calm {m : Run (List Value)} (hm : m.Calm R R.HasAll) : m.Tame R Realm.HasAll :=
    hm.tame fun _ => id
  have hany (n : Nat) : (args.any n).Calm R R.Has := Args.any_calm h n
  have htable (n : Nat) : (args.table n).Calm R (· ∈ R.tables) := Args.table_calm h n
  cases f with
  | assert => exact assert_tame h
  | collectGarbage => exact (collectGarbage_plain args).tame
  | doFile => exact doFile_tame
  | error => exact .calmly (args.integerOr_plain 2 1).calm fun _ _ => raise_tame (Args.arg_has h 1) _
  | getMetatable => exact calm (getMetatable_calm h)
  | ipairs =>
    exact .calmly (hany 1) fun _ hv => .pure (.cons (hc.held 0) (.cons hv (Realm.hasAll_one trivial)))
  | ipairsStep => exact ipairsStep_tame h
  | load => exact load_tame h
  | loadFile => exact loadFile_tame h
  | next => exact calm (next_calm h)
  | pairs => exact pairs_tame h hc
  | pcall => exact .calmly (hany 1) fun _ hf => .ask ⟨hf, h.drop 1, nofun⟩
  | print => exact .bind (texts_tame h) fun _ _ _ _ => .pure Realm.hasAll_nil
  | rawEqual =>
    exact .calmly (hany 1) fun _ _ => .calmly (hany 2) fun _ _ => .pure (Realm.hasAll_one trivial)
  | rawGet =>
    exact .calmly (htable 1) fun _ ht => .calmly (hany 2) fun _ _ =>
      .calmly (.rawGet ht _) fun _ hv => .pure (Realm.hasAll_one hv)
  | rawLen => exact (rawLen_plain args).tame
  | rawSet =>
    exact .calmly (htable 1) fun _ ht => .calmly (hany 2) fun _ hk => .calmly (hany 3) fun _ hv =>
      .calmly (Operation.rawSet_calm _ ht hk hv) fun _ _ => .pure (Realm.hasAll_one ht)
  | select => exact calm (select_calm h)
  | setMetatable => exact calm (setMetatable_calm h)
  | toNumber => exact (toNumber_plain args).tame
  | toString =>
    exact .calmly (hany 1) fun _ hv => .bind (Operation.text_tame hv) fun _ _ _ _ =>
      .pure (Realm.hasAll_one trivial)
  | type => exact .calmly (hany 1) fun _ _ => .pure (Realm.hasAll_one (Realm.has_text _))
  | warn =>
    refine .calmly (args.string_plain 1).calm fun _ _ => .calmly (forIn_calm (fun n u => ?_) _ _)
      fun _ _ => .pure Realm.hasAll_nil
    exact .bind (args.string_plain _).calm fun _ _ => .pure trivial
  | xpcall =>
    refine .calmly (Args.function_calm h 2) fun handler hh =>
      .ask ⟨Args.arg_has h 1, h.drop 2, ?_⟩
    rintro _ ⟨⟩
    exact hh

end

end Base

end Library

end Enclosure.Lua
