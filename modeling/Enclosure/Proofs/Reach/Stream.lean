import Enclosure.Lua.Library.Stream
import Enclosure.Proofs.Reach.Base

/-!
# The library `io` in a realm

File objects lead nowhere: what they hold are bytes. Only an iterator over lines is made anew.
-/

namespace Enclosure.Lua.Library.Stream

variable {R : Realm} {args : Args} {captured : Array Value}

theorem read_calm {α : Type} (f : Store → α) : (Run.read f).Calm R fun _ => True :=
  .read fun _ _ => trivial

theorem newFile_calm (o : HostObject) : (Run.step (·.newObject o)).Calm R fun _ => True :=
  .step fun _ hs => ⟨trivial, .aside hs rfl⟩

theorem handle_calm (o : ObjectId) : (handle o).Calm R fun _ => True := by
  refine .bind (read_calm _) fun x _ => ?_
  cases x <;> exact .pure trivial

theorem setHandle_calm (o : ObjectId) (f : FileHandle) :
    (setHandle o f).Calm R fun _ => True := .aside fun _ => rfl

theorem defaultFile_calm (o : Option ObjectId) (name : String) :
    (defaultFile o name).Calm R fun _ => True := by
  cases o with
  | some o => exact .bind (handle_calm o) fun _ _ => .check (.fail _) (.pure trivial)
  | none => exact .fail _

/-- What is done with the default file that a store names. -/
theorem withDefault_calm {α : Type} {A : α → Prop} {rest : ObjectId → Run α}
    (get : Store → Option ObjectId) (name : String) (h : ∀ o, (rest o).Calm R A) :
    (Run.read get >>= fun o => defaultFile o name >>= rest).Calm R A :=
  .bind (read_calm _) fun o _ => .bind (defaultFile_calm o name) fun o _ => h o

theorem openPath_calm (path mode : Bytes) : (openPath path mode).Calm R fun _ => True := by
  unfold openPath
  extract_lets kind both name
  refine .bind (read_calm _) fun content _ => ?_
  dsimp only
  split
  · exact .pure trivial
  · refine .ite (fun _ => .bind (newFile_calm _) fun _ _ => .pure trivial) fun _ => ?_
    refine .bind (read_calm _) fun written _ => ?_
    cases written with
    | error e => exact .pure trivial
    | ok fs => exact .bind (.setFiles fs) fun _ _ => .bind (newFile_calm _) fun _ _ => .pure trivial

theorem closeObject_calm (o : ObjectId) : (closeObject o).Calm R R.HasAll := by
  refine .bind (handle_calm o) fun f _ => .bind (read_calm _) fun standard _ => ?_
  refine .ite (fun _ => .pure ?_) fun _ => ?_
  · exact .cons Realm.has_nil (Realm.hasAll_one (Realm.has_text _))
  · exact .bind (setHandle_calm o _) fun _ _ => .pure (Realm.hasAll_one (Realm.has_bool _))

theorem answerFailure_has (e : Bytes × Nat) : R.HasAll (answerFailure e) :=
  .cons Realm.has_nil (.cons (Realm.has_str _) (Realm.hasAll_one (Realm.has_nat _)))

theorem badDescriptor_has : R.HasAll badDescriptor :=
  .cons Realm.has_nil (.cons (Realm.has_text _) (Realm.hasAll_one (Realm.has_int _)))

/-! ## Reading -/

theorem readLine_has {f g : FileHandle} {keep : Bool} {v : Value}
    (hv : readLine f keep = some (v, g)) : R.Has v := by
  unfold readLine at hv
  dsimp only at hv
  split_ifs at hv
  all_goals
    split at hv
    all_goals
      obtain ⟨rfl, -⟩ := Prod.mk.inj (Option.some.inj hv)
      exact Realm.has_str _

theorem readBytes_has {f g : FileHandle} {n : Nat} {v : Value}
    (hv : readBytes f n = some (v, g)) : R.Has v := by
  unfold readBytes at hv
  dsimp only at hv
  split_ifs at hv
  cases hv
  exact Realm.has_str _

theorem readNumber_has {f g : FileHandle} {v : Value} (hv : readNumber f = some (v, g)) :
    R.Has v := by
  obtain ⟨x, -, hx⟩ := Option.map_eq_some_iff.1 hv
  cases hx
  exact Realm.has_number x

theorem readFormat_calm (f : FileHandle) (args : Args) (n : Nat) :
    (readFormat f args n).Calm R fun found => ∀ v g, found = some (v, g) → R.Has v := by
  unfold readFormat
  split
  · refine .ite (fun _ => .pure ?_) fun _ => .pure fun _ _ => readBytes_has
    split_ifs <;> rintro v g ⟨⟩
    exact Realm.has_str _
  · exact .pure fun _ _ => readBytes_has
  · dsimp only
    split
    · exact .pure fun _ _ => readNumber_has
    · exact .pure fun _ _ => readLine_has
    · exact .pure fun _ _ => readLine_has
    · refine .pure ?_
      rintro v g ⟨⟩
      exact Realm.has_str _
    · exact .badArgument _ _

theorem readFormats_calm (o : ObjectId) (args : Args) :
    ∀ count n, (readFormats o args count n).Calm R R.HasAll
  | 0, _ => .pure Realm.hasAll_nil
  | count + 1, n => by
    refine .bind (handle_calm o) fun f _ => .bind (readFormat_calm f args n) fun found hfound => ?_
    split
    · refine .bind (setHandle_calm o _) fun _ _ => ?_
      exact .bind (readFormats_calm o args count (n + 1)) fun vs hvs => .pure (.cons (hfound _ _ rfl) hvs)
    · exact .pure (Realm.hasAll_one Realm.has_nil)

theorem readAll_calm (o : ObjectId) (args : Args) (n : Nat) :
    (readAll o args n).Calm R R.HasAll := by
  refine .bind (handle_calm o) fun f _ => .ite (fun _ => .pure badDescriptor_has) fun _ => ?_
  refine .ite (fun _ => ?_) fun _ => readFormats_calm o args _ n
  split
  · rename_i v g hline
    exact .bind (setHandle_calm o _) fun _ _ => .pure (Realm.hasAll_one (readLine_has hline))
  · exact .pure (Realm.hasAll_one Realm.has_nil)

theorem linesOf_tame (o : ObjectId) (close : Bool) {formats : List Value} (h : R.HasAll formats) :
    (linesOf o close formats).Tame R Realm.Has :=
  .newBuiltin _ (.cons (Realm.has_object o) (.cons (Realm.has_bool close) h))

theorem linesStep_calm : (linesStep captured).Calm R R.HasAll := by
  unfold linesStep
  split
  · rename_i o close formats _
    refine .bind (handle_calm o) fun f _ => .check (.fail _) ?_
    refine .bind (readAll_calm o formats 1) fun vs hvs => .ite (fun _ => .pure hvs) fun _ => ?_
    exact .ite (fun _ => .bind (closeObject_calm o) fun _ _ => .pure Realm.hasAll_nil) fun _ =>
      .pure Realm.hasAll_nil
  · exact .pure Realm.hasAll_nil

/-! ## Writing -/

theorem writeBytes_calm (o : ObjectId) (b : Bytes) : (writeBytes o b).Calm R fun _ => True := by
  refine .bind (handle_calm o) fun f _ => .ite (fun _ => .pure trivial) fun _ => ?_
  dsimp only
  split
  · exact .pure trivial
  · refine .bind (setHandle_calm o _) fun _ _ => .bind (read_calm _) fun written _ => ?_
    cases written with
    | error e => exact .pure trivial
    | ok fs => exact .bind (.setFiles fs) fun _ _ => .pure trivial

theorem writeArgs_calm (o : ObjectId) : ∀ count n, (writeArgs o args count n).Calm R R.HasAll
  | 0, _ => .pure (Realm.hasAll_one (Realm.has_object o))
  | count + 1, n => .bind (args.string_plain n).calm fun b _ => .bind (writeBytes_calm o b) fun _ _ =>
    .ite (fun _ => writeArgs_calm o count (n + 1)) fun _ => .pure badDescriptor_has

/-! ## The functions -/

theorem anyFile_calm (n : Nat) : (anyFile args n).Calm R fun _ => True := by
  unfold anyFile
  split
  · refine .bind (read_calm _) fun x _ => ?_
    cases x with
    | file f => exact .pure trivial
    | failure f => exact (args.failType_plain n _).fails
  · exact (args.failType_plain n _).fails

theorem openFile_calm (n : Nat) : (openFile args n).Calm R fun _ => True :=
  .bind (anyFile_calm n) fun o _ => .bind (handle_calm o) fun _ _ =>
    .check (.fail _) (.pure trivial)

theorem openArgs_calm : (openArgs args).Calm R R.HasAll := by
  refine .bind (args.string_plain 1).calm fun path _ =>
    .bind (args.stringOr_plain 2 _).calm fun mode _ => ?_
  refine .check (.badArgument _ _) (.bind (openPath_calm path mode) fun r _ => ?_)
  cases r with
  | ok o => exact .pure (Realm.hasAll_one (Realm.has_object o))
  | error e => exact .pure (answerFailure_has _)

theorem defaultArgs_calm (mode : String) (get : Store → Option ObjectId)
    (set : Store → Option ObjectId → Store) (hset : ∀ s o, (set s o).core = s.core) :
    (defaultArgs args mode get set).Calm R R.HasAll := by
  have hmodify (o : ObjectId) : (Run.modify fun s => set s (some o)).Calm R fun _ => True :=
    .aside fun s => hset s _
  unfold defaultArgs
  extract_lets answer
  have hanswer (u : Unit) : (answer u).Calm R R.HasAll := by
    refine .bind (read_calm _) fun found _ => ?_
    cases found with
    | some o => exact .pure (Realm.hasAll_one (Realm.has_object o))
    | none => exact .pure (Realm.hasAll_one Realm.has_nil)
  clear_value answer
  refine .ite (fun _ => ?_) fun _ => hanswer _
  split
  · refine .bind (openPath_calm _ _) fun r _ => ?_
    cases r with
    | ok o => exact .bind (hmodify o) fun _ _ => hanswer _
    | error e => exact .bind (A := fun _ => True) (.failBytes _) fun _ _ => hanswer _
  · exact .bind (anyFile_calm 1) fun o _ => .bind (hmodify o) fun _ _ => hanswer _

theorem lines_tame (h : R.HasAll args) : (lines args).Tame R Realm.HasAll := by
  refine .ite (fun _ => ?_) fun _ => ?_
  · refine .calmly (read_calm _) fun o _ => .calmly (defaultFile_calm o _) fun o _ => ?_
    exact .bind (linesOf_tame o false (h.drop 1)) fun v _ _ hv => .pure (Realm.hasAll_one hv)
  · refine .calmly (args.string_plain 1).calm fun path _ => .calmly (openPath_calm path _) fun r _ => ?_
    cases r with
    | error e => exact .failBytes _
    | ok o =>
      refine .bind (linesOf_tame o true (h.drop 1)) fun v _ _ hv => .pure (.cons hv ?_)
      exact .cons Realm.has_nil (.cons Realm.has_nil (Realm.hasAll_one (Realm.has_object o)))

theorem typeOf_calm : (typeOf args).Calm R R.HasAll := by
  refine .bind (args.any_plain 1).calm fun v _ => ?_
  split
  · refine .bind (read_calm _) fun x _ => ?_
    cases x with
    | file f => exact .pure (Realm.hasAll_one (Realm.has_text _))
    | failure f => exact .pure (Realm.hasAll_one Realm.has_nil)
  · exact .pure (Realm.hasAll_one Realm.has_nil)

theorem seek_calm : (seek args).Calm R R.HasAll := by
  refine .bind (openFile_calm 1) fun o _ => .bind (args.option_plain 2 _).calm fun whence _ => ?_
  refine .bind (args.integerOr_plain 3 0).calm fun offset _ => .bind (handle_calm o) fun f _ => ?_
  refine .ite (fun _ => .pure ?_) fun _ => ?_
  · exact .cons Realm.has_nil (.cons (Realm.has_text _) (Realm.hasAll_one (Realm.has_int _)))
  · exact .bind (setHandle_calm o _) fun _ _ => .pure (Realm.hasAll_one (Realm.has_int _))

theorem fileText_calm : (fileText args).Calm R R.HasAll :=
  .bind (anyFile_calm 1) fun o _ => .bind (handle_calm o) fun _ _ =>
    .ite (fun _ => .pure (Realm.hasAll_one (Realm.has_text _))) fun _ =>
      .pure (Realm.hasAll_one (Realm.has_str _))

theorem run_calm (f : IoFunction) (hf : f ≠ .lines) (hf' : f ≠ .fileLines) :
    (run f captured args).Calm R R.HasAll := by
  cases f with
  | close =>
    refine .ite (fun _ => ?_) fun _ => .bind (openFile_calm 1) fun o _ => closeObject_calm o
    exact withDefault_calm _ _ fun o => closeObject_calm o
  | flush => exact withDefault_calm _ _ fun _ => .pure (Realm.hasAll_one (Realm.has_bool _))
  | input => exact defaultArgs_calm _ _ (fun s o => { s with input := o }) fun _ _ => rfl
  | lines => exact absurd rfl hf
  | linesStep => exact linesStep_calm
  | «open» => exact openArgs_calm
  | output => exact defaultArgs_calm _ _ (fun s o => { s with standardOutput := o }) fun _ _ => rfl
  | popen =>
    refine .bind (args.string_plain 1).calm fun command _ => .pure (.cons Realm.has_nil ?_)
    exact .cons (Realm.has_str _) (Realm.hasAll_one (Realm.has_int _))
  | read => exact withDefault_calm _ _ fun o => readAll_calm o args 1
  | tmpFile => exact .bind (.newObject _) fun v hv => .pure (Realm.hasAll_one hv)
  | type => exact typeOf_calm
  | write => exact withDefault_calm _ _ fun o => writeArgs_calm o _ 1
  | fileClose => exact .bind (openFile_calm 1) fun o _ => closeObject_calm o
  | fileFinish =>
    refine .bind (anyFile_calm 1) fun o _ => .bind (handle_calm o) fun _ _ => ?_
    exact .ite (fun _ => .bind (closeObject_calm o) fun _ _ => .pure Realm.hasAll_nil) fun _ =>
      .pure Realm.hasAll_nil
  | fileFlush => exact .bind (openFile_calm 1) fun _ _ => .pure (Realm.hasAll_one (Realm.has_bool _))
  | fileLines => exact absurd rfl hf'
  | fileRead => exact .bind (openFile_calm 1) fun o _ => readAll_calm o args 2
  | fileSeek => exact seek_calm
  | fileSetBuffer =>
    exact .bind (openFile_calm 1) fun _ _ => .bind (args.option_plain 2 _).calm fun _ _ =>
      .pure (Realm.hasAll_one (Realm.has_bool _))
  | fileWrite => exact .bind (openFile_calm 1) fun o _ => writeArgs_calm o _ 2
  | fileText => exact fileText_calm

theorem run_tame (h : R.HasAll args) (f : IoFunction) :
    (run f captured args).Tame R Realm.HasAll := by
  by_cases hlines : f = .lines
  · subst hlines
    exact lines_tame h
  by_cases hfile : f = .fileLines
  · subst hfile
    refine .calmly (openFile_calm 1) fun o _ => ?_
    exact .bind (linesOf_tame o false (h.drop 1)) fun v _ _ hv => .pure (Realm.hasAll_one hv)
  · exact (run_calm f hlines hfile).tame fun _ => id

end Enclosure.Lua.Library.Stream
