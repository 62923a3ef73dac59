import Enclosure.Proofs.Assembly.HeapSides

/-!
# Isolation

Assemblies and writes may follow each other in any order. What a table of the host holds in the end is
what writes on the side of the host put there, and what a namespace or a table installed in it holds is
what writes to that very table put there (`runs_isolated`): no table is on both sides, and no two tables
that assemblies made are the same.
-/

namespace Enclosure.Assembly

variable {σ Value Module Namespace Ref : Type}

/-- Who holds a table: the host, or whoever was given a namespace. -/
inductive Holder
  | host
  | script
  deriving DecidableEq, Repr

/-- What can happen to the tables. -/
inductive Deed (Value Ref : Type)
  | assembly (p : Policy)
  /-- A key of a table is set, or removed. -/
  | write (holder : Holder) (r : Ref) (key : String) (v : Option Value)

/-- What a key of a table holds after a deed, as far as writes of one holder can tell. -/
def Deed.over [DecidableEq Ref] (holder : Holder) (r : Ref) (key : String) (v : Option Value) :
    Deed Value Ref → Option Value
  | .assembly _ => v
  | .write holder' r' key' v' => if holder' = holder ∧ r' = r ∧ key' = key then v' else v

/-- A state with the tables that assemblies made so far: namespaces, and tables installed in them. -/
structure World (σ Ref : Type) where
  state : σ
  made : List Ref

section Steps

variable (T : Tables σ Value Module Namespace Ref) (O : Outside σ Ref)
  (host : Host σ Value Module Namespace) (load : NativeLoad σ Module)

/-- The host writes to its globals and to modules, others write to what assemblies made. -/
inductive Does : World σ Ref → Deed Value Ref → World σ Ref → Prop
  | assembly {s s' : σ} {made : List Ref} {p : Policy} {ns : Namespace}
    (done : (assemble host load p).on s = (.ok ns, s')) :
    Does ⟨s, made⟩ (.assembly p) ⟨s', made ++ (ns :: installed host load p s).map T.ofNamespace⟩
  | host {s s' : σ} {made : List Ref} {r : Ref} {key : String} {v : Option Value}
    (outside : O.Has s r) (puts : T.Puts O s r key v s') :
    Does ⟨s, made⟩ (.write .host r key v) ⟨s', made⟩
  | script {s s' : σ} {made : List Ref} {r : Ref} {key : String} {v : Option Value}
    (inside : r ∈ made) (puts : T.Puts O s r key v s') :
    Does ⟨s, made⟩ (.write .script r key v) ⟨s', made⟩

inductive Runs : World σ Ref → List (Deed Value Ref) → World σ Ref → Prop
  | nil (w : World σ Ref) : Runs w [] w
  | cons {w w₁ w' : World σ Ref} {d : Deed Value Ref} {rest : List (Deed Value Ref)}
    (does : Does T O host load w d w₁) (runs : Runs w₁ rest w') : Runs w (d :: rest) w'

/-- The tables that were made are there, are told apart, and are not on the side of the host. -/
structure World.Parted (w : World σ Ref) : Prop where
  good : T.Good w.state
  nodup : w.made.Nodup
  live : ∀ r ∈ w.made, T.Live w.state r
  not_has : ∀ r ∈ w.made, ¬ O.Has w.state r

/-- Each side sees the writes of its own side and no others: a key of a table holds what the last of
these that was to that key of that table put there, else what it held before. -/
structure Isolated [DecidableEq Ref] (w : World σ Ref) (deeds : List (Deed Value Ref))
    (w' : World σ Ref) : Prop where
  has : ∀ r, O.Has w.state r → O.Has w'.state r
  made : w.made <+: w'.made
  host : ∀ r, O.Has w.state r → ∀ key,
    T.get w'.state r key = deeds.foldl (Deed.over .host r key) (T.get w.state r key)
  script : ∀ r ∈ w.made, ∀ key,
    T.get w'.state r key = deeds.foldl (Deed.over .script r key) (T.get w.state r key)

end Steps

section Runs

variable [DecidableEq Ref] {T : Tables σ Value Module Namespace Ref} {O : Outside σ Ref}
  {host : Host σ Value Module Namespace} {load : NativeLoad σ Module} {w w₁ w' : World σ Ref}
  {d : Deed Value Ref} {deeds rest : List (Deed Value Ref)}

theorem Isolated.refl (w : World σ Ref) : Isolated T O w [] w :=
  ⟨fun _ h => h, List.prefix_rfl, fun _ _ _ => rfl, fun _ _ _ => rfl⟩

theorem Isolated.trans (h : Isolated T O w deeds w₁) (h' : Isolated T O w₁ rest w') :
    Isolated T O w (deeds ++ rest) w' where
  has r hr := h'.has r (h.has r hr)
  made := h.made.trans h'.made
  host r hr key := by rw [h'.host r (h.has r hr), h.host r hr, List.foldl_append]
  script r hr key := by rw [h'.script r (h.made.subset hr), h.script r hr, List.foldl_append]

/-- What a table on the side of the writer holds after the write, be it the table written to or not. -/
theorem Puts.get_over {holder : Holder} {s s' : σ} {r : Ref} {key : String} {v : Option Value}
    (puts : T.Puts O s r key v s') {r' : Ref} (live : T.Live s r') (k : String) :
    T.get s' r' k = [.write holder r key v].foldl (Deed.over holder r' k) (T.get s r' k) := by
  simp only [List.foldl_cons, List.foldl_nil, Deed.over, true_and]
  split
  · rename_i he
    obtain ⟨rfl, rfl⟩ := he
    exact puts.get_self
  · rename_i hne
    by_cases hr : r' = r
    · subst hr
      exact puts.get_other k fun hk => hne ⟨rfl, hk.symm⟩
    · rw [puts.get_eq r' live hr]

variable (apart : T.ActsApart O host load)

include apart

omit [DecidableEq Ref] in
theorem Does.parted (h : Does T O host load w d w') (parted : w.Parted T O) : w'.Parted T O := by
  obtain ⟨good, nodup, live, not_has⟩ := parted
  cases h with
  | assembly done =>
    obtain ⟨leaves, hnodup, hfresh, hlive, hmodule⟩ := assemble_apart apart _ good done
    refine ⟨leaves.good, ?_, ?_, ?_⟩
    · exact nodup.append hnodup fun r hr hr' => hfresh r hr' (live r hr)
    · simp only [List.forall_mem_append]
      exact ⟨fun r hr => leaves.live r (live r hr), hlive⟩
    · simp only [List.forall_mem_append]
      refine ⟨fun r hr => (leaves.has_iff (live r hr)).not.2 (not_has r hr), fun r hr => ?_⟩
      rintro (rfl | hr')
      · exact hfresh _ hr (apart.globals_live good)
      · exact hmodule r hr hr'
  | host outside puts | script inside puts =>
    exact ⟨puts.good, nodup, fun r hr => puts.live r (live r hr),
      fun r hr => (puts.has_iff (live r hr)).not.2 (not_has r hr)⟩

theorem Does.isolated (h : Does T O host load w d w') (parted : w.Parted T O) :
    Isolated T O w [d] w' := by
  obtain ⟨good, nodup, live, not_has⟩ := parted
  have has_live : ∀ r, O.Has w.state r → T.Live w.state r := fun r => apart.has_live good
  cases h with
  | assembly done =>
    have leaves := (assemble_apart apart _ good done).leaves
    refine ⟨fun r hr => (leaves.has_iff (has_live r hr)).2 hr, List.prefix_append _ _, ?_, ?_⟩
    · exact fun r hr key => congrFun (leaves.get_eq r (has_live r hr) id) key
    · exact fun r hr key => congrFun (leaves.get_eq r (live r hr) id) key
  | host outside puts =>
    refine ⟨fun r hr => (puts.has_iff (has_live r hr)).2 hr, List.prefix_rfl, ?_, ?_⟩
    · exact fun r hr key => Puts.get_over puts (has_live r hr) key
    · intro r hr key
      have hne : r ≠ _ := fun he => not_has r hr (he ▸ outside)
      exact congrFun (puts.get_eq r (live r hr) hne) key
  | script inside puts =>
    refine ⟨fun r hr => (puts.has_iff (has_live r hr)).2 hr, List.prefix_rfl, ?_, ?_⟩
    · intro r hr key
      have hne : r ≠ _ := fun he => not_has _ (he ▸ inside) hr
      exact congrFun (puts.get_eq r (has_live r hr) hne) key
    · exact fun r hr key => Puts.get_over puts (live r hr) key

omit [DecidableEq Ref] in
theorem Runs.parted (h : Runs T O host load w deeds w') (parted : w.Parted T O) : w'.Parted T O := by
  induction h with
  | nil => exact parted
  | cons does _ ih => exact ih (does.parted apart parted)

theorem Runs.isolated_of_parted (h : Runs T O host load w deeds w') (parted : w.Parted T O) :
    Isolated T O w deeds w' := by
  induction h with
  | nil w => exact .refl w
  | cons does _ ih => exact (does.isolated apart parted).trans (ih (does.parted apart parted))

/-- **Isolation in both directions.** Whatever assemblies and writes went before and come after, a write
to a table that an assembly made shows in no table of the host and in no other table that this or another
assembly made, and a write of the host to its globals or to a module in no table that an assembly made. -/
theorem runs_isolated {s : σ} (good : T.Good s) {before after : List (Deed Value Ref)}
    (h : Runs T O host load ⟨s, []⟩ before w) (h' : Runs T O host load w after w') :
    w'.Parted T O ∧ Isolated T O w after w' := by
  have parted := h.parted apart ⟨good, .nil, nofun, nofun⟩
  exact ⟨h'.parted apart parted, h'.isolated_of_parted apart parted⟩

end Runs

/-- Writes from both sides, with another assembly between them. -/
def smallDeeds : List (Deed (Heap.Value Nat) (Option Nat)) :=
  [.write .host none "print" (some (.datum 6)), .write .host (some 0) "pi" (some (.datum 7)),
    .write .script (some 3) "pi" (some (.datum 8)), .assembly smallPolicy]

/-- The small heap after an assembly. -/
def smallAssembled : Heap Nat := ((assemble Heap.host Heap.load smallPolicy).on smallHeap).2

/-- The small heap after writes from both sides. -/
def smallWritten : Heap Nat :=
  ((smallAssembled.setGlobal "print" (.datum 6)).write 0 "pi" (.datum 7)).write 3 "pi" (.datum 8)

/-- The small heap after another assembly. -/
def smallAgain : Heap Nat := ((assemble Heap.host Heap.load smallPolicy).on smallWritten).2

theorem smallHeap_runs : Runs Heap.sidedView Heap.outside Heap.host Heap.load ⟨smallHeap, []⟩
    [.assembly smallPolicy] ⟨smallAssembled, [some 2, some 3, some 4]⟩ := by
  have done : (assemble Heap.host Heap.load smallPolicy).on smallHeap = (.ok 2, smallAssembled) :=
    Attempt.on_eq (by decide +kernel)
  have made : (2 :: installed Heap.host Heap.load smallPolicy smallHeap).map some
    = [some 2, some 3, some 4] := by decide +kernel
  rw [← made]
  exact .cons (.assembly done) (.nil _)

theorem smallAssembled_runs (good : Heap.sidedView.Good smallAssembled) :
    Runs Heap.sidedView Heap.outside Heap.host Heap.load
      ⟨smallAssembled, [some 2, some 3, some 4]⟩ smallDeeds
      ⟨smallAgain, [some 2, some 3, some 4] ++ [some 5, some 6, some 7]⟩ := by
  have math_live : Heap.sidedView.Live (smallAssembled.setGlobal "print" (.datum 6)) (some 0) :=
    Heap.sidedView_live_some.2 (by decide +kernel)
  have copy_live : Heap.sidedView.Live
      ((smallAssembled.setGlobal "print" (.datum 6)).write 0 "pi" (.datum 7)) (some 3) :=
    Heap.sidedView_live_some.2 (by decide +kernel)
  have globals := Heap.setGlobal_puts good "print" (.datum 6)
  have math := Heap.write_puts globals.good math_live "pi" (.datum 7)
  have copy := Heap.write_puts math.good copy_live "pi" (.datum 8)
  have done : (assemble Heap.host Heap.load smallPolicy).on smallWritten = (.ok 5, smallAgain) :=
    Attempt.on_eq (by decide +kernel)
  have made : (5 :: installed Heap.host Heap.load smallPolicy smallWritten).map some
    = [some 5, some 6, some 7] := by decide +kernel
  rw [← made]
  refine .cons (.host (.inl rfl) globals) <| .cons (.host (.inr ?_) math) <|
    .cons (.script (by decide) copy) <| .cons (.assembly done) (.nil _)
  exact ⟨("math", 0), .inl (by decide +kernel), rfl⟩

theorem smallHeap_isolated :
    ∃ w w' : World (Heap Nat) (Option Nat), w.made = [some 2, some 3, some 4]
      ∧ w'.made = w.made ++ [some 5, some 6, some 7]
      ∧ w'.Parted Heap.sidedView Heap.outside
      ∧ Isolated Heap.sidedView Heap.outside w smallDeeds w' := by
  have good : Heap.sidedView.Good smallHeap := by
    simp [Heap.sidedView, Heap.tableView, smallHeap]
  have runs := smallHeap_runs
  have parted := runs.parted Heap.actsApart
    ⟨good, .nil, fun _ h => absurd h List.not_mem_nil, fun _ h => absurd h List.not_mem_nil⟩
  obtain ⟨parted, isolated⟩ :=
    runs_isolated Heap.actsApart good runs (smallAssembled_runs parted.good)
  exact ⟨⟨_, _⟩, ⟨_, _⟩, rfl, rfl, parted, isolated⟩

end Enclosure.Assembly
