import Enclosure.Lua.Library.Package
import Enclosure.Lua.Library.System
import Enclosure.Proofs.Reach.Base

/-!
# The module system and the library `os` in a realm

Modules are found through the tables of loaded and preloaded modules, which the realm has, and by
searchers that are called like any function. What is done to files leads nowhere.
-/

namespace Enclosure.Lua.Library

variable {R : Realm} {args : Args} {captured : Array Value}

namespace Package

theorem firstReadable_calm : ∀ files : List Bytes, (firstReadable files).Calm R fun _ => True
  | [] => .pure trivial
  | _ :: rest => .bind (A := fun _ => True) (.read fun _ _ => trivial) fun _ _ =>
    .ite (fun _ => .pure trivial) fun _ => firstReadable_calm rest

theorem askSearchers_tame {searchers : TableId} (name : Bytes) : ∀ (fuel i : Nat) (message : Bytes)
    {R : Realm}, searchers ∈ R.tables → (askSearchers searchers name fuel i message).Tame R
      fun R' r => R'.Has r.1 ∧ R'.Has r.2
  | 0, _, _, _, _ => .throw trivial
  | fuel + 1, i, message, R, hs => by
    refine .calmly (.rawGet hs _) fun searcher hsearcher => .check (.failBytes _) ?_
    refine .bind (.call hsearcher (Realm.hasAll_one (Realm.has_str _)) _) fun vs R₁ h₁ hvs => ?_
    have hfirst := Evaluate.first_has hvs
    split
    · rename_i f hf
      rw [hf] at hfirst
      exact .pure ⟨hfirst, Evaluate.first_has (hvs.drop 1)⟩
    · split
      · exact askSearchers_tame name fuel _ _ (h₁.1 hs)
      · exact askSearchers_tame name fuel _ _ (h₁.1 hs)

theorem loaded_calm : (Run.read fun s => Value.table s.loaded).Calm R R.Has :=
  .read fun _ hs => hs.loaded

theorem preload_calm : (Run.read fun s => Value.table s.preload).Calm R R.Has :=
  .read fun _ hs => hs.preload

theorem searchPath_calm : (searchPath args).Calm R R.HasAll := by
  refine .bind (args.string_plain 1).calm fun name _ =>
    .bind (args.string_plain 2).calm fun path _ => ?_
  refine .bind (args.stringOr_plain 3 _).calm fun sep _ =>
    .bind (args.stringOr_plain 4 _).calm fun dir _ => ?_
  refine .bind (firstReadable_calm _) fun found _ => ?_
  split
  · exact .pure (Realm.hasAll_one trivial)
  · exact .pure (.cons trivial (Realm.hasAll_one trivial))

theorem preloadSearcher_tame : (preloadSearcher args).Tame R Realm.HasAll := by
  refine .calmly (args.string_plain 1).calm fun name _ => .calmly preload_calm fun preload hp => ?_
  refine .bind (Operation.index_tame _ _ hp trivial) fun v _ _ hv =>
    .ite (fun _ => .pure (Realm.hasAll_one trivial)) fun _ => ?_
  exact .pure (.cons hv (Realm.hasAll_one (Realm.has_text _)))

theorem fileSearcher_tame (hc : R.HasAll captured.toList) :
    (fileSearcher captured args).Tame R Realm.HasAll := by
  refine .calmly (args.string_plain 1).calm fun name _ => ?_
  refine .bind (Operation.index_tame _ _ (hc.held 0) trivial) fun v R₁ h₁ _ => ?_
  split
  · exact .fail _
  · refine .calmly (firstReadable_calm _) fun found _ => ?_
    split
    · exact .pure (Realm.hasAll_one trivial)
    · refine .calmly Base.globals_calm fun env henv => ?_
      refine .bind (Chunk.loadFile_tame _ _ henv _) fun r R₂ h₂ hr => ?_
      split
      · exact .pure (.cons (hr _ rfl) (Realm.hasAll_one trivial))
      · exact .failBytes _

theorem require_tame (hc : R.HasAll captured.toList) :
    (require captured args).Tame R Realm.HasAll := by
  unfold require
  refine .calmly (args.string_plain 1).calm fun name _ => .calmly loaded_calm fun loaded hl => ?_
  refine .bind (Operation.index_tame _ _ hl trivial) fun v R₁ h₁ hv =>
    .ite (fun _ => .pure (Realm.hasAll_one hv)) fun _ => ?_
  refine .bind (Operation.index_tame _ _ ((hc.held 0).up h₁) trivial) fun searchers R₂ h₂ hs => ?_
  have hl₂ := hl.up (h₁.trans h₂)
  split
  · refine .bind (askSearchers_tame name _ 1 _ hs) ?_
    rintro ⟨loader, extra⟩ R₃ h₃ ⟨hloader, hextra⟩
    refine .bind (.call hloader (.cons (Realm.has_str _) (Realm.hasAll_one hextra)) _) fun vs R₄ h₄ hvs => ?_
    have hl₄ := hl₂.up (h₃.trans h₄)
    have hextra₄ := hextra.up h₄
    extract_lets v finish
    have hfinish (u : Unit) {R : Realm} (hl : R.Has loaded) (hextra : R.Has extra) :
        (finish u).Tame R Realm.HasAll := by
      refine .bind (Operation.index_tame _ _ hl trivial) fun v R₁ h₁ hv => .ite (fun _ => ?_) fun _ => ?_
      · exact .bind (Operation.setIndex_tame _ _ (hl.up h₁) trivial trivial) fun _ R₂ h₂ _ =>
          .pure (.cons (Realm.has_bool _) (Realm.hasAll_one (hextra.up (h₁.trans h₂))))
      · exact .pure (.cons hv (Realm.hasAll_one (hextra.up h₁)))
    clear_value finish
    refine .ite (fun _ => ?_) fun _ => hfinish _ hl₄ hextra₄
    exact .bind (Operation.setIndex_tame _ _ hl₄ trivial (Evaluate.first_has hvs))
      fun _ _ h₅ _ => hfinish _ (hl₄.up h₅) (hextra₄.up h₅)
  · exact .fail _

theorem run_tame (f : PackageFunction) (hc : R.HasAll captured.toList) :
    (run f captured args).Tame R Realm.HasAll := by
  cases f with
  | loadLib => exact .failHost _
  | require => exact require_tame hc
  | searchPath => exact searchPath_calm.tame fun _ => id
  | preloadSearcher => exact preloadSearcher_tame
  | fileSearcher => exact fileSearcher_tame hc
  | nativeSearcher => exact .pure (Realm.hasAll_one (Realm.has_text _))

end Package

namespace System

theorem dateField_tame {t : Value} (ht : R.Has t) (name : String) (fallback : Option Int)
    (base : Int) : (dateField t name fallback base).Tame R fun _ _ => True := by
  unfold dateField
  refine .bind (Operation.index_tame _ _ ht trivial) fun v _ _ _ => ?_
  split
  · exact .check (.fail _) (.pure trivial)
  · refine .check (.fail _) ?_
    split
    · exact .pure trivial
    · exact .fail _

theorem setDate_calm {t : TableId} (ht : t ∈ R.tables) (d : Date) :
    (setDate t d).Calm R fun _ => True := by
  unfold setDate
  extract_lets put
  have hput (k : String) (n : Int) : (put k n).Calm R fun _ => True := .rawSetText ht trivial
  clear_value put
  refine .bind (hput _ _) fun _ _ => .bind (hput _ _) fun _ _ => .bind (hput _ _) fun _ _ => ?_
  refine .bind (hput _ _) fun _ _ => .bind (hput _ _) fun _ _ => .bind (hput _ _) fun _ _ => ?_
  exact .bind (hput _ _) fun _ _ => .bind (hput _ _) fun _ _ => .rawSetText ht trivial

theorem dateText_calm (d : Date) (zone : String) (bs : List UInt8) :
    (dateText d zone bs).Calm R fun _ => True := by
  have failed (text : List UInt8) :
      (failConversion text : Run Bytes).Calm R fun _ => True := .throw trivial
  fun_induction dateText d zone bs with
  | case1 => exact .pure trivial
  | case2 e c _ b rest' allowed _ piece ih => exact .bind ih fun _ _ => .pure trivial
  | case3 | case4 | case6 | case7 => exact failed _
  | case5 e rest c _ _ ih => exact .bind ih fun _ _ => .pure trivial
  | case8 b rest _ _ ih => exact .bind ih fun _ _ => .pure trivial

theorem failed_has (path : Bytes) (e : FileError) : R.HasAll (failed path e) :=
  .cons trivial (.cons trivial (Realm.hasAll_one (Realm.has_nat _)))

theorem time_tame (h : R.HasAll args) : (time args).Tame R Realm.HasAll := by
  refine .ite (fun _ => .calmly now_plain.calm fun _ _ => .pure (Realm.hasAll_one trivial)) fun _ => ?_
  refine .calmly (Args.table_calm h 1) fun t ht => ?_
  have field (name : String) (fallback : Option Int) (base : Int) {R' : Realm} (hle : R ≤ R') :
      (dateField (.table t) name fallback base).Tame R' fun _ _ => True :=
    dateField_tame (t := .table t) (hle.1 ht) name fallback base
  refine .bind (field _ _ _ (le_refl R)) fun year R₁ h₁ _ => ?_
  refine .bind (field _ _ _ h₁) fun month R₂ h₂ _ => ?_
  refine .bind (field _ _ _ (h₁.trans h₂)) fun day R₃ h₃ _ => ?_
  have le₃ := h₁.trans (h₂.trans h₃)
  refine .bind (field _ _ _ le₃) fun hour R₄ h₄ _ => ?_
  refine .bind (field _ _ _ (le₃.trans h₄)) fun minute R₅ h₅ _ => ?_
  refine .bind (field _ _ _ (le₃.trans (h₄.trans h₅))) fun second R₆ h₆ _ => ?_
  have ht₆ := (le₃.trans (h₄.trans (h₅.trans h₆))).1 ht
  exact .calmly (setDate_calm ht₆ _) fun _ _ => .pure (Realm.hasAll_one trivial)

theorem date_tame : (date args).Tame R Realm.HasAll := by
  refine .calmly (args.stringOr_plain 1 _).calm fun f _ =>
    .calmly (Run.Plain.ite (fun _ => now_plain) fun _ => args.integer_plain 2).calm fun t _ => ?_
  refine .check (.fail _) (.ite (fun _ => ?_) fun _ => ?_)
  · exact .bind .newTable fun t _ _ ht => .calmly (setDate_calm ht _) fun _ _ =>
      .pure (Realm.hasAll_one ht)
  · exact .calmly (dateText_calm _ _ _) fun _ _ => .pure (Realm.hasAll_one trivial)

theorem remove_calm : (remove args).Calm R R.HasAll := by
  refine .bind (args.string_plain 1).calm fun path _ =>
    .bind (A := fun _ => True) (.read fun _ _ => trivial) fun fs _ => ?_
  split
  · exact .pure (failed_has _ _)
  · exact .bind (.setFiles _) fun _ _ => .pure (Realm.hasAll_one trivial)

theorem rename_calm : (rename args).Calm R R.HasAll := by
  refine .bind (args.string_plain 1).calm fun source _ =>
    .bind (args.string_plain 2).calm fun target _ =>
    .bind (A := fun _ => True) (.read fun _ _ => trivial) fun fs _ => ?_
  split
  · exact .pure (failed_has _ _)
  · exact .bind (.setFiles _) fun _ _ => .pure (Realm.hasAll_one trivial)

theorem run_tame (h : R.HasAll args) (f : OsFunction) : (run f args).Tame R Realm.HasAll := by
  have calm {m : Run (List Value)} (hm : m.Calm R R.HasAll) : m.Tame R Realm.HasAll :=
    hm.tame fun _ => id
  cases f with
  | clock => exact (clock_plain args).tame
  | date => exact date_tame
  | difftime => exact (difftime_plain args).tame
  | execute =>
    refine .ite (fun _ => .pure (Realm.hasAll_one trivial)) fun _ => ?_
    exact .calmly (args.string_plain 1).calm fun _ _ =>
      .pure (.cons trivial (.cons trivial (Realm.hasAll_one trivial)))
  | exit =>
    unfold run
    dsimp only
    split
    · exact .throw trivial
    · exact .calmly (args.integerOr_plain 1 0).calm fun _ _ => .throw trivial
  | getenv => exact .calmly (args.string_plain 1).calm fun _ _ => .pure (Realm.hasAll_one trivial)
  | remove => exact calm remove_calm
  | rename => exact calm rename_calm
  | setLocale =>
    refine .calmly (args.stringOr_plain 1 _).calm fun name _ =>
      .calmly (args.option_plain 2 _).calm fun _ _ => ?_
    refine .pure (Realm.hasAll_one ?_)
    split_ifs <;> trivial
  | time => exact time_tame h
  | tmpName => exact .pure (Realm.hasAll_one trivial)

end System

end Enclosure.Lua.Library
