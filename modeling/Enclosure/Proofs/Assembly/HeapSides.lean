import Enclosure.Proofs.Assembly.HeapTables
import Enclosure.Proofs.Assembly.Sides

/-!
# The sides of the heap host

The globals of a heap count as one more table, and the tables of its modules are on the side of the
host. Its primitives keep to that (`Heap.actsApart`).
-/

namespace Enclosure.Heap

variable {α : Type}

/-- The tables of a heap and its globals. -/
def sidedView : Tables (Heap α) (Value α) Nat Nat (Option Nat) where
  ofNamespace := some
  ofModule := some
  value := .table
  Good := tableView.Good
  Live h r := ∀ id ∈ r, id < h.tables.size
  get h
    | none => fun key => h.globals.lookup key
    | some id => fun key => (h.table id).fields.lookup key

/-- The host's own: the globals and the modules. -/
def outside : Outside (Heap α) (Option Nat) where
  globals := none
  Module h r := ∃ m, (m ∈ h.modules ∨ m ∈ h.natives) ∧ r = some m.2

/-- A host sets a global. -/
def setGlobal (key : String) (v : Value α) (h : Heap α) : Heap α :=
  { h with globals := setField key v h.globals }

theorem sidedView_live_some {h : Heap α} {id : Nat} :
    sidedView.Live h (some id) ↔ id < h.tables.size := by
  simp [sidedView]

theorem Same.leaves {h h' : Heap α} (same : Same h h') (good : sidedView.Good h) :
    sidedView.Leaves outside h h' where
  good := (same.keeps good).good
  live r hr := by simpa only [sidedView, same.tables] using hr
  get_eq r _ _ := by
    rcases r with _ | id
    · simp only [sidedView, same.globals]
    · simp only [sidedView, table, same.tables]
  module_iff r _ := by simp only [outside, same.modules, same.natives]

theorem newTable_leaves {h : Heap α} (good : sidedView.Good h) :
    sidedView.Leaves outside h { h with tables := h.tables.push {} } where
  good := (newTable_makes good).good
  live r hr id hid := (newTable_makes good).live id (hr id hid)
  get_eq r hr _ := by
    rcases r with _ | id
    · rfl
    · exact (newTable_makes good).get_eq id (hr id rfl)
  module_iff _ _ := Iff.rfl

theorem module_live {h : Heap α} (good : sidedView.Good h) {r : Option Nat}
    (hmodule : outside.Module h r) : sidedView.Live h r := by
  obtain ⟨m, hm, rfl⟩ := hmodule
  exact sidedView_live_some.2 (hm.elim (good.1 m) (good.2 m))

theorem write_puts {h : Heap α} {id : Nat} (good : sidedView.Good h) (live : sidedView.Live h (some id))
    (key : String) (v : Value α) :
    sidedView.Puts outside h (some id) key (some v) (h.write id key v) where
  good := (write_sets good (live id rfl) key v).good
  live r hr id hid := (write_sets good (live _ rfl) key v).live id (hr id hid)
  get_eq r hr hne := by
    rcases r with _ | id'
    · rfl
    · exact (write_sets good (live id rfl) key v).frame id' (fun he => hne (congrArg some he)) (hr id' rfl)
  module_iff _ _ := Iff.rfl
  get_self := (write_sets good (live id rfl) key v).get_self
  get_other k hk := (write_sets good (live id rfl) key v).get_other k hk

theorem setGlobal_puts {h : Heap α} (good : sidedView.Good h) (key : String) (v : Value α) :
    sidedView.Puts outside h none key (some v) (h.setGlobal key v) where
  good := good
  live _ hr := hr
  get_eq r _ hne := by
    rcases r with _ | id
    · exact absurd rfl hne
    · rfl
  module_iff _ _ := Iff.rfl
  get_self := by
    show (setField key v h.globals).lookup key = _
    rw [lookup_setField, if_pos rfl]
  get_other k hk := by
    show (setField key v h.globals).lookup k = _
    rw [lookup_setField, if_neg hk]
    rfl

theorem noted_write_puts {h h' : Heap α} {primitive : Primitive} {what : String} {id : Nat}
    {key : String} {v : Value α} (good : sidedView.Good h) (live : sidedView.Live h (some id))
    (hrun : (do note primitive what; Attempt.modify fun h => h.write id key v).on h = (.ok (), h')) :
    sidedView.Puts outside h (some id) key (some v) h' := by
  obtain ⟨h₁, same, rfl⟩ := noted_write_ok hrun
  have leaves := same.leaves good
  have puts := write_puts leaves.good (leaves.live _ live) key v
  exact { leaves.but.trans puts.toLeavesBut with
    get_self := puts.get_self
    get_other := fun k hk => by rw [puts.get_other k hk, leaves.get_eq _ live not_false] }

theorem newNamespace_leaves {h h' : Heap α} {id : Nat} (good : sidedView.Good h)
    (hrun : newNamespace.on h = (.ok id, h')) :
    sidedView.Leaves outside h h' ∧ sidedView.Makes h id h' ∧ ¬ outside.Module h' (some id) := by
  have makes := newNamespace_makes good hrun
  obtain ⟨h₁, same, rfl, rfl⟩ := newNamespace_ok hrun
  have same_leaves := same.leaves good
  have leaves : sidedView.Leaves outside h _ :=
    same_leaves.trans (newTable_leaves same_leaves.good)
  refine ⟨leaves, ?_, fun hmodule => ?_⟩
  · exact { leaves.keeps with
      fresh := fun live => makes.fresh (live _ rfl)
      made := sidedView_live_some.2 makes.made
      empty := makes.empty }
  · exact absurd (module_live same_leaves.good hmodule) fun live => Nat.lt_irrefl _ (live _ rfl)

/-- The host over a heap and its loader keep to their side. -/
theorem actsApart : sidedView.ActsApart (outside (α := α)) host load where
  globals_live _ := nofun
  module_live good hmodule := module_live good hmodule
  global good hrun := ((Quiet.global _).same hrun).leaves good
  require good hrun := ((Quiet.require _).same hrun).leaves good
  native good hrun := ((Quiet.load _).same hrun).leaves good
  field good hrun := ((Quiet.field _ _).same hrun).leaves good
  required _ hrun := ⟨_, .inl (require_ok hrun).2, rfl⟩
  loaded _ hrun := ⟨_, .inr (load_ok hrun).2, rfl⟩
  newNamespace := newNamespace_leaves
  bind := noted_write_puts
  install := noted_write_puts

end Enclosure.Heap
