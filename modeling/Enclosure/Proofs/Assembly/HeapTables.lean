import Mathlib.Tactic.SplitIfs
import Enclosure.Assembly.Heap
import Enclosure.Proofs.Assembly.Tables

/-!
# The heap host acts on tables

The tables of a heap are told apart by their numbers. Its primitives add tables at the end and set single
fields, whatever else they write down, so the host over a heap acts on its tables (`Heap.acts`).
-/

namespace Enclosure.Heap

open Attempt

variable {α : Type}

/-- The tables of a heap; its modules are among them. -/
def tableView : Tables (Heap α) (Value α) Nat Nat Nat where
  ofNamespace id := id
  ofModule id := id
  value := .table
  Good h := (∀ m ∈ h.modules, m.2 < h.tables.size) ∧ ∀ m ∈ h.natives, m.2 < h.tables.size
  Live h id := id < h.tables.size
  get h id key := (h.table id).fields.lookup key

/-! ## Fields -/

theorem lookup_setField {β : Type} (key : String) (v : β) : ∀ (fields : List (String × β)) (k : String),
    (setField key v fields).lookup k = if k = key then some v else fields.lookup k
  | [], k => by
    by_cases hk : k = key
    · simp [setField, hk]
    · simp [setField, List.lookup_cons, hk, beq_eq_false_iff_ne.2 hk]
  | (k', w) :: rest, k => by
    have ih := lookup_setField key v rest k
    rw [setField]
    split_ifs with h hk hk
    · simp [h, hk]
    · simp [h, List.lookup_cons, beq_eq_false_iff_ne.2 hk]
    · rw [List.lookup_cons, ih, if_pos hk, beq_eq_false_iff_ne.2 (hk ▸ Ne.symm h)]
    · rw [List.lookup_cons, ih, if_neg hk, List.lookup_cons]

theorem size_write (h : Heap α) (id : Nat) (key : String) (v : Value α) :
    (h.write id key v).tables.size = h.tables.size := by
  simp [write]

theorem table_write_self {h : Heap α} {id : Nat} (hid : id < h.tables.size) (key : String)
    (v : Value α) : (h.write id key v).table id
      = { h.table id with fields := setField key v (h.table id).fields } := by
  simp [write, table, Array.getD_eq_getD_getElem?, Array.getElem_modify, hid]

theorem table_write_other (h : Heap α) {id other : Nat} (hne : other ≠ id) (key : String)
    (v : Value α) : (h.write id key v).table other = h.table other := by
  simp [write, table, Array.getD_eq_getD_getElem?, Array.getElem?_modify, hne.symm]

theorem get_write (h : Heap α) {id : Nat} (hid : id < h.tables.size) (key : String) (v : Value α)
    (k : String) : tableView.get (h.write id key v) id k
      = if k = key then some v else tableView.get h id k := by
  show ((h.write id key v).table id).fields.lookup k = _
  rw [table_write_self hid, lookup_setField]
  rfl

/-! ## Primitives -/

/-- The tables, the globals and the modules are the same. -/
structure Same (h h' : Heap α) : Prop where
  tables : h'.tables = h.tables
  globals : h'.globals = h.globals
  modules : h'.modules = h.modules
  natives : h'.natives = h.natives

theorem Same.get_eq {h h' : Heap α} (same : Same h h') : tableView.get h' = tableView.get h := by
  funext id key
  simp only [tableView, table, same.tables]

theorem Same.keeps {h h' : Heap α} (same : Same h h') (good : tableView.Good h) :
    tableView.Keeps h h' where
  good := by simpa only [tableView, same.tables, same.modules, same.natives] using good
  live r hr := by simpa only [tableView, same.tables] using hr
  get_eq n _ := by rw [same.get_eq]

theorem Same.trans {h h₁ h' : Heap α} (same : Same h h₁) (same' : Same h₁ h') : Same h h' :=
  ⟨same'.tables.trans same.tables, same'.globals.trans same.globals,
    same'.modules.trans same.modules, same'.natives.trans same.natives⟩

/-- An attempt that leaves tables and modules as they are. -/
def Quiet {ε β : Type} (m : Attempt (Heap α) ε β) : Prop := ∀ h, Same h (m.on h).2

namespace Quiet

variable {ε β γ : Type}

theorem same {m : Attempt (Heap α) ε β} (hm : Quiet m) {h h' : Heap α} {answer : Except ε β}
    (hrun : m.on h = (answer, h')) : Same h h' := by
  have same := hm h
  rwa [hrun] at same

theorem bind {m : Attempt (Heap α) ε β} {f : β → Attempt (Heap α) ε γ} (hm : Quiet m)
    (hf : ∀ b, Quiet (f b)) : Quiet (m >>= f) := by
  intro h
  have first := hm h
  rw [on_bind]
  rcases hrun : m.on h with ⟨e | b, h₁⟩ <;> rw [hrun] at first
  · exact first
  · exact first.trans (hf b h₁)

theorem read (f : Heap α → β) : Quiet (Attempt.read f : Attempt (Heap α) ε β) :=
  fun _ => ⟨rfl, rfl, rfl, rfl⟩

theorem fail (e : ε) : Quiet (Attempt.fail e : Attempt (Heap α) ε β) := fun _ => ⟨rfl, rfl, rfl, rfl⟩

theorem orFail (e : ε) : ∀ b? : Option β, Quiet (Attempt.orFail e b? : Attempt (Heap α) ε β)
  | some _ => fun _ => ⟨rfl, rfl, rfl, rfl⟩
  | none => fail e

theorem note (primitive : Primitive) (what : String) :
    Quiet (α := α) (Heap.note primitive what) := fun _ => ⟨rfl, rfl, rfl, rfl⟩

theorem global (name : String) : Quiet (α := α) (Heap.global name) :=
  (note _ _).bind fun _ => read _

theorem require (name : String) : Quiet (α := α) (Heap.require name) :=
  (note _ _).bind fun _ => (read _).bind fun _ => orFail _ _

theorem field (id : Nat) (name : String) : Quiet (α := α) (Heap.field id name) :=
  (read _).bind fun _ => (note _ _).bind fun _ => read _

theorem load (name : String) : Quiet (α := α) (Heap.load name) := by
  refine Quiet.bind (fun _ => ⟨rfl, rfl, rfl, rfl⟩) fun _ => (read _).bind fun found => ?_
  split
  · exact fail _
  · exact fun _ => ⟨rfl, rfl, rfl, rfl⟩
  · exact fail _

end Quiet

theorem mem_of_lookup {β : Type} {key : String} {b : β} {entries : List (String × β)}
    (h : entries.lookup key = some b) : (key, b) ∈ entries := by
  obtain ⟨before, after, rfl, -⟩ := List.lookup_eq_some_iff.1 h
  simp

theorem require_ok {h h' : Heap α} {name : String} {id : Nat}
    (hrun : (require name).on h = (.ok id, h')) : Same h h' ∧ (name, id) ∈ h'.modules := by
  obtain ⟨_, h₁, noted, hrun⟩ := bind_ok hrun
  obtain ⟨found, h₂, read, hrun⟩ := bind_ok hrun
  obtain ⟨rfl, rfl⟩ := orFail_ok hrun
  obtain ⟨found, rfl⟩ := read_ok read
  exact ⟨(Quiet.note _ _).same noted, mem_of_lookup found⟩

theorem load_ok {h h' : Heap α} {name : String} {id : Nat} (hrun : (load name).on h = (.ok id, h')) :
    Same h h' ∧ (name, id) ∈ h'.natives := by
  have same := (Quiet.load name).same hrun
  obtain ⟨_, h₁, noted, hrun⟩ := bind_ok hrun
  obtain ⟨found, h₂, read, hrun⟩ := bind_ok hrun
  obtain ⟨rfl, rfl⟩ := read_ok read
  split at hrun
  · cases hrun
  · rename_i found
    obtain ⟨hid, rfl⟩ := Prod.mk.inj hrun
    exact ⟨same, Except.ok.inj hid ▸ mem_of_lookup (Prod.mk.inj found).2⟩
  · cases hrun

theorem require_live {h h' : Heap α} {name : String} {id : Nat} (good : tableView.Good h)
    (hrun : (require name).on h = (.ok id, h')) : tableView.Live h' id := by
  obtain ⟨same, found⟩ := require_ok hrun
  exact (same.keeps good).good.1 _ found

theorem load_live {h h' : Heap α} {name : String} {id : Nat} (good : tableView.Good h)
    (hrun : (load name).on h = (.ok id, h')) : tableView.Live h' id := by
  obtain ⟨same, found⟩ := load_ok hrun
  exact (same.keeps good).good.2 _ found

theorem newTable_makes {h : Heap α} (good : tableView.Good h) :
    tableView.Makes h h.tables.size { h with tables := h.tables.push {} } where
  good := by simpa only [tableView, Array.size_push] using
    ⟨fun m hm => Nat.lt_succ_of_lt (good.1 m hm), fun m hm => Nat.lt_succ_of_lt (good.2 m hm)⟩
  live id hid := by
    simp only [tableView, Array.size_push] at hid ⊢
    omega
  get_eq id hid := by
    have hne : id ≠ h.tables.size := Nat.ne_of_lt hid
    have same : table { h with tables := h.tables.push {} } id = h.table id := by
      simp [table, Array.getD_eq_getD_getElem?, Array.getElem?_push, hne]
    funext key
    exact congrArg (fun t => t.fields.lookup key) same
  fresh := by simp [tableView]
  made := by simp [tableView]
  empty key := by simp [tableView, table, Array.getD_eq_getD_getElem?]

theorem newNamespace_ok {h h' : Heap α} {id : Nat} (hrun : newNamespace.on h = (.ok id, h')) :
    ∃ h₁, Same h h₁ ∧ id = h₁.tables.size ∧ h' = { h₁ with tables := h₁.tables.push {} } := by
  obtain ⟨k, h₁, read, hrun⟩ := bind_ok hrun
  obtain ⟨_, h₂, counted, hrun⟩ := bind_ok hrun
  obtain ⟨_, h₃, noted, made⟩ := bind_ok hrun
  have same : Same h₁ h₂ := Quiet.same (fun _ => ⟨rfl, rfl, rfl, rfl⟩) counted
  have same := (((Quiet.read _).same read).trans same).trans ((Quiet.note _ _).same noted)
  obtain ⟨hid, rfl⟩ := Prod.mk.inj made
  exact ⟨h₃, same, (Except.ok.inj hid).symm, rfl⟩

theorem newNamespace_makes {h h' : Heap α} {id : Nat} (good : tableView.Good h)
    (hrun : newNamespace.on h = (.ok id, h')) : tableView.Makes h id h' := by
  obtain ⟨h₁, same, rfl, rfl⟩ := newNamespace_ok hrun
  have keeps := same.keeps good
  have makes := newTable_makes keeps.good
  exact { makes with
    toKeeps := keeps.trans makes.toKeeps
    fresh := fun live => makes.fresh (keeps.live _ live) }

theorem write_sets {h : Heap α} {id : Nat} (good : tableView.Good h) (live : tableView.Live h id)
    (key : String) (v : Value α) : tableView.Sets h id key v (h.write id key v) where
  good := by
    simp only [tableView, size_write]
    exact good
  live r hr := by simpa only [tableView, size_write] using hr
  get_self := by
    show tableView.get (h.write id key v) id key = _
    rw [get_write h live, if_pos rfl]
  get_other k hk := by
    show tableView.get (h.write id key v) id k = _
    rw [get_write h live, if_neg hk]
    rfl
  frame r hr _ := by
    funext k
    exact congrArg (fun t => t.fields.lookup k) (table_write_other h hr key v)

theorem noted_write_ok {h h' : Heap α} {primitive : Primitive} {what : String} {id : Nat}
    {key : String} {v : Value α}
    (hrun : (do note primitive what; Attempt.modify fun h => h.write id key v).on h = (.ok (), h')) :
    ∃ h₁, Same h h₁ ∧ h' = h₁.write id key v := by
  obtain ⟨_, h₁, noted, written⟩ := bind_ok hrun
  obtain ⟨-, rfl⟩ := Prod.mk.inj written
  exact ⟨h₁, (Quiet.note _ _).same noted, rfl⟩

theorem noted_write_sets {h h' : Heap α} {primitive : Primitive} {what : String} {id : Nat}
    {key : String} {v : Value α} (good : tableView.Good h) (live : tableView.Live h id)
    (hrun : (do note primitive what; Attempt.modify fun h => h.write id key v).on h = (.ok (), h')) :
    tableView.Sets h id key v h' := by
  obtain ⟨h₁, same, rfl⟩ := noted_write_ok hrun
  have keeps := same.keeps good
  have sets := write_sets keeps.good (keeps.live _ live) key v
  exact { keeps.toGrows.trans sets.toGrows with
    get_self := sets.get_self
    get_other := fun k hk => by rw [sets.get_other k hk, same.get_eq]
    frame := fun r hr hlive => by rw [sets.frame r hr (keeps.live _ hlive), same.get_eq] }

/-- The host over a heap and its loader act on the tables of the heap. -/
theorem acts : tableView.Acts (host (α := α)) load where
  global good hrun := ((Quiet.global _).same hrun).keeps good
  require good hrun := ((Quiet.require _).same hrun).keeps good
  native good hrun := ((Quiet.load _).same hrun).keeps good
  field good hrun := ((Quiet.field _ _).same hrun).keeps good
  required := require_live
  loaded := load_live
  newNamespace := newNamespace_makes
  bind := noted_write_sets
  install := noted_write_sets

end Enclosure.Heap
