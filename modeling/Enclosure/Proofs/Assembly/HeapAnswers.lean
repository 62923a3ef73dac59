import Enclosure.Proofs.Assembly.Answers
import Enclosure.Proofs.Assembly.HeapTables

/-!
# The answers of the heap host

Which primitives of a heap fail is settled before they are asked for, and no table that an assembly makes
is ever read as a module. So the host over a heap answers as its first state says (`Heap.govern`).
-/

namespace Enclosure.Heap

open Attempt

variable {α : Type}

/-- What comes of writing down a primitive. -/
def noted (h : Heap α) (primitive : Primitive) (what : String) : Except Cause Unit :=
  if h.failing.contains ⟨primitive, what⟩ then .error (.text (Call.text ⟨primitive, what⟩ ++ " failed"))
  else .ok ()

/-- A namespace is made when `k` were asked for from now on. -/
def grants (h : Heap α) (k : Nat) : Bool :=
  !h.failing.contains ⟨.newNamespace, toString (h.made + k)⟩

/-- What the heap answers from now on. -/
def answers (h : Heap α) : Answers (Value α) Nat Nat where
  global name := (h.noted .global name).bind fun _ => .ok (h.globals.lookup name)
  require name := (h.noted .require name).bind fun _ => match h.modules.lookup name with
    | some id => .ok id
    | none => .error (.text ("no module " ++ name))
  native name := match h.refused.lookup name, h.natives.lookup name with
    | some why, _ => .error (.text why)
    | none, some id => .ok id
    | none, none => .error (.text ("unknown native " ++ name))
  field id name := (h.noted .field ((h.table id).owner.getD "" ++ "." ++ name)).bind fun _ =>
    .ok ((h.table id).fields.lookup name)
  newNamespace k := (h.noted .newNamespace (toString (h.made + k))).bind fun _ =>
    .ok (h.tables.size + (List.range k).countP h.grants)
  bind key _ := h.noted .bind key
  install key := h.noted .install key

/-- A later heap, with the tables of the first one as they were, after `k` requests for namespaces. -/
structure Since (h : Heap α) (k : Nat) (h' : Heap α) : Prop where
  globals : h'.globals = h.globals
  modules : h'.modules = h.modules
  natives : h'.natives = h.natives
  refused : h'.refused = h.refused
  failing : h'.failing = h.failing
  made : h'.made = h.made + k
  size : h'.tables.size = h.tables.size + (List.range k).countP h.grants
  table : ∀ id < h.tables.size, h'.table id = h.table id

theorem Since.refl (h : Heap α) : h.Since 0 h :=
  ⟨rfl, rfl, rfl, rfl, rfl, rfl, rfl, fun _ _ => rfl⟩

section

variable {h : Heap α} {k : Nat}

theorem note_gives (primitive : Primitive) (what : String) :
    (note primitive what).Gives (h.Since k) (h.noted primitive what) (h.Since k) := by
  intro h' since
  refine ⟨?_, { since with }⟩
  rw [noted, ← since.failing]
  rfl

theorem write_gives {id : Nat} (hid : h.tables.size ≤ id) (primitive : Primitive) (key : String)
    (v : Value α) : Gives (h.Since k)
      (do note primitive key; Attempt.modify fun h => h.write id key v) (h.noted primitive key)
      (h.Since k) := by
  have written : (Attempt.modify fun h => h.write id key v : Attempt (Heap α) Cause Unit).Gives
      (h.Since k) (.ok ()) (h.Since k) := by
    intro h' since
    exact ⟨rfl, { since with
      size := (size_write h' id key v).trans since.size
      table := fun other hother =>
        (table_write_other h' (by omega) key v).trans (since.table other hother) }⟩
  have hbind := (note_gives primitive key).bind fun _ => written
  rcases hnoted : h.noted primitive key with e | _ <;> rw [hnoted] at hbind <;> exact hbind

theorem field_gives {id : Nat} (hid : id < h.tables.size) (name : String) :
    (field id name).Gives (h.Since k) (h.answers.field id name) (h.Since k) := by
  have owner : (Attempt.read fun h => (h.table id).owner.getD "" : Attempt (Heap α) Cause String).Gives
      (h.Since k) (.ok ((h.table id).owner.getD "")) (h.Since k) :=
    .read fun h' since => by rw [since.table id hid]
  have read : (Attempt.read fun h => (h.table id).fields.lookup name :
      Attempt (Heap α) Cause (Option (Value α))).Gives (h.Since k)
      (.ok ((h.table id).fields.lookup name)) (h.Since k) :=
    .read fun h' since => by rw [since.table id hid]
  have named := fun owner => (note_gives (h := h) (k := k) .field (owner ++ "." ++ name)).bind fun _ => read
  exact owner.bind named

theorem require_gives (name : String) :
    (require name).Gives (h.Since k) (h.answers.require name) (h.Since k) := by
  have read : (Attempt.read fun h => h.modules.lookup name : Attempt (Heap α) Cause (Option Nat)).Gives
      (h.Since k) (.ok (h.modules.lookup name)) (h.Since k) :=
    .read fun h' since => by rw [since.modules]
  have found : ∀ id : Option Nat, Gives (h.Since k) (orFail (Cause.text ("no module " ++ name)) id)
      (match id with
        | some id => .ok id
        | none => .error (Cause.text ("no module " ++ name))) (h.Since k) := by
    rintro (_ | id) <;> exact fun h' since => ⟨rfl, since⟩
  exact (note_gives .require name).bind fun _ => read.bind found

theorem load_gives (name : String) :
    (load name).Gives (h.Since k) (h.answers.native name) (h.Since k) := by
  intro h' since
  simp only [answers, ← since.refused, ← since.natives, load, on_bind]
  rcases hr : h'.refused.lookup name with _ | why <;>
    rcases hn : h'.natives.lookup name with _ | id <;>
    simp only [Attempt.modify, Attempt.read, of, on, hr, hn] <;>
    exact ⟨by trivial, { since with }⟩

theorem countP_succ (h : Heap α) (k : Nat) : (List.range (k + 1)).countP h.grants
    = (List.range k).countP h.grants + if h.grants k then 1 else 0 := by
  rw [List.range_succ, List.countP_append, List.countP_singleton]

theorem newNamespace_gives :
    newNamespace.Gives (h.Since k) (h.answers.newNamespace k) (h.Since (k + 1)) := by
  intro h' since
  have hmade : h'.made + 1 = h.made + (k + 1) := by rw [since.made, Nat.add_assoc]
  have hcount := countP_succ h k
  have hsize := since.size
  simp only [newNamespace, on_bind, answers]
  simp only [grants, noted, ← since.failing, ← since.made] at hcount ⊢
  simp only [Attempt.read, Attempt.modify, note, newTable, of, on]
  rcases hfails : h'.failing.contains ⟨.newNamespace, toString h'.made⟩ with _ | _ <;>
    rw [hfails] at hcount
  · refine ⟨congrArg Except.ok hsize, { since with made := hmade, size := ?_, table := fun id hid => ?_ }⟩
    · simp [hcount, hsize, Nat.add_assoc]
    · rw [← since.table id hid]
      have hne : id ≠ h'.tables.size := by omega
      simp [table, Array.getD_eq_getD_getElem?, Array.getElem?_push, hne]
  · refine ⟨rfl, { since with made := hmade, size := ?_ }⟩
    simpa [hcount] using hsize

end

theorem of_noted {h : Heap α} {β : Type} {primitive : Primitive} {what : String}
    {next : Unit → Except Cause β} {b : β} (hok : (h.noted primitive what).bind next = .ok b) :
    h.noted primitive what = .ok () ∧ next () = .ok b := by
  rcases hnoted : h.noted primitive what with e | _ <;> rw [hnoted] at hok
  · cases hok
  · exact ⟨rfl, hok⟩

theorem size_le_of_makes {h : Heap α} {n : Nat} (made : h.answers.Makes n) : h.tables.size ≤ n := by
  obtain ⟨k, hk⟩ := made
  obtain ⟨-, hn⟩ := of_noted hk
  cases hn
  exact Nat.le_add_right _ _

theorem lt_size_of_finds {h : Heap α} (good : tableView.Good h) {source : Nat}
    (found : h.answers.Finds source) : source < h.tables.size := by
  obtain ⟨module, found | found⟩ := found
  · obtain ⟨-, found⟩ := of_noted found
    split at found
    · cases found
      exact good.1 _ (mem_of_lookup ‹_›)
    · cases found
  · simp only [answers] at found
    split at found
    · cases found
    · cases found
      exact good.2 _ (mem_of_lookup ‹_›)
    · cases found

/-- The host over a heap and its loader answer as the heap says that they start from. -/
theorem govern {h : Heap α} (good : tableView.Good h) :
    h.answers.Govern h.Since (host (α := α)) load where
  global k name := (note_gives .global name).bind fun _ => .read fun h' since => by rw [since.globals]
  require _ name := require_gives name
  native _ name := load_gives name
  field _ _ name found := field_gives (lt_size_of_finds good found) name
  newNamespace _ := newNamespace_gives
  bind _ _ key v made := write_gives (size_le_of_makes made) .bind key v
  install _ _ key child made := write_gives (size_le_of_makes made) .install key (.table child)

end Enclosure.Heap
