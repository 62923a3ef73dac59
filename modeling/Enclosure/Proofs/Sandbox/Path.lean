import Mathlib.Tactic.Common
import Enclosure.Sandbox

/-!
# Paths by their components

A path stands for its components. Separators side by side and at the end count for nothing, and `.`
counts only where a relative path begins. A name that is a component by itself, joined to a directory,
comes after the components of the directory, and these stay as they are, whatever the path of the
directory is (`components_joinPath`): it is neither left nor replaced.
-/

namespace Enclosure

/-- A component of a path. -/
inductive Component
  | root
  | current
  | parent
  | normal (name : String)
  deriving DecidableEq

namespace Component

/-- The component that stands between two separators. -/
def ofPiece? (piece : String) : Option Component :=
  if piece = "" ∨ piece = "." then none
  else if piece = ".." then some .parent
  else some (.normal piece)

/-- The components between the separators of a path. -/
def between (path : String) : List Component :=
  ((path.toList.splitOn '/').map String.ofList).filterMap ofPiece?

/-- The component that a path has for how it begins: at the root, or with `.` alone. -/
def front : List Char → List Component
  | [] => []
  | c :: rest =>
    if c = '/' then [.root]
    else if c = '.' ∧ rest.head?.all (· == '/') then [.current]
    else []

end Component

/-- The components of a path, the outermost first. -/
def components (path : String) : List Component :=
  Component.front path.toList ++ Component.between path

/-- A name that is a normal component by itself. -/
structure SingleComponent (name : String) : Prop where
  noSeparator : '/' ∉ name.toList
  notEmpty : name ≠ ""
  notCurrent : name ≠ "."
  notParent : name ≠ ".."

namespace Component

theorem between_single {name : String} (h : SingleComponent name) : between name = [.normal name] := by
  simp [between, List.splitOn_eq_singleton h.noSeparator, ofPiece?, h.notEmpty, h.notCurrent,
    h.notParent]

theorem front_single {name : String} (h : SingleComponent name) : front name.toList = [] := by
  rcases hname : name.toList with _ | ⟨c, rest⟩
  · rfl
  · have hc : c ≠ '/' := fun he => h.noSeparator (by simp [hname, he])
    -- only `.` alone would count, for no separator follows
    have hpoint : ¬ (c = '.' ∧ rest.head?.all (· == '/')) := by
      rintro ⟨rfl, hall⟩
      rcases rest with _ | ⟨c', rest⟩
      · exact h.notCurrent (String.toList_inj.1 hname)
      · have hc' : c' = '/' := by simpa using hall
        exact h.noSeparator (by simp [hname, hc'])
    simp only [front, if_neg hc, if_neg hpoint]

theorem between_append (directory rest : String) :
    between (directory ++ "/" ++ rest) = between directory ++ between rest := by
  have hsplit : (directory ++ "/" ++ rest).toList.splitOn '/'
      = directory.toList.splitOn '/' ++ rest.toList.splitOn '/' := by
    rw [String.toList_append, String.toList_append, List.append_assoc]
    exact List.splitOn_append_cons_self _ _
  rw [between, hsplit, List.map_append, List.filterMap_append]
  rfl

theorem between_separator (directory : String) : between (directory ++ "/") = between directory := by
  have happend := between_append directory ""
  rwa [String.append_empty, show between "" = [] from rfl, List.append_nil] at happend

/-- How a path begins is settled before its first separator. -/
theorem front_append (directory rest : String) : front (directory ++ "/" ++ rest).toList
    = if directory = "" then [.root] else front directory.toList := by
  have hfront : ∀ cs cs' : List Char,
      front (cs ++ '/' :: cs') = if cs = [] then [.root] else front cs := by
    rintro (_ | ⟨c, _ | ⟨c', cs⟩⟩) cs' <;> simp [front]
  rw [String.toList_append, String.toList_append, List.append_assoc]
  simpa using hfront directory.toList rest.toList

theorem front_separator (directory : String) : front (directory ++ "/").toList
    = if directory = "" then [.root] else front directory.toList := by
  simpa using front_append directory ""

end Component

theorem components_single {name : String} (h : SingleComponent name) :
    components name = [.normal name] := by
  rw [components, Component.front_single h, Component.between_single h, List.nil_append]

/-- What stands after a separator adds its components. -/
theorem components_append (directory rest : String) : components (directory ++ "/" ++ rest)
    = components (directory ++ "/") ++ Component.between rest := by
  rw [components, components, Component.front_append, Component.front_separator,
    Component.between_append, Component.between_separator, List.append_assoc]

/-- A separator at the end of a path counts for nothing, if it is not the path. -/
theorem components_separator {directory : String} (h : directory ≠ "") :
    components (directory ++ "/") = components directory := by
  rw [components, Component.front_separator, if_neg h, Component.between_separator, components]

/-- A name that is a component by itself, joined to a directory, is the last component. -/
theorem components_joinPath (directory : String) {file : String} (h : SingleComponent file) :
    components (Sandbox.joinPath directory file) = components directory ++ [.normal file] := by
  have relative : ¬ file.startsWith "/" := by
    rw [String.startsWith_string_iff]
    rintro ⟨rest, hrest⟩
    exact h.noSeparator (by simp [← hrest])
  rw [Sandbox.joinPath, if_neg relative]
  split_ifs with hempty hends
  · obtain rfl := String.isEmpty_iff.1 hempty
    exact components_single h
  · obtain ⟨front, hfront⟩ : ∃ front, directory = front ++ "/" := by
      rw [String.endsWith_eq_endsWith_toSlice, String.Slice.endsWith_string_iff] at hends
      obtain ⟨front, hfront⟩ := hends
      refine ⟨String.ofList front, String.toList_inj.1 ?_⟩
      simpa using hfront.symm
    rw [hfront, components_append, Component.between_single h]
  · have hne : directory ≠ "" := fun he => hempty (String.isEmpty_iff.2 he)
    rw [components_append, components_separator hne, Component.between_single h]

example : components (Sandbox.joinPath "./lib//../x/." "a.lua")
    = [.current, .normal "lib", .parent, .normal "x", .normal "a.lua"] := by decide +kernel

end Enclosure
