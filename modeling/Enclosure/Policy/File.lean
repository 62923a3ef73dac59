import Enclosure.Fault
import Enclosure.FileSystem
import Enclosure.Policy.Document
import Enclosure.Text.Utf8

/-!
# Policy files
-/

namespace Enclosure.Policy

/-- What is told of a text that is no policy. -/
def DocumentError.fault : DocumentError → Fault
  | .malformed => .policy "malformed document"
  | .data e => .policy (e.message Shortest.plain)
  | .defect d => .defect d

/-- The policy that a text describes. -/
def parse (source : String) : Except Fault Policy :=
  match read source with
  | .ok p => .ok p
  | .error e => .error e.fault

def ofFile (files : FileSystem) (path : String) : Except Fault Policy :=
  match files.read path with
  | .error e => .error (.file e.message)
  | .ok b =>
    match b.text? with
    | none => .error (.file FileError.notText.message)
    | some source => parse source

end Enclosure.Policy
