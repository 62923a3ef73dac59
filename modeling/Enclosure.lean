import Enclosure.Assembly.Heap
import Enclosure.Capture
import Enclosure.Lua.Names
import Enclosure.Policy.File
import Enclosure.Sandbox
import Enclosure.Sandbox.Function
import Enclosure.Proofs.Assembly.Atomic
import Enclosure.Proofs.Assembly.ClosedWorld
import Enclosure.Proofs.Assembly.FailFast
import Enclosure.Proofs.Assembly.Isolation
import Enclosure.Proofs.Assembly.Order
import Enclosure.Proofs.Assembly.Parts
import Enclosure.Proofs.Native.Disabled
import Enclosure.Proofs.Native.Once
import Enclosure.Proofs.Policy.Acceptance
import Enclosure.Proofs.Policy.FirstDefect
import Enclosure.Proofs.Policy.Merge
import Enclosure.Proofs.Policy.RoundTrip
import Enclosure.Proofs.Protection.Reads
import Enclosure.Proofs.Protection.Writes
import Enclosure.Proofs.Sandbox.Confinement
import Enclosure.Proofs.Sandbox.Environment
import Enclosure.Proofs.Sandbox.Exposure
import Enclosure.Proofs.Sandbox.Openings
import Enclosure.Proofs.Sandbox.Permission
import Enclosure.Proofs.Sandbox.Scripts
import Enclosure.Proofs.Native.Gating
import Enclosure.Proofs.Native.FirstOpen
import Enclosure.Proofs.Capture.Families
import Enclosure.Proofs.Capture.Print
