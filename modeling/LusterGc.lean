import LusterGc.Model.Header
import LusterGc.Model.Heap
import LusterGc.Model.Arena
import LusterGc.Model.Collection
import LusterGc.Machine.World
import LusterGc.Machine.Calls
import LusterGc.Soundness.ListShape
import LusterGc.Soundness.Pins
import LusterGc.Soundness.Invariant
import LusterGc.Soundness.Ownership
import LusterGc.Soundness.AllList
import LusterGc.Soundness.Marking
import LusterGc.Soundness.Sweep
import LusterGc.Soundness.Colors
import LusterGc.Soundness.Termination
import LusterGc.Soundness.Contract
import LusterGc.Soundness.Tricolor
import LusterGc.Soundness.Safety
import LusterGc.Soundness.Traceable
import LusterGc.Soundness.Completeness
import LusterGc.Soundness.Reclaim
import LusterGc.Soundness.Pacing
