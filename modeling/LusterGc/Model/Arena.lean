import LusterGc.Model.Heap
import Mathlib.Data.Rat.Floor

/-! # The arena and its direct operations

The fields of `GcArena`, its constructor, the tracer, rooting, the write barrier, the pin handle
and the arena's destructor. The `f64` quantities of the scheduler are exact rationals with a
separate `+∞`: rounding of `f64` arithmetic is not modelled, while the infinities that
`collect_garbage` and a zero `timing_factor` produce, and the way `f64::max` discards a NaN,
are. Every `usize` counter is a natural number: it counts bytes of live memory or pins.
-/

namespace LusterGc

/-- The collector's phase. -/
inductive GcPhase where
  | sleeping
  | propagating
  | sweeping
deriving DecidableEq, Repr

/-- The tuning knobs of `GcParameters`. -/
structure GcParameters where
  pauseFactor : ℚ
  timingFactor : ℚ
  collectionGranularity : ℕ
  minSleep : ℕ
deriving DecidableEq, Repr

/-- `impl Default for GcParameters`. -/
def GcParameters.default : GcParameters where
  pauseFactor := 1 / 2
  timingFactor := 3 / 2
  collectionGranularity := 1024
  minSleep := 4096

/-- `((remembered_size as f64 * pause_factor).round().min(usize::MAX as f64) as usize)
.max(min_sleep)`: the saturating cast caps the product at `usize::MAX`. -/
def GcParameters.pauseSize (parameters : GcParameters) (rememberedSize : ℕ) : ℕ :=
  max (min (round ((rememberedSize : ℚ) * parameters.pauseFactor)).toNat usizeMax)
    parameters.minSleep

/-- An `f64` amount of work or debt. -/
inductive Budget where
  | bytes (amount : ℚ)
  | infinite
deriving DecidableEq, Repr

namespace Budget

/-- `work_left > 0.0`. -/
def positive : Budget → Bool
  | bytes amount => decide (0 < amount)
  | infinite => true

/-- `work_left -= size as f64`. -/
def spend : Budget → ℕ → Budget
  | bytes amount, size => bytes (amount - size)
  | infinite, _ => infinite

/-- `debt + size as f64 + size as f64 / timing_factor`: a zero `timing_factor` makes the debt
infinite, since every box has a positive size. -/
def addDebt (debt : Budget) (size : ℕ) (timingFactor : ℚ) : Budget :=
  match debt with
  | infinite => infinite
  | bytes amount => if timingFactor = 0 then infinite else bytes (amount + size + size / timingFactor)

/-- `(debt - work + work_left).max(0.0)`: with an infinite `work` the sum is NaN or `-∞`, both
of which `f64::max` turns into `0.0`. -/
def settle : Budget → Budget → Budget → Budget
  | _, infinite, _ => bytes 0
  | infinite, bytes _, _ => infinite
  | bytes _, bytes _, infinite => infinite
  | bytes debt, bytes work, bytes workLeft => bytes (max (debt - work + workLeft) 0)

@[simp] theorem positive_infinite : infinite.positive = true := rfl

@[simp] theorem spend_infinite (size : ℕ) : infinite.spend size = infinite := rfl

end Budget

/-- The fields of `GcArena`, together with the memory its boxes live in. -/
structure GcArena where
  parameters : GcParameters
  phase : GcPhase
  totalAllocated : ℕ
  rememberedSize : ℕ
  wakeupTotal : ℕ
  allocationDebt : Budget
  granularityTimer : ℕ
  all : Option Ptr
  sweep : Option Ptr
  sweepPrev : Option Ptr
  gray : List Ptr
  heap : Heap

namespace GcArena

def new (parameters : GcParameters) : GcArena where
  parameters := parameters
  phase := .sleeping
  totalAllocated := 0
  rememberedSize := 0
  wakeupTotal := parameters.minSleep
  allocationDebt := .bytes 0
  granularityTimer := parameters.collectionGranularity
  all := none
  sweep := none
  sweepPrev := none
  gray := []
  heap := .empty

/-- `gc_box.flags.set_color(..)`. -/
def recolor (arena : GcArena) (address : Ptr) (color : GcColor) : GcArena :=
  { arena with heap := arena.heap.recolor address color }

end GcArena

namespace GcArena

/-- `next` is `arena` after marking: colours darken, the gray queue may change, and no other
field does. -/
structure Marks (arena next : GcArena) : Prop where
  shades : arena.heap.Shades next.heap
  rest : next = { arena with heap := next.heap, gray := next.gray }

theorem Marks.refl (arena : GcArena) : arena.Marks arena :=
  ⟨.refl _, rfl⟩

theorem Marks.trans {arena middle next : GcArena} (first : arena.Marks middle)
    (second : middle.Marks next) : arena.Marks next := by
  refine ⟨first.shades.trans second.shades, ?_⟩
  rw [second.rest, first.rest]

theorem Marks.with_gray {arena next : GcArena} (marks : arena.Marks next) (gray : List Ptr) :
    arena.Marks { next with gray } :=
  ⟨marks.shades, by rw [marks.rest]⟩

section Marks

variable {arena next : GcArena} (marks : arena.Marks next)
include marks

theorem Marks.phase : next.phase = arena.phase := by rw [marks.rest]
theorem Marks.all : next.all = arena.all := by rw [marks.rest]
theorem Marks.sweep : next.sweep = arena.sweep := by rw [marks.rest]
theorem Marks.sweepPrev : next.sweepPrev = arena.sweepPrev := by rw [marks.rest]
theorem Marks.totalAllocated : next.totalAllocated = arena.totalAllocated := by rw [marks.rest]
theorem Marks.rememberedSize : next.rememberedSize = arena.rememberedSize := by rw [marks.rest]

end Marks

/-- Recolouring to a colour other than white is a marking step. -/
theorem marks_recolor (arena : GcArena) (address : Ptr) {color : GcColor} (dark : color ≠ .white) :
    arena.Marks (arena.recolor address color) :=
  ⟨arena.heap.shades_recolor address dark, rfl⟩

end GcArena

/-- `GcTracer::trace`: mark one pointer that a `trace` implementation reports. -/
def GcTracer.trace (arena : GcArena) (gc : Ptr) : Except Fault GcArena := do
  let gcBox ← arena.heap.get gc
  match gcBox.flags.color with
  | .black | .darkGray => pure arena
  | .lightGray => pure (arena.recolor gc .darkGray)
  | .white =>
    if gcBox.flags.needsTrace then
      pure { arena.recolor gc .darkGray with gray := gc :: arena.gray }
    else
      pure (arena.recolor gc .black)

/-- `GcObject::trace` of a payload that keeps its contract: it reports every pointer it holds,
or, while blocked, returns false without reporting any. -/
def GcValue.trace (value : GcValue) (arena : GcArena) : Except Fault (Bool × GcArena) :=
  if value.traceBlocked then pure (false, arena)
  else do pure (true, ← value.children.foldlM GcTracer.trace arena)

/-- The tracer only darkens: it marks the arena, and the pointer it was given is live. -/
theorem GcTracer.trace_marks {arena next : GcArena} {gc : Ptr}
    (success : GcTracer.trace arena gc = .ok next) : arena.Marks next ∧ arena.heap.Allocated gc := by
  obtain ⟨gcBox, found, success⟩ := bind_eq_ok.mp success
  rw [Heap.get_eq_ok] at found
  refine ⟨?_, by simp [Heap.Allocated, found]⟩
  revert success
  cases gcBox.flags.color <;> simp only [GcFlags.needsTrace_eq_true, ite_true] <;>
    intro success <;> cases success
  · exact (arena.marks_recolor gc (by decide)).with_gray _
  · exact arena.marks_recolor gc (by decide)
  · exact .refl _
  · exact .refl _

/-- Tracing a list of pointers one after another marks the arena. -/
theorem GcTracer.foldlM_trace_marks {children : List Ptr} {arena next : GcArena}
    (folded : children.foldlM GcTracer.trace arena = .ok next) : arena.Marks next := by
  induction children generalizing arena with
  | nil => cases folded; exact .refl _
  | cons child rest ih =>
    rw [List.foldlM_cons] at folded
    obtain ⟨middle, first, folded⟩ := bind_eq_ok.mp folded
    exact (GcTracer.trace_marks first).1.trans (ih folded)

/-- A trace that returns false changes nothing; one that returns true marks the arena. -/
theorem GcValue.trace_marks {value : GcValue} {arena next : GcArena} {traced : Bool}
    (success : value.trace arena = .ok (traced, next)) :
    traced = !value.traceBlocked ∧ arena.Marks next ∧ (traced = false → next = arena) := by
  unfold GcValue.trace at success
  split at success
  · cases success
    simp_all [GcArena.Marks.refl]
  · obtain ⟨marked, folded, success⟩ := bind_eq_ok.mp success
    cases success
    exact ⟨by simp_all, GcTracer.foldlM_trace_marks folded, by simp⟩

/-- The tracer fails only on a pointer to a freed box. -/
theorem GcTracer.trace_error {arena : GcArena} {gc : Ptr} {fault : Fault}
    (failed : GcTracer.trace arena gc = .error fault) :
    fault = .dangling gc ∧ arena.heap.boxes gc = none := by
  rcases bind_eq_error.mp failed with got | ⟨gcBox, -, failed⟩
  · exact Heap.get_error got
  · revert failed
    cases gcBox.flags.color <;> simp only [GcFlags.needsTrace_eq_true, ite_true] <;>
      intro failed <;> cases failed

theorem GcTracer.foldlM_trace_error {children : List Ptr} {arena : GcArena} {fault : Fault}
    (failed : children.foldlM GcTracer.trace arena = .error fault) :
    ∃ child ∈ children, fault = .dangling child ∧ arena.heap.boxes child = none := by
  induction children generalizing arena with
  | nil => cases failed
  | cons child rest ih =>
    rw [List.foldlM_cons] at failed
    rcases bind_eq_error.mp failed with first | ⟨middle, traced, failed⟩
    · exact ⟨child, List.mem_cons_self _ _, GcTracer.trace_error first⟩
    · obtain ⟨other, member, rfl, gone⟩ := ih failed
      have marks := (GcTracer.trace_marks traced).1
      refine ⟨other, List.mem_cons_of_mem _ member, rfl, ?_⟩
      simpa [Heap.Allocated] using mt marks.shades.allocated_iff.mpr (by simpa [Heap.Allocated])

/-- A payload's trace fails only on one of its pointers to a freed box. -/
theorem GcValue.trace_error {value : GcValue} {arena : GcArena} {fault : Fault}
    (failed : value.trace arena = .error fault) :
    ∃ child ∈ value.children, fault = .dangling child ∧ arena.heap.boxes child = none := by
  unfold GcValue.trace at failed
  split at failed
  · cases failed
  · rcases bind_eq_error.mp failed with folded | ⟨_, -, failed⟩
    · exact GcTracer.foldlM_trace_error folded
    · cases failed

namespace GcArena

/-- `GcArena::root`: pin a cell; a white cell turns light gray at the back of the queue. -/
def root (arena : GcArena) (gc : Ptr) : Except Fault GcArena := do
  let gcBox ← arena.heap.get gc
  let rootCount ← gcBox.rootCount.increment
  let arena := { arena with heap := arena.heap.set gc { gcBox with rootCount } }
  if gcBox.flags.color = .white then
    pure { arena.recolor gc .lightGray with gray := arena.gray ++ [gc] }
  else
    pure arena

/-- `GcArena::write_barrier`: while propagating, a black parent turns dark gray again. -/
def writeBarrier (arena : GcArena) (gc : Ptr) : Except Fault GcArena := do
  let gcBox ← arena.heap.get gc
  if arena.phase = .propagating ∧ gcBox.flags.color = .black then
    pure { arena.recolor gc .darkGray with gray := arena.gray ++ [gc] }
  else
    pure arena

theorem root_eq_ok {arena next : GcArena} {gc : Ptr} (success : arena.root gc = .ok next) :
    ∃ gcBox, arena.heap.boxes gc = some gcBox ∧ gcBox.rootCount.count ≠ usizeMax ∧
      let pinned := { arena with
        heap := arena.heap.set gc { gcBox with rootCount := ⟨gcBox.rootCount.count + 1⟩ } }
      next = if gcBox.flags.color = .white then
        { pinned.recolor gc .lightGray with gray := pinned.gray ++ [gc] } else pinned := by
  obtain ⟨gcBox, found, success⟩ := bind_eq_ok.mp success
  obtain ⟨rootCount, incremented, success⟩ := bind_eq_ok.mp success
  have counted := RootCount.increment_eq_ok incremented
  unfold RootCount.increment at incremented
  refine ⟨gcBox, Heap.get_eq_ok.mp found, by split at incremented <;> simp_all, ?_⟩
  obtain ⟨count⟩ := rootCount
  cases counted
  split at success <;> cases success <;> simp_all

/-- What `root` does to memory: one more pin on the box, and a white box turns light gray. -/
theorem root_heap {arena next : GcArena} {gc : Ptr} (success : arena.root gc = .ok next) :
    ∃ gcBox, arena.heap.boxes gc = some gcBox ∧ gcBox.rootCount.count ≠ usizeMax ∧
      next.heap = arena.heap.set gc { gcBox with
        flags := if gcBox.flags.color = .white then gcBox.flags.setColor .lightGray else gcBox.flags,
        rootCount := ⟨gcBox.rootCount.count + 1⟩ } := by
  obtain ⟨gcBox, found, below, rfl⟩ := root_eq_ok success
  refine ⟨gcBox, found, below, ?_⟩
  by_cases white : gcBox.flags.color = .white
  · simp only [white, ite_true]
    show (arena.heap.set gc _).recolor gc .lightGray = _
    rw [Heap.recolor_of_found (Heap.set_boxes_self _ _ _), Heap.set_set]
  · simp only [white, ite_false]

/-- `root` fails at a freed box, or when the count would pass `usize::MAX`. -/
theorem root_error {arena : GcArena} {gc : Ptr} {fault : Fault} (failed : arena.root gc = .error fault) :
    fault = .dangling gc ∧ arena.heap.boxes gc = none ∨ fault = .panic "overflow on root count" := by
  rcases bind_eq_error.mp failed with got | ⟨gcBox, -, failed⟩
  · exact .inl (Heap.get_error got)
  rcases bind_eq_error.mp failed with overflow | ⟨rootCount, -, failed⟩
  · exact .inr (RootCount.increment_error overflow)
  split at failed <;> cases failed

theorem writeBarrier_error {arena : GcArena} {gc : Ptr} {fault : Fault}
    (failed : arena.writeBarrier gc = .error fault) :
    fault = .dangling gc ∧ arena.heap.boxes gc = none := by
  rcases bind_eq_error.mp failed with got | ⟨gcBox, -, failed⟩
  · exact Heap.get_error got
  split at failed <;> cases failed

theorem writeBarrier_eq_ok {arena next : GcArena} {gc : Ptr}
    (success : arena.writeBarrier gc = .ok next) :
    arena.heap.Allocated gc ∧ arena.Marks next ∧ (arena.phase ≠ .propagating → next = arena) := by
  obtain ⟨gcBox, found, success⟩ := bind_eq_ok.mp success
  refine ⟨by simp_all [Heap.Allocated], ?_⟩
  split at success <;> cases success
  · exact ⟨(arena.marks_recolor gc (by decide)).with_gray _, by simp_all⟩
  · exact ⟨.refl _, fun _ => rfl⟩

end GcArena

/-- `Rgc::clone`. -/
def Rgc.clone (heap : Heap) (gc : Ptr) : Except Fault Heap := do
  let gcBox ← heap.get gc
  let rootCount ← gcBox.rootCount.increment
  pure (heap.set gc { gcBox with rootCount })

/-- `Rgc::drop`: once the arena is gone, the last pin frees the box. -/
def Rgc.drop (heap : Heap) (gc : Ptr) : Except Fault Heap := do
  let gcBox ← heap.get gc
  let gcBox := { gcBox with rootCount := gcBox.rootCount.decrement }
  let heap := heap.set gc gcBox
  if !gcBox.rootCount.isRooted && gcBox.flags.isDetached then heap.free gc else pure heap

theorem Rgc.clone_eq_ok {heap next : Heap} {gc : Ptr} (success : Rgc.clone heap gc = .ok next) :
    ∃ gcBox, heap.boxes gc = some gcBox ∧ gcBox.rootCount.count ≠ usizeMax ∧
      next = heap.set gc { gcBox with rootCount := ⟨gcBox.rootCount.count + 1⟩ } := by
  obtain ⟨gcBox, found, success⟩ := bind_eq_ok.mp success
  obtain ⟨rootCount, incremented, success⟩ := bind_eq_ok.mp success
  have counted := RootCount.increment_eq_ok incremented
  unfold RootCount.increment at incremented
  refine ⟨gcBox, Heap.get_eq_ok.mp found, by split at incremented <;> simp_all, ?_⟩
  obtain ⟨count⟩ := rootCount
  cases counted
  cases success
  rfl

theorem Rgc.clone_error {heap : Heap} {gc : Ptr} {fault : Fault}
    (failed : Rgc.clone heap gc = .error fault) :
    fault = .dangling gc ∧ heap.boxes gc = none ∨ fault = .panic "overflow on root count" := by
  rcases bind_eq_error.mp failed with got | ⟨gcBox, -, failed⟩
  · exact .inl (Heap.get_error got)
  rcases bind_eq_error.mp failed with overflow | ⟨rootCount, -, failed⟩
  · exact .inr (RootCount.increment_error overflow)
  cases failed

/-- Dropping a handle fails only at a freed box: the free that may follow reads the same box. -/
theorem Rgc.drop_error {heap : Heap} {gc : Ptr} {fault : Fault}
    (failed : Rgc.drop heap gc = .error fault) : fault = .dangling gc ∧ heap.boxes gc = none := by
  rcases bind_eq_error.mp failed with got | ⟨gcBox, -, failed⟩
  · exact Heap.get_error got
  dsimp only at failed
  split at failed
  · exact absurd (Heap.free_error failed).2 (by simp)
  · cases failed

/-- The pin is released; the box is freed exactly when it is detached and this was its last pin. -/
theorem Rgc.drop_eq_ok {heap next : Heap} {gc : Ptr} (success : Rgc.drop heap gc = .ok next) :
    ∃ gcBox, heap.boxes gc = some gcBox ∧
      let released := heap.set gc { gcBox with rootCount := gcBox.rootCount.decrement }
      next = if gcBox.rootCount.decrement.count = 0 ∧ gcBox.flags.isDetached = true then
        released.erase gc else released := by
  obtain ⟨gcBox, found, success⟩ := bind_eq_ok.mp success
  refine ⟨gcBox, Heap.get_eq_ok.mp found, ?_⟩
  have condition : (!gcBox.rootCount.decrement.isRooted && gcBox.flags.isDetached) = true ↔
      gcBox.rootCount.decrement.count = 0 ∧ gcBox.flags.isDetached = true := by
    simp [RootCount.isRooted]
  by_cases release : gcBox.rootCount.decrement.count = 0 ∧ gcBox.flags.isDetached = true
  · simp only [if_pos release]
    simp only [if_pos (condition.mpr release)] at success
    exact (Heap.free_eq_ok.mp success).2
  · simp only [if_neg release]
    simp only [if_neg (mt condition.mp release)] at success
    cases success
    rfl

/-- One turn of the walk in `GcArena::drop`: a pinned box is detached and left to its pins,
any other is freed. Returns the memory and the next link. -/
def GcArena.dropStep (heap : Heap) (address : Ptr) : Except Fault (Heap × Option Ptr) := do
  let gcBox ← heap.get address
  if gcBox.rootCount.isRooted then
    pure (heap.set address { gcBox with flags := gcBox.flags.setDetached true }, gcBox.next)
  else
    pure (← heap.free address, gcBox.next)

theorem GcArena.dropStep_eq_ok {heap next : Heap} {address : Ptr} {nextPtr : Option Ptr}
    (success : GcArena.dropStep heap address = .ok (next, nextPtr)) :
    ∃ gcBox, heap.boxes address = some gcBox ∧ nextPtr = gcBox.next ∧
      next = if gcBox.rootCount.isRooted then
        heap.set address { gcBox with flags := gcBox.flags.setDetached true }
      else heap.erase address := by
  obtain ⟨gcBox, found, success⟩ := bind_eq_ok.mp success
  rw [Heap.get_eq_ok] at found
  refine ⟨gcBox, found, ?_⟩
  split at success
  · cases success
    simp_all
  · obtain ⟨freed, erased, success⟩ := bind_eq_ok.mp success
    cases success
    simp_all [(Heap.free_eq_ok.mp erased).2]

/-- A turn of the walk fails only at a freed box. -/
theorem GcArena.dropStep_error {heap : Heap} {address : Ptr} {fault : Fault}
    (failed : GcArena.dropStep heap address = .error fault) :
    fault = .dangling address ∧ heap.boxes address = none := by
  rcases bind_eq_error.mp failed with got | ⟨gcBox, found, failed⟩
  · exact Heap.get_error got
  rw [Heap.get_eq_ok] at found
  split at failed
  · cases failed
  · rcases bind_eq_error.mp failed with freeFailed | ⟨_, -, failed⟩
    · exact absurd (Heap.free_error freeFailed).2 (by simp [found])
    · cases failed

/-- The walk of `GcArena::drop`, bounded by `fuel` turns (`none` when the fuel runs out). -/
def GcArena.dropLoop : ℕ → Heap → Option Ptr → Option (Except Fault Heap)
  | _, heap, none => some (.ok heap)
  | 0, _, some _ => none
  | fuel + 1, heap, some address =>
    match GcArena.dropStep heap address with
    | .error fault => some (.error fault)
    | .ok (heap, next) => GcArena.dropLoop fuel heap next

/-- `impl Drop for GcArena`: what remains of memory once the arena is gone. -/
def GcArena.drop (fuel : ℕ) (arena : GcArena) : Option (Except Fault Heap) :=
  GcArena.dropLoop fuel arena.heap arena.all

end LusterGc
