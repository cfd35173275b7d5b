import LusterGc.Soundness.Traceable
import LusterGc.Machine.Calls

/-! # Pacing: when the collector wakes, and how much a slice does

`GcParameters` paces the collector. A sleeping collector wakes when an allocation takes
`total_allocated` past `wakeup_total`, which the pass that ends a sweep sets a pause above the
bytes then allocated: `pause_factor` times the bytes the sweep kept, and at least `min_sleep`.
While it is awake, each allocation adds its size, and that size over `timing_factor`, to the
allocation debt; once `collection_granularity` bytes have been allocated since the last slice,
`allocate` runs a slice of `do_collection` with the debt as its budget.

`World.Paced` is what every reachable world keeps of this: the granularity timer never passes
the granularity, a sleeping collector lies below its wake-up mark by at most a pause, and outside
`do_collection` a sleeping collector owes no work, so no debt is carried into the next cycle.
From it, along any stretch of a run from a sleeping collector, the collector sleeps throughout
exactly when the host does not call `collect_garbage` and allocates no more than the distance to
the mark; after a sweep that distance is the pause. With a zero `timing_factor` the debt is
unbounded, and under the contract a slice on a heap with no blocked trace runs the cycle to its
end and returns.

`World.SliceKept` is what a running slice keeps: its budget is the debt, which no pass changes.
So the `(allocation_debt - work + work_left).max(0.0)` after the loop leaves no debt, unless the
slice broke off at a queue of blocked boxes, and then exactly the budget it had left.
-/

namespace LusterGc

/-- The fields of `GcArena` that decide when the collector wakes. -/
structure Pacing where
  parameters : GcParameters
  phase : GcPhase
  totalAllocated : ℕ
  rememberedSize : ℕ
  wakeupTotal : ℕ
  granularityTimer : ℕ

/-- The bytes an event allocates. -/
def Event.allocatedBytes : Event → ℕ
  | .allocate request => request.size
  | _ => 0

/-- The bytes a stretch of a run allocates. -/
def allocatedBytes (events : List Event) : ℕ :=
  (events.map Event.allocatedBytes).sum

@[simp] theorem allocatedBytes_nil : allocatedBytes [] = 0 := rfl

@[simp] theorem allocatedBytes_cons (event : Event) (events : List Event) :
    allocatedBytes (event :: events) = event.allocatedBytes + allocatedBytes events := by
  simp [allocatedBytes]

/-- Control is in the loop of `do_collection`. -/
def Control.Collecting : Control → Prop
  | .collecting _ _ _ _ => True
  | _ => False

/-- `(debt - work + work_left).max(0.0)` with the debt as `work`, as when `allocate` runs a
slice: what the slice left unspent, and nothing once the budget is spent or was unbounded. -/
theorem Budget.settle_self {work workLeft : Budget}
    (finite : work = .infinite ∨ ∃ left, workLeft = .bytes left) :
    work.settle work workLeft = .bytes 0 ∨
      workLeft.positive = true ∧ work.settle work workLeft = workLeft := by
  rcases finite with rfl | ⟨left, rfl⟩
  · exact .inl rfl
  cases work with
  | infinite => exact .inl rfl
  | bytes amount =>
    by_cases positive : 0 < left
    · exact .inr ⟨by simp [Budget.positive, positive], by simp [Budget.settle, positive.le]⟩
    · exact .inl (by simp [Budget.settle, not_lt.mp positive])

namespace GcArena

def pacing (arena : GcArena) : Pacing :=
  ⟨arena.parameters, arena.phase, arena.totalAllocated, arena.rememberedSize, arena.wakeupTotal,
    arena.granularityTimer⟩

variable {arena next : GcArena}

theorem Marks.pacing (marks : arena.Marks next) :
    next.pacing = arena.pacing ∧ next.allocationDebt = arena.allocationDebt := by
  rw [marks.rest]
  exact ⟨rfl, rfl⟩

theorem root_pacing {gc : Ptr} (success : arena.root gc = .ok next) :
    next.pacing = arena.pacing ∧ next.allocationDebt = arena.allocationDebt := by
  obtain ⟨gcBox, -, -, rfl⟩ := root_eq_ok success
  split <;> exact ⟨rfl, rfl⟩

@[simp] theorem finishCollection_pacing (arena : GcArena) (work workLeft : Budget) :
    (arena.finishCollection work workLeft).pacing = arena.pacing := by
  obtain ⟨_, finished⟩ := arena.finishCollection_eq work workLeft
  rw [finished]
  rfl

@[simp] theorem allocateFinish_pacing (arena : GcArena) (request : Allocation) :
    (arena.allocateFinish request).1.pacing = arena.pacing := by
  rw [allocateFinish_eq]
  rfl

@[simp] theorem allocateFinish_allocationDebt (arena : GcArena) (request : Allocation) :
    (arena.allocateFinish request).1.allocationDebt = arena.allocationDebt := by
  rw [allocateFinish_eq]

/-- The lines after the loop of `do_collection` clear the debt of a sleeping collector. -/
theorem finishCollection_cleared (sleeping : arena.phase = .sleeping) (work workLeft : Budget) :
    (arena.finishCollection work workLeft).allocationDebt = .bytes 0 := by
  simp [finishCollection, sleeping]

/-- The lines after the loop of `do_collection` settle the debt of an awake collector. -/
theorem finishCollection_settle (awake : arena.phase ≠ .sleeping) (work workLeft : Budget) :
    (arena.finishCollection work workLeft).allocationDebt =
      arena.allocationDebt.settle work workLeft := by
  simp [finishCollection, awake]

/-- A pass of `do_collection` moves neither the granularity timer, nor the parameters, nor the
debt. -/
theorem collectionStep_frame {workLeft : Budget} {blockedGrayCount : ℕ} {pass : Pass}
    (success : arena.collectionStep workLeft blockedGrayCount = .ok pass) :
    pass.arena.granularityTimer = arena.granularityTimer ∧
      pass.arena.parameters = arena.parameters ∧
      pass.arena.allocationDebt = arena.allocationDebt := by
  rcases collectionStep_eq_ok success with ⟨-, rfl⟩ | ⟨-, propagated⟩ | ⟨-, swept⟩
  · exact ⟨rfl, rfl, rfl⟩
  · rcases propagate_eq_ok propagated with ⟨-, next⟩ | ⟨-, next⟩ <;>
      rw [next] <;> exact ⟨rfl, rfl, rfl⟩
  · obtain ⟨-, -, ⟨-, -, next⟩ | ⟨_, _, -, -, ⟨-, -, unlinked, unlinking, -, next⟩ |
      ⟨-, -, next⟩⟩⟩ := sweepStep_eq_ok swept <;> rw [next]
    · exact ⟨rfl, rfl, rfl⟩
    · rcases unlink_eq_ok unlinking with ⟨-, rfl⟩ | ⟨_, _, -, -, rfl⟩ <;> exact ⟨rfl, rfl, rfl⟩
    · split <;> exact ⟨rfl, rfl, rfl⟩

/-- From a sleeping collector, the start of `allocate` counts the bytes and, up to the wake-up
mark, leaves it asleep with no slice to run; past the mark it wakes it. -/
theorem allocateStart_of_sleeping (sleeping : arena.phase = .sleeping) (allocSize : ℕ) :
    arena.totalAllocated + allocSize ≤ arena.wakeupTotal ∧
        arena.allocateStart allocSize =
          ({ arena with totalAllocated := arena.totalAllocated + allocSize }, none) ∨
      arena.wakeupTotal < arena.totalAllocated + allocSize ∧
        (arena.allocateStart allocSize).1.phase = .propagating := by
  unfold allocateStart
  by_cases waking : arena.wakeupTotal < arena.totalAllocated + allocSize
  · refine .inr ⟨waking, ?_⟩
    simp only [sleeping, gt_iff_lt, waking, and_self, ite_true, ne_eq, reduceCtorEq,
      not_false_eq_true]
    split_ifs <;> rfl
  · refine .inl ⟨not_lt.mp waking, ?_⟩
    simp [sleeping, waking]

/-- A collector asleep after the start of `allocate` slept before it, and owes what it owed. -/
theorem allocateStart_asleep {allocSize : ℕ}
    (asleep : (arena.allocateStart allocSize).1.phase = .sleeping) :
    arena.phase = .sleeping ∧
      (arena.allocateStart allocSize).1.allocationDebt = arena.allocationDebt := by
  obtain ⟨phase, _, _, started, woken⟩ := arena.allocateStart_eq allocSize
  have sleeping : arena.phase = .sleeping := by
    rw [started] at asleep
    rcases woken with rfl | ⟨-, rfl⟩
    · exact asleep
    · cases asleep
  rcases allocateStart_of_sleeping sleeping allocSize with ⟨-, same⟩ | ⟨-, awake⟩
  · rw [same]
    exact ⟨sleeping, rfl⟩
  · rw [awake] at asleep
    cases asleep

/-- With a zero `timing_factor` the debt of an awake collector is unbounded: every slice that
`allocate` runs has an infinite budget. -/
theorem allocateStart_unbounded (zero : arena.parameters.timingFactor = 0) {allocSize : ℕ}
    {work : Budget} (sliced : (arena.allocateStart allocSize).2 = some work) : work = .infinite := by
  unfold allocateStart at sliced
  dsimp only at sliced
  split_ifs at sliced <;> simp only [Option.some.injEq, reduceCtorEq] at sliced <;>
    subst sliced <;> cases arena.allocationDebt <;> simp [Budget.addDebt, zero]

/-- The slice `allocate` runs has the debt as its budget. -/
theorem allocateStart_budget {allocSize : ℕ} {work : Budget}
    (sliced : (arena.allocateStart allocSize).2 = some work) :
    (arena.allocateStart allocSize).1.allocationDebt = work := by
  unfold allocateStart at sliced ⊢
  dsimp only at sliced ⊢
  split_ifs at sliced ⊢ <;> simp_all

/-- A pass of `do_collection` spends at most one box's size of its budget. -/
theorem collectionStep_budget {workLeft : Budget} {blockedGrayCount : ℕ} {pass : Pass}
    (success : arena.collectionStep workLeft blockedGrayCount = .ok pass) :
    pass.workLeft = workLeft ∨ ∃ size, pass.workLeft = workLeft.spend size := by
  rcases collectionStep_eq_ok success with ⟨-, rfl⟩ | ⟨-, propagated⟩ | ⟨-, swept⟩
  · exact .inl rfl
  · exact (propagate_budget propagated).1
  · obtain ⟨-, -, ⟨-, spent, -⟩ | ⟨_, _, -, -, ⟨-, spent, -⟩ | ⟨-, spent, -⟩⟩⟩ :=
      sweepStep_eq_ok swept
    exacts [.inl spent, .inr ⟨_, spent⟩, .inl spent]

/-- A pass that leaves the loop of `do_collection` found the collector asleep, or broke off
propagation at a blocked box and spent nothing. -/
theorem collectionStep_stop {workLeft : Budget} {blockedGrayCount : ℕ} {pass : Pass}
    (success : arena.collectionStep workLeft blockedGrayCount = .ok pass) (stop : pass.stop = true) :
    pass.arena.phase = .sleeping ∨
      arena.phase = .propagating ∧ pass.arena.phase = .propagating ∧ pass.workLeft = workLeft := by
  rcases collectionStep_eq_ok success with ⟨sleeping, rfl⟩ | ⟨propagating, propagated⟩ | ⟨-, swept⟩
  · exact .inl sleeping
  · obtain ⟨spent, phase⟩ := (propagate_budget propagated).2 stop
    exact .inr ⟨propagating, phase.trans propagating, spent⟩
  · rw [(sweepStep_eq_ok swept).1] at stop
    cases stop

/-- What pacing keeps of an arena: the granularity timer never passes the granularity, and a
sleeping collector has not passed its wake-up mark, which lies at most a pause above the bytes
allocated. -/
structure Paced (arena : GcArena) : Prop where
  timer_le : arena.granularityTimer ≤ arena.parameters.collectionGranularity
  asleep : arena.phase = .sleeping → arena.totalAllocated ≤ arena.wakeupTotal ∧
    arena.wakeupTotal ≤ arena.totalAllocated + arena.parameters.pauseSize arena.rememberedSize

namespace Paced

theorem of_pacing (paced : arena.Paced) (same : next.pacing = arena.pacing) : next.Paced := by
  simp only [pacing, Pacing.mk.injEq] at same
  obtain ⟨parameters, phase, total, remembered, wakeup, timer⟩ := same
  constructor
  · rw [parameters, timer]
    exact paced.timer_le
  · rw [parameters, phase, total, remembered, wakeup]
    exact paced.asleep

/-- An awake collector that keeps its timer and parameters. -/
theorem of_awake (paced : arena.Paced) (awake : next.phase ≠ .sleeping)
    (timer : next.granularityTimer = arena.granularityTimer)
    (parameters : next.parameters = arena.parameters) : next.Paced where
  timer_le := by
    rw [timer, parameters]
    exact paced.timer_le
  asleep sleeping := absurd sleeping awake

theorem new (parameters : GcParameters) : (GcArena.new parameters).Paced :=
  ⟨le_rfl, fun _ => ⟨Nat.zero_le _, by simp [GcArena.new, GcParameters.pauseSize]⟩⟩

/-- The start of `allocate` wakes a sleeping collector past its mark, and moves the timer only
while the collector is awake, back to zero when a slice runs. -/
theorem allocateStart (paced : arena.Paced) (allocSize : ℕ) :
    (arena.allocateStart allocSize).1.Paced := by
  unfold GcArena.allocateStart
  dsimp only
  obtain ⟨timer, asleep⟩ := paced
  split_ifs <;> constructor <;> simp_all <;> omega

/-- A pass of `do_collection`: the pass that ends the sweep sets the mark a pause above the
bytes allocated, and no other pass puts the collector to sleep or moves the timer. -/
theorem collectionStep (paced : arena.Paced) {workLeft : Budget} {blockedGrayCount : ℕ}
    {pass : Pass} (success : arena.collectionStep workLeft blockedGrayCount = .ok pass) :
    pass.arena.Paced := by
  rcases collectionStep_eq_ok success with ⟨-, rfl⟩ | ⟨-, propagated⟩ | ⟨sweeping, swept⟩
  · exact paced
  · rcases propagate_eq_ok propagated with ⟨-, next⟩ | marks
    · rw [next]
      exact paced.of_awake (by simp) rfl rfl
    · exact paced.of_pacing marks.pacing.1
  · by_cases asleep : pass.arena.phase = .sleeping
    · obtain ⟨-, -, next⟩ := sweepStep_asleep sweeping swept asleep
      rw [next]
      exact ⟨paced.timer_le, fun _ => ⟨Nat.le_add_right _ _, le_rfl⟩⟩
    · have frame := collectionStep_frame success
      exact paced.of_awake asleep frame.1 frame.2.1

end Paced

end GcArena

namespace World

/-- What every reachable world keeps of pacing: the arena is `Paced`, and outside the loop of
`do_collection` a sleeping collector owes no work, so no debt is carried into the next cycle. -/
structure Paced (world : World) : Prop where
  arena : world.arena.Paced
  cleared : ¬world.control.Collecting → world.arena.phase = .sleeping →
    world.arena.allocationDebt = .bytes 0

variable {world next : World}

@[simp] theorem leaveCollection_pacing (caller : Caller) (arena : GcArena) (work workLeft : Budget) :
    (world.leaveCollection caller arena work workLeft).arena.pacing = arena.pacing := by
  cases caller <;> simp [leaveCollection]

namespace Paced

/-- A step that changes neither the pacing fields nor the debt, and does not leave the loop of
`do_collection`. -/
theorem of_frame (paced : world.Paced)
    (same : next.arena.pacing = world.arena.pacing ∧
      next.arena.allocationDebt = world.arena.allocationDebt)
    (control : world.control.Collecting → next.control.Collecting) : next.Paced where
  arena := paced.arena.of_pacing same.1
  cleared notCollecting sleeping := by
    have phase : next.arena.phase = world.arena.phase := congrArg Pacing.phase same.1
    rw [same.2]
    exact paced.cleared (fun collecting => notCollecting (control collecting))
      (phase.symm.trans sleeping)

theorem leaveCollection {caller : Caller} {arena : GcArena} {work workLeft : Budget}
    (paced : arena.Paced) : (world.leaveCollection caller arena work workLeft).Paced := by
  refine ⟨paced.of_pacing (by simp), fun _ sleeping => ?_⟩
  rw [leaveCollection_phase] at sleeping
  cases caller <;> simp [World.leaveCollection, GcArena.finishCollection_cleared sleeping]

end Paced

/-- Every step keeps pacing. -/
theorem Step.paced {event : Event} (paced : world.Paced) (step : world.Step event next) :
    next.Paced := by
  cases event with
  | allocate request =>
    obtain ⟨idle, -, ⟨none, rfl⟩ | ⟨work, -, rfl⟩⟩ := Step.allocate_eq step
    · refine ⟨(paced.arena.allocateStart request.size).of_pacing (by simp), fun _ sleeping => ?_⟩
      rw [GcArena.allocateFinish_phase] at sleeping
      obtain ⟨asleep, same⟩ := GcArena.allocateStart_asleep sleeping
      rw [GcArena.allocateFinish_allocationDebt, same]
      exact paced.cleared (by simp [idle, Control.Collecting]) asleep
    · exact ⟨paced.arena.allocateStart _, fun notCollecting => absurd trivial notCollecting⟩
  | root gc =>
    obtain ⟨-, -, arena, success, rfl⟩ := Step.root_eq step
    exact paced.of_frame (GcArena.root_pacing success) id
  | writeBarrier gc =>
    obtain ⟨-, -, arena, success, rfl⟩ := Step.writeBarrier_eq step
    exact paced.of_frame (GcArena.writeBarrier_eq_ok success).2.1.pacing id
  | collectGarbage =>
    obtain ⟨-, -, rfl⟩ := Step.collectGarbage_eq step
    obtain ⟨phase, started, woken⟩ := world.arena.startCycle_eq
    refine ⟨?_, fun notCollecting => absurd trivial notCollecting⟩
    show world.arena.startCycle.Paced
    rw [started]
    rcases woken with rfl | ⟨-, rfl⟩
    · exact paced.arena
    · exact paced.arena.of_awake (by simp) rfl rfl
  | cloneRgc gc =>
    obtain ⟨-, -, heap, -, rfl⟩ := Step.cloneRgc_eq step
    exact paced.of_frame ⟨rfl, rfl⟩ id
  | dropRgc gc =>
    obtain ⟨-, -, heap, -, rfl⟩ := Step.dropRgc_eq step
    exact paced.of_frame ⟨rfl, rfl⟩ id
  | mutate gc value =>
    obtain ⟨-, gcBox, -, rfl⟩ := Step.mutate_eq step
    exact paced.of_frame ⟨rfl, rfl⟩ id
  | dropArena =>
    obtain ⟨idle, -, rfl⟩ := Step.dropArena_eq step
    exact paced.of_frame ⟨rfl, rfl⟩ fun collecting => by simp [idle, Control.Collecting] at collecting
  | resume =>
    rcases Step.resume_eq step with
      ⟨caller, work, workLeft, blockedGrayCount, -, ⟨-, pass, success, rfl⟩ | ⟨-, rfl⟩⟩ |
      ⟨address, heap, nextPtr, dropping, -, rfl⟩
    · have passed := paced.arena.collectionStep success
      split
      · exact Paced.leaveCollection passed
      · exact ⟨passed, fun notCollecting => absurd trivial notCollecting⟩
    · exact Paced.leaveCollection paced.arena
    · exact paced.of_frame ⟨rfl, rfl⟩ fun collecting => by
        simp [dropping, Control.Collecting] at collecting

/-- From a sleeping collector, `collect_garbage` wakes it, and so does an allocation past the
wake-up mark; every other step leaves it asleep, counts the bytes it allocates, and keeps the
mark. -/
theorem Step.of_sleeping {event : Event} (paced : world.arena.Paced)
    (sleeping : world.arena.phase = .sleeping) (step : world.Step event next) :
    (event = .collectGarbage ∨
        world.arena.wakeupTotal < world.arena.totalAllocated + event.allocatedBytes) ∧
      next.arena.phase = .propagating ∨
    event ≠ .collectGarbage ∧
      world.arena.totalAllocated + event.allocatedBytes ≤ world.arena.wakeupTotal ∧
      next.arena.phase = .sleeping ∧
      next.arena.totalAllocated = world.arena.totalAllocated + event.allocatedBytes ∧
      next.arena.wakeupTotal = world.arena.wakeupTotal := by
  have kept : next.arena.pacing = world.arena.pacing → event.allocatedBytes = 0 →
      world.arena.totalAllocated + event.allocatedBytes ≤ world.arena.wakeupTotal ∧
        next.arena.phase = .sleeping ∧
        next.arena.totalAllocated = world.arena.totalAllocated + event.allocatedBytes ∧
        next.arena.wakeupTotal = world.arena.wakeupTotal := fun same none => by
    simp only [GcArena.pacing, Pacing.mk.injEq] at same
    rw [none]
    exact ⟨(paced.asleep sleeping).1, same.2.1.trans sleeping, same.2.2.1, same.2.2.2.2.1⟩
  cases event with
  | allocate request =>
    obtain ⟨-, -, outcome⟩ := Step.allocate_eq step
    rcases GcArena.allocateStart_of_sleeping sleeping request.size with
      ⟨below, started⟩ | ⟨above, woken⟩
    · rw [started] at outcome
      rcases outcome with ⟨-, rfl⟩ | ⟨_, none, -⟩
      · have same := GcArena.allocateFinish_pacing
          { world.arena with totalAllocated := world.arena.totalAllocated + request.size } request
        exact .inr ⟨by simp, below, by simp [sleeping], congrArg Pacing.totalAllocated same,
          congrArg Pacing.wakeupTotal same⟩
      · cases none
    · refine .inl ⟨.inr above, ?_⟩
      rcases outcome with ⟨-, rfl⟩ | ⟨_, -, rfl⟩
      · simpa using woken
      · exact woken
  | collectGarbage =>
    obtain ⟨-, -, rfl⟩ := Step.collectGarbage_eq step
    exact .inl ⟨.inl rfl, by simp [GcArena.startCycle, sleeping]⟩
  | root gc =>
    obtain ⟨-, -, arena, success, rfl⟩ := Step.root_eq step
    exact .inr ⟨by simp, kept (GcArena.root_pacing success).1 rfl⟩
  | writeBarrier gc =>
    obtain ⟨-, -, arena, success, rfl⟩ := Step.writeBarrier_eq step
    exact .inr ⟨by simp, kept (GcArena.writeBarrier_eq_ok success).2.1.pacing.1 rfl⟩
  | cloneRgc gc =>
    obtain ⟨-, -, heap, -, rfl⟩ := Step.cloneRgc_eq step
    exact .inr ⟨by simp, kept rfl rfl⟩
  | dropRgc gc =>
    obtain ⟨-, -, heap, -, rfl⟩ := Step.dropRgc_eq step
    exact .inr ⟨by simp, kept rfl rfl⟩
  | mutate gc value =>
    obtain ⟨-, gcBox, -, rfl⟩ := Step.mutate_eq step
    exact .inr ⟨by simp, kept rfl rfl⟩
  | dropArena =>
    obtain ⟨-, -, rfl⟩ := Step.dropArena_eq step
    exact .inr ⟨by simp, kept rfl rfl⟩
  | resume =>
    rcases Step.resume_eq step with
      ⟨caller, work, workLeft, blockedGrayCount, -, ⟨-, pass, success, rfl⟩ | ⟨-, rfl⟩⟩ |
      ⟨address, heap, nextPtr, -, -, rfl⟩
    · rcases GcArena.collectionStep_eq_ok success with
        ⟨-, rfl⟩ | ⟨propagating, -⟩ | ⟨sweeping, -⟩
      · exact .inr ⟨by simp, kept (by simp) rfl⟩
      · exact nomatch sleeping.symm.trans propagating
      · exact nomatch sleeping.symm.trans sweeping
    · exact .inr ⟨by simp, kept (by simp) rfl⟩
    · exact .inr ⟨by simp, kept rfl rfl⟩

end World

/-- Every reachable world keeps pacing. -/
theorem Reachable.paced {world : World} (reachable : Reachable world) : world.Paced :=
  Reachable.induction World.Paced (fun parameters => ⟨GcArena.Paced.new parameters, fun _ _ => rfl⟩)
    (fun _ paced step => step.paced paced) reachable

/-- Between host calls the granularity timer has not passed the granularity, and a sleeping
collector has not passed its wake-up mark and owes no work: no debt is carried into the next
cycle. -/
theorem Reachable.idle_paced {world : World} (reachable : Reachable world)
    (idle : world.control = .idle) :
    world.arena.granularityTimer ≤ world.arena.parameters.collectionGranularity ∧
      (world.arena.phase = .sleeping → world.arena.totalAllocated ≤ world.arena.wakeupTotal ∧
        world.arena.allocationDebt = .bytes 0) := by
  have paced := reachable.paced
  refine ⟨paced.arena.timer_le, fun sleeping => ⟨(paced.arena.asleep sleeping).1, ?_⟩⟩
  exact paced.cleared (by simp [idle, Control.Collecting]) sleeping

/-- A slice that stops in the middle of a sweep: a pinned box, two unpinned ones, and an
allocation that wakes the collector with the budget to sweep the newer two only. -/
private def midSweepRun : List Event :=
  [.allocate ⟨32, by decide, true, {}⟩, .root 0, .allocate ⟨3000, by decide, true, {}⟩,
    .allocate ⟨32, by decide, true, {}⟩, .allocate ⟨1100, by decide, true, {}⟩, .resume, .resume,
    .resume, .resume, .resume]

/-- A pinned box and a box it points at, the arena dropped with the pin held and its walk run to
the end. -/
private def droppedRun : List Event :=
  [.allocate ⟨32, by decide, true, {}⟩, .allocate ⟨32, by decide, true, ⟨[0], false⟩⟩, .root 1,
    .dropArena, .resume, .resume]

theorem Reachable.idle_paced_midSweep :
    (∃ world, Reachable world ∧ world.control = .idle ∧ world.arena.phase = .sweeping ∧
      world.arena.sweep = some 0 ∧
      world.arena.granularityTimer ≤ world.arena.parameters.collectionGranularity ∧
      (world.arena.phase = .sleeping → world.arena.totalAllocated ≤ world.arena.wakeupTotal ∧
        world.arena.allocationDebt = .bytes 0)) ∧
    (∃ world, Reachable world ∧ world.control = .idle ∧ world.dropped = true ∧
      world.pins = [1] ∧ world.arena.phase = .sleeping ∧
      world.arena.granularityTimer ≤ world.arena.parameters.collectionGranularity ∧
      (world.arena.phase = .sleeping → world.arena.totalAllocated ≤ world.arena.wakeupTotal ∧
        world.arena.allocationDebt = .bytes 0)) := by
  obtain ⟨first, path, idle, sweeping, cursor⟩ := World.exists_path_of_runSatisfies
    (show (World.initial .default).runSatisfies midSweepRun (fun world =>
      world.control = .idle ∧ world.arena.phase = .sweeping ∧ world.arena.sweep = some 0) = true by
      with_unfolding_all decide)
  obtain ⟨second, path', idle', dropped, pins, sleeping⟩ := World.exists_path_of_runSatisfies
    (show (World.initial .default).runSatisfies droppedRun (fun world => world.control = .idle ∧
      world.dropped = true ∧ world.pins = [1] ∧ world.arena.phase = .sleeping) = true by decide)
  exact ⟨⟨first, ⟨_, _, path⟩, idle, sweeping, cursor, Reachable.idle_paced ⟨_, _, path⟩ idle⟩,
    ⟨second, ⟨_, _, path'⟩, idle', dropped, pins, sleeping, Reachable.idle_paced ⟨_, _, path'⟩ idle'⟩⟩

/-- A stretch of a run along which the collector sleeps in every world. -/
inductive AsleepPath : World → List Event → World → Prop
  | nil {world : World} : world.arena.phase = .sleeping → AsleepPath world [] world
  | cons {world next final : World} {event : Event} {events : List Event} :
      world.arena.phase = .sleeping → world.Step event next → AsleepPath next events final →
      AsleepPath world (event :: events) final

namespace AsleepPath

variable {world final : World} {events : List Event}

theorem sleeping : AsleepPath world events final → world.arena.phase = .sleeping
  | .nil sleeping => sleeping
  | .cons sleeping _ _ => sleeping

theorem final_sleeping (asleep : AsleepPath world events final) :
    final.arena.phase = .sleeping := by
  induction asleep with
  | nil sleeping => exact sleeping
  | cons _ _ _ ih => exact ih

theorem path (asleep : AsleepPath world events final) : Path world events final := by
  induction asleep with
  | nil => exact .nil _
  | cons _ step _ ih => exact .cons step ih

/-- While the collector sleeps the host never calls `collect_garbage`, `total_allocated` grows
by exactly the bytes allocated, and the wake-up mark stays. -/
theorem frame (reachable : Reachable world) (asleep : AsleepPath world events final) :
    final.arena.totalAllocated = world.arena.totalAllocated + allocatedBytes events ∧
      final.arena.wakeupTotal = world.arena.wakeupTotal ∧ .collectGarbage ∉ events := by
  induction asleep with
  | nil => exact ⟨rfl, rfl, List.not_mem_nil _⟩
  | cons sleeping step rest ih =>
    rcases step.of_sleeping reachable.paced.arena sleeping with
      ⟨-, woken⟩ | ⟨other, -, -, total, wakeup⟩
    · rw [rest.sleeping] at woken
      cases woken
    · obtain ⟨total', wakeup', noCollect⟩ := ih (reachable.step step)
      refine ⟨by rw [total', total, allocatedBytes_cons]; omega, wakeup'.trans wakeup, ?_⟩
      exact fun member => (List.mem_cons.mp member).elim (fun same => other same.symm) noCollect

end AsleepPath

namespace Path

variable {world final : World} {events : List Event}

/-- A stretch from a sleeping collector with no `collect_garbage`, allocating no more than the
distance to the wake-up mark, leaves the collector asleep throughout. -/
theorem asleep (reachable : Reachable world) (sleeping : world.arena.phase = .sleeping)
    (path : Path world events final) (noCollect : .collectGarbage ∉ events)
    (below : world.arena.totalAllocated + allocatedBytes events ≤ world.arena.wakeupTotal) :
    AsleepPath world events final := by
  induction path with
  | nil => exact .nil sleeping
  | cons step rest ih =>
    rw [List.mem_cons, not_or] at noCollect
    rw [allocatedBytes_cons] at below
    rcases step.of_sleeping reachable.paced.arena sleeping with
      ⟨woken | above, -⟩ | ⟨-, -, asleep, total, wakeup⟩
    · exact absurd woken.symm noCollect.1
    · omega
    · refine .cons sleeping step (ih (reachable.step step) asleep noCollect.2 ?_)
      rw [total, wakeup]
      omega

/-- From a sleeping collector, a stretch of the run keeps it asleep throughout exactly when the
host does not call `collect_garbage` and allocates no more than the distance to the wake-up
mark. -/
theorem asleep_iff (reachable : Reachable world) (sleeping : world.arena.phase = .sleeping)
    (path : Path world events final) :
    AsleepPath world events final ↔ .collectGarbage ∉ events ∧
      world.arena.totalAllocated + allocatedBytes events ≤ world.arena.wakeupTotal := by
  refine ⟨fun asleep => ?_, fun ⟨noCollect, below⟩ => path.asleep reachable sleeping noCollect below⟩
  obtain ⟨total, wakeup, noCollect⟩ := asleep.frame reachable
  have below := ((reachable.path path).paced.arena.asleep asleep.final_sleeping).1
  exact ⟨noCollect, by omega⟩

/-- One allocation from a fresh arena. -/
private def oneAllocation : List Event :=
  [.allocate ⟨32, by decide, true, {}⟩]

/-- A collection that an allocation wakes, run to its end by the slice. -/
private def collectedRun : List Event :=
  [.allocate ⟨32, by decide, true, {}⟩, .root 0, .allocate ⟨5000, by decide, true, {}⟩, .resume,
    .resume, .resume, .resume, .resume]

/-- An allocation past the wake-up mark that collection set. -/
private def wakingAllocation : List Event :=
  [.allocate ⟨5000, by decide, true, {}⟩]

theorem asleep_iff_allocation :
    (∃ final, Reachable (World.initial .default) ∧
      (World.initial .default).arena.phase = .sleeping ∧
      Path (World.initial .default) oneAllocation final ∧
      (AsleepPath (World.initial .default) oneAllocation final ↔
        .collectGarbage ∉ oneAllocation ∧ (World.initial .default).arena.totalAllocated +
          allocatedBytes oneAllocation ≤ (World.initial .default).arena.wakeupTotal)) ∧
    ∃ world final, Reachable world ∧ world.arena.phase = .sleeping ∧
      world.arena.totalAllocated = 5032 ∧ Path world wakingAllocation final ∧
      final.arena.phase ≠ .sleeping ∧
      (AsleepPath world wakingAllocation final ↔ .collectGarbage ∉ wakingAllocation ∧
        world.arena.totalAllocated + allocatedBytes wakingAllocation ≤ world.arena.wakeupTotal) := by
  obtain ⟨final, path, -⟩ := World.exists_path_of_runSatisfies
    (show (World.initial .default).runSatisfies oneAllocation (fun _ => True) = true by decide)
  obtain ⟨world, collected, sleeping, total, waking⟩ := World.exists_path_of_runSatisfies
    (show (World.initial .default).runSatisfies collectedRun (fun world =>
      world.arena.phase = .sleeping ∧ world.arena.totalAllocated = 5032 ∧
        world.runSatisfies wakingAllocation (fun final => final.arena.phase ≠ .sleeping) = true) =
        true by with_unfolding_all decide)
  obtain ⟨woken, path', awake⟩ := World.exists_path_of_runSatisfies waking
  have reachable : Reachable world := ⟨_, _, collected⟩
  exact ⟨⟨final, .initial _, rfl, path, asleep_iff (.initial _) rfl path⟩,
    world, woken, reachable, sleeping, total, path', awake, asleep_iff reachable sleeping path'⟩

end Path

namespace World

variable {world next final : World} {events : List Event}

/-- After the pass that ends a sweep, a stretch of the run keeps the collector asleep exactly
when the host does not call `collect_garbage` and allocates no more than the pause: the
collector sleeps through `pause_size(remembered_size)` bytes of allocation, no fewer and no
more. -/
theorem Step.asleep_iff_pauseSize (reachable : Reachable world)
    (sweeping : world.arena.phase = .sweeping) (step : world.Step .resume next)
    (asleep : next.arena.phase = .sleeping) (path : Path next events final) :
    AsleepPath next events final ↔ .collectGarbage ∉ events ∧
      allocatedBytes events ≤ next.arena.parameters.pauseSize next.arena.rememberedSize := by
  obtain ⟨-, same⟩ := step.endSweep sweeping asleep
  have mark : next.arena.wakeupTotal =
      next.arena.totalAllocated + next.arena.parameters.pauseSize next.arena.rememberedSize := by
    rw [same]
  have reached := reachable.step step
  refine ⟨fun sleeps => ?_, fun ⟨noCollect, few⟩ =>
    path.asleep reached asleep noCollect (by omega)⟩
  obtain ⟨total, wakeup, noCollect⟩ := sleeps.frame reached
  have below := ((reached.path path).paced.arena.asleep sleeps.final_sleeping).1
  exact ⟨noCollect, by omega⟩

/-- A cycle run by `collect_garbage` on a box nothing points at, up to the pass that ends its
sweep. -/
private def fallAsleepRun : List Event :=
  [.allocate ⟨32, by decide, true, {}⟩, .collectGarbage, .resume, .resume]

/-- The rest of that call, then one more allocation. -/
private def afterSweep : List Event :=
  [.resume, .allocate ⟨32, by decide, true, {}⟩]

theorem Step.asleep_iff_pauseSize_collected :
    ∃ world next final, Reachable world ∧ world.arena.phase = .sweeping ∧
      world.Step .resume next ∧ next.arena.phase = .sleeping ∧ Path next afterSweep final ∧
      (AsleepPath next afterSweep final ↔ .collectGarbage ∉ afterSweep ∧
        allocatedBytes afterSweep ≤ next.arena.parameters.pauseSize next.arena.rememberedSize) := by
  obtain ⟨world, path, sweeping, ending⟩ := exists_path_of_runSatisfies
    (show (World.initial .default).runSatisfies fallAsleepRun (fun world =>
      world.arena.phase = .sweeping ∧ world.runSatisfies [.resume] (fun next =>
        next.arena.phase = .sleeping ∧ next.runSatisfies afterSweep (fun _ => True) = true) = true)
      = true by decide)
  obtain ⟨next, resumed, asleep, later⟩ := exists_path_of_runSatisfies ending
  obtain ⟨final, rest, -⟩ := exists_path_of_runSatisfies later
  have reachable := (Reachable.initial _).path path
  exact ⟨world, next, final, reachable, sweeping, resumed.step_of_single, asleep, rest,
    Step.asleep_iff_pauseSize reachable sweeping resumed.step_of_single asleep rest⟩

end World

/-- With a zero `timing_factor`, on a heap with no blocked trace, every slice that `allocate`
runs leaves its loop, and a value it returns is asleep. -/
theorem allocate_stopTheWorld_terminates {world : World} (reachable : Reachable world)
    (alive : world.dropped = false)
    (unblocked : world.arena.heap.Every fun gcBox => gcBox.value.traceBlocked = false)
    (stopTheWorld : world.arena.parameters.timingFactor = 0) {request : Allocation}
    (sliced : (world.arena.allocateStart request.size).2.isSome) :
    ∃ fuel, (world.arena.allocate fuel request).isSome ∧ ∀ arena gc,
      world.arena.allocate fuel request = some (.ok (arena, gc)) → arena.phase = .sleeping := by
  obtain ⟨cells, live⟩ := reachable.invariant.live alive
  have started := live.shape.of_allocateStart request.size
  have heap := world.arena.allocateStart_heap request.size
  obtain ⟨work, budget⟩ := Option.isSome_iff_exists.mp sliced
  have infinite := GcArena.allocateStart_unbounded stopTheWorld budget
  unfold GcArena.allocate
  rcases split : world.arena.allocateStart request.size with ⟨arena, _ | work⟩
  · rw [split] at budget
    cases budget
  · rw [split] at budget started heap
    cases budget
    subst infinite
    have returns := GcArena.returns_of_listShape started (heap ▸ unblocked) .infinite 0
    refine ⟨_, by simpa [GcArena.doCollection] using returns.1, fun final gc returned => ?_⟩
    simp only [GcArena.doCollection, Option.map_map, Option.map_eq_some'] at returned
    obtain ⟨result, looped, finished⟩ := returned
    cases result with
    | error fault => cases finished
    | ok result =>
      simp only [Function.comp, Except.map, Except.ok.injEq] at finished
      have same : ((result.1.finishCollection .infinite result.2).allocateFinish request).1 = final :=
        congrArg Prod.fst finished
      rw [← same]
      simpa using returns.2 rfl result looped

/-- With a zero `timing_factor` the collector stops the world: under the contract, on a heap with
no blocked trace, an `allocate` that starts a slice of collection returns, and the arena it
returns is asleep, the whole cycle run. -/
theorem allocate_stopTheWorld {world : World} {ghost : Ghost} (run : ContractRun world ghost)
    (idle : world.control = .idle) (alive : world.dropped = false) (paid : ghost.owed = [])
    (unblocked : world.arena.heap.Every fun gcBox => gcBox.value.traceBlocked = false)
    (stopTheWorld : world.arena.parameters.timingFactor = 0) {request : Allocation}
    (children : ∀ child ∈ request.value.children, world.arena.heap.Reaches child)
    (sliced : (world.arena.allocateStart request.size).2.isSome) :
    ∃ fuel arena gc, world.arena.allocate fuel request = some (.ok (arena, gc)) ∧
      arena.phase = .sleeping := by
  obtain ⟨fuel, returned, asleep⟩ :=
    allocate_stopTheWorld_terminates run.reachable alive unblocked stopTheWorld sliced
  obtain ⟨⟨arena, gc⟩, returned⟩ :=
    exists_ok_of_isSome returned (run.allocate_ok idle alive paid children fuel)
  exact ⟨fuel, arena, gc, returned, asleep arena gc returned⟩

/-- Stop-the-world parameters: a pinned box pointing at another, and an unpinned box. -/
private def stopTheWorldRun : List Event :=
  [.allocate ⟨32, by decide, true, {}⟩, .allocate ⟨32, by decide, true, ⟨[0], false⟩⟩, .root 1,
    .allocate ⟨32, by decide, true, {}⟩]

theorem allocate_stopTheWorld_pinned :
    ∃ world ghost, ContractRun world ghost ∧ world.control = .idle ∧ world.dropped = false ∧
      ghost.owed = [] ∧ (world.arena.heap.Every fun gcBox => gcBox.value.traceBlocked = false) ∧
      world.arena.parameters.timingFactor = 0 ∧ world.arena.heap.Reaches 1 ∧
      (world.arena.allocateStart 5000).2.isSome ∧ ∃ fuel arena gc,
        world.arena.allocate fuel ⟨5000, by decide, true, ⟨[1], false⟩⟩ = some (.ok (arena, gc)) ∧
        arena.phase = .sleeping := by
  obtain ⟨world, ghost, run, idle, alive, paid, stopTheWorld, pinned, sliced, below⟩ :
      ∃ world ghost, ContractRun world ghost ∧ world.control = .idle ∧ world.dropped = false ∧
        ghost.owed = [] ∧ world.arena.parameters.timingFactor = 0 ∧ world.pinnedBy 1 = true ∧
        (world.arena.allocateStart 5000).2.isSome ∧
        ∀ address < world.arena.heap.fresh, ∀ gcBox ∈ world.arena.heap.boxes address,
          gcBox.value.traceBlocked = false :=
    @ContractRun.exists_of_contractSatisfies _ _ stopTheWorldRun (fun world ghost => _) _
      (.initial { GcParameters.default with timingFactor := 0 }) (by decide)
  have unblocked := run.reachable.every_of_below alive below
  have reaches := World.reaches_of_pinnedBy pinned
  exact ⟨world, ghost, run, idle, alive, paid, unblocked, stopTheWorld, reaches, sliced,
    allocate_stopTheWorld run idle alive paid unblocked stopTheWorld
      (fun child member => List.mem_singleton.mp member ▸ reaches) sliced⟩

namespace World

variable {world next : World}

/-- What a slice of `do_collection` keeps while it runs: called from `allocate`, its budget is
the debt, which no pass changes; a finite budget stays finite; and while propagating, the
entries the loop has counted as blocked are blocked. -/
def SliceKept (world : World) : Prop :=
  ∀ caller work workLeft blockedGrayCount,
    world.control = .collecting caller work workLeft blockedGrayCount →
      (∀ request, caller = .allocate request → world.arena.allocationDebt = work) ∧
      (work = .infinite ∨ ∃ left, workLeft = .bytes left) ∧
      (world.arena.phase = .propagating → world.arena.BlockedSince blockedGrayCount)

theorem sliceKept_of_not_collecting (idle : ¬world.control.Collecting) : world.SliceKept :=
  fun _ _ _ _ collecting => absurd (by rw [collecting]; trivial) idle

/-- Every step keeps what a running slice keeps. -/
theorem Step.sliceKept {event : Event} (kept : world.SliceKept) (step : world.Step event next) :
    next.SliceKept := by
  cases event with
  | allocate request =>
    obtain ⟨idle, -, ⟨-, rfl⟩ | ⟨work, sliced, rfl⟩⟩ := Step.allocate_eq step
    · exact sliceKept_of_not_collecting (by simp [idle, Control.Collecting])
    · intro caller work' workLeft blockedGrayCount collecting
      obtain ⟨rfl, rfl, rfl, rfl⟩ := Control.collecting.inj collecting
      refine ⟨fun _ _ => GcArena.allocateStart_budget sliced, ?_,
        fun _ => GcArena.blockedSince_zero _⟩
      cases work with
      | bytes amount => exact .inr ⟨amount, rfl⟩
      | infinite => exact .inl rfl
  | collectGarbage =>
    obtain ⟨-, -, rfl⟩ := Step.collectGarbage_eq step
    intro caller work workLeft blockedGrayCount collecting
    obtain ⟨rfl, rfl, rfl, rfl⟩ := Control.collecting.inj collecting
    exact ⟨fun _ same => (by cases same), .inl rfl, fun _ => GcArena.blockedSince_zero _⟩
  | resume =>
    rcases Step.resume_eq step with
      ⟨caller, work, workLeft, blockedGrayCount, collecting, ⟨-, pass, success, rfl⟩ | ⟨-, rfl⟩⟩ |
      ⟨address, heap, nextPtr, -, -, rfl⟩
    · split
      · exact sliceKept_of_not_collecting (by simp [leaveCollection_control, Control.Collecting])
      · rename_i going
        obtain ⟨debt, finite, since⟩ := kept _ _ _ _ collecting
        have debt' := (GcArena.collectionStep_frame success).2.2
        have spent := GcArena.collectionStep_budget success
        intro caller' work' workLeft' blockedGrayCount' collecting'
        obtain ⟨rfl, rfl, rfl, rfl⟩ := Control.collecting.inj collecting'
        refine ⟨fun request same => debt'.trans (debt request same), ?_, fun propagating => ?_⟩
        · rcases finite with infinite | ⟨left, rfl⟩
          · exact .inl infinite
          · rcases spent with same | ⟨size, same⟩ <;> rw [same]
            exacts [.inr ⟨left, rfl⟩, .inr ⟨_, rfl⟩]
        · rcases GcArena.collectionStep_eq_ok success with
            ⟨-, rfl⟩ | ⟨propagating', propagated⟩ | ⟨sweeping, swept⟩
          · exact absurd rfl going
          · exact ((since propagating').of_propagate propagated).1
          · exact absurd propagating (GcArena.sweepStep_not_propagating sweeping swept)
    · exact sliceKept_of_not_collecting (by simp [leaveCollection_control, Control.Collecting])
    · exact sliceKept_of_not_collecting (by cases nextPtr <;> simp [Control.Collecting])
  | root gc =>
    obtain ⟨idle, -, arena, -, rfl⟩ := Step.root_eq step
    exact sliceKept_of_not_collecting (by simp [idle, Control.Collecting])
  | writeBarrier gc =>
    obtain ⟨idle, -, arena, -, rfl⟩ := Step.writeBarrier_eq step
    exact sliceKept_of_not_collecting (by simp [idle, Control.Collecting])
  | cloneRgc gc =>
    obtain ⟨idle, -, heap, -, rfl⟩ := Step.cloneRgc_eq step
    exact sliceKept_of_not_collecting (by simp [idle, World.withHeap, Control.Collecting])
  | dropRgc gc =>
    obtain ⟨idle, -, heap, -, rfl⟩ := Step.dropRgc_eq step
    exact sliceKept_of_not_collecting (by simp [idle, World.withHeap, Control.Collecting])
  | mutate gc value =>
    obtain ⟨idle, gcBox, -, rfl⟩ := Step.mutate_eq step
    exact sliceKept_of_not_collecting (by simp [idle, World.withHeap, Control.Collecting])
  | dropArena =>
    obtain ⟨-, -, rfl⟩ := Step.dropArena_eq step
    exact sliceKept_of_not_collecting (by cases world.arena.all <;> simp [Control.Collecting])

end World

theorem Reachable.sliceKept {world : World} (reachable : Reachable world) : world.SliceKept :=
  Reachable.induction World.SliceKept
    (fun _ => World.sliceKept_of_not_collecting (by simp [World.initial, Control.Collecting]))
    (fun _ kept step => step.sliceKept kept) reachable

/-- A box that is there keeps its payload when `allocate` links a new box. -/
theorem GcArena.allocateFinish_blocked {arena : GcArena}
    (unused : arena.heap.boxes arena.heap.fresh = none) {address : Ptr}
    (blocked : arena.heap.Blocked address) (request : Allocation) :
    (arena.allocateFinish request).1.heap.Blocked address := by
  obtain ⟨gcBox, found, traceBlocked⟩ := blocked
  have other : address ≠ arena.heap.fresh := fun same => by
    rw [same, unused] at found
    cases found
  exact ⟨gcBox, by simp [allocateFinish_eq, other, found], traceBlocked⟩

namespace World

variable {world next : World}

/-- The debt a slice of `allocate` leaves when it returns: none, unless the slice broke off
propagation at a queue of blocked boxes, and then exactly the budget it had left. -/
theorem Step.slice_debt (reachable : Reachable world) {request : Allocation}
    {work workLeft : Budget} {blockedGrayCount : ℕ}
    (collecting : world.control = .collecting (.allocate request) work workLeft blockedGrayCount)
    (step : world.Step .resume next) (returned : next.control = .idle) :
    next.arena.allocationDebt = .bytes 0 ∨
      next.arena.phase = .propagating ∧
        (∀ address ∈ next.arena.gray, next.arena.heap.Blocked address) ∧
        next.arena.allocationDebt = workLeft := by
  obtain ⟨debt, finite, since⟩ := reachable.sliceKept _ _ _ _ collecting
  obtain ⟨cells, live⟩ :=
    reachable.invariant.live (reachable.invariant.alive_of_collecting collecting)
  rcases Step.resume_eq step with
    ⟨caller, work', workLeft', blockedGrayCount', collecting', ⟨-, pass, success, rfl⟩ |
      ⟨spent, rfl⟩⟩ | ⟨_, _, _, dropping, -, -⟩
  · obtain ⟨rfl, rfl, rfl, rfl⟩ := Control.collecting.inj (collecting.symm.trans collecting')
    by_cases stop : pass.stop = true
    · simp only [stop, ite_true, World.leaveCollection, GcArena.allocateFinish_allocationDebt]
      rcases GcArena.collectionStep_stop success stop with asleep | ⟨propagating, stays, same⟩
      · exact .inl (GcArena.finishCollection_cleared asleep _ _)
      have awake : pass.arena.phase ≠ .sleeping := by
        rw [stays]
        decide
      rw [GcArena.finishCollection_settle awake, (GcArena.collectionStep_frame success).2.2,
        debt request rfl, same]
      rcases Budget.settle_self finite with zero | ⟨-, left⟩
      · exact .inl zero
      obtain ⟨cells', shape'⟩ := live.shape.exists_of_collectionStep success
      rw [GcArena.collectionStep_of_propagating propagating] at success
      have blocked := ((since propagating).of_propagate success).2 stop
      obtain ⟨_, finished⟩ := pass.arena.finishCollection_eq work workLeft
      refine .inr ⟨by simpa using stays, fun address member => ?_, left⟩
      rw [finished, GcArena.allocateFinish_eq] at member
      rw [finished]
      refine GcArena.allocateFinish_blocked ?_ ?_ request
      exacts [shape'.unused _ le_rfl, (blocked address member).1]
    · simp [stop] at returned
  · obtain ⟨rfl, rfl, rfl, rfl⟩ := Control.collecting.inj (collecting.symm.trans collecting')
    left
    simp only [World.leaveCollection, GcArena.allocateFinish_allocationDebt]
    by_cases asleep : world.arena.phase = .sleeping
    · exact GcArena.finishCollection_cleared asleep _ _
    rw [GcArena.finishCollection_settle asleep, debt request rfl]
    rcases Budget.settle_self finite with zero | ⟨positive, -⟩
    · exact zero
    · rw [positive] at spent
      cases spent
  · exact nomatch collecting.symm.trans dropping

/-- An allocation that wakes a stop-the-world collector, and the passes of its slice but the
last. -/
private def sliceRun : List Event :=
  [.allocate ⟨5000, by decide, true, {}⟩, .resume, .resume]

/-- A pinned box whose trace is blocked, then an allocation that wakes the collector with a
finite budget: its slice breaks off on the blocked box, with budget left. -/
private def blockedSliceRun : List Event :=
  [.allocate ⟨32, by decide, true, ⟨[], true⟩⟩, .root 0, .allocate ⟨5000, by decide, true, {}⟩]

/-- A run that ends inside a slice of `allocate`, one pass before the slice returns. -/
private theorem exists_slice {parameters : GcParameters} {events : List Event}
    {property : World → Prop} [DecidablePred property]
    (checked : (World.initial parameters).runSatisfies events (fun world =>
      (match world.control with
        | .collecting (.allocate _) _ _ _ => true
        | _ => false) = true ∧
      world.runSatisfies [.resume] (fun next => next.control = .idle ∧ property next) = true) =
      true) :
    ∃ world next request work workLeft blockedGrayCount, Reachable world ∧
      world.control = .collecting (.allocate request) work workLeft blockedGrayCount ∧
      world.Step .resume next ∧ next.control = .idle ∧ property next := by
  obtain ⟨world, path, slicing, ending⟩ := exists_path_of_runSatisfies checked
  obtain ⟨next, resumed, returned, holds⟩ := exists_path_of_runSatisfies ending
  split at slicing
  · rename_i request work workLeft blockedGrayCount collecting
    exact ⟨world, next, request, work, workLeft, blockedGrayCount, ⟨_, _, path⟩, collecting,
      resumed.step_of_single, returned, holds⟩
  · cases slicing

theorem Step.slice_debt_woken :
    (∃ world next request work workLeft blockedGrayCount, Reachable world ∧
      world.control = .collecting (.allocate request) work workLeft blockedGrayCount ∧
      world.Step .resume next ∧ next.control = .idle ∧
      (next.arena.allocationDebt = .bytes 0 ∨ next.arena.phase = .propagating ∧
        (∀ address ∈ next.arena.gray, next.arena.heap.Blocked address) ∧
        next.arena.allocationDebt = workLeft)) ∧
    ∃ world next request work workLeft blockedGrayCount, Reachable world ∧
      world.control = .collecting (.allocate request) work workLeft blockedGrayCount ∧
      world.Step .resume next ∧ next.control = .idle ∧ next.arena.gray = [0] ∧
      next.arena.allocationDebt ≠ .bytes 0 ∧
      (next.arena.allocationDebt = .bytes 0 ∨ next.arena.phase = .propagating ∧
        (∀ address ∈ next.arena.gray, next.arena.heap.Blocked address) ∧
        next.arena.allocationDebt = workLeft) := by
  obtain ⟨world, next, request, work, workLeft, blockedGrayCount, reachable, collecting, step,
    returned, -⟩ := @exists_slice { GcParameters.default with timingFactor := 0 } sliceRun
      (fun _ => True) _ (by decide)
  obtain ⟨world', next', request', work', workLeft', blockedGrayCount', reachable', collecting',
    step', returned', queued, owing⟩ := @exists_slice .default blockedSliceRun
      (fun next => next.arena.gray = [0] ∧ next.arena.allocationDebt ≠ .bytes 0) _
      (by with_unfolding_all decide)
  exact ⟨⟨world, next, request, work, workLeft, blockedGrayCount, reachable, collecting, step,
    returned, Step.slice_debt reachable collecting step returned⟩,
    world', next', request', work', workLeft', blockedGrayCount', reachable', collecting', step',
    returned', queued, owing, Step.slice_debt reachable' collecting' step' returned'⟩

end World

end LusterGc
