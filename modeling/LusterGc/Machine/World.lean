import LusterGc.Model.Collection

/-! # The host and the arena as one labelled machine

A `World` is the arena with its memory, whether the arena has been dropped, the `Rgc` handles
the host holds, and where control is. Between calls control is idle. A call whose code loops,
`do_collection` inside `allocate` or `collect_garbage`, or the walk of `GcArena::drop`, leaves
control inside the loop, and each `resume` event runs one pass of its body. Every other call is
a single event. Runs are lists of events, so a property of every run is a property of every
interleaving of host calls and collection slices.
-/

namespace LusterGc

/-- The call a running `do_collection` returns to. -/
inductive Caller where
  | collectGarbage
  | allocate (request : Allocation)
deriving DecidableEq, Repr

/-- Where control is: between calls, in the loop of `do_collection` with its locals, or in the
walk of `GcArena::drop` at its next box. -/
inductive Control where
  | idle
  | collecting (caller : Caller) (work workLeft : Budget) (blockedGrayCount : ℕ)
  | dropping (next : Ptr)
deriving DecidableEq, Repr

/-- The arena and its memory, whether the arena has been dropped, the host's live `Rgc`
handles (one entry per handle) and control. -/
structure World where
  arena : GcArena
  dropped : Bool
  pins : List Ptr
  control : Control

/-- What the host can do, and `resume` for the next pass of a running loop. `mutate` replaces
a payload through its interior mutability: it may add or remove pointers, or lock the trace. -/
inductive Event where
  | allocate (request : Allocation)
  | root (gc : Ptr)
  | writeBarrier (gc : Ptr)
  | collectGarbage
  | cloneRgc (gc : Ptr)
  | dropRgc (gc : Ptr)
  | mutate (gc : Ptr) (value : GcValue)
  | dropArena
  | resume
deriving DecidableEq, Repr

namespace World

/-- A fresh arena with no handles. -/
def initial (parameters : GcParameters) : World :=
  ⟨GcArena.new parameters, false, [], .idle⟩

/-- Replace the memory. -/
def withHeap (world : World) (heap : Heap) : World :=
  { world with arena := { world.arena with heap } }

/-- Leave the loop of `do_collection`: the lines after it, then the rest of the caller. -/
def leaveCollection (world : World) (caller : Caller) (arena : GcArena) (work workLeft : Budget) :
    World :=
  let arena := arena.finishCollection work workLeft
  match caller with
  | .collectGarbage => { world with arena, control := .idle }
  | .allocate request => { world with arena := (arena.allocateFinish request).1, control := .idle }

/-- The next pass of the running loop. -/
def resume (world : World) : Option (Except Fault World) :=
  match world.control with
  | .idle => none
  | .collecting caller work workLeft blockedGrayCount =>
    if workLeft.positive then
      match world.arena.collectionStep workLeft blockedGrayCount with
      | .error fault => some (.error fault)
      | .ok pass =>
        if pass.stop then some (.ok (world.leaveCollection caller pass.arena work pass.workLeft))
        else some (.ok { world with
          arena := pass.arena,
          control := .collecting caller work pass.workLeft pass.blockedGrayCount })
    else
      some (.ok (world.leaveCollection caller world.arena work workLeft))
  | .dropping address =>
    match GcArena.dropStep world.arena.heap address with
    | .error fault => some (.error fault)
    | .ok (heap, next) =>
      some (.ok { world.withHeap heap with control := next.elim .idle .dropping })

/-- A call of the host, made between calls. Calls on the arena need it alive; a handle can be
cloned or dropped only while the host holds it. -/
def call (world : World) : Event → Option (Except Fault World)
  | .allocate request =>
    if world.dropped then none
    else some <| .ok <|
      match world.arena.allocateStart request.size with
      | (arena, none) => { world with arena := (arena.allocateFinish request).1 }
      | (arena, some work) =>
        { world with arena, control := .collecting (.allocate request) work work 0 }
  | .root gc =>
    if world.dropped then none
    else some <| (world.arena.root gc).map fun arena => { world with arena, pins := gc :: world.pins }
  | .writeBarrier gc =>
    if world.dropped then none
    else some <| (world.arena.writeBarrier gc).map fun arena => { world with arena }
  | .collectGarbage =>
    if world.dropped then none
    else some <| .ok { world with
      arena := world.arena.startCycle,
      control := .collecting .collectGarbage .infinite .infinite 0 }
  | .cloneRgc gc =>
    if gc ∈ world.pins then
      some <| (Rgc.clone world.arena.heap gc).map fun heap =>
        { world.withHeap heap with pins := gc :: world.pins }
    else none
  | .dropRgc gc =>
    if gc ∈ world.pins then
      some <| (Rgc.drop world.arena.heap gc).map fun heap =>
        { world.withHeap heap with pins := world.pins.erase gc }
    else none
  | .mutate gc value =>
    some <| (world.arena.heap.get gc).map fun gcBox =>
      world.withHeap (world.arena.heap.set gc { gcBox with value })
  | .dropArena =>
    if world.dropped then none
    else some <| .ok { world with dropped := true, control := world.arena.all.elim .idle .dropping }
  | .resume => none

/-- One event: `resume` inside a loop, a call between calls; `none` when the event cannot
happen here. -/
def step (world : World) (event : Event) : Option (Except Fault World) :=
  match event with
  | .resume => world.resume
  | event => if world.control = .idle then world.call event else none

/-- A successful step. -/
def Step (world : World) (event : Event) (next : World) : Prop :=
  world.step event = some (.ok next)

namespace Step

variable {world next : World}

private theorem call_of_step {event : Event} (step : world.Step event next) (notResume : event ≠ .resume) :
    world.control = .idle ∧ world.call event = some (.ok next) := by
  unfold Step World.step at step
  cases event <;> first | exact absurd rfl notResume | (split at step <;> simp_all)

theorem allocate_eq {request : Allocation} (step : world.Step (.allocate request) next) :
    world.control = .idle ∧ world.dropped = false ∧
      ((world.arena.allocateStart request.size).2 = none ∧
          next = { world with arena := ((world.arena.allocateStart request.size).1.allocateFinish request).1 } ∨
        ∃ work, (world.arena.allocateStart request.size).2 = some work ∧
          next = { world with
            arena := (world.arena.allocateStart request.size).1,
            control := .collecting (.allocate request) work work 0 }) := by
  obtain ⟨idle, step⟩ := call_of_step step (by simp)
  simp only [call] at step
  cases dropped : world.dropped <;> simp only [dropped, Bool.false_eq_true, ite_false, ite_true,
    Option.some.injEq, Except.ok.injEq, reduceCtorEq] at step
  refine ⟨idle, rfl, ?_⟩
  rcases started : world.arena.allocateStart request.size with ⟨arena, _ | work⟩ <;>
    simp only [started] at step ⊢ <;> simp [step]

theorem root_eq {gc : Ptr} (step : world.Step (.root gc) next) :
    world.control = .idle ∧ world.dropped = false ∧
      ∃ arena, world.arena.root gc = .ok arena ∧ next = { world with arena, pins := gc :: world.pins } := by
  obtain ⟨idle, step⟩ := call_of_step step (by simp)
  simp only [call] at step
  cases dropped : world.dropped <;> cases rooted : world.arena.root gc <;>
    simp_all [Except.map]

theorem writeBarrier_eq {gc : Ptr} (step : world.Step (.writeBarrier gc) next) :
    world.control = .idle ∧ world.dropped = false ∧
      ∃ arena, world.arena.writeBarrier gc = .ok arena ∧ next = { world with arena } := by
  obtain ⟨idle, step⟩ := call_of_step step (by simp)
  simp only [call] at step
  cases dropped : world.dropped <;> cases barrier : world.arena.writeBarrier gc <;>
    simp_all [Except.map]

theorem collectGarbage_eq (step : world.Step .collectGarbage next) :
    world.control = .idle ∧ world.dropped = false ∧
      next = { world with
        arena := world.arena.startCycle,
        control := .collecting .collectGarbage .infinite .infinite 0 } := by
  obtain ⟨idle, step⟩ := call_of_step step (by simp)
  simp only [call] at step
  cases dropped : world.dropped <;> simp only [dropped, Bool.false_eq_true, ite_false, ite_true,
    Option.some.injEq, Except.ok.injEq, reduceCtorEq] at step
  exact ⟨idle, rfl, step.symm⟩

theorem cloneRgc_eq {gc : Ptr} (step : world.Step (.cloneRgc gc) next) :
    world.control = .idle ∧ gc ∈ world.pins ∧
      ∃ heap, Rgc.clone world.arena.heap gc = .ok heap ∧
        next = { world.withHeap heap with pins := gc :: world.pins } := by
  obtain ⟨idle, step⟩ := call_of_step step (by simp)
  simp only [call] at step
  by_cases held : gc ∈ world.pins
  · cases cloned : Rgc.clone world.arena.heap gc <;>
      simp only [held, cloned, ite_true, Except.map, Option.some.injEq, Except.ok.injEq,
        reduceCtorEq] at step
    exact ⟨idle, held, _, rfl, step.symm⟩
  · simp [held] at step

theorem dropRgc_eq {gc : Ptr} (step : world.Step (.dropRgc gc) next) :
    world.control = .idle ∧ gc ∈ world.pins ∧
      ∃ heap, Rgc.drop world.arena.heap gc = .ok heap ∧
        next = { world.withHeap heap with pins := world.pins.erase gc } := by
  obtain ⟨idle, step⟩ := call_of_step step (by simp)
  simp only [call] at step
  by_cases held : gc ∈ world.pins
  · cases released : Rgc.drop world.arena.heap gc <;>
      simp only [held, released, ite_true, Except.map, Option.some.injEq, Except.ok.injEq,
        reduceCtorEq] at step
    exact ⟨idle, held, _, rfl, step.symm⟩
  · simp [held] at step

theorem mutate_eq {gc : Ptr} {value : GcValue} (step : world.Step (.mutate gc value) next) :
    world.control = .idle ∧
      ∃ gcBox, world.arena.heap.boxes gc = some gcBox ∧
        next = world.withHeap (world.arena.heap.set gc { gcBox with value }) := by
  obtain ⟨idle, step⟩ := call_of_step step (by simp)
  simp only [call, Heap.get] at step
  cases found : world.arena.heap.boxes gc <;>
    simp only [found, Except.map, Option.some.injEq, Except.ok.injEq, reduceCtorEq] at step
  exact ⟨idle, _, rfl, step.symm⟩

theorem dropArena_eq (step : world.Step .dropArena next) :
    world.control = .idle ∧ world.dropped = false ∧
      next = { world with dropped := true, control := world.arena.all.elim .idle .dropping } := by
  obtain ⟨idle, step⟩ := call_of_step step (by simp)
  simp only [call] at step
  cases dropped : world.dropped <;> simp only [dropped, Bool.false_eq_true, ite_false, ite_true,
    Option.some.injEq, Except.ok.injEq, reduceCtorEq] at step
  exact ⟨idle, rfl, step.symm⟩

/-- A `resume` runs one pass of `do_collection`'s body, or leaves its loop, or takes one turn of
the walk in `GcArena::drop`. -/
theorem resume_eq (step : world.Step .resume next) :
    (∃ caller work workLeft blockedGrayCount,
      world.control = .collecting caller work workLeft blockedGrayCount ∧
      (workLeft.positive = true ∧ (∃ pass,
          world.arena.collectionStep workLeft blockedGrayCount = .ok pass ∧
          next = if pass.stop then world.leaveCollection caller pass.arena work pass.workLeft
            else { world with
              arena := pass.arena,
              control := .collecting caller work pass.workLeft pass.blockedGrayCount }) ∨
        workLeft.positive = false ∧ next = world.leaveCollection caller world.arena work workLeft)) ∨
    ∃ address heap nextPtr, world.control = .dropping address ∧
      GcArena.dropStep world.arena.heap address = .ok (heap, nextPtr) ∧
      next = { world.withHeap heap with control := nextPtr.elim .idle .dropping } := by
  simp only [Step, World.step, World.resume] at step
  split at step
  · cases step
  · rename_i caller work workLeft blockedGrayCount control
    refine .inl ⟨caller, work, workLeft, blockedGrayCount, control, ?_⟩
    by_cases positive : workLeft.positive = true
    · simp only [positive, ite_true] at step
      cases stepped : world.arena.collectionStep workLeft blockedGrayCount with
      | error fault => simp [stepped] at step
      | ok pass =>
        simp only [stepped] at step
        refine .inl ⟨positive, pass, rfl, ?_⟩
        split at step <;> simp_all
    · simp only [positive, Bool.false_eq_true, ite_false, Option.some.injEq, Except.ok.injEq] at step
      exact .inr ⟨by simpa using positive, step.symm⟩
  · rename_i address control
    cases dropped : GcArena.dropStep world.arena.heap address with
    | error fault => simp [dropped] at step
    | ok result =>
      obtain ⟨heap, nextPtr⟩ := result
      simp only [dropped, Option.some.injEq, Except.ok.injEq] at step
      exact .inr ⟨address, heap, nextPtr, control, dropped, step.symm⟩

/-- A pass neither drops the arena nor brings it back. -/
theorem resume_dropped (step : world.Step .resume next) : next.dropped = world.dropped := by
  rcases resume_eq step with
    ⟨caller, _, _, _, -, ⟨-, pass, -, rfl⟩ | ⟨-, rfl⟩⟩ | ⟨_, _, _, -, -, rfl⟩
  · split <;> cases caller <;> rfl
  · cases caller <;> rfl
  · rfl

end Step

variable {world : World}

/-- A step that is defined and does not fail succeeds. -/
theorem exists_step {event : Event} (defined : (world.step event).isSome)
    (safe : ∀ fault, world.step event ≠ some (.error fault)) : ∃ next, world.Step event next := by
  match stepped : world.step event with
  | some (.ok next) => exact ⟨next, stepped⟩
  | some (.error fault) => exact absurd stepped (safe fault)
  | none => simp [stepped] at defined

/-- Inside a loop, `resume` is always defined. -/
theorem resume_isSome (busy : world.control ≠ .idle) : (world.step .resume).isSome := by
  simp only [World.step, resume]
  split
  · exact absurd ‹_› busy
  · split
    · split <;> [rfl; (split <;> rfl)]
    · rfl
  · split <;> rfl

/-- How `resume` fails: in a pass of `do_collection`, or in a turn of the walk. -/
theorem resume_error {fault : Fault} (failed : world.resume = some (.error fault)) :
    (∃ caller work workLeft blockedGrayCount,
      world.control = .collecting caller work workLeft blockedGrayCount ∧
        world.arena.collectionStep workLeft blockedGrayCount = .error fault) ∨
      ∃ address, world.control = .dropping address ∧
        GcArena.dropStep world.arena.heap address = .error fault := by
  unfold resume at failed
  split at failed
  · cases failed
  · rename_i caller work workLeft blockedGrayCount control
    refine .inl ⟨caller, work, workLeft, blockedGrayCount, control, ?_⟩
    split at failed
    · cases stepped : world.arena.collectionStep workLeft blockedGrayCount with
      | error => simp_all
      | ok pass =>
        simp only [stepped] at failed
        split at failed <;> cases failed
    · cases failed
  · rename_i address control
    refine .inr ⟨address, control, ?_⟩
    cases dropped : GcArena.dropStep world.arena.heap address with
    | error => simp_all
    | ok result => simp [dropped] at failed

/-- Inside the loop of `do_collection`, `resume` goes through when the pass it runs does. -/
theorem exists_resume {caller : Caller} {work workLeft : Budget} {blockedGrayCount : ℕ}
    (collecting : world.control = .collecting caller work workLeft blockedGrayCount)
    (passes : ∃ pass, world.arena.collectionStep workLeft blockedGrayCount = .ok pass) :
    ∃ next, world.Step .resume next := by
  obtain ⟨pass, stepped⟩ := passes
  refine exists_step (resume_isSome (by simp [collecting])) fun fault failed => ?_
  rcases resume_error failed with ⟨_, _, _, _, collecting', failed⟩ | ⟨_, dropping, -⟩
  · cases collecting.symm.trans collecting'
    rw [stepped] at failed
    cases failed
  · simp [collecting] at dropping

/-- How a call fails: at a freed box, or on a pin count that would pass `usize::MAX`. -/
theorem call_error {event : Event} {fault : Fault} (failed : world.call event = some (.error fault)) :
    (∃ address, fault = .dangling address ∧ world.arena.heap.boxes address = none) ∨
      fault = .panic "overflow on root count" := by
  cases event with
  | root gc =>
    simp only [call] at failed
    split at failed
    · cases failed
    · simp only [Option.some.injEq, map_eq_error] at failed
      rcases GcArena.root_error failed with ⟨rfl, gone⟩ | overflow
      · exact .inl ⟨gc, rfl, gone⟩
      · exact .inr overflow
  | writeBarrier gc =>
    simp only [call] at failed
    split at failed
    · cases failed
    · simp only [Option.some.injEq, map_eq_error] at failed
      exact .inl ⟨gc, GcArena.writeBarrier_error failed⟩
  | cloneRgc gc =>
    simp only [call] at failed
    split at failed
    · simp only [Option.some.injEq, map_eq_error] at failed
      rcases Rgc.clone_error failed with ⟨rfl, gone⟩ | overflow
      · exact .inl ⟨gc, rfl, gone⟩
      · exact .inr overflow
    · cases failed
  | dropRgc gc =>
    simp only [call] at failed
    split at failed
    · simp only [Option.some.injEq, map_eq_error] at failed
      exact .inl ⟨gc, Rgc.drop_error failed⟩
    · cases failed
  | mutate gc value =>
    simp only [call, Option.some.injEq, map_eq_error] at failed
    exact .inl ⟨gc, Heap.get_error failed⟩
  | allocate request => simp only [call] at failed; split at failed <;> simp at failed
  | collectGarbage => simp only [call] at failed; split at failed <;> simp at failed
  | dropArena => simp only [call] at failed; split at failed <;> simp at failed
  | resume => simp [call] at failed

/-- How a step fails: it reads a freed box, or a pin count would pass `usize::MAX`. No step frees
a box twice, since every free reads its box first. -/
theorem step_error {event : Event} {fault : Fault} (failed : world.step event = some (.error fault)) :
    (∃ address, fault = .dangling address ∧ world.arena.heap.boxes address = none) ∨
      fault = .panic "overflow on root count" := by
  cases event with
  | resume =>
    rcases resume_error failed with ⟨_, _, _, _, -, stepped⟩ | ⟨address, -, dropped⟩
    · rcases GcArena.collectionStep_error stepped with ⟨-, failure⟩ | ⟨-, address, failure, gone, -⟩
      · exact .inl failure
      · exact .inl ⟨address, failure, gone⟩
    · exact .inl ⟨address, GcArena.dropStep_error dropped⟩
  | _ =>
    simp only [World.step] at failed
    split at failed
    · exact call_error failed
    · cases failed

end World

/-- A finite run carrying exactly its events. -/
inductive Path : World → List Event → World → Prop
  | nil (world : World) : Path world [] world
  | cons {world middle final : World} {event : Event} {events : List Event} :
      world.Step event middle → Path middle events final → Path world (event :: events) final

namespace Path

theorem append {world middle final : World} {first second : List Event} :
    Path world first middle → Path middle second final → Path world (first ++ second) final
  | .nil _, right => right
  | .cons step rest, right => .cons step (append rest right)

theorem snoc {world middle final : World} {events : List Event} {event : Event}
    (path : Path world events middle) (step : middle.Step event final) :
    Path world (events ++ [event]) final :=
  path.append (.cons step (.nil _))

theorem step_of_single {world final : World} {event : Event} (path : Path world [event] final) :
    world.Step event final := by
  cases path with
  | cons step rest =>
    cases rest
    exact step

end Path

namespace World

/-- The run of `events` from `world`: the world it reaches, the fault it stops at, or `none` when
an event cannot happen. -/
def run (world : World) : List Event → Option (Except Fault World)
  | [] => some (.ok world)
  | event :: events =>
    match world.step event with
    | some (.ok next) => next.run events
    | some (.error fault) => some (.error fault)
    | none => none

/-- Whether the run of `events` reaches a world with `property`. -/
def runSatisfies (world : World) (events : List Event) (property : World → Prop)
    [DecidablePred property] : Bool :=
  match world.run events with
  | some (.ok final) => decide (property final)
  | _ => false

theorem path_of_run {world final : World} {events : List Event}
    (ran : world.run events = some (.ok final)) : Path world events final := by
  induction events generalizing world with
  | nil =>
    cases ran
    exact .nil _
  | cons event events ih =>
    simp only [run] at ran
    split at ran
    · exact .cons ‹_› (ih ran)
    · cases ran
    · cases ran

/-- A run that is computed to reach a world with `property` is a path to one. -/
theorem exists_path_of_runSatisfies {world : World} {events : List Event}
    {property : World → Prop} [DecidablePred property]
    (checked : world.runSatisfies events property = true) :
    ∃ final, Path world events final ∧ property final := by
  unfold runSatisfies at checked
  split at checked
  · exact ⟨_, path_of_run ‹_›, of_decide_eq_true checked⟩
  · cases checked

end World

/-- A world some run reaches from a fresh arena. -/
def Reachable (world : World) : Prop :=
  ∃ parameters events, Path (World.initial parameters) events world

theorem Reachable.initial (parameters : GcParameters) : Reachable (World.initial parameters) :=
  ⟨parameters, [], .nil _⟩

theorem Reachable.step {world next : World} {event : Event} (reachable : Reachable world)
    (step : world.Step event next) : Reachable next := by
  obtain ⟨parameters, events, path⟩ := reachable
  exact ⟨parameters, events ++ [event], path.snoc step⟩

theorem Reachable.path {world final : World} {events : List Event} (reachable : Reachable world)
    (path : Path world events final) : Reachable final := by
  induction path with
  | nil => exact reachable
  | cons step _ ih => exact ih (reachable.step step)

/-- A property that holds of fresh arenas and survives every step holds of every reachable
world. -/
theorem Reachable.induction (P : World → Prop) (initial : ∀ parameters, P (World.initial parameters))
    (step : ∀ {world next : World} {event : Event}, Reachable world → P world →
      world.Step event next → P next) {world : World} (reachable : Reachable world) : P world := by
  obtain ⟨parameters, events, path⟩ := reachable
  have along : ∀ {start final : World} {events : List Event}, Path start events final →
      Reachable start → P start → P final := by
    intro start final events path
    induction path with
    | nil => exact fun _ holds => holds
    | cons first _ ih => exact fun reachable holds => ih (reachable.step first) (step reachable holds first)
  exact along path ⟨parameters, [], .nil _⟩ (initial parameters)

end LusterGc
