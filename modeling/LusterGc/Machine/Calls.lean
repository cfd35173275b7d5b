import LusterGc.Machine.World

/-! # Calls run to their return

The machine runs a call that loops one pass per `resume`, so that host calls can come between
slices. Run to its return, such a call is the function of the arena the code defines:
`settle` resumes until the host has control again, and it computes, pass for pass, the loop of
`do_collection` and the walk of `GcArena::drop`. So `collect_garbage`, `allocate` and the drop of
the arena, called between calls and run to their return, are `GcArena::collect_garbage`,
`GcArena::allocate` and `impl Drop for GcArena`; and what they return is a world the machine
reaches, where every invariant of its runs holds.
-/

namespace LusterGc

namespace World

variable {world : World}

/-- Resume the running loop until the host has control again, for at most `fuel` passes; `none`
when they do not suffice. -/
def settle : ℕ → World → Option (Except Fault World)
  | 0, world => if world.control = .idle then some (.ok world) else none
  | fuel + 1, world =>
    if world.control = .idle then some (.ok world)
    else
      match world.resume with
      | some (.ok next) => next.settle fuel
      | outcome => outcome

theorem settle_idle (idle : world.control = .idle) (fuel : ℕ) :
    world.settle fuel = some (.ok world) := by
  cases fuel <;> simp [settle, idle]

theorem settle_succ {fuel : ℕ} {next : World} (busy : world.control ≠ .idle)
    (resumed : world.resume = some (.ok next)) : world.settle (fuel + 1) = next.settle fuel := by
  simp [settle, busy, resumed]

theorem settle_succ_error {fuel : ℕ} {fault : Fault} (busy : world.control ≠ .idle)
    (failed : world.resume = some (.error fault)) :
    world.settle (fuel + 1) = some (.error fault) := by
  simp [settle, busy, failed]

@[simp] theorem leaveCollection_control (caller : Caller) (arena : GcArena) (work workLeft : Budget) :
    (world.leaveCollection caller arena work workLeft).control = .idle := by
  cases caller <;> rfl

/-- Resumed pass by pass, the loop of `do_collection` computes what `collectionLoop` does, and
it returns to its caller with the arena and budget the loop leaves with. -/
theorem settle_collecting {caller : Caller} {work workLeft : Budget} {blockedGrayCount : ℕ}
    (collecting : world.control = .collecting caller work workLeft blockedGrayCount) (fuel : ℕ) :
    world.settle fuel = (world.arena.collectionLoop fuel workLeft blockedGrayCount).map
      (·.map fun left => world.leaveCollection caller left.1 work left.2) := by
  induction fuel generalizing world workLeft blockedGrayCount with
  | zero => simp [settle, collecting, GcArena.collectionLoop]
  | succ fuel ih =>
    have busy : world.control ≠ .idle := by simp [collecting]
    have leave : ∀ arena left, (world.leaveCollection caller arena work left).settle fuel =
        some (.ok (world.leaveCollection caller arena work left)) := fun _ _ =>
      settle_idle (leaveCollection_control _ _ _ _) fuel
    cases positive : workLeft.positive
    · -- the budget is spent: the loop is left
      have resumed : world.resume =
          some (.ok (world.leaveCollection caller world.arena work workLeft)) := by
        simp [resume, collecting, positive]
      rw [settle_succ busy resumed, leave]
      simp [GcArena.collectionLoop, positive, Except.map]
    cases stepped : world.arena.collectionStep workLeft blockedGrayCount with
    | error fault =>
      have failed : world.resume = some (.error fault) := by
        simp [resume, collecting, positive, stepped]
      rw [settle_succ_error busy failed]
      simp [GcArena.collectionLoop, positive, stepped, Except.map]
    | ok pass =>
      rw [GcArena.collectionLoop_of_pass positive stepped]
      cases stop : pass.stop
      · -- the loop goes on
        let next : World := { world with
          arena := pass.arena, control := .collecting caller work pass.workLeft pass.blockedGrayCount }
        have resumed : world.resume = some (.ok next) := by
          simp [resume, collecting, positive, stepped, stop, next]
        rw [settle_succ busy resumed, ih (show next.control = _ from rfl)]
        rfl
      · -- a `break`
        have resumed : world.resume =
            some (.ok (world.leaveCollection caller pass.arena work pass.workLeft)) := by
          simp [resume, collecting, positive, stepped, stop]
        rw [settle_succ busy resumed, leave]
        simp [Except.map]

@[simp] theorem dropLoop_none (fuel : ℕ) (heap : Heap) :
    GcArena.dropLoop fuel heap none = some (.ok heap) := by
  cases fuel <;> rfl

/-- Resumed turn by turn, the walk of `GcArena::drop` computes what `dropLoop` does. -/
theorem settle_dropping {address : Ptr} (dropping : world.control = .dropping address)
    (fuel : ℕ) :
    world.settle fuel = (GcArena.dropLoop fuel world.arena.heap (some address)).map
      (·.map fun heap => { world.withHeap heap with control := .idle }) := by
  induction fuel generalizing world address with
  | zero => simp [settle, dropping, GcArena.dropLoop]
  | succ fuel ih =>
    have busy : world.control ≠ .idle := by simp [dropping]
    cases stepped : GcArena.dropStep world.arena.heap address with
    | error fault =>
      have failed : world.resume = some (.error fault) := by simp [resume, dropping, stepped]
      rw [settle_succ_error busy failed]
      simp [GcArena.dropLoop, stepped, Except.map]
    | ok result =>
      obtain ⟨heap, next⟩ := result
      have resumed : world.resume =
          some (.ok { world.withHeap heap with control := next.elim .idle .dropping }) := by
        simp [resume, dropping, stepped]
      rw [settle_succ busy resumed]
      cases next with
      | none => simp [settle_idle, GcArena.dropLoop, stepped, Except.map]
      | some next =>
        simp only [GcArena.dropLoop, stepped]
        exact ih (by rfl)

/-- `collect_garbage`, called between calls and run to its return, is
`GcArena::collect_garbage`. -/
theorem collectGarbage_settle {next : World} (step : world.Step .collectGarbage next)
    (fuel : ℕ) :
    next.settle fuel = (world.arena.collectGarbage fuel).map (·.map fun arena =>
      { world with arena }) := by
  obtain ⟨arena, dropped, pins, control⟩ := world
  obtain ⟨idle, -, rfl⟩ := Step.collectGarbage_eq step
  subst idle
  rw [settle_collecting rfl]
  unfold GcArena.collectGarbage GcArena.doCollection
  cases arena.startCycle.collectionLoop fuel .infinite 0 with
  | none => rfl
  | some result => cases result <;> rfl

/-- `allocate`, called between calls and run to its return, is `GcArena::allocate`. -/
theorem allocate_settle {request : Allocation} {next : World}
    (step : world.Step (.allocate request) next) (fuel : ℕ) :
    next.settle fuel = (world.arena.allocate fuel request).map (·.map fun result =>
      { world with arena := result.1 }) := by
  obtain ⟨arena, dropped, pins, control⟩ := world
  obtain ⟨idle, -, outcome⟩ := Step.allocate_eq step
  subst idle
  unfold GcArena.allocate
  rcases split : arena.allocateStart request.size with ⟨started, _ | work⟩ <;>
    rw [split] at outcome
  · obtain ⟨-, rfl⟩ | ⟨_, impossible, -⟩ := outcome
    · exact settle_idle (by rfl) fuel
    · cases impossible
  · obtain ⟨impossible, -⟩ | ⟨_, same, rfl⟩ := outcome
    · cases impossible
    cases same
    rw [settle_collecting rfl]
    unfold GcArena.doCollection
    dsimp only
    cases started.collectionLoop fuel work 0 with
    | none => rfl
    | some result => cases result <;> rfl

/-- Dropping the arena and running its walk to the end is `impl Drop for GcArena`. -/
theorem dropArena_settle {next : World} (step : world.Step .dropArena next) (fuel : ℕ) :
    next.settle fuel = (world.arena.drop fuel).map (·.map fun heap =>
      { world.withHeap heap with dropped := true }) := by
  obtain ⟨arena, dropped, pins, control⟩ := world
  obtain ⟨idle, -, rfl⟩ := Step.dropArena_eq step
  subst idle
  unfold GcArena.drop
  dsimp only
  cases all : arena.all with
  | none =>
    rw [settle_idle rfl, dropLoop_none]
    rfl
  | some address =>
    have dropping : (⟨arena, true, pins, (some address).elim .idle .dropping⟩ : World).control =
        .dropping address := rfl
    rw [settle_dropping dropping]
    cases GcArena.dropLoop fuel arena.heap (some address) with
    | none => rfl
    | some result => cases result <;> rfl

/-- What `settle` returns, the machine reaches by `resume` events. -/
theorem path_of_settle {fuel : ℕ} {final : World} (settled : world.settle fuel = some (.ok final)) :
    ∃ passes, Path world (List.replicate passes .resume) final ∧ final.control = .idle := by
  induction fuel generalizing world with
  | zero =>
    by_cases idle : world.control = .idle
    · rw [settle_idle idle] at settled
      cases settled
      exact ⟨0, .nil _, idle⟩
    · simp [settle, idle] at settled
  | succ fuel ih =>
    by_cases idle : world.control = .idle
    · rw [settle_idle idle] at settled
      cases settled
      exact ⟨0, .nil _, idle⟩
    cases resumed : world.resume with
    | none => simp [settle, idle, resumed] at settled
    | some outcome =>
      cases outcome with
      | error fault => simp [settle, idle, resumed] at settled
      | ok next =>
        rw [settle_succ idle resumed] at settled
        obtain ⟨passes, path, done⟩ := ih settled
        exact ⟨passes + 1, .cons (show world.Step .resume next from resumed) path, done⟩

/-- From an idle, live world, `collect_garbage` and `allocate` can be called. -/
theorem exists_call (idle : world.control = .idle) (alive : world.dropped = false)
    {event : Event} (event_call : event = .collectGarbage ∨ ∃ request, event = .allocate request) :
    ∃ next, world.Step event next := by
  refine exists_step ?_ fun fault => ?_ <;>
    rcases event_call with rfl | ⟨request, rfl⟩ <;> simp [World.step, idle, call, alive]

end World

/-- What a call run to its return leaves, from a world a run reaches, is a world a run reaches. -/
theorem Reachable.settle {world final : World} (reachable : Reachable world) {fuel : ℕ}
    (settled : world.settle fuel = some (.ok final)) : Reachable final := by
  obtain ⟨parameters, events, path⟩ := reachable
  obtain ⟨passes, resumed, -⟩ := World.path_of_settle settled
  exact ⟨parameters, events ++ _, path.append resumed⟩

/-- The arena `GcArena::collect_garbage` returns, called from a world a run reaches, is the arena
of a world a run reaches: every invariant of the runs holds of it. -/
theorem Reachable.collectGarbage_returned {world : World} (reachable : Reachable world)
    (idle : world.control = .idle) (alive : world.dropped = false) {fuel : ℕ} {arena : GcArena}
    (returned : world.arena.collectGarbage fuel = some (.ok arena)) :
    Reachable { world with arena } := by
  obtain ⟨next, step⟩ := World.exists_call idle alive (.inl rfl)
  have settled := World.collectGarbage_settle step fuel
  rw [returned] at settled
  exact (reachable.step step).settle settled

/-- The same for the arena `GcArena::allocate` returns. -/
theorem Reachable.allocate_returned {world : World} (reachable : Reachable world)
    (idle : world.control = .idle) (alive : world.dropped = false) {request : Allocation}
    {fuel : ℕ} {arena : GcArena} {gc : Ptr}
    (returned : world.arena.allocate fuel request = some (.ok (arena, gc))) :
    Reachable { world with arena } := by
  obtain ⟨next, step⟩ := World.exists_call idle alive (.inr ⟨request, rfl⟩)
  have settled := World.allocate_settle step fuel
  rw [returned] at settled
  exact (reachable.step step).settle settled

end LusterGc
