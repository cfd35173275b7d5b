import LusterGc.Soundness.Completeness

/-! # Garbage is reclaimed by the next sweep

An incremental collector interleaves its passes with the host's calls, so a box that is garbage
while the collector sleeps must survive whatever the host does until the next sweep reaches it.
Under the contract it does not escape: the host can store, root or barrier only boxes in use,
and a pass traces only boxes in use, so a garbage box is never marked, never pinned and never
pointed at by a box in use again. When the sweep starts it has the whole list ahead of it, and it
frees every white box it passes.

`GcArena.Reclaims` says this of a set `dead` of boxes fixed when the collector slept: they stay
below the contract's `since`, no pinned, marked or live box reaches them, and while sweeping the
ones still allocated are ahead of the cursor. Every step of a run that keeps the contract keeps
it, so the pass that ends the next sweep leaves none of them allocated.
-/

namespace LusterGc

/-- A box that the contract's bookkeeping counts as garbage: allocated and out of use. -/
def World.Garbage (world : World) (ghost : Ghost) (address : Ptr) : Prop :=
  world.arena.heap.Allocated address ∧ ¬world.arena.heap.InUse ghost.since address

/-- A check that decides `Garbage` from the boxes below `fresh`: the box lies below `since`, is
allocated and unpinned, and no allocated box points at it. -/
def Heap.unreferenced (heap : Heap) (since : ℕ) (address : Ptr) : Bool :=
  decide (address < since) && (heap.boxes address).any (·.rootCount.count == 0) &&
    (List.range heap.fresh).all fun parent =>
      (heap.boxes parent).all fun gcBox => !gcBox.value.children.contains address

/-- The check is sound on a heap with nothing allocated from `fresh` on. -/
theorem Heap.garbage_of_unreferenced {heap : Heap} {since : ℕ} {address : Ptr}
    (unused : ∀ address, heap.fresh ≤ address → heap.boxes address = none)
    (checked : heap.unreferenced since address = true) :
    heap.Allocated address ∧ ¬heap.InUse since address := by
  simp only [unreferenced, Bool.and_eq_true, decide_eq_true_eq, List.all_eq_true,
    List.mem_range] at checked
  obtain ⟨⟨below, unpinned⟩, unpointed⟩ := checked
  refine ⟨fun none => by simp [none] at unpinned, fun inUse =>
    @InUse.closed heap since (· ≠ address) ?_ ?_ ?_ address inUse rfl⟩
  · rintro _ gcBox found count rfl
    simp [found] at unpinned
    exact count unpinned
  · rintro _ above _ rfl
    exact absurd above (not_le.mpr below)
  · rintro parent gcBox - found _ member rfl
    have below : parent < heap.fresh := lt_of_not_le fun above => by simp [unused _ above] at found
    simpa [found, member] using unpointed parent below

theorem Ghost.since_after {ghost : Ghost} {world : World} {event : Event}
    (other : event ≠ .resume) : (ghost.after world event).since = ghost.since := by
  rw [Ghost.after_eq other]

namespace GcArena

/-- What a cycle keeps of the boxes `dead` that were garbage when it began: they lie below
`since`; no pinned, live or marked box is dead, and no live box points at one; and while
sweeping, every dead box still allocated is ahead of the cursor. -/
structure Reclaims (arena : GcArena) (since : ℕ) (dead : Ptr → Prop) : Prop where
  below : ∀ address, dead address → address < since
  pinned : ∀ address gcBox, arena.heap.boxes address = some gcBox →
    gcBox.rootCount.count ≠ 0 → ¬dead address
  closed : ∀ parent gcBox, ¬dead parent → arena.heap.boxes parent = some gcBox →
    ∀ child ∈ gcBox.value.children, ¬dead child
  marked : arena.heap.MarkedWithin fun address => ¬dead address
  ahead : arena.phase = .sweeping → ∃ rest, Chain arena.heap arena.sweep rest none ∧
    ∀ address, dead address → arena.heap.Allocated address → address ∈ rest

namespace Reclaims

variable {arena next : GcArena} {since since' : ℕ} {dead : Ptr → Prop}

/-- No box in use is dead. -/
theorem live (reclaims : arena.Reclaims since dead) {address : Ptr}
    (inUse : arena.heap.InUse since address) : ¬dead address :=
  @Heap.InUse.closed _ _ (fun address => ¬dead address) reclaims.pinned
    (fun _ above _ isDead => absurd above (not_le.mpr (reclaims.below _ isDead))) reclaims.closed
    _ inUse

theorem later (reclaims : arena.Reclaims since dead) (later : since ≤ since') :
    arena.Reclaims since' dead :=
  { reclaims with below := fun address isDead => lt_of_lt_of_le (reclaims.below address isDead) later }

/-- `Reclaims` reads memory, the phase and the sweep cursor; a change that keeps the first two
and starts no sweep keeps it. -/
theorem congr (reclaims : arena.Reclaims since dead) (heap : next.heap = arena.heap)
    (sweep : next.sweep = arena.sweep) (phase : next.phase = .sweeping → arena.phase = .sweeping) :
    next.Reclaims since dead where
  below := reclaims.below
  pinned := heap ▸ reclaims.pinned
  closed := heap ▸ reclaims.closed
  marked := heap ▸ reclaims.marked
  ahead sweeping := by
    rw [heap, sweep]
    exact reclaims.ahead (phase sweeping)

/-- What a pass does to memory, it frees, recolours and relinks: pins and payloads stay. -/
theorem of_prunes (reclaims : arena.Reclaims since dead) (prunes : arena.heap.Prunes next.heap)
    (marked : next.heap.MarkedWithin fun address => ¬dead address)
    (ahead : next.phase = .sweeping → ∃ rest, Chain next.heap next.sweep rest none ∧
      ∀ address, dead address → next.heap.Allocated address → address ∈ rest) :
    next.Reclaims since dead where
  below := reclaims.below
  pinned address gcBox' found count := by
    obtain ⟨gcBox, found₀, -, same⟩ := prunes address gcBox' found
    exact reclaims.pinned address gcBox found₀ (same ▸ count)
  closed parent gcBox' live found child member := by
    obtain ⟨gcBox, found₀, same, -⟩ := prunes parent gcBox' found
    exact reclaims.closed parent gcBox live found₀ child (same ▸ member)
  marked := marked
  ahead := ahead

/-- Rewriting a box in place with its link and size: it is pinned, marked or points at a box
only when it is live and the box it points at too. -/
theorem of_set (reclaims : arena.Reclaims since dead) {address : Ptr} {gcBox gcBox' : GcBox}
    (found : arena.heap.boxes address = some gcBox) (heap : next.heap = arena.heap.set address gcBox')
    (sweep : next.sweep = arena.sweep) (phase : next.phase = arena.phase)
    (link : gcBox'.next = gcBox.next) (size : gcBox'.size = gcBox.size)
    (pinned : gcBox'.rootCount.count ≠ 0 → ¬dead address)
    (colored : gcBox'.flags.color ≠ .white → ¬dead address)
    (children : ¬dead address → ∀ child ∈ gcBox'.value.children, ¬dead child) :
    next.Reclaims since dead := by
  have boxes : ∀ query box, next.heap.boxes query = some box →
      query = address ∧ box = gcBox' ∨ query ≠ address ∧ arena.heap.boxes query = some box :=
    fun _ _ found' => Heap.set_boxes_eq_some (heap ▸ found')
  refine ⟨reclaims.below, fun query box found' count => ?_, fun parent box live found' => ?_,
    fun query box found' dark => ?_, fun sweeping => ?_⟩
  · rcases boxes query box found' with ⟨rfl, rfl⟩ | ⟨-, found₀⟩
    exacts [pinned count, reclaims.pinned query box found₀ count]
  · rcases boxes parent box found' with ⟨rfl, rfl⟩ | ⟨-, found₀⟩
    exacts [children live, reclaims.closed parent box live found₀]
  · rcases boxes query box found' with ⟨rfl, rfl⟩ | ⟨-, found₀⟩
    exacts [colored dark, reclaims.marked query box found₀ dark]
  · obtain ⟨rest, chain, ahead⟩ := reclaims.ahead (phase ▸ sweeping)
    have layout : next.heap.layout = arena.heap.layout := by
      rw [heap, Heap.layout_set found link size]
    refine ⟨rest, sweep ▸ chain.of_layout layout, fun query isDead allocated => ?_⟩
    rw [Heap.allocated_iff_layout, layout, ← Heap.allocated_iff_layout] at allocated
    exact ahead query isDead allocated

/-- Recolouring a box, to a mark only when it is live. -/
theorem of_recolor (reclaims : arena.Reclaims since dead) {address : Ptr} {color : GcColor}
    (holds : color ≠ .white → ¬dead address) (heap : next.heap = arena.heap.recolor address color)
    (sweep : next.sweep = arena.sweep) (phase : next.phase = arena.phase) :
    next.Reclaims since dead := by
  refine reclaims.of_prunes (heap ▸ Heap.Prunes.recolor _ _)
    (heap ▸ reclaims.marked.recolor holds) fun sweeping => ?_
  obtain ⟨rest, chain, ahead⟩ := reclaims.ahead (phase ▸ sweeping)
  have layout : next.heap.layout = arena.heap.layout := by rw [heap, Heap.recolor_layout]
  refine ⟨rest, sweep ▸ chain.of_layout layout, fun query isDead allocated => ?_⟩
  rw [Heap.allocated_iff_layout, layout, ← Heap.allocated_iff_layout] at allocated
  exact ahead query isDead allocated

/-- A new box is live, white and unpinned, and points only at live boxes. -/
theorem of_allocateFinish (reclaims : arena.Reclaims since dead) (le : since ≤ arena.heap.fresh)
    (unused : arena.heap.boxes arena.heap.fresh = none) {request : Allocation}
    (children : ∀ child ∈ request.value.children, ¬dead child) :
    (arena.allocateFinish request).1.Reclaims since dead := by
  rw [arena.allocateFinish_eq request]
  have newLive : ¬dead arena.heap.fresh := fun isDead =>
    absurd le (not_le.mpr (reclaims.below _ isDead))
  refine ⟨reclaims.below, fun query box found count => ?_, fun parent box live found => ?_,
    fun query box found dark => ?_, fun sweeping => ?_⟩
  · rcases Heap.alloc_boxes_eq_some found with ⟨rfl, rfl⟩ | ⟨-, found₀⟩
    exacts [newLive, reclaims.pinned query box found₀ count]
  · rcases Heap.alloc_boxes_eq_some found with ⟨rfl, rfl⟩ | ⟨-, found₀⟩
    exacts [children, reclaims.closed parent box live found₀]
  · rcases Heap.alloc_boxes_eq_some found with ⟨rfl, rfl⟩ | ⟨-, found₀⟩
    exacts [newLive, reclaims.marked query box found₀ dark]
  · obtain ⟨rest, chain, ahead⟩ := reclaims.ahead sweeping
    have kept : ∀ query, arena.heap.Allocated query →
        (arena.heap.alloc (request.box arena.all)).1.boxes query = arena.heap.boxes query :=
      fun query allocated => by
        have other : query ≠ arena.heap.fresh := fun same => allocated (same ▸ unused)
        simp [other]
    refine ⟨rest, chain.of_agree fun query member => kept query (chain.mem_allocated member),
      fun query isDead allocated => ahead query isDead ?_⟩
    have other : query ≠ arena.heap.fresh := fun same => newLive (same ▸ isDead)
    simpa [Heap.Allocated, other] using allocated

/-- `root` pins a live box, and turns it light gray when white. -/
theorem of_root (reclaims : arena.Reclaims since dead) {gc : Ptr} (live : ¬dead gc)
    (success : arena.root gc = .ok next) : next.Reclaims since dead := by
  obtain ⟨gcBox, found, -, heap⟩ := root_heap success
  obtain ⟨gcBox', -, -, same⟩ := root_eq_ok success
  have frame : next.sweep = arena.sweep ∧ next.phase = arena.phase := by
    rw [same]
    split <;> exact ⟨rfl, rfl⟩
  exact reclaims.of_set found heap frame.1 frame.2 rfl rfl (fun _ => live) (fun _ => live)
    fun _ => reclaims.closed gc gcBox live found

/-- `write_barrier` turns a black box dark gray: a marked box stays marked. -/
theorem of_writeBarrier (reclaims : arena.Reclaims since dead) {gc : Ptr}
    (success : arena.writeBarrier gc = .ok next) : next.Reclaims since dead := by
  obtain ⟨gcBox, found, success⟩ := bind_eq_ok.mp success
  rw [Heap.get_eq_ok] at found
  split at success
  · rename_i fired
    cases success
    exact reclaims.of_recolor (fun _ => reclaims.marked gc gcBox found (by rw [fired.2]; decide))
      rfl rfl rfl
  · cases success
    exact reclaims

/-- `Rgc::clone` pins a pinned box once more. -/
theorem of_clone (reclaims : arena.Reclaims since dead) {gc : Ptr} {heap : Heap}
    (pinned : ∀ gcBox, arena.heap.boxes gc = some gcBox → gcBox.rootCount.count ≠ 0)
    (success : Rgc.clone arena.heap gc = .ok heap) : { arena with heap }.Reclaims since dead := by
  obtain ⟨gcBox, found, -, rfl⟩ := Rgc.clone_eq_ok success
  have live := reclaims.pinned gc gcBox found (pinned gcBox found)
  exact reclaims.of_set found rfl rfl rfl rfl rfl (fun _ => live) (fun _ => live)
    fun _ => reclaims.closed gc gcBox live found

/-- `Rgc::drop` on a live arena releases one pin and frees nothing. -/
theorem of_drop (reclaims : arena.Reclaims since dead) {gc : Ptr} {heap : Heap}
    (pinned : ∀ gcBox, arena.heap.boxes gc = some gcBox → gcBox.rootCount.count ≠ 0 ∧
      gcBox.rootCount.count ≤ usizeMax ∧ gcBox.flags.isDetached = false)
    (success : Rgc.drop arena.heap gc = .ok heap) : { arena with heap }.Reclaims since dead := by
  obtain ⟨gcBox, found, freed⟩ := Rgc.drop_eq_ok success
  obtain ⟨count, -, attached⟩ := pinned gcBox found
  simp only [attached, Bool.false_eq_true, and_false, if_false] at freed
  subst freed
  have live := reclaims.pinned gc gcBox found count
  exact reclaims.of_set found rfl rfl rfl rfl rfl (fun _ => live) (fun _ => live)
    fun _ => reclaims.closed gc gcBox live found

/-- An edit of a payload whose new pointers are old ones or point at live boxes. -/
theorem of_mutate (reclaims : arena.Reclaims since dead) {gc : Ptr} {gcBox : GcBox}
    {value : GcValue} (found : arena.heap.boxes gc = some gcBox)
    (children : ∀ child ∈ value.children, child ∈ gcBox.value.children ∨ ¬dead child) :
    { arena with heap := arena.heap.set gc { gcBox with value } }.Reclaims since dead :=
  reclaims.of_set found rfl rfl rfl rfl rfl (reclaims.pinned gc gcBox found)
    (reclaims.marked gc gcBox found) fun live child member =>
      (children child member).elim (reclaims.closed gc gcBox live found child) id

variable {cells : List Ptr} {pending : ℕ} {workLeft : Budget} {blockedGrayCount : ℕ} {pass : Pass}

/-- A pass of `do_collection`: propagation marks only live boxes, the sweep starts with every
box ahead of its cursor, and it frees a dead box when the cursor arrives there. -/
theorem of_collectionStep (reclaims : arena.Reclaims since dead)
    (shape : ListShape arena cells pending)
    (success : arena.collectionStep workLeft blockedGrayCount = .ok pass) :
    pass.arena.Reclaims since dead := by
  have prunes := collectionStep_prunes success
  rcases collectionStep_eq_ok success with
    ⟨-, rfl⟩ | ⟨propagating, propagated⟩ | ⟨sweeping, swept⟩
  · exact reclaims
  · refine reclaims.of_prunes prunes
      (propagate_markedWithin reclaims.marked reclaims.pinned reclaims.closed propagated)
      fun sweeping => ?_
    rcases propagate_eq_ok propagated with ⟨-, next⟩ | marks
    · rw [next]
      exact ⟨cells, shape.chain, fun address _ allocated => (shape.mem_iff address).mpr allocated⟩
    · exact absurd (propagating.symm.trans (marks.phase.symm.trans sweeping)) (by decide)
  · refine reclaims.of_prunes prunes (sweepStep_markedWithin reclaims.marked reclaims.pinned swept)
      fun sweeping' => ?_
    obtain ⟨rest, chain, ahead⟩ := reclaims.ahead sweeping
    cases rest with
    | nil =>
      obtain ⟨-, -, ⟨-, -, next⟩ | ⟨sweepPtr, -, cursorAt, -⟩⟩ := sweepStep_eq_ok swept
      · rw [next] at sweeping'
        cases sweeping'
      · rw [cursorAt] at chain
        cases chain
    | cons sweepPtr tail =>
      obtain ⟨-, chain', agree, freed⟩ := sweepStep_advance shape sweeping chain swept
      refine ⟨tail, chain', fun address isDead allocated => ?_⟩
      obtain ⟨gcBox', found'⟩ := Option.ne_none_iff_exists'.mp allocated
      obtain ⟨gcBox, found, -⟩ := prunes address gcBox' found'
      rcases List.mem_cons.mp (ahead address isDead (by simp [Heap.Allocated, found])) with
        rfl | later
      · have white : gcBox.flags.color = .white := by
          by_contra dark
          exact reclaims.marked address gcBox found dark isDead
        exact absurd (freed gcBox found white) allocated
      · exact later

end Reclaims

/-- Waking the collector starts no sweep. -/
theorem sweeping_of_woken {phase phase' : GcPhase}
    (woken : phase' = phase ∨ phase = .sleeping ∧ phase' = .propagating)
    (sweeping : phase' = .sweeping) : phase = .sweeping := by
  rcases woken with rfl | ⟨-, rfl⟩
  exacts [sweeping, nomatch sweeping]

end GcArena

namespace World

variable {world next : World} {ghost : Ghost} {dead : Ptr → Prop}

/-- A step into a live world came from a live world. -/
theorem Step.alive_before {event : Event} (invariant : world.Invariant)
    (step : world.Step event next) (alive : next.dropped = false) : world.dropped = false := by
  cases dropped : world.dropped
  · rfl
  · simp [(step.phase_of_dropped invariant dropped).1] at alive

/-- Leaving the loop of `do_collection`: the lines after it, and the box an `allocate` links,
whose pointers are live. -/
theorem leaveCollection_reclaims {caller : Caller} {arena : GcArena} {work workLeft : Budget}
    {since : ℕ} (reclaims : arena.Reclaims since dead) (le : since ≤ arena.heap.fresh)
    (unused : arena.heap.boxes arena.heap.fresh = none)
    (children : ∀ request, caller = .allocate request →
      ∀ child ∈ request.value.children, ¬dead child) :
    (world.leaveCollection caller arena work workLeft).arena.Reclaims since dead := by
  obtain ⟨debt, finished⟩ := arena.finishCollection_eq work workLeft
  have kept : (arena.finishCollection work workLeft).Reclaims since dead := by
    rw [finished]
    exact reclaims.congr rfl rfl id
  cases caller with
  | collectGarbage => exact kept
  | allocate request =>
    refine kept.of_allocateFinish (by simpa using le) (by simpa using unused) (children request rfl)

/-- Every step of a live arena that keeps the contract keeps `Reclaims`. -/
theorem Step.reclaims {event : Event} (invariant : world.Invariant) (alive : world.dropped = false)
    (tricolor : world.arena.Tricolor ghost) (reclaims : world.arena.Reclaims ghost.since dead)
    (allows : world.Allows ghost event) (step : world.Step event next)
    (stillAlive : next.dropped = false) :
    next.arena.Reclaims (ghost.after world event).since dead := by
  obtain ⟨cells, live⟩ := invariant.live alive
  cases event with
  | allocate request =>
    obtain ⟨-, -, outcome⟩ := Step.allocate_eq step
    obtain ⟨phase, debt, timer, started, woken⟩ := world.arena.allocateStart_eq request.size
    have begun : (world.arena.allocateStart request.size).1.Reclaims ghost.since dead := by
      rw [started]
      exact reclaims.congr rfl rfl (GcArena.sweeping_of_woken woken)
    rcases outcome with ⟨-, rfl⟩ | ⟨work, -, rfl⟩
    · refine begun.of_allocateFinish (by simpa using tricolor.since_le)
        (by simpa using live.shape.unused _ le_rfl) fun child member => ?_
      exact reclaims.live (allows child member).inUse
    · exact begun
  | root gc =>
    obtain ⟨-, -, arena, success, rfl⟩ := Step.root_eq step
    exact reclaims.of_root (reclaims.live (Storable.inUse allows)) success
  | writeBarrier gc =>
    obtain ⟨-, -, arena, success, rfl⟩ := Step.writeBarrier_eq step
    exact reclaims.of_writeBarrier success
  | collectGarbage =>
    obtain ⟨-, -, rfl⟩ := Step.collectGarbage_eq step
    obtain ⟨phase, started, woken⟩ := world.arena.startCycle_eq
    show world.arena.startCycle.Reclaims ghost.since dead
    rw [started]
    exact reclaims.congr rfl rfl (GcArena.sweeping_of_woken woken)
  | cloneRgc gc =>
    obtain ⟨-, held, heap, success, rfl⟩ := Step.cloneRgc_eq step
    exact reclaims.of_clone (fun gcBox found => (invariant.pins.pinned_iff found).mpr held) success
  | dropRgc gc =>
    obtain ⟨-, held, heap, success, rfl⟩ := Step.dropRgc_eq step
    refine reclaims.of_drop (fun gcBox found => ⟨(invariant.pins.pinned_iff found).mpr held, ?_,
      live.attached gc gcBox found⟩) success
    rw [invariant.pins.count gc gcBox found]
    exact invariant.pins.bounded gc
  | mutate gc value =>
    obtain ⟨-, gcBox, found, rfl⟩ := Step.mutate_eq step
    rw [Ghost.since_after (by simp)]
    exact reclaims.of_mutate found fun child member =>
      (allows gcBox found child member).imp_right fun storable => reclaims.live storable.inUse
  | dropArena =>
    obtain ⟨-, -, rfl⟩ := Step.dropArena_eq step
    cases stillAlive
  | resume =>
    obtain ⟨since, owed⟩ := ghost
    obtain ⟨paid, children⟩ := allows
    cases paid
    have later := reclaims.later tricolor.since_le
    have pointers : ∀ {caller work workLeft blockedGrayCount},
        world.control = .collecting caller work workLeft blockedGrayCount → ∀ request,
        caller = .allocate request → ∀ child ∈ request.value.children, ¬dead child :=
      fun collecting request same child member =>
        reclaims.live ((children request _ _ _ (same ▸ collecting) child member).inUse _)
    rcases Step.resume_eq step with
      ⟨caller, work, workLeft, blockedGrayCount, collecting, ⟨-, pass, success, rfl⟩ | ⟨-, rfl⟩⟩ |
      ⟨address, -, -, dropping, -, -⟩
    · have passed := later.of_collectionStep live.shape success
      split
      · obtain ⟨cells', shape'⟩ := live.shape.exists_of_collectionStep success
        exact leaveCollection_reclaims passed
          (tricolor.of_collectionStep live.shape live.marked success).since_le
          (shape'.unused _ le_rfl) (pointers collecting)
      · exact passed
    · exact leaveCollection_reclaims later le_rfl (live.shape.unused _ le_rfl) (pointers collecting)
    · exact absurd (invariant.dropped_of_dropping dropping) (by simp [alive])

end World

namespace ContractPath

variable {world last : World} {ghost ghost' : Ghost} {events : List Event} {dead : Ptr → Prop}

/-- A stretch that ends in a live world ran through live worlds. -/
theorem alive_start (run : ContractRun world ghost) (path : ContractPath world ghost events last ghost')
    (alive : last.dropped = false) : world.dropped = false := by
  induction path with
  | nil => exact alive
  | cons allows step _ ih =>
    exact step.alive_before run.reachable.invariant (ih (run.step allows step) alive)

/-- Every stretch of a run that keeps the contract keeps `Reclaims`. -/
theorem reclaims (run : ContractRun world ghost) (path : ContractPath world ghost events last ghost')
    (alive : last.dropped = false) (reclaims : world.arena.Reclaims ghost.since dead) :
    last.arena.Reclaims ghost'.since dead := by
  induction path with
  | nil => exact reclaims
  | cons allows step rest ih =>
    have nextAlive := rest.alive_start (run.step allows step) alive
    have worldAlive := step.alive_before run.reachable.invariant nextAlive
    exact ih (run.step allows step) alive (step.reclaims run.reachable.invariant worldAlive
      (run.tricolor worldAlive) reclaims allows nextAlive)

end ContractPath

namespace ContractRun

variable {world last final : World} {ghost ghost' : Ghost} {events : List Event}

/-- While the collector sleeps, the garbage of the contract's bookkeeping is what `Reclaims`
asks of the dead boxes: a light gray box is pinned, so only live boxes are marked. -/
theorem reclaims_garbage (run : ContractRun world ghost) (alive : world.dropped = false)
    (sleeping : world.arena.phase = .sleeping) :
    world.arena.Reclaims ghost.since (world.Garbage ghost) where
  below address garbage := not_le.mp fun above => garbage.2 (.fresh above garbage.1)
  pinned address gcBox found count garbage := garbage.2 (.pinned found count)
  closed parent gcBox live found child member garbage :=
    live ⟨by simp [Heap.Allocated, found], fun inUse => garbage.2 (.child inUse found member)⟩
  marked address gcBox found dark garbage := by
    rcases (run.reachable.colorsSettled alive).asleep sleeping address gcBox found
      (List.not_mem_nil _) with white | ⟨light, -⟩
    · exact dark white
    · exact garbage.2 (.pinned found ((run.tricolor alive).lightPinned address gcBox found light))
  ahead sweeping := absurd (sleeping.symm.trans sweeping) (by decide)

/-- Under the contract, a box that is garbage while the collector sleeps is freed by the end of
the next sweep, whatever the host does meanwhile: a stretch of the run that reaches the sweep and
then the pass that ends it leaves the box freed. -/
theorem sweep_end_frees_garbage (run : ContractRun world ghost)
    (sleeping : world.arena.phase = .sleeping) (path : ContractPath world ghost events last ghost')
    (alive : last.dropped = false) (sweeping : last.arena.phase = .sweeping)
    (step : last.Step .resume final) (asleep : final.arena.phase = .sleeping) {address : Ptr}
    (allocated : world.arena.heap.Allocated address)
    (unused : ¬world.arena.heap.InUse ghost.since address) : final.arena.heap.boxes address = none := by
  have reclaims := path.reclaims run alive
    (run.reclaims_garbage (path.alive_start run alive) sleeping)
  obtain ⟨rest, chain, ahead⟩ := reclaims.ahead sweeping
  obtain ⟨atEnd, same⟩ := step.endSweep sweeping asleep
  rw [atEnd] at chain
  cases chain
  rw [same]
  by_contra present
  exact absurd (ahead address ⟨allocated, unused⟩ present) (List.not_mem_nil _)

/-- Box 1 is rooted and points at box 0; a full cycle runs, then the host clears box 1's
payload, and box 0 is garbage. The next cycle's sweep starts four passes later. -/
private def unlinkRun : List Event :=
  [.allocate ⟨32, by decide, true, {}⟩, .allocate ⟨32, by decide, true, ⟨[0], false⟩⟩, .root 1,
    .collectGarbage, .resume, .resume, .resume, .resume, .resume, .resume, .resume, .mutate 1 {}]

private def nextSweep : List Event :=
  [.collectGarbage, .resume, .resume, .resume, .resume]

private theorem exists_unlinkRun :
    ∃ world ghost, ContractRun world ghost ∧ world.dropped = false ∧
      world.arena.phase = .sleeping ∧ world.arena.heap.unreferenced ghost.since 0 = true ∧
      World.contractSatisfies (fun last _ => last.dropped = false ∧ last.arena.phase = .sweeping ∧
        last.runSatisfies [.resume] (fun final => final.arena.phase = .sleeping) = true)
        world ghost nextSweep = true :=
  @ContractRun.exists_of_contractSatisfies _ _ unlinkRun (fun world ghost => _) _ (.initial .default)
    (by decide)

theorem sweep_end_frees_garbage_unlinked :
    ∃ world ghost events last ghost' final, ContractRun world ghost ∧
      world.arena.phase = .sleeping ∧ ContractPath world ghost events last ghost' ∧
      last.dropped = false ∧ last.arena.phase = .sweeping ∧ last.Step .resume final ∧
      final.arena.phase = .sleeping ∧ world.arena.heap.Allocated 0 ∧
      ¬world.arena.heap.InUse ghost.since 0 ∧ final.arena.heap.boxes 0 = none := by
  obtain ⟨world, ghost, run, alive, sleeping, checked, later⟩ := exists_unlinkRun
  obtain ⟨last, ghost', path, lastAlive, sweeping, ended⟩ :=
    ContractPath.exists_of_contractSatisfies later
  obtain ⟨final, resumed, asleep⟩ := World.exists_path_of_runSatisfies ended
  obtain ⟨cells, live⟩ := run.reachable.invariant.live alive
  obtain ⟨allocated, unused⟩ := Heap.garbage_of_unreferenced live.shape.unused checked
  exact ⟨world, ghost, nextSweep, last, ghost', final, run, sleeping, path, lastAlive, sweeping,
    resumed.step_of_single, asleep, allocated, unused, sweep_end_frees_garbage run sleeping path
      lastAlive sweeping resumed.step_of_single asleep allocated unused⟩

end ContractRun

end LusterGc
