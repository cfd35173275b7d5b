import LusterGc.Soundness.Safety

/-! # What a full collection frees

`collect_garbage` called while the collector sleeps runs a whole cycle before it returns. When
it returns asleep, it has freed every box that no pinned box reached when it was called, and,
under the contract with no barrier owed, kept every other one.

Freeing rests on one invariant of propagation: every box the cycle has marked is reachable. Propagation traces only dark gray boxes, which a reachable box's trace darkened, and
pinned ones, so a box out of reach stays white, and the sweep, which starts with the whole list
ahead of its cursor, frees it. The cycle needs every light gray box pinned when it starts, which
the contract keeps; without it the cycle starts from an unpinned light gray box that it neither
traces nor whitens. Keeping rests on `Tricolor`, which every pass keeps.
-/

namespace LusterGc

namespace Heap

variable {heap heap' : Heap}

/-- Reachability reads only the pins and the payloads, which the frame of a box holds. -/
theorem Reaches.of_frame
    (same : ∀ address, (heap'.boxes address).map frame = (heap.boxes address).map frame)
    {address : Ptr} (reaches : heap.Reaches address) : heap'.Reaches address :=
  reaches.of_kept fun address gcBox _ found => by
    have framed := same address
    rw [found] at framed
    obtain ⟨gcBox', found', equal⟩ := Option.map_eq_some'.mp framed
    simp only [frame, Prod.mk.injEq] at equal
    exact ⟨gcBox', found', equal.2.2.2.1, equal.2.1⟩

theorem Shades.reaches_iff (shades : heap.Shades heap') {address : Ptr} :
    heap'.Reaches address ↔ heap.Reaches address :=
  ⟨Reaches.of_frame fun address => (shades.frame address).symm, Reaches.of_frame shades.frame⟩

/-- Every box the collector has marked satisfies `held`. -/
def MarkedWithin (held : Ptr → Prop) (heap : Heap) : Prop :=
  ∀ address gcBox, heap.boxes address = some gcBox → gcBox.flags.color ≠ .white → held address

/-- Recolouring keeps every marked box held when the box it marks is held. -/
theorem MarkedWithin.recolor {held : Ptr → Prop} (marked : heap.MarkedWithin held) {address : Ptr}
    {color : GcColor} (holds : color ≠ .white → held address) :
    (heap.recolor address color).MarkedWithin held := by
  intro query gcBox' found' marked'
  rw [recolor_boxes] at found'
  split at found'
  · subst query
    obtain ⟨gcBox, -, rfl⟩ := Option.map_eq_some'.mp found'
    exact holds (by simpa using marked')
  · exact marked query gcBox' found' marked'

end Heap

section Marking

variable {held : Ptr → Prop}

/-- A trace of a held pointer keeps every marked box held. -/
theorem GcTracer.trace_markedWithin {arena next : GcArena} {gc : Ptr}
    (marked : arena.heap.MarkedWithin held) (holds : held gc)
    (success : GcTracer.trace arena gc = .ok next) : next.heap.MarkedWithin held := by
  obtain ⟨gcBox, -, success⟩ := bind_eq_ok.mp success
  revert success
  cases gcBox.flags.color <;> simp only [GcFlags.needsTrace_eq_true, ite_true] <;>
    intro success <;> cases success
  · exact marked.recolor fun _ => holds
  · exact marked.recolor fun _ => holds
  · exact marked
  · exact marked

theorem GcTracer.foldlM_trace_markedWithin {children : List Ptr} {arena next : GcArena}
    (folded : children.foldlM GcTracer.trace arena = .ok next) (marked : arena.heap.MarkedWithin held)
    (holds : ∀ child ∈ children, held child) : next.heap.MarkedWithin held := by
  induction children generalizing arena with
  | nil =>
    cases folded
    exact marked
  | cons child rest ih =>
    rw [List.foldlM_cons] at folded
    obtain ⟨middle, first, folded⟩ := bind_eq_ok.mp folded
    exact ih folded (GcTracer.trace_markedWithin marked (holds child (List.mem_cons_self _ _)) first)
      fun other member => holds other (List.mem_cons_of_mem _ member)

variable {arena : GcArena} {workLeft : Budget} {blockedGrayCount : ℕ} {pass : Pass}

/-- A pass of propagation keeps every marked box held, when `held` holds every pinned box and
every pointer of a held box: it traces a dark gray box, which is marked, or a pinned one. -/
theorem GcArena.propagate_markedWithin (marked : arena.heap.MarkedWithin held)
    (pinned : ∀ address gcBox, arena.heap.boxes address = some gcBox →
      gcBox.rootCount.count ≠ 0 → held address)
    (closed : ∀ parent gcBox, held parent → arena.heap.boxes parent = some gcBox →
      ∀ child ∈ gcBox.value.children, held child)
    (success : arena.propagate workLeft blockedGrayCount = .ok pass) :
    pass.arena.heap.MarkedWithin held := by
  cases queue : arena.gray with
  | nil =>
    rw [GcArena.propagate_start queue] at success
    cases success
    exact marked
  | cons gcBoxPtr gray =>
    obtain ⟨gcBox, found, ⟨traceable, ⟨traced, folded, next⟩ | next⟩ | ⟨-, next⟩⟩ :=
      GcArena.propagate_pop success queue
    · have holds : held gcBoxPtr := traceable.elim
        (fun dark => marked gcBoxPtr gcBox found (by rw [dark]; decide)) (pinned _ _ found)
      rw [next]
      exact (GcTracer.foldlM_trace_markedWithin folded marked (closed _ _ holds found)).recolor
        fun _ => holds
    · rw [next]
      exact marked
    · rw [next]
      exact marked

/-- A pass of the sweep keeps every marked box held, when `held` holds every pinned box: the box
it keeps turns white, or light gray when pinned. -/
theorem GcArena.sweepStep_markedWithin (marked : arena.heap.MarkedWithin held)
    (pinned : ∀ address gcBox, arena.heap.boxes address = some gcBox →
      gcBox.rootCount.count ≠ 0 → held address)
    (success : arena.sweepStep workLeft blockedGrayCount = .ok pass) :
    pass.arena.heap.MarkedWithin held := by
  obtain ⟨-, -, ⟨-, -, next⟩ | ⟨sweepPtr, gcBox, -, found, ⟨-, -, unlinked, unlinking, -, next⟩ |
    ⟨-, -, next⟩⟩⟩ := GcArena.sweepStep_eq_ok success
  · rw [next]
    exact marked
  · rw [next]
    intro address gcBox' found' marked'
    have kept : unlinked.heap.boxes address = some gcBox' := by
      by_cases here : address = sweepPtr <;> simp_all
    obtain ⟨old, found₀, flags⟩ := GcArena.unlink_flags unlinking kept
    exact marked address old found₀ (flags ▸ marked')
  · rw [next]
    split
    · rename_i rooted
      exact marked.recolor fun _ => pinned sweepPtr gcBox found (by simpa using rooted)
    · exact marked.recolor fun white => absurd rfl white

end Marking

namespace GcArena

variable {arena final : GcArena} {cells : List Ptr} {pending : ℕ} {workLeft : Budget}
  {blockedGrayCount : ℕ} {pass : Pass} {target : Ptr}

/-- A pass of the sweep at a box moves the cursor down the rest of the list, frees the box when
it is white, and leaves every later box of the rest as it was. -/
theorem sweepStep_advance (shape : ListShape arena cells pending)
    (sweeping : arena.phase = .sweeping) {sweepPtr : Ptr} {tail : List Ptr}
    (chain : Chain arena.heap arena.sweep (sweepPtr :: tail) none)
    (success : arena.sweepStep workLeft blockedGrayCount = .ok pass) :
    pass.arena.phase = .sweeping ∧ Chain pass.arena.heap pass.arena.sweep tail none ∧
      (∀ address ∈ tail, pass.arena.heap.boxes address = arena.heap.boxes address) ∧
      ∀ gcBox, arena.heap.boxes sweepPtr = some gcBox → gcBox.flags.color = .white →
        pass.arena.heap.boxes sweepPtr = none := by
  obtain ⟨nodup, prevOff⟩ := shape.rest_of_chain sweeping chain
  obtain ⟨cursorAt, gcBox, found, tail'⟩ := Chain.cons_iff.mp chain
  have visited := (List.nodup_cons.mp nodup).1
  obtain ⟨-, -, ⟨atEnd, -, -⟩ | ⟨sweepPtr', gcBox', cursorAt', found', outcome⟩⟩ :=
    sweepStep_eq_ok success
  · exact absurd (cursorAt.symm.trans atEnd) (by simp)
  cases cursorAt.symm.trans cursorAt'
  cases found.symm.trans found'
  rcases outcome with ⟨-, -, unlinked, unlinking, -, next⟩ | ⟨marked, -, next⟩
  · -- freed: `unlink` relinks `sweep_prev`, which is off the rest
    obtain ⟨sweepAt, -, -, phase, -⟩ := unlink_frame unlinking
    have agree := unlink_erase_agree unlinking visited fun prev set member =>
      prevOff prev set (List.mem_cons_of_mem _ member)
    rw [next]
    refine ⟨phase.trans sweeping, ?_, agree, fun _ _ _ => by simp⟩
    show Chain _ unlinked.sweep tail none
    rw [sweepAt]
    exact tail'.of_agree agree
  · -- kept: only the box at the cursor is recoloured
    have other : ∀ color, ∀ address ∈ tail,
        (arena.heap.recolor sweepPtr color).boxes address = arena.heap.boxes address :=
      fun color address member => by
        rw [Heap.recolor_boxes, if_neg fun (same : address = sweepPtr) => visited (same ▸ member)]
    have black : ∀ box, arena.heap.boxes sweepPtr = some box → box.flags.color ≠ .white :=
      fun box found'' => by cases found.symm.trans found''; exact marked
    rw [next]
    split
    · exact ⟨sweeping, tail'.of_layout (Heap.recolor_layout _ _ _), other _,
        fun box found'' white => absurd white (black box found'')⟩
    · exact ⟨sweeping, tail'.of_layout (Heap.recolor_layout _ _ _), other _,
        fun box found'' white => absurd white (black box found'')⟩

/-- What every pass of `do_collection` keeps holds of the arena the loop leaves with. -/
theorem collectionLoop_invariant (keeps : GcArena → Prop)
    (step : ∀ arena workLeft blockedGrayCount pass, keeps arena →
      arena.collectionStep workLeft blockedGrayCount = .ok pass → keeps pass.arena)
    {fuel : ℕ} {workLeft' : Budget} (holds : keeps arena)
    (looped : arena.collectionLoop fuel workLeft blockedGrayCount = some (.ok (final, workLeft'))) :
    keeps final := by
  induction fuel generalizing arena workLeft blockedGrayCount with
  | zero => cases looped
  | succ fuel ih =>
    cases positive : workLeft.positive
    · simp only [collectionLoop, positive, Bool.false_eq_true, if_false, Option.some.injEq,
        Except.ok.injEq, Prod.mk.injEq] at looped
      rw [← looped.1]
      exact holds
    cases stepped : arena.collectionStep workLeft blockedGrayCount with
    | error fault => simp [collectionLoop, positive, stepped] at looped
    | ok pass =>
      rw [collectionLoop_of_pass positive stepped] at looped
      have kept := step _ _ _ _ holds stepped
      split at looped
      · cases looped
        exact kept
      · exact ih kept looped

/-- Where a cycle stands with `target`, a box that no pinned box reached when it started: while
propagating, every marked box is reachable and `target` is not; while sweeping, `target`, if
allocated, is white and ahead of the cursor; asleep again, it is freed. -/
def Doomed (arena : GcArena) (target : Ptr) : Prop :=
  match arena.phase with
  | .propagating => arena.heap.MarkedWithin arena.heap.Reaches ∧ ¬arena.heap.Reaches target
  | .sweeping => ∀ gcBox, arena.heap.boxes target = some gcBox →
      gcBox.flags.color = .white ∧ ∃ rest, Chain arena.heap arena.sweep rest none ∧ target ∈ rest
  | .sleeping => arena.heap.boxes target = none

theorem doomed_of_propagating (propagating : arena.phase = .propagating) :
    arena.Doomed target ↔
      arena.heap.MarkedWithin arena.heap.Reaches ∧ ¬arena.heap.Reaches target := by
  rw [Doomed, propagating]

theorem doomed_of_sweeping (sweeping : arena.phase = .sweeping) :
    arena.Doomed target ↔ ∀ gcBox, arena.heap.boxes target = some gcBox →
      gcBox.flags.color = .white ∧ ∃ rest, Chain arena.heap arena.sweep rest none ∧ target ∈ rest := by
  rw [Doomed, sweeping]

theorem doomed_of_sleeping (sleeping : arena.phase = .sleeping) :
    arena.Doomed target ↔ arena.heap.boxes target = none := by
  rw [Doomed, sleeping]

namespace Doomed

/-- Propagation keeps `target` white; when the queue runs dry, the sweep starts with every box
ahead of its cursor. -/
theorem of_propagate (doomed : arena.Doomed target) (shape : ListShape arena cells pending)
    (propagating : arena.phase = .propagating)
    (success : arena.propagate workLeft blockedGrayCount = .ok pass) : pass.arena.Doomed target := by
  obtain ⟨marked, unreached⟩ := (doomed_of_propagating propagating).mp doomed
  rcases propagate_eq_ok success with ⟨-, next⟩ | marks
  · rw [next, doomed_of_sweeping rfl]
    intro gcBox found
    refine ⟨?_, cells, shape.chain,
      (shape.mem_iff target).mpr (Option.ne_none_iff_exists'.mpr ⟨gcBox, found⟩)⟩
    by_contra dark
    exact unreached (marked target gcBox found dark)
  · rw [doomed_of_propagating (marks.phase.trans propagating), marks.shades.reaches_iff]
    refine ⟨fun address gcBox found dark => ?_, unreached⟩
    rw [marks.shades.reaches_iff]
    exact propagate_markedWithin marked (fun _ _ found pinned => .pinned found pinned)
      (fun _ _ reaches found _ member => .child reaches found member) success address gcBox found dark

/-- The sweep frees `target` when its cursor arrives there, and leaves it white and ahead of the
cursor until then. -/
theorem of_sweepStep (doomed : arena.Doomed target) (shape : ListShape arena cells pending)
    (sweeping : arena.phase = .sweeping)
    (success : arena.sweepStep workLeft blockedGrayCount = .ok pass) : pass.arena.Doomed target := by
  rw [doomed_of_sweeping sweeping] at doomed
  obtain ⟨-, rest, -, -, chain, -⟩ := shape.cursor sweeping
  cases rest with
  | nil =>
    -- the end of the list: `target` was not ahead of the cursor
    obtain ⟨-, -, ⟨-, -, next⟩ | ⟨sweepPtr, -, cursorAt, -⟩⟩ := sweepStep_eq_ok success
    · rw [next, doomed_of_sleeping rfl]
      cases found : arena.heap.boxes target with
      | none => rfl
      | some gcBox =>
        obtain ⟨-, rest, ahead, member⟩ := doomed gcBox found
        cases chain.unique ahead
        exact absurd member (List.not_mem_nil _)
    · rw [cursorAt] at chain
      cases chain
  | cons sweepPtr tail =>
    obtain ⟨phase, chain', agree, freed⟩ := sweepStep_advance shape sweeping chain success
    have stepped := (collectionStep_of_sweeping sweeping workLeft blockedGrayCount).trans success
    rw [doomed_of_sweeping phase]
    intro gcBox' found'
    obtain ⟨gcBox, found, -⟩ := collectionStep_prunes stepped target gcBox' found'
    obtain ⟨white, rest, ahead, member⟩ := doomed gcBox found
    cases chain.unique ahead
    rcases List.mem_cons.mp member with rfl | later
    · rw [freed gcBox found white] at found'
      cases found'
    · rw [agree target later, found] at found'
      cases found'
      exact ⟨white, tail, chain', later⟩

theorem of_collectionStep (doomed : arena.Doomed target) (shape : ListShape arena cells pending)
    (success : arena.collectionStep workLeft blockedGrayCount = .ok pass) :
    pass.arena.Doomed target := by
  rcases collectionStep_eq_ok success with
    ⟨-, rfl⟩ | ⟨propagating, propagated⟩ | ⟨sweeping, swept⟩
  · exact doomed
  · exact doomed.of_propagate shape propagating propagated
  · exact doomed.of_sweepStep shape sweeping swept

end Doomed

/-- `collect_garbage` called asleep, with every light gray box pinned, that returns asleep has
freed every box that no pinned box reached. -/
theorem collectGarbage_frees (shape : ListShape arena cells pending) (settled : arena.ColorsSettled)
    (lightPinned : arena.heap.LightPinned) (sleeping : arena.phase = .sleeping) {fuel : ℕ}
    (returned : arena.collectGarbage fuel = some (.ok final)) (asleep : final.phase = .sleeping)
    (unreached : ¬arena.heap.Reaches target) : final.heap.boxes target = none := by
  have marked : arena.heap.MarkedWithin arena.heap.Reaches := fun address gcBox found dark => by
    rcases settled.asleep sleeping address gcBox found (List.not_mem_nil _) with white | ⟨light, -⟩
    · exact absurd white dark
    · exact .pinned found (lightPinned address gcBox found light)
  have started : arena.startCycle.Doomed target := by
    rw [doomed_of_propagating (by simp [startCycle, sleeping])]
    simpa [startCycle, sleeping] using And.intro marked unreached
  obtain ⟨left, workLeft, looped, rfl⟩ := collectGarbage_eq_ok returned
  obtain ⟨debt, same⟩ := left.finishCollection_eq .infinite workLeft
  rw [same] at asleep ⊢
  have doomed := collectionLoop_invariant
    (fun arena => arena.Doomed target ∧ ∃ cells, ListShape arena cells pending)
    (fun _ _ _ _ ⟨doomed, _, shape⟩ stepped =>
      ⟨doomed.of_collectionStep shape stepped, shape.exists_of_collectionStep stepped⟩)
    ⟨started, cells, shape.of_startCycle⟩ looped
  exact (doomed_of_sleeping (show left.phase = .sleeping from asleep)).mp doomed.1

variable {since : ℕ}

/-- With no barrier owed, `collect_garbage` keeps every box that a pinned box reaches. -/
theorem Tricolor.collectGarbage_keeps (tricolor : arena.Tricolor ⟨since, []⟩)
    (settled : arena.ColorsSettled) (shape : ListShape arena cells pending)
    (marked : RootsMarked arena.heap) {fuel : ℕ}
    (returned : arena.collectGarbage fuel = some (.ok final)) (reaches : arena.heap.Reaches target) :
    final.heap.Allocated target := by
  obtain ⟨left, workLeft, looped, rfl⟩ := collectGarbage_eq_ok returned
  obtain ⟨debt, same⟩ := left.finishCollection_eq .infinite workLeft
  rw [same]
  obtain ⟨⟨since', tricolor'⟩, -, -, reaches'⟩ := collectionLoop_invariant
    (fun arena => (∃ since, arena.Tricolor ⟨since, []⟩) ∧ (∃ cells, ListShape arena cells pending) ∧
      RootsMarked arena.heap ∧ arena.heap.Reaches target)
    (fun _ _ _ _ ⟨⟨_, tricolor⟩, ⟨_, shape⟩, marked, reaches⟩ stepped =>
      ⟨⟨_, tricolor.of_collectionStep shape marked stepped⟩, shape.exists_of_collectionStep stepped,
        marked.of_collects (collectionStep_collects stepped),
        reaches.of_kept fun _ _ reaches found =>
          tricolor.kept_of_collectionStep shape stepped (reaches.inUse _) found⟩)
    ⟨⟨since, tricolor.of_startCycle settled⟩, ⟨cells, shape.of_startCycle⟩,
      by simpa using marked, by simpa using reaches⟩ looped
  exact tricolor'.allocated target (reaches'.inUse _)

end GcArena

namespace ContractRun

variable {world : World} {ghost : Ghost}

/-- Under the contract, `collect_garbage` called asleep with no barrier owed, when it returns
asleep, leaves allocated exactly the boxes that a pinned box reached when it was called. -/
theorem collectGarbage_frees_exactly (run : ContractRun world ghost)
    (alive : world.dropped = false) (paid : ghost.owed = []) (sleeping : world.arena.phase = .sleeping)
    {fuel : ℕ} {arena : GcArena} (returned : world.arena.collectGarbage fuel = some (.ok arena))
    (asleep : arena.phase = .sleeping) (address : Ptr) :
    arena.heap.Allocated address ↔ world.arena.heap.Reaches address := by
  obtain ⟨cells, live⟩ := run.reachable.invariant.live alive
  have tricolor := run.tricolor alive
  have settled := run.reachable.colorsSettled alive
  refine ⟨fun allocated => ?_, fun reaches => ?_⟩
  · by_contra unreached
    exact allocated (GcArena.collectGarbage_frees live.shape settled tricolor.lightPinned sleeping
      returned asleep unreached)
  · obtain ⟨since, owed⟩ := ghost
    subst paid
    exact tricolor.collectGarbage_keeps settled live.shape live.marked returned reaches

/-- A run that keeps the contract: a pinned box and an unpinned one, both without pointers. -/
private def pinnedRun : List Event :=
  [.allocate ⟨32, by decide, true, {}⟩, .root 0, .allocate ⟨32, by decide, true, {}⟩]

private theorem exists_pinnedRun :
    ∃ world ghost, ContractRun world ghost ∧ world.dropped = false ∧ ghost.owed = [] ∧
      world.arena.phase = .sleeping ∧ (match world.arena.collectGarbage 20 with
        | some (.ok arena) => arena.phase == .sleeping
        | _ => false) = true :=
  @ContractRun.exists_of_contractSatisfies _ _ pinnedRun (fun world ghost => _) _ (.initial .default)
    (by decide)

theorem collectGarbage_frees_exactly_pinned :
    ∃ world ghost arena, ContractRun world ghost ∧ world.dropped = false ∧ ghost.owed = [] ∧
      world.arena.phase = .sleeping ∧ world.arena.collectGarbage 20 = some (.ok arena) ∧
      arena.phase = .sleeping ∧
      ∀ address, arena.heap.Allocated address ↔ world.arena.heap.Reaches address := by
  obtain ⟨world, ghost, run, alive, paid, sleeping, returned⟩ := exists_pinnedRun
  split at returned
  · rename_i arena collected
    have asleep : arena.phase = .sleeping := by simpa using returned
    exact ⟨world, ghost, arena, run, alive, paid, sleeping, collected, asleep,
      collectGarbage_frees_exactly run alive paid sleeping collected asleep⟩
  · cases returned

end ContractRun

end LusterGc
