import LusterGc.Soundness.Marking

/-! # The mutator's contract

The docs of `GcArena` and `write_barrier` ask three things of the host. It stores a pointer in a
payload, builds a box holding one, or roots a box, only when the box pointed at is reachable
from a pinned box or was allocated with no collection step since. After an edit that adds a
pointer it calls `write_barrier` on the edited box before the next collection step. And each
`trace` reports the payload's pointers or returns false, which the model's payloads do by
construction. A run keeps the contract when each of its events does. `ContractRun` carries,
beside the world, what the contract has to remember: where the boxes allocated since the last
pass of `do_collection` start, and which boxes still owe a barrier.

The contract lets the host drop any handle. Dropping the last handle of a light gray box leaves
in the gray queue a box the propagation arm skips without tracing; `ContractRun` also leaves
that out, and nothing else.

A box is `InUse` when the host can still reach it: through payload pointers from a pinned box
or from a box allocated since the last pass. Under the contract a host call adds to this set at
most the box it allocates, and a pass of the collector only shrinks it.
-/

namespace LusterGc

namespace Heap

/-- `address` is reachable through payload pointers from a pinned box, or from a box at `since`
or above: allocated with no pass of the collector since. -/
inductive InUse (heap : Heap) (since : ℕ) : Ptr → Prop
  | pinned {address : Ptr} {gcBox : GcBox} : heap.boxes address = some gcBox →
      gcBox.rootCount.count ≠ 0 → heap.InUse since address
  | fresh {address : Ptr} : since ≤ address → heap.Allocated address → heap.InUse since address
  | child {parent address : Ptr} {gcBox : GcBox} : heap.InUse since parent →
      heap.boxes parent = some gcBox → address ∈ gcBox.value.children → heap.InUse since address

variable {heap heap' : Heap} {since since' : ℕ}

theorem Reaches.inUse (since : ℕ) {address : Ptr} (reaches : heap.Reaches address) :
    heap.InUse since address := by
  induction reaches with
  | pinned found pinned => exact .pinned found pinned
  | child _ found member ih => exact .child ih found member

/-- A set that holds the pinned boxes and the boxes at `since` or above, and every pointer of
its boxes, holds every box in use. -/
theorem InUse.closed {held : Ptr → Prop}
    (pinned : ∀ address gcBox, heap.boxes address = some gcBox → gcBox.rootCount.count ≠ 0 →
      held address)
    (fresh : ∀ address, since ≤ address → heap.Allocated address → held address)
    (child : ∀ parent gcBox, held parent → heap.boxes parent = some gcBox →
      ∀ address ∈ gcBox.value.children, held address)
    {address : Ptr} (inUse : heap.InUse since address) : held address := by
  induction inUse with
  | pinned found count => exact pinned _ _ found count
  | fresh above allocated => exact fresh _ above allocated
  | child _ found member ih => exact child _ _ ih found _ member

/-- `heap'` is `heap` with some boxes freed and others recoloured or relinked: every box left
has its payload and pins. -/
def Prunes (heap heap' : Heap) : Prop :=
  ∀ address gcBox', heap'.boxes address = some gcBox' → ∃ gcBox,
    heap.boxes address = some gcBox ∧ gcBox'.value = gcBox.value ∧ gcBox'.rootCount = gcBox.rootCount

namespace Prunes

theorem refl (heap : Heap) : heap.Prunes heap :=
  fun _ gcBox found => ⟨gcBox, found, rfl, rfl⟩

theorem trans {heap'' : Heap} (first : heap.Prunes heap') (second : heap'.Prunes heap'') :
    heap.Prunes heap'' := by
  intro address gcBox'' found
  obtain ⟨gcBox', found', value', count'⟩ := second address gcBox'' found
  obtain ⟨gcBox, found, value, count⟩ := first address gcBox' found'
  exact ⟨gcBox, found, value'.trans value, count'.trans count⟩

theorem of_shades (shades : heap.Shades heap') : heap.Prunes heap' := by
  intro address gcBox' found
  have same := shades.frame address
  rw [found, Option.map_some'] at same
  obtain ⟨gcBox, found₀, framed⟩ := Option.map_eq_some'.mp same.symm
  simp only [frame, Prod.mk.injEq] at framed
  exact ⟨gcBox, found₀, framed.2.2.2.1.symm, framed.2.1.symm⟩

theorem set {address : Ptr} {gcBox gcBox' : GcBox} (found : heap.boxes address = some gcBox)
    (value : gcBox'.value = gcBox.value) (count : gcBox'.rootCount = gcBox.rootCount) :
    heap.Prunes (heap.set address gcBox') := by
  intro query box found'
  by_cases here : query = address
  · subst here
    simp only [set_boxes, ite_true, Option.some.injEq] at found'
    exact ⟨gcBox, found, found' ▸ value, found' ▸ count⟩
  · exact ⟨box, by simpa [here] using found', rfl, rfl⟩

theorem erase (address : Ptr) : heap.Prunes (heap.erase address) := by
  intro query box found
  by_cases here : query = address
  · simp [here] at found
  · exact ⟨box, by simpa [here] using found, rfl, rfl⟩

theorem recolor (address : Ptr) (color : GcColor) : heap.Prunes (heap.recolor address color) := by
  unfold Heap.recolor
  split
  · rename_i gcBox found
    exact set found rfl rfl
  · exact refl _

/-- Pruning, and moving `since` up, only takes boxes out of use. -/
theorem inUse (prunes : heap.Prunes heap') (later : since ≤ since') {address : Ptr}
    (inUse : heap'.InUse since' address) : heap.InUse since address := by
  refine InUse.closed (fun address gcBox' found count => ?_) (fun address above allocated => ?_)
    (fun parent gcBox' _ found address member => ?_) inUse
  · obtain ⟨gcBox, found, -, same⟩ := prunes address gcBox' found
    exact .pinned found (same ▸ count)
  · obtain ⟨gcBox', found⟩ := Option.ne_none_iff_exists'.mp allocated
    obtain ⟨gcBox, found, -⟩ := prunes address gcBox' found
    exact .fresh (later.trans above) (by simp [Allocated, found])
  · obtain ⟨gcBox, found, same, -⟩ := prunes parent gcBox' found
    exact .child ‹_› found (same ▸ member)

end Prunes

/-- A heap change that keeps, with its payload and pins, every box reachable from a pinned
box keeps every such box reachable. -/
theorem Reaches.of_kept
    (kept : ∀ address gcBox, heap.Reaches address → heap.boxes address = some gcBox →
      ∃ gcBox', heap'.boxes address = some gcBox' ∧ gcBox'.value = gcBox.value ∧
        gcBox'.rootCount = gcBox.rootCount)
    {address : Ptr} (reaches : heap.Reaches address) : heap'.Reaches address := by
  induction reaches with
  | pinned found pinned =>
    obtain ⟨gcBox', found', -, count⟩ := kept _ _ (.pinned found pinned) found
    exact .pinned found' (count ▸ pinned)
  | child reachesParent found member ih =>
    obtain ⟨gcBox', found', value, -⟩ := kept _ _ reachesParent found
    exact .child ih found' (value ▸ member)

end Heap

/-- What the contract remembers of a run: `since` is the first address allocated after the last
pass of `do_collection`, and `owed` holds the boxes that gained a pointer and have not had
their `write_barrier` since. -/
structure Ghost where
  since : ℕ
  owed : List Ptr
deriving DecidableEq, Repr

namespace World

/-- `address` is allocated, with no pass of the collector since. -/
def Fresh (world : World) (ghost : Ghost) (address : Ptr) : Prop :=
  ghost.since ≤ address ∧ world.arena.heap.Allocated address

/-- What the host may point at or root: a box reachable from a pinned box, or a fresh one. -/
def Storable (world : World) (ghost : Ghost) (address : Ptr) : Prop :=
  world.arena.heap.Reaches address ∨ world.Fresh ghost address

/-- What the contract asks of each event, and what the model adds for `Rgc::drop`. -/
def Allows (world : World) (ghost : Ghost) : Event → Prop
  | .allocate request => ∀ child ∈ request.value.children, world.Storable ghost child
  | .root gc => world.Storable ghost gc
  | .mutate gc value => ∀ gcBox, world.arena.heap.boxes gc = some gcBox →
      ∀ child ∈ value.children, child ∈ gcBox.value.children ∨ world.Storable ghost child
  | .dropRgc gc => ∀ gcBox, world.arena.heap.boxes gc = some gcBox →
      gcBox.flags.color = .lightGray → gcBox.rootCount.count ≠ 1
  | .resume => ghost.owed = [] ∧ ∀ request work workLeft blockedGrayCount,
      world.control = .collecting (.allocate request) work workLeft blockedGrayCount →
      ∀ child ∈ request.value.children, world.arena.heap.Reaches child
  | _ => True

end World

namespace Ghost

/-- The bookkeeping after `event` from `world`: an edit that adds a pointer owes a barrier, a
barrier pays what its box owes, and a pass of the collector ends the freshness of every box
allocated so far. -/
def after (ghost : Ghost) (world : World) : Event → Ghost
  | .mutate gc value =>
    match world.arena.heap.boxes gc with
    | some gcBox =>
      if value.children.all (· ∈ gcBox.value.children) then ghost
      else { ghost with owed := gc :: ghost.owed }
    | none => ghost
  | .writeBarrier gc => { ghost with owed := ghost.owed.filter (· ≠ gc) }
  | .resume => { ghost with since := world.arena.heap.fresh }
  | _ => ghost

variable {ghost : Ghost} {world : World}

/-- An edit that adds no pointer owes nothing. -/
theorem after_mutate_of_subset {gc : Ptr} {value : GcValue} {gcBox : GcBox}
    (found : world.arena.heap.boxes gc = some gcBox)
    (subset : ∀ child ∈ value.children, child ∈ gcBox.value.children) :
    ghost.after world (.mutate gc value) = ghost := by
  simp only [after, found, List.all_eq_true, decide_eq_true_eq]
  exact if_pos subset

/-- A box that owes nothing after an edit owed nothing before it, and it is the edited box only
when the edit added no pointer. -/
theorem owed_after_mutate {gc : Ptr} {value : GcValue} {gcBox : GcBox}
    (found : world.arena.heap.boxes gc = some gcBox) {address : Ptr}
    (paid : address ∉ (ghost.after world (.mutate gc value)).owed) :
    address ∉ ghost.owed ∧ (address = gc → ∀ child ∈ value.children, child ∈ gcBox.value.children) := by
  by_cases subset : ∀ child ∈ value.children, child ∈ gcBox.value.children
  · rw [after_mutate_of_subset found subset] at paid
    exact ⟨paid, fun _ => subset⟩
  · simp only [after, found, List.all_eq_true, decide_eq_true_eq, if_neg subset,
      List.mem_cons, not_or] at paid
    exact ⟨paid.2, fun same => absurd same paid.1⟩

/-- Only a pass of the collector moves `since`. -/
theorem after_eq {event : Event} (other : event ≠ .resume) :
    ghost.after world event = ⟨ghost.since, (ghost.after world event).owed⟩ := by
  cases event <;> first | exact absurd rfl other | rfl | skip
  simp only [after]
  split <;> [split <;> rfl; rfl]

end Ghost

/-- A run from a fresh arena in which every event keeps the contract, and the contract's
bookkeeping at its end. -/
inductive ContractRun : World → Ghost → Prop
  | initial (parameters : GcParameters) : ContractRun (World.initial parameters) ⟨0, []⟩
  | step {world next : World} {ghost : Ghost} {event : Event} : ContractRun world ghost →
      world.Allows ghost event → world.Step event next → ContractRun next (ghost.after world event)

/-- A stretch of a run that keeps the contract, from `world` with its bookkeeping to `final`. -/
inductive ContractPath : World → Ghost → List Event → World → Ghost → Prop
  | nil (world : World) (ghost : Ghost) : ContractPath world ghost [] world ghost
  | cons {world next final : World} {ghost ghost' : Ghost} {event : Event} {events : List Event} :
      world.Allows ghost event → world.Step event next →
      ContractPath next (ghost.after world event) events final ghost' →
      ContractPath world ghost (event :: events) final ghost'

/-- A run that keeps the contract goes on along a stretch that keeps it. -/
theorem ContractRun.of_path {world final : World} {ghost ghost' : Ghost} {events : List Event}
    (run : ContractRun world ghost) (path : ContractPath world ghost events final ghost') :
    ContractRun final ghost' := by
  induction path with
  | nil => exact run
  | cons allows step _ ih => exact ih (run.step allows step)

/-- A run that keeps the contract is a run. -/
theorem ContractRun.reachable {world : World} {ghost : Ghost} (run : ContractRun world ghost) :
    Reachable world := by
  induction run with
  | initial parameters => exact .initial parameters
  | step _ _ step reachable => exact reachable.step step

namespace World

variable {world : World} {ghost : Ghost}

/-- Whether the box at `address` is pinned. -/
def pinnedBy (world : World) (address : Ptr) : Bool :=
  match world.arena.heap.boxes address with
  | some gcBox => gcBox.rootCount.count != 0
  | none => false

theorem reaches_of_pinnedBy {address : Ptr} (checked : world.pinnedBy address = true) :
    world.arena.heap.Reaches address := by
  unfold pinnedBy at checked
  split at checked
  · exact .pinned ‹_› (by simpa using checked)
  · cases checked

/-- What a run can check of `Storable`: a pointer to a fresh box or to a pinned one. -/
def storableBy (world : World) (ghost : Ghost) (address : Ptr) : Bool :=
  decide (ghost.since ≤ address ∧ world.arena.heap.Allocated address) || world.pinnedBy address

theorem storable_of_storableBy {address : Ptr} (checked : world.storableBy ghost address = true) :
    world.Storable ghost address := by
  simp only [storableBy, Bool.or_eq_true, decide_eq_true_eq] at checked
  exact checked.symm.imp reaches_of_pinnedBy id

/-- The contract as a run can check it, with `storableBy` for `Storable`. -/
def allowsBy (world : World) (ghost : Ghost) : Event → Bool
  | .allocate request => request.value.children.all (world.storableBy ghost)
  | .root gc => world.storableBy ghost gc
  | .mutate gc value =>
    match world.arena.heap.boxes gc with
    | some gcBox => value.children.all fun child =>
        decide (child ∈ gcBox.value.children) || world.storableBy ghost child
    | none => true
  | .dropRgc gc =>
    match world.arena.heap.boxes gc with
    | some gcBox => !(gcBox.flags.color == .lightGray && gcBox.rootCount.count == 1)
    | none => true
  | .resume => ghost.owed.isEmpty &&
    match world.control with
    | .collecting (.allocate request) _ _ _ => request.value.children.all world.pinnedBy
    | _ => true
  | _ => true

theorem allows_of_allowsBy {event : Event} (checked : world.allowsBy ghost event = true) :
    world.Allows ghost event := by
  cases event with
  | allocate request =>
    exact fun child member => storable_of_storableBy (List.all_eq_true.mp checked child member)
  | root gc => exact storable_of_storableBy checked
  | mutate gc value =>
    intro gcBox found child member
    simp only [allowsBy, found, List.all_eq_true, Bool.or_eq_true, decide_eq_true_eq] at checked
    exact (checked child member).imp_right storable_of_storableBy
  | dropRgc gc =>
    intro gcBox found light
    simp only [allowsBy, found, light, beq_self_eq_true, Bool.true_and, Bool.not_eq_true',
      beq_eq_false_iff_ne] at checked
    exact checked
  | resume =>
    simp only [allowsBy, Bool.and_eq_true, List.isEmpty_iff] at checked
    refine ⟨checked.1, fun request work workLeft blockedGrayCount collecting child member => ?_⟩
    have pinned := checked.2
    simp only [collecting, List.all_eq_true] at pinned
    exact reaches_of_pinnedBy (pinned child member)
  | writeBarrier gc => trivial
  | collectGarbage => trivial
  | cloneRgc gc => trivial
  | dropArena => trivial

/-- Whether the run of `events` from `world` keeps the contract as `allowsBy` checks it, and ends
in a world and bookkeeping with `property`. -/
def contractSatisfies (property : World → Ghost → Prop)
    [∀ world ghost, Decidable (property world ghost)] : World → Ghost → List Event → Bool
  | world, ghost, [] => decide (property world ghost)
  | world, ghost, event :: events =>
    world.allowsBy ghost event &&
      match world.step event with
      | some (.ok next) => contractSatisfies property next (ghost.after world event) events
      | _ => false

end World

/-- A stretch that is computed to keep the contract and reach a world with `property` is one. -/
theorem ContractPath.exists_of_contractSatisfies {world : World} {ghost : Ghost}
    {events : List Event} {property : World → Ghost → Prop}
    [∀ world ghost, Decidable (property world ghost)]
    (checked : World.contractSatisfies property world ghost events = true) :
    ∃ final ghost', ContractPath world ghost events final ghost' ∧ property final ghost' := by
  induction events generalizing world ghost with
  | nil => exact ⟨world, ghost, .nil world ghost, of_decide_eq_true checked⟩
  | cons event events ih =>
    simp only [World.contractSatisfies, Bool.and_eq_true] at checked
    obtain ⟨allowed, stepped⟩ := checked
    split at stepped
    · obtain ⟨final, ghost', path, holds⟩ := ih stepped
      exact ⟨final, ghost', .cons (World.allows_of_allowsBy allowed) ‹_› path, holds⟩
    · cases stepped

/-- A run that is computed to keep the contract and reach a world with `property` is one. -/
theorem ContractRun.exists_of_contractSatisfies {world : World} {ghost : Ghost} {events : List Event}
    {property : World → Ghost → Prop} [∀ world ghost, Decidable (property world ghost)]
    (run : ContractRun world ghost)
    (checked : World.contractSatisfies property world ghost events = true) :
    ∃ final ghost', ContractRun final ghost' ∧ property final ghost' := by
  obtain ⟨final, ghost', path, holds⟩ := ContractPath.exists_of_contractSatisfies checked
  exact ⟨final, ghost', run.of_path path, holds⟩

end LusterGc
