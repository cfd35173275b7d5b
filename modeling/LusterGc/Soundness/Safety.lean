import LusterGc.Soundness.Tricolor

/-! # No box in use is freed

Every event of a run that keeps the mutator contract keeps `Tricolor`: an allocation adds a
white box whose pointers are in use; rooting pins a box in use, and a white one turns light gray
in the queue; an edit adds pointers only to boxes in use and owes a barrier, which turns a black
box dark gray again; and a pass of `do_collection`, which runs only when no barrier is owed,
keeps it by `Tricolor.of_collectionStep`. So in every world of such a run every box reachable
from a pinned box is allocated: the sweep never frees one. Dropping the last handle of a light
gray box is the one move this leaves out, and it is how the collector loses a reachable box.
-/

namespace LusterGc

namespace Heap

variable {heap heap' : Heap} {ghost : Ghost} {since' : ℕ} {owed' : List Ptr}

/-- Every box of `heap'` is a box of `heap` with the same payload, black only when it was black
and white only when it was white: what rooting, a barrier or a change of pins does. -/
def Darker (heap heap' : Heap) : Prop :=
  ∀ address gcBox', heap'.boxes address = some gcBox' → ∃ gcBox, heap.boxes address = some gcBox ∧
    gcBox'.value = gcBox.value ∧ (gcBox'.flags.color = .black → gcBox.flags.color = .black) ∧
    (gcBox'.flags.color = .white → gcBox.flags.color = .white)

namespace Darker

theorem trans {heap'' : Heap} (first : heap.Darker heap') (second : heap'.Darker heap'') :
    heap.Darker heap'' := by
  intro address gcBox'' found
  obtain ⟨gcBox', found', value', black', white'⟩ := second address gcBox'' found
  obtain ⟨gcBox, found, value, black, white⟩ := first address gcBox' found'
  exact ⟨gcBox, found, value'.trans value, black ∘ black', white ∘ white'⟩

theorem set {address : Ptr} {gcBox gcBox' : GcBox} (found : heap.boxes address = some gcBox)
    (value : gcBox'.value = gcBox.value) (flags : gcBox'.flags = gcBox.flags) :
    heap.Darker (heap.set address gcBox') := by
  intro query box found'
  by_cases here : query = address
  · subst here
    simp only [set_boxes, ite_true, Option.some.injEq] at found'
    subst found'
    exact ⟨gcBox, found, value, fun black => flags ▸ black, fun white => flags ▸ white⟩
  · exact ⟨box, by simpa [here] using found', rfl, id, id⟩

/-- Turning a box gray. -/
theorem recolor (address : Ptr) {color : GcColor} (gray : color = .lightGray ∨ color = .darkGray) :
    heap.Darker (heap.recolor address color) := by
  intro query box found
  rw [recolor_boxes] at found
  split at found
  · subst query
    obtain ⟨gcBox, present, rfl⟩ := Option.map_eq_some'.mp found
    refine ⟨gcBox, present, rfl, fun black => ?_, fun white => ?_⟩ <;>
      rcases gray with rfl | rfl <;> simp_all
  · exact ⟨box, found, rfl, id, id⟩

end Darker

/-- Marks and values that only darken keep black boxes off white ones, when no box comes into
use and no barrier comes to be owed. -/
theorem BlackClosed.of_darker (closed : heap.BlackClosed ghost) (darker : heap.Darker heap')
    (inUse : ∀ address, heap'.InUse since' address → heap.InUse ghost.since address)
    (paid : ∀ address, address ∉ owed' → address ∉ ghost.owed) :
    heap'.BlackClosed ⟨since', owed'⟩ := by
  intro parent gcBox' inUse' found' black notOwed address member child' foundChild white
  obtain ⟨gcBox, found, value, blackBefore, -⟩ := darker parent gcBox' found'
  obtain ⟨child, foundChild₀, -, -, whiteBefore⟩ := darker address child' foundChild
  exact closed parent gcBox (inUse parent inUse') found (blackBefore black) (paid parent notOwed)
    address (value ▸ member) child foundChild₀ (whiteBefore white)

/-- Rewriting a box whose pins stay pinned, with the same payload or one pointing only at boxes
in use, brings no box into use. -/
theorem InUse.of_set {address : Ptr} {gcBox gcBox' : GcBox} {since : ℕ}
    (found : heap.boxes address = some gcBox)
    (pinned : gcBox'.rootCount.count ≠ 0 → heap.InUse since address)
    (children : ∀ child ∈ gcBox'.value.children, child ∈ gcBox.value.children ∨ heap.InUse since child)
    {query : Ptr} (inUse : (heap.set address gcBox').InUse since query) : heap.InUse since query := by
  refine InUse.closed (fun query box found' count => ?_) (fun query above allocated => ?_)
    (fun parent box held found' child member => ?_) inUse
  · by_cases here : query = address
    · subst here
      simp only [set_boxes, ite_true, Option.some.injEq] at found'
      exact pinned (found' ▸ count)
    · exact .pinned (by simpa [here] using found') count
  · refine .fresh above ?_
    by_cases here : query = address
    · simp [Allocated, here, found]
    · simpa [Allocated, here] using allocated
  · by_cases here : parent = address
    · subst here
      simp only [set_boxes, ite_true, Option.some.injEq] at found'
      subst found'
      exact (children child member).elim (.child held found) id
    · exact .child held (by simpa [here] using found') member

/-- A new box at the next address brings into use only itself, when its pointers are in use. -/
theorem InUse.of_alloc {gcBox : GcBox} {since : ℕ}
    (children : ∀ child ∈ gcBox.value.children, heap.InUse since child) {query : Ptr}
    (inUse : (heap.alloc gcBox).1.InUse since query) :
    heap.InUse since query ∨ query = heap.fresh := by
  refine @InUse.closed _ since (fun query => heap.InUse since query ∨ query = heap.fresh)
    (fun query box found count => ?_) (fun query above allocated => ?_)
    (fun parent box held found child member => ?_) _ inUse
  · by_cases here : query = heap.fresh
    · exact .inr here
    · exact .inl (.pinned (by simpa [here] using found) count)
  · by_cases here : query = heap.fresh
    · exact .inr here
    · exact .inl (.fresh above (by simpa [Allocated, here] using allocated))
  · by_cases here : parent = heap.fresh
    · simp only [alloc_boxes, here, ite_true, Option.some.injEq] at found
      subst found
      exact .inl (children child member)
    · rcases held with held | same
      · exact .inl (.child held (by simpa [here] using found) member)
      · exact absurd same here

end Heap

namespace GcArena

namespace Tricolor

variable {arena next : GcArena} {ghost : Ghost} {since : ℕ} {owed owed' : List Ptr}

/-- A change that keeps memory, the queue and the cursor, and keeps the phase or wakes an
asleep collector, where no box is black. -/
theorem congr (tricolor : arena.Tricolor ghost) (settled : arena.ColorsSettled)
    (heap : next.heap = arena.heap) (gray : next.gray = arena.gray) (sweep : next.sweep = arena.sweep)
    (phase : next.phase = arena.phase ∨ arena.phase = .sleeping ∧ next.phase = .propagating) :
    next.Tricolor ghost := by
  have queued : next.GrayQueued := by
    unfold GrayQueued
    rw [heap, gray]
    exact tricolor.queued
  refine ⟨queued, heap ▸ tricolor.lightPinned, fun propagating => ?_, fun sweeping => ?_,
    heap ▸ tricolor.allocated, heap ▸ tricolor.since_le⟩
  · rw [heap]
    rcases phase with same | ⟨asleep, -⟩
    · exact tricolor.blackClosed (same ▸ propagating)
    · intro parent gcBox _ found black
      rcases settled.asleep asleep parent gcBox found (List.not_mem_nil _) with white | ⟨light, -⟩
      · exact absurd (white.symm.trans black) (by decide)
      · exact absurd (light.symm.trans black) (by decide)
  · rcases phase with same | ⟨-, woken⟩
    · rw [heap, sweep]
      exact tricolor.unswept (same ▸ sweeping)
    · exact absurd (woken.symm.trans sweeping) (by decide)

theorem of_allocateStart (tricolor : arena.Tricolor ghost) (settled : arena.ColorsSettled)
    (allocSize : ℕ) : (arena.allocateStart allocSize).1.Tricolor ghost := by
  obtain ⟨phase, debt, timer, started, woken⟩ := arena.allocateStart_eq allocSize
  rw [started]
  exact tricolor.congr settled rfl rfl rfl woken

theorem of_startCycle (tricolor : arena.Tricolor ghost) (settled : arena.ColorsSettled) :
    arena.startCycle.Tricolor ghost := by
  obtain ⟨phase, started, woken⟩ := arena.startCycle_eq
  rw [started]
  exact tricolor.congr settled rfl rfl rfl woken

theorem of_finishCollection (tricolor : arena.Tricolor ghost) (work workLeft : Budget) :
    (arena.finishCollection work workLeft).Tricolor ghost := by
  obtain ⟨debt, finished⟩ := arena.finishCollection_eq work workLeft
  rw [finished]
  exact ⟨tricolor.queued, tricolor.lightPinned, tricolor.blackClosed, tricolor.unswept,
    tricolor.allocated, tricolor.since_le⟩

/-- A new box is white and unpinned, and its pointers are in use. -/
theorem of_allocateFinish (tricolor : arena.Tricolor ghost)
    (unused : arena.heap.boxes arena.heap.fresh = none) {request : Allocation}
    (children : ∀ child ∈ request.value.children, arena.heap.InUse ghost.since child) :
    (arena.allocateFinish request).1.Tricolor ghost := by
  rw [arena.allocateFinish_eq request]
  have white : (request.box arena.all).flags.color = .white := by simp [Allocation.box]
  have other : ∀ {address}, arena.heap.Allocated address → address ≠ arena.heap.fresh :=
    fun allocated same => allocated (same ▸ unused)
  have kept : ∀ {address}, arena.heap.Allocated address →
      (arena.heap.alloc (request.box arena.all)).1.boxes address = arena.heap.boxes address :=
    fun allocated => by simp [other allocated]
  have inUse : ∀ {address}, (arena.heap.alloc (request.box arena.all)).1.InUse ghost.since address →
      arena.heap.InUse ghost.since address ∨ address = arena.heap.fresh :=
    fun inUse => Heap.InUse.of_alloc children inUse
  have notWhite : ∀ {address gcBox'}, (arena.heap.alloc (request.box arena.all)).1.boxes address =
      some gcBox' → gcBox'.flags.color ≠ .white → arena.heap.boxes address = some gcBox' :=
    fun {address gcBox'} found colored => by
      by_cases here : address = arena.heap.fresh
      · simp only [Heap.alloc_boxes, here, ite_true, Option.some.injEq] at found
        exact absurd (found ▸ white) colored
      · simpa [here] using found
  refine ⟨fun address gcBox' found isGray => tricolor.queued address gcBox' (notWhite found
      (by rcases isGray with c | c <;> rw [c] <;> decide)) isGray,
    tricolor.lightPinned.alloc fun light => absurd (white.symm.trans light) (by decide),
    fun propagating parent gcBox' inUse' found black notOwed address member child found' => ?_,
    fun sweeping => ?_, fun address inUse' => ?_, Nat.le_succ_of_le tricolor.since_le⟩
  · have parentFound := notWhite found (by rw [black]; decide)
    have parentInUse := (inUse inUse').resolve_right (other (by simp [Heap.Allocated, parentFound]))
    have childAllocated := tricolor.allocated address (.child parentInUse parentFound member)
    rw [kept childAllocated] at found'
    exact tricolor.blackClosed propagating parent gcBox' parentInUse parentFound black notOwed
      address member child found'
  · obtain ⟨rest, chain, unswept⟩ := tricolor.unswept sweeping
    refine ⟨rest, chain.of_agree fun address member => kept (chain.mem_allocated member),
      fun address member => ?_⟩
    obtain ⟨below, colored⟩ := unswept address member
    refine ⟨below, fun gcBox found => ?_⟩
    have allocated := chain.mem_allocated member
    rw [kept allocated] at found
    exact (colored gcBox found).imp_right (And.imp_right fun unused' inUse' =>
      unused' ((inUse inUse').resolve_right (other allocated)))
  · rcases inUse inUse' with inUse | rfl
    · have allocated := tricolor.allocated address inUse
      show (arena.heap.alloc (request.box arena.all)).1.boxes address ≠ none
      rw [kept allocated]
      exact allocated
    · simp [Heap.Allocated]

/-- Turning gray a box off the rest of the sweep, queued, and pinned when light gray. -/
theorem recolor_gray (tricolor : arena.Tricolor ghost) {address : Ptr} {color : GcColor}
    (gray : color = .lightGray ∨ color = .darkGray) {queue : List Ptr} (grows : arena.gray ⊆ queue)
    (queued : address ∈ queue)
    (pinned : ∀ gcBox, arena.heap.boxes address = some gcBox → color = .lightGray →
      gcBox.rootCount.count ≠ 0)
    (offRest : arena.phase = .sweeping → ∀ rest, Chain arena.heap arena.sweep rest none →
      address ∉ rest) :
    { arena.recolor address color with gray := queue }.Tricolor ghost where
  queued := tricolor.queued.recolor grows fun _ => queued
  lightPinned := tricolor.lightPinned.recolor pinned
  blackClosed propagating := (tricolor.blackClosed propagating).of_darker (.recolor address gray)
    (fun _ inUse => (Heap.Prunes.recolor _ _).inUse le_rfl inUse) fun _ => id
  unswept sweeping := by
    obtain ⟨rest, chain, unswept⟩ := tricolor.unswept sweeping
    have off := offRest sweeping rest chain
    refine ⟨rest, chain.of_layout (Heap.recolor_layout _ _ _), fun query member => ?_⟩
    obtain ⟨below, colored⟩ := unswept query member
    refine ⟨below, fun gcBox found => ?_⟩
    change (arena.heap.recolor address color).boxes query = some gcBox at found
    rw [Heap.recolor_boxes, if_neg fun (same : query = address) => off (same ▸ member)] at found
    exact (colored gcBox found).imp_right (And.imp_right fun unused inUse =>
      unused ((Heap.Prunes.recolor _ _).inUse le_rfl inUse))
  allocated query inUse := by
    change (arena.heap.recolor address color).Allocated query
    rw [Heap.allocated_iff_layout, Heap.recolor_layout, ← Heap.allocated_iff_layout]
    exact tricolor.allocated query ((Heap.Prunes.recolor _ _).inUse le_rfl inUse)
  since_le := by simpa [GcArena.recolor] using tricolor.since_le

/-- Rewriting a box in place with its flags, link and size: its pins stay pinned only when it
was in use, and its payload points only at its old pointers or at boxes in use. A box that
stops owing a barrier owed none, or is this box and gained no pointer. -/
theorem of_set (tricolor : arena.Tricolor ⟨since, owed⟩) {address : Ptr} {gcBox gcBox' : GcBox}
    (found : arena.heap.boxes address = some gcBox) (flags : gcBox'.flags = gcBox.flags)
    (link : gcBox'.next = gcBox.next) (size : gcBox'.size = gcBox.size)
    (pinned : gcBox'.rootCount.count ≠ 0 → arena.heap.InUse since address)
    (light : gcBox'.flags.color = .lightGray → gcBox'.rootCount.count ≠ 0)
    (children : ∀ child ∈ gcBox'.value.children,
      child ∈ gcBox.value.children ∨ arena.heap.InUse since child)
    (paid : ∀ parent, parent ∉ owed' → parent ∉ owed ∧
      (parent = address → ∀ child ∈ gcBox'.value.children, child ∈ gcBox.value.children)) :
    { arena with heap := arena.heap.set address gcBox' }.Tricolor ⟨since, owed'⟩ := by
  have inUse : ∀ {query}, (arena.heap.set address gcBox').InUse since query →
      arena.heap.InUse since query := fun inUse => Heap.InUse.of_set found pinned children inUse
  have marks : ∀ {query box}, (arena.heap.set address gcBox').boxes query = some box →
      ∃ old, arena.heap.boxes query = some old ∧ box.flags = old.flags ∧
        (query ≠ address → box = old) := fun {query box} found' => by
    by_cases here : query = address
    · subst here
      simp only [Heap.set_boxes, ite_true, Option.some.injEq] at found'
      exact ⟨gcBox, found, found' ▸ flags, fun other => absurd rfl other⟩
    · exact ⟨box, by simpa [here] using found', rfl, fun _ => rfl⟩
  refine ⟨fun query box found' isGray => ?_, tricolor.lightPinned.set light,
    fun propagating parent box inUse' found' black notOwed child member childBox foundChild white => ?_,
    fun sweeping => ?_, fun query inUse' => ?_, tricolor.since_le⟩
  · obtain ⟨old, found₀, same, -⟩ := marks found'
    exact tricolor.queued query old found₀ (same ▸ isGray)
  · obtain ⟨old, found₀, same, unchanged⟩ := marks found'
    obtain ⟨owedBefore, gained⟩ := paid parent notOwed
    obtain ⟨oldChild, foundChild₀, sameChild, -⟩ := marks foundChild
    have oldMember : child ∈ old.value.children := by
      by_cases here : parent = address
      · subst here
        cases found.symm.trans found₀
        simp only [Heap.set_boxes, ite_true, Option.some.injEq] at found'
        exact gained rfl child (found' ▸ member)
      · exact unchanged here ▸ member
    exact tricolor.blackClosed propagating parent old (inUse inUse') found₀ (same ▸ black)
      owedBefore child oldMember oldChild foundChild₀ (sameChild ▸ white)
  · obtain ⟨rest, chain, unswept⟩ := tricolor.unswept sweeping
    refine ⟨rest, chain.of_layout (Heap.layout_set found link size), fun query member => ?_⟩
    obtain ⟨below, colored⟩ := unswept query member
    refine ⟨below, fun box found' => ?_⟩
    obtain ⟨old, found₀, same, -⟩ := marks found'
    rw [same]
    exact (colored old found₀).imp_right (And.imp_right fun unused inUse' => unused (inUse inUse'))
  · have allocated := tricolor.allocated query (inUse inUse')
    by_cases here : query = address <;> simp_all [Heap.Allocated]

/-- `root` pins a box in use; a white one turns light gray at the back of the queue. -/
theorem of_root (tricolor : arena.Tricolor ⟨since, owed⟩) {gc : Ptr}
    (inUse : arena.heap.InUse since gc) (success : arena.root gc = .ok next) :
    next.Tricolor ⟨since, owed⟩ := by
  obtain ⟨gcBox, found, -, rfl⟩ := GcArena.root_eq_ok success
  have pinned : Tricolor { arena with
      heap := arena.heap.set gc { gcBox with rootCount := ⟨gcBox.rootCount.count + 1⟩ } }
      ⟨since, owed⟩ :=
    tricolor.of_set found rfl rfl rfl (fun _ => inUse) (fun _ => by simp)
      (fun child member => .inl member) fun _ notOwed => ⟨notOwed, fun _ _ member => member⟩
  split
  · rename_i white
    refine pinned.recolor_gray (.inl rfl) (List.subset_append_left _ _)
      (List.mem_append_right _ (List.mem_singleton_self _)) (fun _ found' _ => ?_) ?_
    · cases (Heap.set_boxes_self _ _ _).symm.trans found'
      exact Nat.succ_ne_zero _
    intro sweeping rest chain member
    obtain ⟨rest', chain', unswept⟩ := tricolor.unswept sweeping
    cases chain.unique (chain'.of_layout (Heap.layout_set found rfl rfl))
    obtain ⟨-, colored⟩ := unswept gc member
    rcases colored gcBox found with black | ⟨-, unused⟩
    · exact absurd (white.symm.trans black) (by decide)
    · exact unused inUse
  · exact pinned

/-- An edit of a payload whose new pointers are old ones or in use. A box that stops owing a
barrier owed none, or is the edited box and gained no pointer. -/
theorem of_mutate (tricolor : arena.Tricolor ⟨since, owed⟩) {gc : Ptr} {gcBox : GcBox}
    {value : GcValue} (found : arena.heap.boxes gc = some gcBox)
    (children : ∀ child ∈ value.children,
      child ∈ gcBox.value.children ∨ arena.heap.InUse since child)
    (paid : ∀ parent, parent ∉ owed' → parent ∉ owed ∧
      (parent = gc → ∀ child ∈ value.children, child ∈ gcBox.value.children)) :
    { arena with heap := arena.heap.set gc { gcBox with value } }.Tricolor ⟨since, owed'⟩ :=
  tricolor.of_set found rfl rfl rfl (fun count => .pinned found count)
    (tricolor.lightPinned gc gcBox found) children paid

/-- A box that owes a barrier stops owing it once it is not black while propagating. -/
theorem pay (tricolor : arena.Tricolor ⟨since, owed⟩) {gc : Ptr}
    (notBlack : arena.phase = .propagating → ∀ gcBox, arena.heap.boxes gc = some gcBox →
      gcBox.flags.color ≠ .black) :
    arena.Tricolor ⟨since, owed.filter (· ≠ gc)⟩ := by
  refine ⟨tricolor.queued, tricolor.lightPinned, fun propagating parent gcBox inUse found black
    notOwed => tricolor.blackClosed propagating parent gcBox inUse found black fun owing => ?_,
    tricolor.unswept, tricolor.allocated, tricolor.since_le⟩
  by_cases here : parent = gc
  · exact notBlack propagating gcBox (here ▸ found) black
  · exact notOwed (List.mem_filter.mpr ⟨owing, by simpa using here⟩)

/-- `write_barrier` turns a black box dark gray at the back of the queue while propagating; the
box no longer owes a barrier. -/
theorem of_writeBarrier (tricolor : arena.Tricolor ⟨since, owed⟩) {gc : Ptr}
    (success : arena.writeBarrier gc = .ok next) :
    next.Tricolor ⟨since, owed.filter (· ≠ gc)⟩ := by
  obtain ⟨gcBox, found, success⟩ := bind_eq_ok.mp success
  rw [Heap.get_eq_ok] at found
  split at success
  · rename_i fired
    cases success
    refine (tricolor.recolor_gray (.inr rfl) (List.subset_append_left _ _)
      (List.mem_append_right _ (List.mem_singleton_self _)) (fun _ _ dark => by cases dark)
      fun sweeping => absurd (fired.1.symm.trans sweeping) (by decide)).pay fun _ box found' => ?_
    change (arena.heap.recolor gc .darkGray).boxes gc = some box at found'
    rw [Heap.recolor_of_found found, Heap.set_boxes_self] at found'
    cases found'
    simp
  · rename_i quiet
    cases success
    exact tricolor.pay fun propagating box found' black => quiet ⟨propagating, by
      cases found.symm.trans found'
      exact black⟩

/-- `Rgc::clone` pins a pinned box once more. -/
theorem of_clone (tricolor : arena.Tricolor ghost) {gc : Ptr} {heap : Heap}
    (pinned : ∀ gcBox, arena.heap.boxes gc = some gcBox → gcBox.rootCount.count ≠ 0)
    (success : Rgc.clone arena.heap gc = .ok heap) : { arena with heap }.Tricolor ghost := by
  obtain ⟨gcBox, found, -, rfl⟩ := Rgc.clone_eq_ok success
  exact tricolor.of_set found rfl rfl rfl (fun _ => .pinned found (pinned gcBox found))
    (fun _ => Nat.succ_ne_zero _) (fun child member => .inl member)
    fun _ notOwed => ⟨notOwed, fun _ _ member => member⟩

/-- `Rgc::drop` on a live arena releases one pin and frees nothing; a light gray box keeps a pin. -/
theorem of_drop (tricolor : arena.Tricolor ghost) {gc : Ptr} {heap : Heap}
    (pinned : ∀ gcBox, arena.heap.boxes gc = some gcBox →
      gcBox.rootCount.count ≠ 0 ∧ gcBox.rootCount.count ≤ usizeMax ∧
        gcBox.flags.isDetached = false ∧
        (gcBox.flags.color = .lightGray → gcBox.rootCount.count ≠ 1))
    (success : Rgc.drop arena.heap gc = .ok heap) : { arena with heap }.Tricolor ghost := by
  obtain ⟨gcBox, found, freed⟩ := Rgc.drop_eq_ok success
  obtain ⟨count, bounded, attached, light⟩ := pinned gcBox found
  simp only [attached, Bool.false_eq_true, and_false, if_false] at freed
  subst freed
  refine tricolor.of_set found rfl rfl rfl (fun _ => .pinned found count) (fun isLight => ?_)
    (fun child member => .inl member) fun _ notOwed => ⟨notOwed, fun _ _ member => member⟩
  rw [RootCount.decrement_count count bounded]
  have := light isLight
  omega

end Tricolor

variable {arena : GcArena} {since : ℕ} {owed : List Ptr}

/-- A pass of `do_collection` frees boxes, recolours them and relinks them, and nothing else. -/
theorem collectionStep_prunes {workLeft : Budget} {blockedGrayCount : ℕ} {pass : Pass}
    (success : arena.collectionStep workLeft blockedGrayCount = .ok pass) :
    arena.heap.Prunes pass.arena.heap := by
  rcases collectionStep_eq_ok success with ⟨-, rfl⟩ | ⟨-, propagated⟩ | ⟨-, swept⟩
  · exact .refl _
  · rcases propagate_eq_ok propagated with ⟨-, next⟩ | marks
    · exact next ▸ .refl _
    · exact .of_shades marks.shades
  · obtain ⟨-, -, ⟨-, -, next⟩ | ⟨sweepPtr, gcBox, -, -, freed | kept⟩⟩ := sweepStep_eq_ok swept
    · exact next ▸ .refl _
    · obtain ⟨-, -, unlinked, unlinking, -, next⟩ := freed
      rw [next]
      exact (unlink_keeps unlinking).2.trans (.erase _)
    · obtain ⟨-, -, next⟩ := kept
      rw [next]
      split
      · exact .recolor _ _
      · exact .recolor _ _

/-- Under `Tricolor`, a pass keeps every box in use, with its payload and pins: the sweep frees
only the white box at its cursor, which is out of use. -/
theorem Tricolor.kept_of_collectionStep (tricolor : arena.Tricolor ⟨since, owed⟩) {cells : List Ptr}
    {pending : ℕ} (shape : ListShape arena cells pending) {workLeft : Budget}
    {blockedGrayCount : ℕ} {pass : Pass}
    (success : arena.collectionStep workLeft blockedGrayCount = .ok pass) {address : Ptr}
    {gcBox : GcBox} (inUse : arena.heap.InUse since address)
    (found : arena.heap.boxes address = some gcBox) :
    ∃ gcBox', pass.arena.heap.boxes address = some gcBox' ∧ gcBox'.value = gcBox.value ∧
      gcBox'.rootCount = gcBox.rootCount := by
  have kept : pass.arena.heap.Allocated address := by
    by_contra freed
    obtain ⟨sweeping, cursorAt, ⟨box, found', white⟩, -⟩ :=
      shape.freed_of_collectionStep success (by simp [Heap.Allocated, found]) freed
    rcases tricolor.cursor_colored sweeping cursorAt found' with black | ⟨-, unused⟩
    · exact absurd (white.symm.trans black) (by decide)
    · exact unused inUse
  obtain ⟨gcBox', found'⟩ := Option.ne_none_iff_exists'.mp kept
  obtain ⟨box, found₀, value, count⟩ := collectionStep_prunes success address gcBox' found'
  cases found.symm.trans found₀
  exact ⟨gcBox', found', value, count⟩

end GcArena

namespace World

variable {world next : World} {ghost : Ghost}

/-- What the host may point at is in use. -/
theorem Storable.inUse {address : Ptr} (storable : world.Storable ghost address) :
    world.arena.heap.InUse ghost.since address :=
  storable.elim (Heap.Reaches.inUse _) fun fresh => .fresh fresh.1 fresh.2

/-- Leaving the loop of `do_collection` frees nothing. -/
theorem leaveCollection_allocated {caller : Caller} {arena : GcArena} {work workLeft : Budget}
    {address : Ptr} (allocated : arena.heap.Allocated address) :
    (world.leaveCollection caller arena work workLeft).arena.heap.Allocated address := by
  cases caller with
  | collectGarbage => simpa [leaveCollection] using allocated
  | allocate request =>
    simp only [leaveCollection, GcArena.allocateFinish_heap, GcArena.finishCollection_heap,
      Heap.Allocated, Heap.alloc_boxes]
    split
    · simp
    · exact allocated

/-- Leaving the loop of `do_collection`: the lines after it, and the box an `allocate` links,
whose pointers are reachable. -/
theorem leaveCollection_tricolor {caller : Caller} {arena : GcArena} {work workLeft : Budget}
    (tricolor : arena.Tricolor ghost) (unused : arena.heap.boxes arena.heap.fresh = none)
    (children : ∀ request, caller = .allocate request →
      ∀ child ∈ request.value.children, arena.heap.Reaches child) :
    (world.leaveCollection caller arena work workLeft).arena.Tricolor ghost := by
  have finished := tricolor.of_finishCollection work workLeft
  cases caller with
  | collectGarbage => exact finished
  | allocate request =>
    refine finished.of_allocateFinish (by simpa using unused) fun child member => ?_
    rw [GcArena.finishCollection_heap]
    exact (children request rfl child member).inUse _

/-- Every step of a live arena that keeps the contract keeps `Tricolor`. -/
theorem Step.tricolor {event : Event} (invariant : world.Invariant) (alive : world.dropped = false)
    (settled : world.arena.ColorsSettled) (tricolor : world.arena.Tricolor ghost)
    (allows : world.Allows ghost event) (step : world.Step event next)
    (stillAlive : next.dropped = false) : next.arena.Tricolor (ghost.after world event) := by
  obtain ⟨cells, live⟩ := invariant.live alive
  cases event with
  | allocate request =>
    obtain ⟨-, -, outcome⟩ := Step.allocate_eq step
    have started := tricolor.of_allocateStart settled request.size
    rcases outcome with ⟨-, rfl⟩ | ⟨work, -, rfl⟩
    · refine started.of_allocateFinish (by simpa using live.shape.unused _ le_rfl)
        fun child member => ?_
      rw [GcArena.allocateStart_heap]
      exact (allows child member).inUse
    · exact started
  | root gc =>
    obtain ⟨-, -, arena, success, rfl⟩ := Step.root_eq step
    exact tricolor.of_root (Storable.inUse allows) success
  | writeBarrier gc =>
    obtain ⟨-, -, arena, success, rfl⟩ := Step.writeBarrier_eq step
    exact tricolor.of_writeBarrier success
  | collectGarbage =>
    obtain ⟨-, -, rfl⟩ := Step.collectGarbage_eq step
    exact tricolor.of_startCycle settled
  | cloneRgc gc =>
    obtain ⟨-, held, heap, success, rfl⟩ := Step.cloneRgc_eq step
    exact tricolor.of_clone (fun gcBox found => (invariant.pins.pinned_iff found).mpr held) success
  | dropRgc gc =>
    obtain ⟨-, held, heap, success, rfl⟩ := Step.dropRgc_eq step
    refine tricolor.of_drop (fun gcBox found => ⟨(invariant.pins.pinned_iff found).mpr held, ?_,
      live.attached gc gcBox found, allows gcBox found⟩) success
    rw [invariant.pins.count gc gcBox found]
    exact invariant.pins.bounded gc
  | mutate gc value =>
    obtain ⟨-, gcBox, found, rfl⟩ := Step.mutate_eq step
    rw [Ghost.after_eq (by simp)]
    exact tricolor.of_mutate found
      (fun child member => (allows gcBox found child member).imp_right Storable.inUse)
      fun _ paid => Ghost.owed_after_mutate found paid
  | dropArena =>
    obtain ⟨-, -, rfl⟩ := Step.dropArena_eq step
    cases stillAlive
  | resume =>
    obtain ⟨since, owed⟩ := ghost
    obtain ⟨paid, children⟩ := allows
    cases paid
    have reaching : ∀ {caller work workLeft blockedGrayCount},
        world.control = .collecting caller work workLeft blockedGrayCount → ∀ request,
        caller = .allocate request → ∀ child ∈ request.value.children,
        world.arena.heap.Reaches child := fun collecting request same =>
      children request _ _ _ (same ▸ collecting)
    rcases Step.resume_eq step with
      ⟨caller, work, workLeft, blockedGrayCount, collecting, ⟨-, pass, success, rfl⟩ | ⟨-, rfl⟩⟩ |
      ⟨address, -, -, dropping, -, -⟩
    · have passed := tricolor.of_collectionStep live.shape live.marked success
      split
      · have unused : pass.arena.heap.boxes pass.arena.heap.fresh = none := by
          rcases live.shape.of_collectionStep success with shape | ⟨_, _, _, _, _, _, _, shape⟩ <;>
            exact shape.unused _ le_rfl
        refine leaveCollection_tricolor passed unused fun request same child member => ?_
        exact (reaching collecting request same child member).of_kept fun address gcBox reaches found =>
          tricolor.kept_of_collectionStep live.shape success (reaches.inUse _) found
      · exact passed
    · exact leaveCollection_tricolor (tricolor.later tricolor.since_le le_rfl)
        (live.shape.unused _ le_rfl) (reaching collecting)
    · exact absurd (invariant.dropped_of_dropping dropping) (by simp [alive])

end World

/-- In every world of a run that keeps the contract, while the arena lives, `Tricolor` holds. -/
theorem ContractRun.tricolor {world : World} {ghost : Ghost} (run : ContractRun world ghost)
    (alive : world.dropped = false) : world.arena.Tricolor ghost := by
  induction run with
  | initial parameters =>
    refine ⟨fun _ _ found => (by cases found), fun _ _ found => (by cases found),
      fun propagating => (by cases propagating), fun sweeping => (by cases sweeping),
      fun address inUse => ?_, Nat.zero_le _⟩
    cases inUse with
    | pinned found => cases found
    | fresh _ allocated => exact allocated
    | child _ found => cases found
  | @step world next ghost event run allows step ih =>
    have reachable := run.reachable
    cases dropped : world.dropped with
    | false =>
      exact step.tricolor reachable.invariant dropped (reachable.colorsSettled dropped) (ih dropped)
        allows alive
    | true => exact absurd (step.phase_of_dropped reachable.invariant dropped).1 (by simp [alive])

/-- A run that keeps the contract: two boxes, the second pointing at the first and pinned, and a
collection up to the sweep of the first box. -/
private def sweepRun : List Event :=
  [.allocate ⟨32, by decide, true, {}⟩, .allocate ⟨32, by decide, true, ⟨[0], false⟩⟩, .root 1,
    .collectGarbage, .resume, .resume, .resume, .resume]

private theorem exists_sweepRun :
    ∃ world ghost, ContractRun world ghost ∧ world.dropped = false ∧
      world.arena.phase = .sweeping ∧ world.arena.sweep = some 0 ∧ world.arena.heap.Allocated 0 ∧
      world.pinnedBy 1 = true ∧ (world.arena.heap.boxes 1).map (·.value.children) = some [0] ∧
      world.runSatisfies [.resume] (fun next => next.arena.heap.Allocated 0) = true :=
  @ContractRun.exists_of_contractSatisfies _ _ sweepRun (fun world _ => _) _ (.initial .default)
    (by decide)

namespace ContractRun

variable {world next : World} {ghost : Ghost}

/-- In every world of a run that keeps the contract, while the arena lives, every box reachable
from a pinned box is allocated. -/
theorem reaches_allocated (run : ContractRun world ghost) (alive : world.dropped = false)
    {address : Ptr} (reaches : world.arena.heap.Reaches address) :
    world.arena.heap.Allocated address :=
  (run.tricolor alive).allocated address (reaches.inUse _)

theorem reaches_allocated_child :
    ∃ world ghost, ContractRun world ghost ∧ world.dropped = false ∧
      world.arena.heap.Reaches 0 ∧ world.arena.heap.Allocated 0 := by
  obtain ⟨world, ghost, run, alive, -, -, -, pinned, pointing, -⟩ := exists_sweepRun
  obtain ⟨parent, found, children⟩ := Option.map_eq_some'.mp pointing
  have reaches : world.arena.heap.Reaches 0 :=
    .child (World.reaches_of_pinnedBy pinned) found (by simp [children])
  exact ⟨world, ghost, run, alive, reaches, reaches_allocated run alive reaches⟩

/-- Under the contract, a pass of `do_collection`, or the return that follows it, frees no box
that is reachable from a pinned box. -/
theorem resume_keeps_reachable (run : ContractRun world ghost) (alive : world.dropped = false)
    (step : world.Step .resume next) {address : Ptr}
    (reaches : world.arena.heap.Reaches address) : next.arena.heap.Allocated address := by
  obtain ⟨cells, live⟩ := run.reachable.invariant.live alive
  obtain ⟨gcBox, found⟩ :=
    Option.ne_none_iff_exists'.mp ((run.tricolor alive).allocated address (reaches.inUse _))
  rcases World.Step.resume_eq step with
    ⟨caller, work, workLeft, blockedGrayCount, -, ⟨-, pass, success, rfl⟩ | ⟨-, rfl⟩⟩ |
    ⟨_, -, -, dropping, -, -⟩
  · obtain ⟨gcBox', found', -⟩ :=
      (run.tricolor alive).kept_of_collectionStep live.shape success (reaches.inUse _) found
    have kept : pass.arena.heap.Allocated address := by simp [Heap.Allocated, found']
    split
    · exact World.leaveCollection_allocated kept
    · exact kept
  · exact World.leaveCollection_allocated (by simp [Heap.Allocated, found])
  · exact absurd (run.reachable.invariant.dropped_of_dropping dropping) (by simp [alive])

/-- The pass that sweeps the unpinned box a pinned box points at keeps it. -/
theorem resume_keeps_reachable_child :
    ∃ world ghost next, ContractRun world ghost ∧ world.dropped = false ∧
      world.Step .resume next ∧ world.arena.heap.Reaches 0 ∧ next.arena.heap.Allocated 0 := by
  obtain ⟨world, ghost, run, alive, -, -, -, pinned, pointing, resumed⟩ := exists_sweepRun
  obtain ⟨next, path, -⟩ := World.exists_path_of_runSatisfies resumed
  obtain ⟨parent, found, children⟩ := Option.map_eq_some'.mp pointing
  have reaches : world.arena.heap.Reaches 0 :=
    .child (World.reaches_of_pinnedBy pinned) found (by simp [children])
  exact ⟨world, ghost, next, run, alive, path.step_of_single, reaches,
    resume_keeps_reachable run alive path.step_of_single reaches⟩

/-- Under the contract the sweep's `debug_assert_eq!(sweep.flags.color(), GcColor::Black)` holds:
the box at the cursor is black, or white and out of use. So the sweep keeps only black boxes and
frees only boxes that nothing in use reaches. -/
theorem sweep_cursor_colored (run : ContractRun world ghost) (alive : world.dropped = false)
    (sweeping : world.arena.phase = .sweeping) {sweepPtr : Ptr}
    (cursorAt : world.arena.sweep = some sweepPtr) {gcBox : GcBox}
    (found : world.arena.heap.boxes sweepPtr = some gcBox) :
    gcBox.flags.color = .black ∨
      gcBox.flags.color = .white ∧ ¬world.arena.heap.InUse ghost.since sweepPtr := by
  obtain ⟨rest, chain, unswept⟩ := (run.tricolor alive).unswept sweeping
  rw [cursorAt] at chain
  cases chain
  exact (unswept sweepPtr (List.mem_cons_self _ _)).2 gcBox found

theorem sweep_cursor_colored_child :
    ∃ world ghost gcBox, ContractRun world ghost ∧ world.dropped = false ∧
      world.arena.phase = .sweeping ∧ world.arena.sweep = some 0 ∧
      world.arena.heap.boxes 0 = some gcBox ∧ (gcBox.flags.color = .black ∨
        gcBox.flags.color = .white ∧ ¬world.arena.heap.InUse ghost.since 0) := by
  obtain ⟨world, ghost, run, alive, sweeping, cursorAt, allocated, -⟩ := exists_sweepRun
  obtain ⟨gcBox, found⟩ := Option.ne_none_iff_exists'.mp allocated
  exact ⟨world, ghost, gcBox, run, alive, sweeping, cursorAt, found,
    sweep_cursor_colored run alive sweeping cursorAt found⟩

end ContractRun

end LusterGc
