import LusterGc.Model.Header
import Mathlib.Data.List.Basic

/-! # Boxes, process memory and `next` chains

A `GcBox` holds the header, the intrusive `next` link of the all-list and the payload. The
payload is seen only through `GcObject`: the pointers its `trace` reports and whether that trace
is blocked. Memory maps addresses to boxes. `Box::new` hands out an address never used before;
the collector never orders or compares addresses beyond equality, so which free address the
system allocator returns does not change what the collector does.

`Chain heap start cells stop` says that following `next` from `start` meets exactly `cells` and
arrives at `stop`. The all-list, the swept prefix and the unswept suffix are all chains.
-/

namespace LusterGc

/-- The address of a `GcBox`. -/
abbrev Ptr := ℕ

/-- A payload as the collector sees it: the `Gc` pointers its `trace` reports, in order, and
whether its `trace` currently returns false. -/
structure GcValue where
  children : List Ptr := []
  traceBlocked : Bool := false
deriving DecidableEq, Repr

/-- `GcBox<T>`. `size` is `mem::size_of::<GcBox<T>>()`, which `size_of_val` reads back
through the vtable. -/
structure GcBox where
  flags : GcFlags
  rootCount : RootCount
  next : Option Ptr
  value : GcValue
  size : ℕ
deriving DecidableEq, Repr

/-- Process memory: the boxes currently allocated, and the next address `Box::new` returns. -/
structure Heap where
  boxes : Ptr → Option GcBox
  fresh : Ptr

namespace Heap

def empty : Heap := ⟨fun _ => none, 0⟩

/-- The box behind a pointer: dereferencing a freed box is undefined behaviour. -/
def get (heap : Heap) (address : Ptr) : Except Fault GcBox :=
  match heap.boxes address with
  | some gcBox => .ok gcBox
  | none => .error (.dangling address)

/-- Write a box back through its `Cell` fields. -/
def set (heap : Heap) (address : Ptr) (gcBox : GcBox) : Heap :=
  { heap with boxes := Function.update heap.boxes address (some gcBox) }

/-- `Box::into_raw(Box::new(gc_box))`. -/
def alloc (heap : Heap) (gcBox : GcBox) : Heap × Ptr :=
  ({ boxes := Function.update heap.boxes heap.fresh (some gcBox), fresh := heap.fresh + 1 },
    heap.fresh)

/-- Memory once the box at `address` is gone. -/
def erase (heap : Heap) (address : Ptr) : Heap :=
  { heap with boxes := Function.update heap.boxes address none }

/-- `Box::from_raw` followed by the drop: freeing a box twice is undefined behaviour. -/
def free (heap : Heap) (address : Ptr) : Except Fault Heap :=
  match heap.boxes address with
  | some _ => .ok (heap.erase address)
  | none => .error (.doubleFree address)

/-- The box at `address` is allocated and not yet freed. -/
def Allocated (heap : Heap) (address : Ptr) : Prop :=
  heap.boxes address ≠ none

instance (heap : Heap) (address : Ptr) : Decidable (heap.Allocated address) :=
  inferInstanceAs (Decidable (heap.boxes address ≠ none))

@[simp] theorem get_eq_ok {heap : Heap} {address : Ptr} {gcBox : GcBox} :
    heap.get address = .ok gcBox ↔ heap.boxes address = some gcBox := by
  unfold get
  split <;> simp_all

@[simp] theorem set_boxes (heap : Heap) (address : Ptr) (gcBox : GcBox) (query : Ptr) :
    (heap.set address gcBox).boxes query = if query = address then some gcBox else heap.boxes query := by
  simp [set, Function.update_apply]

theorem set_boxes_self (heap : Heap) (address : Ptr) (gcBox : GcBox) :
    (heap.set address gcBox).boxes address = some gcBox := by
  simp

@[simp] theorem set_fresh (heap : Heap) (address : Ptr) (gcBox : GcBox) :
    (heap.set address gcBox).fresh = heap.fresh := rfl

@[simp] theorem set_set (heap : Heap) (address : Ptr) (gcBox gcBox' : GcBox) :
    (heap.set address gcBox).set address gcBox' = heap.set address gcBox' := by
  simp [set]

/-- A box of a rewritten heap is the one written or one that was there. -/
theorem set_boxes_eq_some {heap : Heap} {address query : Ptr} {gcBox box : GcBox}
    (found : (heap.set address gcBox).boxes query = some box) :
    query = address ∧ box = gcBox ∨ query ≠ address ∧ heap.boxes query = some box := by
  by_cases here : query = address
  · simp only [here, set_boxes, ite_true, Option.some.injEq] at found
    exact .inl ⟨here, found.symm⟩
  · simp only [here, set_boxes, ite_false] at found
    exact .inr ⟨here, found⟩

@[simp] theorem alloc_boxes (heap : Heap) (gcBox : GcBox) (query : Ptr) :
    (heap.alloc gcBox).1.boxes query =
      if query = heap.fresh then some gcBox else heap.boxes query := by
  simp [alloc, Function.update_apply]

theorem alloc_boxes_fresh (heap : Heap) (gcBox : GcBox) :
    (heap.alloc gcBox).1.boxes heap.fresh = some gcBox := by
  simp

/-- A box of the heap after an allocation is the new one or one that was there. -/
theorem alloc_boxes_eq_some {heap : Heap} {gcBox box : GcBox} {query : Ptr}
    (found : (heap.alloc gcBox).1.boxes query = some box) :
    query = heap.fresh ∧ box = gcBox ∨ query ≠ heap.fresh ∧ heap.boxes query = some box :=
  @set_boxes_eq_some heap heap.fresh query gcBox box found

@[simp] theorem alloc_fresh (heap : Heap) (gcBox : GcBox) :
    (heap.alloc gcBox).1.fresh = heap.fresh + 1 := rfl

@[simp] theorem alloc_address (heap : Heap) (gcBox : GcBox) : (heap.alloc gcBox).2 = heap.fresh :=
  rfl

@[simp] theorem erase_boxes (heap : Heap) (address query : Ptr) :
    (heap.erase address).boxes query = if query = address then none else heap.boxes query := by
  simp [erase, Function.update_apply]

@[simp] theorem erase_fresh (heap : Heap) (address : Ptr) : (heap.erase address).fresh = heap.fresh :=
  rfl

@[simp] theorem erase_set (heap : Heap) (address : Ptr) (gcBox : GcBox) :
    (heap.set address gcBox).erase address = heap.erase address := by
  simp [set, erase]

theorem allocated_erase (heap : Heap) (address query : Ptr) :
    (heap.erase address).Allocated query ↔ query ≠ address ∧ heap.Allocated query := by
  by_cases here : query = address <;> simp [Allocated, here]

/-- Reading a box fails only at a freed address. -/
theorem get_error {heap : Heap} {address : Ptr} {fault : Fault} (failed : heap.get address = .error fault) :
    fault = .dangling address ∧ heap.boxes address = none := by
  unfold get at failed
  split at failed <;> cases failed
  exact ⟨rfl, ‹_›⟩

/-- Freeing fails only at a freed address, as a double free. -/
theorem free_error {heap : Heap} {address : Ptr} {fault : Fault}
    (failed : heap.free address = .error fault) :
    fault = .doubleFree address ∧ heap.boxes address = none := by
  unfold free at failed
  split at failed <;> cases failed
  exact ⟨rfl, ‹_›⟩

theorem free_eq_ok {heap freed : Heap} {address : Ptr} :
    heap.free address = .ok freed ↔ heap.Allocated address ∧ freed = heap.erase address := by
  unfold free Allocated
  split <;> rename_i found <;> simp [found, eq_comm]

/-- Recolour a box in place through its `Cell`, if it is there. -/
def recolor (heap : Heap) (address : Ptr) (color : GcColor) : Heap :=
  match heap.boxes address with
  | some gcBox => heap.set address { gcBox with flags := gcBox.flags.setColor color }
  | none => heap

theorem recolor_boxes (heap : Heap) (address : Ptr) (color : GcColor) (query : Ptr) :
    (heap.recolor address color).boxes query =
      if query = address then (heap.boxes address).map fun gcBox =>
        { gcBox with flags := gcBox.flags.setColor color }
      else heap.boxes query := by
  unfold recolor
  split <;> by_cases here : query = address <;> simp_all

@[simp] theorem recolor_fresh (heap : Heap) (address : Ptr) (color : GcColor) :
    (heap.recolor address color).fresh = heap.fresh := by
  unfold recolor
  split <;> rfl

theorem recolor_of_found {heap : Heap} {address : Ptr} {gcBox : GcBox}
    (found : heap.boxes address = some gcBox) (color : GcColor) :
    heap.recolor address color = heap.set address { gcBox with flags := gcBox.flags.setColor color } := by
  simp [recolor, found]

/-- What the all-list and the byte count read of memory: each box's link and size. -/
def layout (heap : Heap) (address : Ptr) : Option (Option Ptr × ℕ) :=
  (heap.boxes address).map fun gcBox => (gcBox.next, gcBox.size)

theorem allocated_iff_layout {heap : Heap} {address : Ptr} :
    heap.Allocated address ↔ heap.layout address ≠ none := by
  simp [Allocated, layout]

/-- Rewriting a box in place keeps the layout when its link and size stay. -/
theorem layout_set {heap : Heap} {address : Ptr} {gcBox gcBox' : GcBox}
    (found : heap.boxes address = some gcBox) (next : gcBox'.next = gcBox.next)
    (size : gcBox'.size = gcBox.size) : (heap.set address gcBox').layout = heap.layout := by
  funext query
  by_cases here : query = address
  · subst here
    simp [layout, found, next, size]
  · simp [layout, here]

theorem recolor_layout (heap : Heap) (address : Ptr) (color : GcColor) :
    (heap.recolor address color).layout = heap.layout := by
  funext query
  simp only [layout, recolor_boxes]
  split <;> [subst query; rfl]
  cases heap.boxes address <;> rfl

/-- The bytes of the box at an address; a freed address counts nothing. -/
def sizeAt (heap : Heap) (address : Ptr) : ℕ :=
  ((heap.boxes address).map GcBox.size).getD 0

/-- The bytes of the boxes at `cells`: what `total_allocated` should count. -/
def totalSize (heap : Heap) (cells : List Ptr) : ℕ :=
  cells.foldr (fun address total => heap.sizeAt address + total) 0

@[simp] theorem sizeAt_set (heap : Heap) (address : Ptr) (gcBox : GcBox) (query : Ptr) :
    (heap.set address gcBox).sizeAt query =
      if query = address then gcBox.size else heap.sizeAt query := by
  simp only [sizeAt, set_boxes]
  split <;> rfl

@[simp] theorem sizeAt_erase (heap : Heap) (address query : Ptr) :
    (heap.erase address).sizeAt query = if query = address then 0 else heap.sizeAt query := by
  simp only [sizeAt, erase_boxes]
  split <;> rfl

@[simp] theorem totalSize_nil (heap : Heap) : heap.totalSize [] = 0 := rfl

@[simp] theorem totalSize_cons (heap : Heap) (address : Ptr) (cells : List Ptr) :
    heap.totalSize (address :: cells) = heap.sizeAt address + heap.totalSize cells := rfl

theorem totalSize_append (heap : Heap) (cells cells' : List Ptr) :
    heap.totalSize (cells ++ cells') = heap.totalSize cells + heap.totalSize cells' := by
  induction cells with
  | nil => simp [totalSize]
  | cons head tail ih => rw [List.cons_append, totalSize_cons, totalSize_cons, ih, Nat.add_assoc]

theorem sizeAt_of_found {heap : Heap} {address : Ptr} {gcBox : GcBox}
    (found : heap.boxes address = some gcBox) : heap.sizeAt address = gcBox.size := by
  simp [sizeAt, found]

theorem sizeAt_of_layout {heap heap' : Heap} (layout : heap'.layout = heap.layout) :
    heap'.sizeAt = heap.sizeAt := by
  funext address
  have same := congrFun layout address
  revert same
  unfold Heap.layout sizeAt
  cases heap'.boxes address <;> cases heap.boxes address <;> simp_all

theorem totalSize_congr {heap heap' : Heap} {cells : List Ptr}
    (agree : ∀ address ∈ cells, heap'.sizeAt address = heap.sizeAt address) :
    heap'.totalSize cells = heap.totalSize cells := by
  induction cells with
  | nil => rfl
  | cons head tail ih =>
    rw [totalSize_cons, totalSize_cons, agree head (List.mem_cons_self _ _),
      ih fun address member => agree address (List.mem_cons_of_mem _ member)]

/-- Taking a box off the list takes its bytes off the count. -/
theorem totalSize_erase (heap : Heap) {cells : List Ptr} {address : Ptr} (member : address ∈ cells) :
    heap.sizeAt address + heap.totalSize (cells.erase address) = heap.totalSize cells := by
  induction cells with
  | nil => cases member
  | cons head tail ih =>
    by_cases here : head = address
    · subst here
      rw [List.erase_cons_head, totalSize_cons]
    · have later : address ∈ tail := (List.mem_cons.mp member).resolve_left (Ne.symm here)
      rw [List.erase_cons_tail (by simpa using here), totalSize_cons, totalSize_cons, ← ih later]
      omega

theorem sizeAt_le_totalSize (heap : Heap) {cells : List Ptr} {address : Ptr}
    (member : address ∈ cells) : heap.sizeAt address ≤ heap.totalSize cells := by
  rw [← heap.totalSize_erase member]
  omega

/-- Everything of a box but its colour. -/
def frame (gcBox : GcBox) : Bool × RootCount × Option Ptr × GcValue × ℕ :=
  (gcBox.flags.isDetached, gcBox.rootCount, gcBox.next, gcBox.value, gcBox.size)

/-- `heap'` is `heap` with boxes recoloured, none of them to white: what marking does. -/
structure Shades (heap heap' : Heap) : Prop where
  fresh : heap'.fresh = heap.fresh
  frame : ∀ address, (heap'.boxes address).map frame = (heap.boxes address).map frame
  white : ∀ address gcBox', heap'.boxes address = some gcBox' → gcBox'.flags.color = .white →
    ∃ gcBox, heap.boxes address = some gcBox ∧ gcBox.flags.color = .white

namespace Shades

variable {heap heap' heap'' : Heap}

theorem refl (heap : Heap) : Shades heap heap :=
  ⟨rfl, fun _ => rfl, fun _ gcBox found white => ⟨gcBox, found, white⟩⟩

theorem trans (first : Shades heap heap') (second : Shades heap' heap'') : Shades heap heap'' := by
  refine ⟨second.fresh.trans first.fresh, fun address => (second.frame address).trans (first.frame address), ?_⟩
  intro address gcBox'' found white
  obtain ⟨gcBox', found', white'⟩ := second.white address gcBox'' found white
  exact first.white address gcBox' found' white'

theorem layout (shades : Shades heap heap') : heap'.layout = heap.layout := by
  funext address
  have same := congrArg (Option.map fun f : Bool × RootCount × Option Ptr × GcValue × ℕ =>
    (f.2.2.1, f.2.2.2.2)) (shades.frame address)
  simpa [layout, frame, Option.map_map, Function.comp_def] using same

theorem allocated_iff (shades : Shades heap heap') {address : Ptr} :
    heap'.Allocated address ↔ heap.Allocated address := by
  rw [allocated_iff_layout, allocated_iff_layout, shades.layout]

end Shades

/-- Recolouring a box to any colour but white shades memory. -/
theorem shades_recolor (heap : Heap) (address : Ptr) {color : GcColor} (dark : color ≠ .white) :
    Shades heap (heap.recolor address color) := by
  refine ⟨recolor_fresh _ _ _, fun query => ?_, fun query gcBox' found white => ?_⟩
  · rw [recolor_boxes]
    split <;> [subst query; rfl]
    cases heap.boxes address <;> simp [frame]
  · rw [recolor_boxes] at found
    split at found
    · subst query
      obtain ⟨gcBox, found, rfl⟩ := Option.map_eq_some'.mp found
      simp at white
      exact absurd white dark
    · exact ⟨gcBox', found, white⟩

end Heap

/-- Following `next` from `start` meets exactly `cells` and arrives at `stop`. -/
inductive Chain (heap : Heap) : Option Ptr → List Ptr → Option Ptr → Prop
  | nil (stop : Option Ptr) : Chain heap stop [] stop
  | cons {address : Ptr} {gcBox : GcBox} {cells : List Ptr} {stop : Option Ptr} :
      heap.boxes address = some gcBox → Chain heap gcBox.next cells stop →
      Chain heap (some address) (address :: cells) stop

namespace Chain

variable {heap heap' : Heap} {start stop middle : Option Ptr} {cells cells' : List Ptr}

theorem nil_iff : Chain heap start [] stop ↔ start = stop := by
  constructor
  · rintro ⟨⟩
    rfl
  · rintro rfl
    exact .nil _

theorem cons_iff {address : Ptr} :
    Chain heap start (address :: cells) stop ↔
      start = some address ∧ ∃ gcBox, heap.boxes address = some gcBox ∧ Chain heap gcBox.next cells stop := by
  constructor
  · rintro (_ | ⟨found, rest⟩)
    exact ⟨rfl, _, found, rest⟩
  · rintro ⟨rfl, gcBox, found, rest⟩
    exact .cons found rest

/-- Chains compose at their shared end. -/
theorem append (first : Chain heap start cells middle) (second : Chain heap middle cells' stop) :
    Chain heap start (cells ++ cells') stop := by
  induction first with
  | nil => exact second
  | cons found _ ih => exact .cons found (ih second)

theorem append_iff :
    Chain heap start (cells ++ cells') stop ↔
      ∃ middle, Chain heap start cells middle ∧ Chain heap middle cells' stop := by
  constructor
  · intro chain
    induction cells generalizing start with
    | nil => exact ⟨start, .nil _, chain⟩
    | cons address rest ih =>
      obtain ⟨rfl, gcBox, found, tail⟩ := cons_iff.mp chain
      obtain ⟨middle, left, right⟩ := ih tail
      exact ⟨middle, .cons found left, right⟩
  · rintro ⟨middle, left, right⟩
    exact left.append right

theorem mem_allocated (chain : Chain heap start cells stop) {address : Ptr}
    (member : address ∈ cells) : heap.Allocated address := by
  induction chain with
  | nil => cases member
  | @cons head gcBox _ _ found _ ih =>
    rcases List.mem_cons.mp member with rfl | later
    · simp [Heap.Allocated, found]
    · exact ih later

/-- A chain ending at `none` is the only one from its start: `next` is a function. -/
theorem unique (chain : Chain heap start cells none) (other : Chain heap start cells' none) :
    cells = cells' := by
  induction cells generalizing start cells' with
  | nil =>
    obtain rfl := nil_iff.mp chain
    cases cells' with
    | nil => rfl
    | cons _ _ => exact absurd (cons_iff.mp other).1 (by simp)
  | cons address rest ih =>
    obtain ⟨rfl, gcBox, found, tail⟩ := cons_iff.mp chain
    cases cells' with
    | nil => exact absurd (nil_iff.mp other) (by simp)
    | cons address' rest' =>
      obtain ⟨same, gcBox', found', tail'⟩ := cons_iff.mp other
      cases same
      rw [found] at found'
      cases found'
      rw [ih tail tail']

/-- A chain survives any change of memory that keeps its cells and their links. -/
theorem frame (chain : Chain heap start cells stop)
    (links : ∀ address ∈ cells, (heap'.boxes address).map GcBox.next = (heap.boxes address).map GcBox.next) :
    Chain heap' start cells stop := by
  induction chain with
  | nil => exact .nil _
  | @cons address gcBox _ _ found _ ih =>
    have same := links address (List.mem_cons_self _ _)
    rw [found] at same
    obtain ⟨gcBox', found', next⟩ := Option.map_eq_some'.mp same
    refine .cons found' ?_
    rw [next]
    exact ih fun other member => links other (List.mem_cons_of_mem _ member)

/-- A chain survives any change of memory away from its cells. -/
theorem of_agree (chain : Chain heap start cells stop)
    (agree : ∀ address ∈ cells, heap'.boxes address = heap.boxes address) :
    Chain heap' start cells stop :=
  chain.frame fun address member => by rw [agree address member]

theorem last_next {last : Ptr} (chain : Chain heap start (cells ++ [last]) stop) :
    ∃ gcBox, heap.boxes last = some gcBox ∧ gcBox.next = stop := by
  obtain ⟨middle, -, tail⟩ := append_iff.mp chain
  obtain ⟨rfl, gcBox, found, rest⟩ := cons_iff.mp tail
  exact ⟨gcBox, found, (nil_iff.mp rest)⟩

/-- Redirecting the link of a chain's last cell moves its end. -/
theorem relink {last : Ptr} (chain : Chain heap start (cells ++ [last]) stop)
    (fresh : last ∉ cells) (gcBox : GcBox) (target : Option Ptr) :
    Chain (heap.set last { gcBox with next := target }) start (cells ++ [last]) target := by
  obtain ⟨middle, front, tail⟩ := append_iff.mp chain
  obtain ⟨rfl, _, _, _⟩ := cons_iff.mp tail
  refine (front.of_agree fun address member => ?_).append
    (.cons (Heap.set_boxes_self _ _ _) (.nil _))
  have : address ≠ last := fun same => fresh (same ▸ member)
  simp [this]

/-- Chains read only the layout of memory. -/
theorem of_layout (chain : Chain heap start cells stop) (same : heap'.layout = heap.layout) :
    Chain heap' start cells stop := by
  refine chain.frame fun address _ => ?_
  have at_address := congrFun same address
  simp only [Heap.layout] at at_address
  cases h' : heap'.boxes address <;> cases h : heap.boxes address <;> simp_all

end Chain

end LusterGc
