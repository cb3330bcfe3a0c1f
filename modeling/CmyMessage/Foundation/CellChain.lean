import Mathlib.Data.List.Nodup
import Mathlib.Data.List.Range
import Mathlib.Data.List.Infix
import Mathlib.Data.List.Perm.Subperm
import Mathlib.Logic.Function.Basic

/-!
# Singly linked chains in a heap of cells

A cell holds a value and the address of the next cell.  `Chain heap start cells` says that following
the links from `start` visits exactly `cells` and then ends at the null address.  Chains are unique,
so a chain never repeats an address, and its length is bounded by the number of allocations; this
bound is the fuel with which a traversal always finishes.
-/

/-- One cell of a singly linked chain. -/
structure Cell (ν : Type*) where
  /-- Payload of the cell. -/
  value : ν
  /-- Address of the next cell, or the null address. -/
  next : Option Nat

/-- A heap of cells with a bump allocator. -/
structure CellHeap (ν : Type*) where
  /-- The cell stored at an address, if the address is allocated. -/
  cell : Nat → Option (Cell ν)
  /-- The next address the allocator returns. -/
  fresh : Nat
  /-- Nothing is stored at an address the allocator has not returned yet. -/
  unallocated : ∀ address, fresh ≤ address → cell address = none

namespace CellHeap

variable {ν : Type*}

/-- The heap before any allocation. -/
def empty : CellHeap ν := ⟨fun _ => none, 0, fun _ _ => rfl⟩

/-- Store a new cell at the address `heap.fresh`. -/
def allocate (heap : CellHeap ν) (value : ν) (next : Option Nat) : CellHeap ν where
  cell := Function.update heap.cell heap.fresh (some ⟨value, next⟩)
  fresh := heap.fresh + 1
  unallocated := by
    intro address beyond
    rw [Function.update_of_ne (by omega)]
    exact heap.unallocated address (by omega)

/-- Redirect the link of an allocated cell. -/
def setNext (heap : CellHeap ν) (address : Nat) (next : Option Nat) : CellHeap ν where
  cell := Function.update heap.cell address ((heap.cell address).map fun c => ⟨c.value, next⟩)
  fresh := heap.fresh
  unallocated := by
    intro other beyond
    by_cases same : other = address
    · subst same
      simp [heap.unallocated other beyond]
    · rw [Function.update_of_ne same]
      exact heap.unallocated other beyond

/-- Give a cell back. -/
def free (heap : CellHeap ν) (address : Nat) : CellHeap ν where
  cell := Function.update heap.cell address none
  fresh := heap.fresh
  unallocated := by
    intro other beyond
    rcases eq_or_ne other address with rfl | different
    · exact Function.update_self _ _ _
    · rw [Function.update_of_ne different]
      exact heap.unallocated other beyond

theorem lt_fresh {heap : CellHeap ν} {address : Nat} {c : Cell ν}
    (stored : heap.cell address = some c) : address < heap.fresh := by
  by_contra beyond
  rw [heap.unallocated address (by omega)] at stored
  contradiction

/-- Following the links from `start` visits exactly `cells`. -/
inductive Chain (heap : CellHeap ν) : Option Nat → List (Nat × ν) → Prop
  | nil : Chain heap none []
  | cons {address : Nat} {value : ν} {next : Option Nat} {rest : List (Nat × ν)}
      (stored : heap.cell address = some ⟨value, next⟩) (tail : Chain heap next rest) :
      Chain heap (some address) ((address, value) :: rest)

namespace Chain

variable {heap : CellHeap ν} {start : Option Nat} {cells : List (Nat × ν)}

theorem unique (chain : heap.Chain start cells) {others : List (Nat × ν)}
    (other : heap.Chain start others) : cells = others := by
  induction chain generalizing others with
  | nil =>
      cases other
      rfl
  | cons stored _ ih =>
      cases other with
      | cons stored' tail' =>
          obtain ⟨rfl, rfl⟩ := Cell.mk.inj (Option.some.inj (stored.symm.trans stored'))
          rw [ih tail']

/-- Every suffix of a chain is the chain from some address. -/
theorem suffix {front back : List (Nat × ν)} (chain : heap.Chain start (front ++ back)) :
    ∃ middle, heap.Chain middle back := by
  induction front generalizing start with
  | nil => exact ⟨start, chain⟩
  | cons _ front ih =>
      cases chain with
      | cons _ tail => exact ih tail

theorem start_eq_none (chain : heap.Chain start []) : start = none := by
  cases chain
  rfl

theorem head_eq {address : Nat} {value : ν} {rest : List (Nat × ν)}
    (chain : heap.Chain start ((address, value) :: rest)) : start = some address := by
  cases chain
  rfl

/-- A chain never returns to an address, because the chain from an address is unique. -/
theorem nodup (chain : heap.Chain start cells) : (cells.map Prod.fst).Nodup := by
  induction chain with
  | nil => simp
  | @cons address value next rest stored tail ih =>
      rw [List.map_cons, List.nodup_cons]
      refine ⟨fun member => ?_, ih⟩
      obtain ⟨⟨address', value'⟩, repeated, rfl⟩ := List.mem_map.mp member
      obtain ⟨front, back, rfl⟩ := List.append_of_mem repeated
      obtain ⟨middle, again⟩ := tail.suffix
      have whole : heap.Chain (some address') ((address', value) ::
          (front ++ (address', value') :: back)) := .cons stored tail
      have lengths := congrArg List.length (whole.unique (again.head_eq ▸ again))
      simp at lengths
      omega

theorem allocated (chain : heap.Chain start cells) {c : Nat × ν} (member : c ∈ cells) :
    c.1 < heap.fresh := by
  induction chain with
  | nil => simp at member
  | cons stored _ ih =>
      rcases List.mem_cons.mp member with rfl | later
      · exact lt_fresh stored
      · exact ih later

theorem length_le (chain : heap.Chain start cells) : cells.length ≤ heap.fresh := by
  have within : cells.map Prod.fst ⊆ List.range heap.fresh := by
    intro address member
    obtain ⟨c, stored, rfl⟩ := List.mem_map.mp member
    exact List.mem_range.mpr (chain.allocated stored)
  simpa using (List.subperm_of_subset chain.nodup within).length_le

/-- A chain depends on its own cells only. -/
theorem congr {other : CellHeap ν} (chain : heap.Chain start cells)
    (agree : ∀ c ∈ cells, other.cell c.1 = heap.cell c.1) : other.Chain start cells := by
  induction chain with
  | nil => exact .nil
  | cons stored _ ih =>
      refine .cons ((agree _ List.mem_cons_self).trans stored) (ih fun c member => ?_)
      exact agree c (List.mem_cons_of_mem _ member)

theorem allocate (chain : heap.Chain start cells) (value : ν) (next : Option Nat) :
    (heap.allocate value next).Chain start cells := by
  apply chain.congr
  intro c member
  exact Function.update_of_ne (chain.allocated member).ne _ _

/-- A new cell linked to the old start begins the extended chain. -/
theorem prepend (chain : heap.Chain start cells) (value : ν) :
    (heap.allocate value start).Chain (some heap.fresh) ((heap.fresh, value) :: cells) :=
  .cons (Function.update_self _ _ _) (chain.allocate value start)

theorem setNext_of_notMem (chain : heap.Chain start cells) {address : Nat} (next : Option Nat)
    (outside : address ∉ cells.map Prod.fst) : (heap.setNext address next).Chain start cells := by
  apply chain.congr
  intro c member
  refine Function.update_of_ne (fun same => outside ?_) _ _
  exact same ▸ List.mem_map_of_mem member

theorem free_of_notMem (chain : heap.Chain start cells) {address : Nat}
    (outside : address ∉ cells.map Prod.fst) : (heap.free address).Chain start cells := by
  apply chain.congr
  intro c member
  refine Function.update_of_ne (fun same => outside ?_) _ _
  exact same ▸ List.mem_map_of_mem member

/-- A new cell linked from the last one ends the extended chain. -/
theorem extend {front : List (Nat × ν)} {last : Nat} {left : ν}
    (chain : heap.Chain start (front ++ [(last, left)])) (value : ν) :
    ((heap.allocate value none).setNext last (some heap.fresh)).Chain start
      (front ++ [(last, left), (heap.fresh, value)]) := by
  have beyond : heap.fresh ≠ last :=
    Ne.symm (chain.allocated (List.mem_append_right front List.mem_cons_self)).ne
  induction front generalizing start with
  | nil =>
      cases chain with
      | cons stored _ =>
          refine .cons ?_ (.cons ?_ .nil)
          · simp [CellHeap.setNext, CellHeap.allocate, Function.update_of_ne beyond.symm, stored]
          · simp [CellHeap.setNext, CellHeap.allocate, Function.update_of_ne beyond]
  | cons c front ih =>
      have distinct := chain.nodup
      have old := chain.allocated List.mem_cons_self
      cases chain with
      | @cons address' value' _ _ stored tail =>
          refine .cons ?_ (ih tail)
          have different : address' ≠ last := by
            rintro rfl
            simp at distinct
          simpa [CellHeap.setNext, CellHeap.allocate, Function.update_of_ne different,
            Function.update_of_ne old.ne] using stored

/-- Dropping the head moves the start to the head's link. -/
theorem unlink_head {address : Nat} {value : ν} {rest : List (Nat × ν)}
    (chain : heap.Chain start ((address, value) :: rest)) :
    ∃ next, heap.cell address = some ⟨value, next⟩ ∧ heap.Chain next rest := by
  cases chain with
  | cons stored tail => exact ⟨_, stored, tail⟩

/-- Giving back the head leaves the chain that its link starts. -/
theorem free_head {address : Nat} {value : ν} {rest : List (Nat × ν)}
    (chain : heap.Chain start ((address, value) :: rest)) :
    ∃ next, heap.cell address = some ⟨value, next⟩ ∧ (heap.free address).Chain next rest := by
  have distinct := chain.nodup
  rw [List.map_cons, List.nodup_cons] at distinct
  obtain ⟨next, stored, tail⟩ := chain.unlink_head
  exact ⟨next, stored, tail.free_of_notMem distinct.1⟩

/-- Redirecting a cell past its successor removes the successor. -/
theorem unlink_after {front rest : List (Nat × ν)} {previous address : Nat} {left right : ν}
    (chain : heap.Chain start (front ++ (previous, left) :: (address, right) :: rest)) :
    ∃ next, heap.cell address = some ⟨right, next⟩ ∧
      (heap.setNext previous next).Chain start (front ++ (previous, left) :: rest) := by
  induction front generalizing start with
  | nil =>
      have distinct := chain.nodup
      cases chain with
      | cons stored tail =>
          obtain ⟨next, stored', tail'⟩ := tail.unlink_head
          refine ⟨next, stored', .cons ?_ (tail'.setNext_of_notMem next ?_)⟩
          · simp [CellHeap.setNext, stored]
          · simp only [List.nil_append, List.map_cons, List.nodup_cons, List.mem_cons,
              not_or] at distinct
            exact distinct.1.2
  | cons c front ih =>
      have distinct := chain.nodup
      cases chain with
      | @cons address' value' _ _ stored tail =>
          obtain ⟨next, stored', shorter⟩ := ih tail
          refine ⟨next, stored', .cons ?_ shorter⟩
          have different : address' ≠ previous := by
            rintro rfl
            simp at distinct
          simpa [CellHeap.setNext, Function.update_of_ne different] using stored

end Chain

/-- Walk from `temp` to the first accepted cell, remembering the cell before it. -/
def search (heap : CellHeap ν) (accept : ν → Bool) :
    Nat → Option Nat → Option Nat → Option (Option Nat × Nat)
  | _, _, none => none
  | 0, _, some _ => none
  | fuel + 1, previous, some temp =>
      match heap.cell temp with
      | none => none
      | some c =>
          if accept c.value then some (previous, temp)
          else heap.search accept fuel (some temp) c.next

theorem search_eq_none {heap : CellHeap ν} {start : Option Nat} {cells : List (Nat × ν)}
    (accept : ν → Bool) (chain : heap.Chain start cells)
    (rejected : ∀ c ∈ cells, accept c.2 = false) (fuel : Nat) (previous : Option Nat) :
    heap.search accept fuel previous start = none := by
  induction chain generalizing fuel previous with
  | nil => simp [search]
  | @cons address value _ _ stored _ ih =>
      cases fuel with
      | zero => rfl
      | succ fuel =>
          have here : accept value = false := rejected (address, value) List.mem_cons_self
          simp only [search, stored, here, Bool.false_eq_true, if_false]
          exact ih (fun c member => rejected c (List.mem_cons_of_mem _ member)) fuel _

theorem search_eq_some {heap : CellHeap ν} {start : Option Nat} {front rest : List (Nat × ν)}
    {address : Nat} {value : ν} (accept : ν → Bool)
    (chain : heap.Chain start (front ++ (address, value) :: rest))
    (rejected : ∀ c ∈ front, accept c.2 = false) (accepted : accept value = true)
    {fuel : Nat} (enough : front.length < fuel) (previous : Option Nat) :
    heap.search accept fuel previous start =
      some ((front.map Prod.fst).getLast?.or previous, address) := by
  induction front generalizing start fuel previous with
  | nil =>
      obtain ⟨fuel, rfl⟩ := Nat.exists_eq_succ_of_ne_zero (Nat.ne_of_gt enough)
      cases chain with
      | cons stored _ => simp [search, stored, accepted]
  | cons c front ih =>
      obtain ⟨fuel, rfl⟩ := Nat.exists_eq_succ_of_ne_zero (Nat.ne_of_gt (Nat.zero_lt_of_lt enough))
      cases chain with
      | @cons address' value' _ _ stored tail =>
          have here : accept value' = false := rejected (address', value') List.mem_cons_self
          have enough' : front.length < fuel := by simpa using enough
          have later := ih tail (fun c member => rejected c (List.mem_cons_of_mem _ member)) enough'
            (some address')
          simp only [search, stored, here, Bool.false_eq_true, if_false, later, List.map_cons,
            List.getLast?_cons]
          cases (front.map Prod.fst).getLast? <;> rfl

/-- The cells visited from an address, as far as the fuel goes. -/
def collect (heap : CellHeap ν) : Nat → Option Nat → List (Nat × ν)
  | _, none => []
  | 0, some _ => []
  | fuel + 1, some address =>
      match heap.cell address with
      | none => []
      | some c => (address, c.value) :: heap.collect fuel c.next

theorem collect_eq {heap : CellHeap ν} {start : Option Nat} {cells : List (Nat × ν)}
    (chain : heap.Chain start cells) {fuel : Nat} (enough : cells.length ≤ fuel) :
    heap.collect fuel start = cells := by
  induction chain generalizing fuel with
  | nil => simp [collect]
  | cons stored _ ih =>
      cases fuel with
      | zero => simp at enough
      | succ fuel => simp [collect, stored, ih (by simpa using enough)]

/-! ## The values in memory -/

/-- The values of all allocated cells, linked or not, in the order of their addresses. -/
def values (heap : CellHeap ν) : List ν :=
  (List.range heap.fresh).filterMap fun address => (heap.cell address).map Cell.value

/-- The allocator puts the value behind all others. -/
@[simp]
theorem values_allocate (heap : CellHeap ν) (value : ν) (next : Option Nat) :
    (heap.allocate value next).values = heap.values ++ [value] := by
  have kept : ((List.range heap.fresh).filterMap fun address =>
        ((heap.allocate value next).cell address).map Cell.value) = heap.values := by
    refine List.filterMap_congr fun address member => ?_
    have old : address ≠ heap.fresh := (List.mem_range.mp member).ne
    simp only [allocate, Function.update_of_ne old]
  have placed : (heap.allocate value next).cell heap.fresh = some ⟨value, next⟩ :=
    Function.update_self _ _ _
  rw [values, show (heap.allocate value next).fresh = heap.fresh + 1 from rfl,
    List.range_succ, List.filterMap_append, kept, List.filterMap_cons, placed]
  rfl

/-- A link carries no value. -/
@[simp]
theorem values_setNext (heap : CellHeap ν) (address : Nat) (next : Option Nat) :
    (heap.setNext address next).values = heap.values := by
  refine List.filterMap_congr fun other _ => ?_
  by_cases same : other = address
  · subst same
    simp only [setNext, Function.update_self, Option.map_map]
    rfl
  · simp only [setNext, Function.update_of_ne same]

/-- Giving a cell back takes its value out and no other. -/
theorem values_free {heap : CellHeap ν} {address : Nat} {c : Cell ν}
    (stored : heap.cell address = some c) :
    (c.value :: (heap.free address).values).Perm heap.values := by
  obtain ⟨front, back, split⟩ := List.append_of_mem (List.mem_range.mpr (lt_fresh stored))
  have distinct := List.nodup_range (n := heap.fresh)
  rw [split, List.nodup_append', List.nodup_cons] at distinct
  obtain ⟨-, ⟨beyond, -⟩, apart⟩ := distinct
  have kept (addresses : List Nat) (absent : address ∉ addresses) :
      (addresses.filterMap fun other => ((heap.free address).cell other).map Cell.value) =
        addresses.filterMap fun other => (heap.cell other).map Cell.value := by
    refine List.filterMap_congr fun other member => ?_
    have different : other ≠ address := fun same => absent (same ▸ member)
    simp only [free, Function.update_of_ne different]
  have gone : (heap.free address).cell address = none := Function.update_self _ _ _
  rw [values, values, show (heap.free address).fresh = heap.fresh from rfl, split,
    List.filterMap_append, List.filterMap_append, List.filterMap_cons, List.filterMap_cons, gone,
    stored, kept back beyond, kept front fun member => apart member List.mem_cons_self]
  exact List.perm_middle.symm

end CellHeap
