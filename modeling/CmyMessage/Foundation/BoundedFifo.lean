import Mathlib.Data.List.Basic

/-!
# Bounded first-in first-out stores

A store gives its items out in the order in which it took them in, and turns an item away exactly
when it is full.  A ledger keeps what was accepted and what was delivered; whatever calls are made,
the delivered items followed by the stored ones are the accepted ones.
-/

/-- A store of at most `capacity` items, the oldest first. -/
structure BoundedFifo (α : Type*) (capacity : Nat) where
  /-- The items in the order in which they will be given out. -/
  items : List α
  /-- There is room for all of them. -/
  fits : items.length ≤ capacity

namespace BoundedFifo

variable {α : Type*} {capacity : Nat}

/-- The store without items. -/
def empty : BoundedFifo α capacity := ⟨[], Nat.zero_le _⟩

/-- Nothing more can be taken in. -/
def isFull (fifo : BoundedFifo α capacity) : Prop := fifo.items.length = capacity

instance (fifo : BoundedFifo α capacity) : Decidable fifo.isFull :=
  inferInstanceAs (Decidable (_ = _))

/-- Take an item in, unless the store is full. -/
def push (fifo : BoundedFifo α capacity) (item : α) : BoundedFifo α capacity :=
  if full : fifo.isFull then fifo
  else ⟨fifo.items ++ [item], by
    have room := Nat.lt_of_le_of_ne fifo.fits full
    rwa [List.length_append, List.length_singleton]⟩

/-- What is left when the oldest item is given out. -/
def pop (fifo : BoundedFifo α capacity) : BoundedFifo α capacity :=
  ⟨fifo.items.tail, by
    rw [List.length_tail]
    exact Nat.le_trans (Nat.sub_le _ _) fifo.fits⟩

theorem push_of_full {fifo : BoundedFifo α capacity} (full : fifo.isFull) (item : α) :
    fifo.push item = fifo := dif_pos full

theorem push_items {fifo : BoundedFifo α capacity} (room : ¬ fifo.isFull) (item : α) :
    (fifo.push item).items = fifo.items ++ [item] := by
  rw [push, dif_neg room]

/-- The calls made on a store. -/
inductive Call (α : Type*)
  | push (item : α)
  | pop

/-- A store with what it accepted and delivered so far. -/
structure Ledger (α : Type*) (capacity : Nat) where
  /-- The store. -/
  fifo : BoundedFifo α capacity
  /-- The items taken in, in order. -/
  accepted : List α
  /-- The items given out, in order. -/
  delivered : List α

namespace Ledger

/-- The ledger of a new store. -/
def empty : Ledger α capacity := ⟨.empty, [], []⟩

/-- Make a call and keep the books. -/
def perform (ledger : Ledger α capacity) : Call α → Ledger α capacity
  | .push item =>
      { ledger with
        fifo := ledger.fifo.push item
        accepted := if ledger.fifo.isFull then ledger.accepted else ledger.accepted ++ [item] }
  | .pop =>
      { ledger with
        fifo := ledger.fifo.pop
        delivered := ledger.delivered ++ ledger.fifo.items.head?.toList }

/-- Make some calls in order. -/
def run (calls : List (Call α)) : Ledger α capacity := calls.foldl perform empty

/-- Nothing is lost, repeated or reordered. -/
def Balanced (ledger : Ledger α capacity) : Prop :=
  ledger.delivered ++ ledger.fifo.items = ledger.accepted

theorem Balanced.perform {ledger : Ledger α capacity} (balanced : ledger.Balanced)
    (call : Call α) : (ledger.perform call).Balanced := by
  rw [Balanced] at balanced ⊢
  cases call with
  | push item =>
      rcases Decidable.em ledger.fifo.isFull with full | room
      · simp only [Ledger.perform, push_of_full full, if_pos full, balanced]
      · simp only [Ledger.perform, push_items room, if_neg room, ← balanced, List.append_assoc]
  | pop =>
      simp only [Ledger.perform, pop, ← balanced, List.append_assoc]
      cases ledger.fifo.items <;> rfl

theorem run_balanced (calls : List (Call α)) : (run calls : Ledger α capacity).Balanced := by
  unfold run
  have initially : (empty : Ledger α capacity).Balanced := rfl
  generalize (empty : Ledger α capacity) = ledger at initially
  induction calls generalizing ledger with
  | nil => exact initially
  | cons call calls ih => exact ih _ (initially.perform call)

end Ledger

end BoundedFifo
