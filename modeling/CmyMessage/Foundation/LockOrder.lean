import Mathlib.Logic.Relation
import Mathlib.Order.Basic

/-!
# Ordered locking

Threads that hold locks and request further ones.  If every thread requests only locks that lie
above all those it holds, no thread requests a lock of its own, and no threads wait for each other
in a circle.
-/

namespace LockOrder

variable {Thread Lock Rank : Type*} [Preorder Rank]
variable (holds requests : Thread → Lock → Prop)

/-- A thread requests a lock that another one holds. -/
def WaitsFor (waiting holding : Thread) : Prop :=
  ∃ lock, requests waiting lock ∧ holds holding lock

/-- Locks are requested in ascending order. -/
def Ordered (rank : Lock → Rank) : Prop :=
  ∀ thread requested held, requests thread requested → holds thread held →
    rank held < rank requested

variable {holds requests}

namespace Ordered

variable {rank : Lock → Rank}

theorem not_holds (ordered : Ordered holds requests rank) {thread : Thread} {lock : Lock}
    (requested : requests thread lock) : ¬ holds thread lock := fun held =>
  lt_irrefl _ (ordered thread lock lock requested held)

/-- Along a chain of waiting threads the locks ascend. -/
theorem chain (ordered : Ordered holds requests rank) {first last : Thread}
    (waits : Relation.TransGen (WaitsFor holds requests) first last) :
    ∃ requested held, requests first requested ∧ holds last held ∧
      rank requested ≤ rank held := by
  induction waits with
  | single waits =>
      obtain ⟨lock, requested, held⟩ := waits
      exact ⟨lock, lock, requested, held, le_refl _⟩
  | tail _ waits ih =>
      obtain ⟨requested, held, requests', holds', ascends⟩ := ih
      obtain ⟨lock, next, held'⟩ := waits
      have below : rank held < rank lock := ordered _ lock held next holds'
      exact ⟨requested, lock, requests', held', ascends.trans below.le⟩

/-- No circle of waiting threads. -/
theorem acyclic (ordered : Ordered holds requests rank) (thread : Thread) :
    ¬ Relation.TransGen (WaitsFor holds requests) thread thread := by
  intro circle
  obtain ⟨requested, held, requests', holds', ascends⟩ := ordered.chain circle
  have below : rank held < rank requested := ordered thread requested held requests' holds'
  exact lt_irrefl _ (below.trans_le ascends)

end Ordered
end LockOrder
