import CmyMessage.Foundation.BoundedFifo
import CmyMessage.Foundation.CellChain
import CmyMessage.Settings

/-!
# The queue of pending clients

`queue.c` keeps the clients that wait for a thread in a linked list with a pointer to each end and a
counter beside it.  Nothing in the code ties the three together but the way the two operations
write them.  They implement a bounded store, so the list, its ends and the counter always agree, and
no accepted client is lost, repeated or overtaken.
-/

namespace CmyMessage

/-- `EXIT_FAILURE` -/
def exitFailure : Int := 1

/-- `MAX_QUEUE_SIZE`, for a given `SIZE_THREAD_POOL`. -/
def maxQueueSize (sizeThreadPool : Nat) : Nat := sizeThreadPool * 3

/-- The globals of `queue.c` and the heap of its nodes. -/
structure Queue (γ : Type*) where
  /-- The nodes. -/
  heap : CellHeap γ
  /-- `queue_size` -/
  queueSize : Int
  /-- `head` -/
  head : Option Nat
  /-- `tail` -/
  tail : Option Nat

/-- What a call of `enqueue` leaves behind. -/
structure Enqueued (γ : Type*) where
  /-- The value returned, where the function reaches a `return`. -/
  status : Option Int
  /-- The text sent to the client. -/
  message : Option (List UInt8)
  /-- The queue. -/
  queue : Queue γ

namespace Queue

variable {γ : Type*}

/-- The queue before the first call. -/
def initial : Queue γ := ⟨.empty, 0, none, none⟩

/-! ## The functions of the source -/

/-- `isEmptyQueue` -/
def isEmptyQueue (queue : Queue γ) : Bool := queue.head.isNone

/-- The message of `enqueue` to a client that is turned away. -/
def refusalMessage : List UInt8 :=
  literal "Sorry, we are having too much requests. Try again later."

/-- The message of `enqueue` to a client that has to wait. -/
def pendingMessage : List UInt8 := literal "Request pending... We thank your patience :)"

/-- The end of `enqueue`, which links a new node. -/
def link (queue : Queue γ) (client : γ) : Queue γ where
  heap :=
    match queue.tail with
    | none => queue.heap.allocate client none
    | some tail => (queue.heap.allocate client none).setNext tail (some queue.heap.fresh)
  queueSize := queue.queueSize + 1
  head :=
    match queue.tail with
    | none => some queue.heap.fresh
    | some _ => queue.head
  tail := some queue.heap.fresh

/-- `enqueue`, whose `malloc` succeeds if `allocates` says so. -/
def enqueue (sizeThreadPool : Nat) (queue : Queue γ) (client : γ) (allocates : Bool) :
    Enqueued γ :=
  if sizeThreadPool ≤ queue.queueSize ∧ queue.queueSize = maxQueueSize sizeThreadPool then
    ⟨some exitFailure, some refusalMessage, queue⟩
  else
    let message := if sizeThreadPool ≤ queue.queueSize then some pendingMessage else none
    if allocates then ⟨none, message, queue.link client⟩ else ⟨some (-1), message, queue⟩

/-- `dequeue`; a head that points to no node would be read after it was freed. -/
def dequeue (queue : Queue γ) : Option γ × Queue γ :=
  match queue.head.bind queue.heap.cell with
  | none => (none, queue)
  | some node =>
      (some node.value,
        { heap := (queue.head.map queue.heap.free).getD queue.heap
          queueSize := queue.queueSize - 1
          head := node.next
          tail := if node.next = none then none else queue.tail })

/-- `service_quit_message` -/
def serviceQuitMessage : List UInt8 :=
  literal "The service closed. Try again later. Sorry for any caused inconvenient."

/-- The loop of `gracefully_reject_pending_clients`, at most `fuel` times: what is sent to whom, and
the queue it leaves. -/
def rejectPending : Nat → Queue γ → List (γ × List UInt8) × Queue γ
  | 0, queue => ([], queue)
  | fuel + 1, queue =>
      if queue.isEmptyQueue then ([], queue)
      else
        (((queue.dequeue.1.map fun client => (client, serviceQuitMessage)).toList ++
          (rejectPending fuel queue.dequeue.2).1), (rejectPending fuel queue.dequeue.2).2)

/-- `gracefully_reject_pending_clients`; there is no node that was not allocated. -/
def gracefullyRejectPendingClients (queue : Queue γ) : List (γ × List UInt8) × Queue γ :=
  queue.rejectPending queue.heap.fresh

/-! ## Consistency -/

/-- The list from `head` is `nodes`, and both pointers and the counter agree with it. -/
structure Consistent (queue : Queue γ) (nodes : List (Nat × γ)) : Prop where
  chain : queue.heap.Chain queue.head nodes
  last : queue.tail = (nodes.map Prod.fst).getLast?
  size : queue.queueSize = nodes.length

/-- The queue is consistent and holds these clients, the oldest first. -/
def Holds (queue : Queue γ) (clients : List γ) : Prop :=
  ∃ nodes, queue.Consistent nodes ∧ nodes.map Prod.snd = clients

/-- The queue holds the items of a store. -/
def Represents {capacity : Nat} (queue : Queue γ) (fifo : BoundedFifo γ capacity) : Prop :=
  queue.Holds fifo.items

/-- The clients met when the list is followed from `head`. -/
def clients (queue : Queue γ) : List γ :=
  (queue.heap.collect queue.heap.fresh queue.head).map Prod.snd

theorem initial_consistent : (initial : Queue γ).Consistent [] := ⟨.nil, rfl, rfl⟩

variable {queue : Queue γ} {nodes : List (Nat × γ)}

namespace Consistent

theorem head_eq_none (consistent : queue.Consistent nodes) : queue.head = none ↔ nodes = [] := by
  have chain := consistent.chain
  constructor
  · intro empty
    rw [empty] at chain
    cases chain
    rfl
  · rintro rfl
    generalize queue.head = head at chain
    cases chain
    rfl

theorem tail_eq_none (consistent : queue.Consistent nodes) : queue.tail = none ↔ nodes = [] := by
  rw [consistent.last, List.getLast?_eq_none_iff, List.map_eq_nil_iff]

theorem queueSize_eq_zero (consistent : queue.Consistent nodes) :
    queue.queueSize = 0 ↔ nodes = [] := by
  rw [consistent.size, Int.natCast_eq_zero, List.length_eq_zero_iff]

theorem isEmptyQueue_iff (consistent : queue.Consistent nodes) :
    queue.isEmptyQueue = true ↔ nodes = [] := by
  rw [isEmptyQueue, Option.isNone_iff_eq_none, consistent.head_eq_none]

/-- Linking a node appends it. -/
theorem link (consistent : queue.Consistent nodes) (client : γ) :
    (queue.link client).Consistent (nodes ++ [(queue.heap.fresh, client)]) := by
  have size : (queue.link client).queueSize = (nodes ++ [(queue.heap.fresh, client)]).length := by
    rw [List.length_append, List.length_singleton, Queue.link, consistent.size]
    push_cast
    rfl
  have last : (queue.link client).tail =
      ((nodes ++ [(queue.heap.fresh, client)]).map Prod.fst).getLast? := by
    rw [List.map_append, List.map_singleton, List.getLast?_append]
    rfl
  rcases List.eq_nil_or_concat' nodes with rfl | ⟨front, ⟨tail, left⟩, rfl⟩
  · have noTail : queue.tail = none := consistent.last
    refine ⟨?_, last, size⟩
    simp only [Queue.link, noTail, List.nil_append]
    exact CellHeap.Chain.nil.prepend client
  · have hasTail : queue.tail = some tail := by
      rw [consistent.last, List.map_append, List.map_singleton, List.getLast?_append]
      rfl
    refine ⟨?_, last, size⟩
    simp only [Queue.link, hasTail, List.append_assoc, List.singleton_append]
    exact consistent.chain.extend client

/-- Giving the first node out leaves the rest. -/
theorem dequeue {node : Nat × γ} {rest : List (Nat × γ)}
    (consistent : queue.Consistent (node :: rest)) :
    queue.dequeue.1 = some node.2 ∧ queue.dequeue.2.Consistent rest := by
  obtain ⟨address, client⟩ := node
  have distinct := consistent.chain.nodup
  obtain ⟨next, stored, tail⟩ := consistent.chain.unlink_head
  have head : queue.head = some address := consistent.chain.head_eq
  rw [List.map_cons, List.nodup_cons] at distinct
  constructor
  · simp only [Queue.dequeue, head, Option.bind_some, stored]
  · simp only [Queue.dequeue, head, Option.bind_some, stored, Option.map_some, Option.getD_some]
    refine ⟨tail.free_of_notMem distinct.1, ?_, ?_⟩
    · cases tail with
      | nil => rfl
      | cons _ _ => simp [consistent.last, List.getLast?_cons_cons]
    · simp [consistent.size]

theorem dequeue_nil (consistent : queue.Consistent []) : queue.dequeue = (none, queue) := by
  rw [Queue.dequeue, consistent.head_eq_none.mpr rfl]
  rfl

/-- The rejection loop tells every pending client in order and leaves nothing behind. -/
theorem rejectPending (consistent : queue.Consistent nodes) {fuel : Nat}
    (enough : nodes.length ≤ fuel) :
    (queue.rejectPending fuel).1 = nodes.map (fun node => (node.2, serviceQuitMessage)) ∧
      (queue.rejectPending fuel).2.Consistent [] := by
  induction nodes generalizing queue fuel with
  | nil =>
      have none_left := consistent.isEmptyQueue_iff.mpr rfl
      cases fuel with
      | zero => exact ⟨rfl, consistent⟩
      | succ fuel =>
          rw [Queue.rejectPending, if_pos none_left]
          exact ⟨rfl, consistent⟩
  | cons node rest ih =>
      obtain ⟨fuel, rfl⟩ := Nat.exists_eq_succ_of_ne_zero (Nat.ne_of_gt (Nat.zero_lt_of_lt enough))
      have pending : queue.isEmptyQueue ≠ true := by
        rw [ne_eq, consistent.isEmptyQueue_iff]
        exact List.cons_ne_nil _ _
      obtain ⟨given, left⟩ := consistent.dequeue
      obtain ⟨told, nothing⟩ := ih left (Nat.le_of_succ_le_succ enough)
      rw [Queue.rejectPending, if_neg pending]
      exact ⟨by rw [given, told]; rfl, nothing⟩

end Consistent

namespace Holds

variable {clients : List γ}

theorem initial : (Queue.initial : Queue γ).Holds [] := ⟨[], initial_consistent, rfl⟩

theorem clients_eq (holds : queue.Holds clients) : queue.clients = clients := by
  obtain ⟨nodes, consistent, rfl⟩ := holds
  rw [Queue.clients, CellHeap.collect_eq consistent.chain consistent.chain.length_le]

theorem self (holds : queue.Holds clients) : queue.Holds queue.clients :=
  holds.clients_eq.symm ▸ holds

theorem isEmptyQueue_iff (holds : queue.Holds clients) :
    queue.isEmptyQueue = true ↔ clients = [] := by
  obtain ⟨nodes, consistent, rfl⟩ := holds
  rw [consistent.isEmptyQueue_iff, List.map_eq_nil_iff]

theorem link (holds : queue.Holds clients) (client : γ) :
    (queue.link client).Holds (clients ++ [client]) := by
  obtain ⟨nodes, consistent, rfl⟩ := holds
  exact ⟨_, consistent.link client, List.map_append⟩

/-- A call of `enqueue` appends the client, or returns a status and changes nothing. -/
theorem enqueue (holds : queue.Holds clients) (sizeThreadPool : Nat) (client : γ)
    (allocates : Bool) :
    (queue.enqueue sizeThreadPool client allocates).queue.Holds
      (if (queue.enqueue sizeThreadPool client allocates).status = none then clients ++ [client]
        else clients) := by
  rw [Queue.enqueue]
  split
  · exact holds
  · cases allocates with
    | true => exact holds.link client
    | false => exact holds

/-- What is given out is the oldest client. -/
theorem dequeue (holds : queue.Holds clients) :
    queue.dequeue.1 = clients.head? ∧ queue.dequeue.2.Holds clients.tail := by
  obtain ⟨nodes, consistent, rfl⟩ := holds
  cases nodes with
  | nil =>
      rw [consistent.dequeue_nil]
      exact ⟨rfl, [], consistent, rfl⟩
  | cons node rest => exact ⟨consistent.dequeue.1, rest, consistent.dequeue.2, rfl⟩

end Holds

/-! ## Calls -/

/-- The calls made under the mutex of the queue, whose allocations succeed. -/
inductive Call (γ : Type*)
  | enqueue (client : γ)
  | dequeue

/-- The abstract call. -/
def Call.onStore : Call γ → BoundedFifo.Call γ
  | enqueue client => .push client
  | dequeue => .pop

/-- A queue with the clients it accepted and those it gave out so far. -/
structure Record (γ : Type*) where
  queue : Queue γ
  /-- The clients of the calls of `enqueue` that did not return a failure. -/
  accepted : List γ
  /-- What the calls of `dequeue` returned. -/
  dequeued : List γ

namespace Record

/-- The record before the first call. -/
def initial : Record γ := ⟨.initial, [], []⟩

/-- Make a call and write down what it returned. -/
def perform (sizeThreadPool : Nat) (record : Record γ) : Call γ → Record γ
  | .enqueue client =>
      let result := record.queue.enqueue sizeThreadPool client true
      { record with
        queue := result.queue
        accepted := if result.status = some exitFailure then record.accepted
          else record.accepted ++ [client] }
  | .dequeue =>
      { record with
        queue := record.queue.dequeue.2
        dequeued := record.dequeued ++ record.queue.dequeue.1.toList }

/-- Make some calls in order. -/
def run (sizeThreadPool : Nat) (calls : List (Call γ)) : Record γ :=
  calls.foldl (perform sizeThreadPool) initial

end Record

variable {sizeThreadPool : Nat} {fifo : BoundedFifo γ (maxQueueSize sizeThreadPool)}

/-- A client is refused exactly by a full queue, which stays as it is. -/
theorem Represents.enqueue (represents : queue.Represents fifo) (client : γ) :
    ((queue.enqueue sizeThreadPool client true).status = some exitFailure ↔ fifo.isFull) ∧
      (fifo.isFull → (queue.enqueue sizeThreadPool client true).queue = queue) ∧
      (queue.enqueue sizeThreadPool client true).queue.Represents (fifo.push client) := by
  have length : queue.queueSize = fifo.items.length := by
    obtain ⟨nodes, consistent, items⟩ := represents
    rw [consistent.size, ← items, List.length_map]
  rcases Decidable.em fifo.isFull with full | room
  · have refused : sizeThreadPool ≤ queue.queueSize ∧
        queue.queueSize = maxQueueSize sizeThreadPool := by
      rw [BoundedFifo.isFull] at full
      rw [length, full, maxQueueSize]
      omega
    rw [Queue.enqueue, if_pos refused, BoundedFifo.push_of_full full]
    exact ⟨iff_of_true rfl full, fun _ => rfl, represents⟩
  · have accepted : ¬ (sizeThreadPool ≤ queue.queueSize ∧
        queue.queueSize = maxQueueSize sizeThreadPool) := by
      rw [length]
      exact fun refused => room (Int.natCast_inj.mp refused.2)
    rw [Queue.enqueue, if_neg accepted]
    refine ⟨iff_of_false (by simp) room, fun full => absurd full room, ?_⟩
    rw [Represents, BoundedFifo.push_items room]
    exact Holds.link represents client

/-- What is given out is the oldest item. -/
theorem Represents.dequeue (represents : queue.Represents fifo) :
    queue.dequeue.1 = fifo.items.head? ∧ queue.dequeue.2.Represents fifo.pop :=
  Holds.dequeue represents

/-- A record says what a ledger says. -/
structure Record.Follows (record : Record γ)
    (ledger : BoundedFifo.Ledger γ (maxQueueSize sizeThreadPool)) : Prop where
  queue : record.queue.Represents ledger.fifo
  accepted : record.accepted = ledger.accepted
  dequeued : record.dequeued = ledger.delivered

theorem Record.Follows.perform {record : Record γ}
    {ledger : BoundedFifo.Ledger γ (maxQueueSize sizeThreadPool)}
    (follows : record.Follows ledger) (call : Call γ) :
    (record.perform sizeThreadPool call).Follows (ledger.perform call.onStore) := by
  cases call with
  | enqueue client =>
      obtain ⟨refused, -, after⟩ := follows.queue.enqueue client
      refine ⟨after, ?_, follows.dequeued⟩
      simp only [Record.perform, Call.onStore, BoundedFifo.Ledger.perform, refused,
        follows.accepted]
  | dequeue =>
      obtain ⟨oldest, after⟩ := follows.queue.dequeue
      refine ⟨after, follows.accepted, ?_⟩
      simp only [Record.perform, Call.onStore, BoundedFifo.Ledger.perform, oldest,
        follows.dequeued]

/-- Whatever calls are made, the queue behaves as the store does. -/
theorem Record.run_follows (sizeThreadPool : Nat) (calls : List (Call γ)) :
    (run sizeThreadPool calls).Follows
      (.run (calls.map Call.onStore) : BoundedFifo.Ledger γ (maxQueueSize sizeThreadPool)) := by
  unfold run BoundedFifo.Ledger.run
  have initially : (initial : Record γ).Follows
      (.empty : BoundedFifo.Ledger γ (maxQueueSize sizeThreadPool)) :=
    ⟨Holds.initial, rfl, rfl⟩
  generalize (initial : Record γ) = record at initially
  generalize (BoundedFifo.Ledger.empty : BoundedFifo.Ledger γ _) = ledger at initially
  induction calls generalizing record ledger with
  | nil => exact initially
  | cons call calls ih => exact ih _ _ (initially.perform call)

/-- The queue is a bounded first-in first-out store, its pointers and its counter agree with its
list, and the rejection at shutdown reaches every client that is left. -/
theorem queue_refines_bounded_fifo (sizeThreadPool : Nat) (calls : List (Call γ)) :
    let record := Record.run sizeThreadPool calls
    let queue := record.queue
    ∃ nodes, queue.Consistent nodes ∧ nodes.length ≤ maxQueueSize sizeThreadPool ∧
      (queue.head = none ↔ queue.tail = none) ∧ (queue.tail = none ↔ queue.queueSize = 0) ∧
      record.dequeued ++ nodes.map Prod.snd = record.accepted ∧
      (∀ client, (queue.enqueue sizeThreadPool client true).status = some exitFailure ↔
        nodes.length = maxQueueSize sizeThreadPool) ∧
      (∀ client, nodes.length = maxQueueSize sizeThreadPool →
        (queue.enqueue sizeThreadPool client true).queue = queue) ∧
      queue.gracefullyRejectPendingClients.1 =
        nodes.map (fun node => (node.2, serviceQuitMessage)) ∧
      queue.gracefullyRejectPendingClients.2.Consistent [] := by
  intro record queue
  have follows := Record.run_follows sizeThreadPool calls
  let ledger : BoundedFifo.Ledger γ (maxQueueSize sizeThreadPool) := .run (calls.map Call.onStore)
  have balanced : ledger.Balanced := BoundedFifo.Ledger.run_balanced (calls.map Call.onStore)
  have answers := fun client => follows.queue.enqueue client
  obtain ⟨nodes, consistent, items⟩ := follows.queue
  rw [BoundedFifo.Ledger.Balanced, ← follows.accepted, ← follows.dequeued, ← items] at balanced
  rw [BoundedFifo.isFull, ← items, List.length_map] at answers
  have fits := ledger.fifo.fits
  rw [← items, List.length_map] at fits
  have rejected := consistent.rejectPending consistent.chain.length_le
  refine ⟨nodes, consistent, fits, ?_, ?_, balanced, ?_, ?_, rejected⟩
  · rw [consistent.head_eq_none, consistent.tail_eq_none]
  · rw [consistent.tail_eq_none, consistent.queueSize_eq_zero]
  · exact fun client => (answers client).1
  · exact fun client => (answers client).2.1

end Queue

end CmyMessage
