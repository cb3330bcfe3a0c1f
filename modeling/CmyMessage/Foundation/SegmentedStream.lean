import Mathlib.Data.List.TakeDrop
import Mathlib.Logic.Relation

/-!
# Reading a stream socket

A stream arrives in segments whose borders mean nothing.  A `recv` for at most `capacity` symbols
answers with the oldest waiting segment, or with as much of it as fits, and never reaches into the
next one.  A `Receiver` is a program between two calls: how much it asks for and what it does with
the answer.  On finitely many segments a receiver always comes to rest.
-/

namespace SegmentedStream

variable {α : Type*}

/-- Read at most `capacity` symbols of the oldest segment, if any symbol is waiting. -/
def recv (capacity : Nat) : List (List α) → Option (List α × List (List α))
  | [] => none
  | [] :: segments => recv capacity segments
  | (symbol :: symbols) :: segments =>
      if symbols.length < capacity then
        some (symbol :: symbols, segments)
      else
        some ((symbol :: symbols).take capacity, (symbol :: symbols).drop capacity :: segments)

theorem recv_segment {capacity : Nat} {segment : List α} (nonempty : segment ≠ [])
    (fits : segment.length ≤ capacity) (segments : List (List α)) :
    recv capacity (segment :: segments) = some (segment, segments) := by
  cases segment with
  | nil => contradiction
  | cons symbol symbols => exact if_pos fits

theorem recv_eq_none {capacity : Nat} {segments : List (List α)} :
    recv capacity segments = none ↔ segments.flatten = [] := by
  fun_induction recv with
  | case1 => simp
  | case2 segments ih => simpa using ih
  | case3 => simp
  | case4 => simp

/-- A `recv` takes symbols off the front of the stream. -/
theorem recv_eq_some {capacity : Nat} (positive : 0 < capacity) {segments rest : List (List α)}
    {symbols : List α} (received : recv capacity segments = some (symbols, rest)) :
    segments.flatten = symbols ++ rest.flatten ∧ symbols ≠ [] ∧ symbols.length ≤ capacity := by
  fun_induction recv with
  | case1 => contradiction
  | case2 segments ih => exact ih received
  | case3 symbol symbols segments fits =>
      obtain ⟨rfl, rfl⟩ := Prod.mk.inj (Option.some.inj received)
      exact ⟨rfl, List.cons_ne_nil _ _, fits⟩
  | case4 symbol symbols segments tooLong =>
      obtain ⟨rfl, rfl⟩ := Prod.mk.inj (Option.some.inj received)
      obtain ⟨count, rfl⟩ := Nat.exists_eq_succ_of_ne_zero (Nat.ne_of_gt positive)
      refine ⟨?_, List.cons_ne_nil _ _, List.length_take_le _ _⟩
      rw [List.flatten_cons, List.flatten_cons, ← List.append_assoc, List.take_append_drop]

/-- A program between two calls of `recv`. -/
structure Receiver (σ α : Type*) where
  /-- How much the program asks for next, or zero when it does not read any more. -/
  capacity : σ → Nat
  /-- The program's work on what it was given, up to its next call. -/
  advance : σ → List α → σ

namespace Receiver

variable {σ : Type*} (receiver : Receiver σ α)

/-- One call of `recv` and the work that follows it, unless the call blocks. -/
def receive (now : σ × List (List α)) : Option (σ × List (List α)) :=
  if receiver.capacity now.1 = 0 then
    none
  else
    (recv (receiver.capacity now.1) now.2).map fun received =>
      (receiver.advance now.1 received.1, received.2)

/-- The program gets from one situation to another. -/
def Runs : σ × List (List α) → σ × List (List α) → Prop :=
  Relation.ReflTransGen fun before after => receiver.receive before = some after

/-- Receive until the program blocks, at most `fuel` times. -/
def settleWithin : Nat → σ × List (List α) → σ × List (List α)
  | 0, now => now
  | fuel + 1, now =>
      match receiver.receive now with
      | none => now
      | some after => settleWithin fuel after

/-- Receive until the program blocks. -/
def settle (state : σ) (segments : List (List α)) : σ × List (List α) :=
  receiver.settleWithin segments.flatten.length (state, segments)

variable {receiver}

theorem receive_of_recv {state : σ} {segments rest : List (List α)} {symbols : List α}
    (reads : 0 < receiver.capacity state)
    (received : recv (receiver.capacity state) segments = some (symbols, rest)) :
    receiver.receive (state, segments) = some (receiver.advance state symbols, rest) := by
  rw [receive, if_neg (Nat.ne_of_gt reads), received]
  rfl

theorem receive_eq_some {before after : σ × List (List α)}
    (receives : receiver.receive before = some after) :
    ∃ symbols, 0 < receiver.capacity before.1 ∧
      recv (receiver.capacity before.1) before.2 = some (symbols, after.2) ∧
      after.1 = receiver.advance before.1 symbols := by
  rw [receive] at receives
  split at receives
  · contradiction
  · obtain ⟨⟨symbols, rest⟩, received, rfl⟩ := Option.map_eq_some_iff.mp receives
    exact ⟨symbols, Nat.pos_of_ne_zero ‹_›, received, rfl⟩

/-- Every call consumes a part of the stream. -/
theorem receive_shortens {before after : σ × List (List α)}
    (receives : receiver.receive before = some after) :
    after.2.flatten.length < before.2.flatten.length := by
  obtain ⟨symbols, reads, received, -⟩ := receive_eq_some receives
  obtain ⟨stream, nonempty, -⟩ := recv_eq_some reads received
  have positive := List.length_pos_iff.mpr nonempty
  rw [stream, List.length_append]
  omega

theorem receive_segment {state : σ} {segment : List α} (nonempty : segment ≠ [])
    (fits : segment.length ≤ receiver.capacity state) (segments : List (List α)) :
    receiver.receive (state, segment :: segments) =
      some (receiver.advance state segment, segments) := by
  have reads := Nat.lt_of_lt_of_le (List.length_pos_iff.mpr nonempty) fits
  exact receive_of_recv reads (recv_segment nonempty fits segments)

/-- The counting rule: a loop that asks for what is missing, at most `limit` symbols at a time,
takes what it misses off the stream, and only that. -/
theorem counting_runs {loop : Nat → List α → σ} {limit : Nat} (positive : 0 < limit)
    (asks : ∀ remaining written, 0 < remaining →
      receiver.capacity (loop remaining written) = min remaining limit)
    (counts : ∀ remaining written symbols, 0 < remaining →
      receiver.advance (loop remaining written) symbols =
        loop (remaining - symbols.length) (written ++ symbols))
    {content later : List α} (written : List α) {segments : List (List α)}
    (stream : segments.flatten = content ++ later) :
    ∃ rest, rest.flatten = later ∧
      receiver.Runs (loop content.length written, segments)
        (loop 0 (written ++ content), rest) := by
  generalize missing : content.length = remaining
  induction remaining using Nat.strongRecOn generalizing content written segments with
  | _ remaining ih =>
      rcases Nat.eq_zero_or_pos remaining with rfl | more
      · obtain rfl := List.length_eq_zero_iff.mp missing
        rw [List.append_nil]
        exact ⟨segments, stream, .refl⟩
      · have capacity := asks remaining written more
        have reads : 0 < min remaining limit := by omega
        cases received : recv (min remaining limit) segments with
        | none =>
            rw [recv_eq_none.mp received] at stream
            have nothing := (List.append_eq_nil_iff.mp stream.symm).1
            rw [nothing, List.length_nil] at missing
            omega
        | some answer =>
            obtain ⟨symbols, rest⟩ := answer
            obtain ⟨split, nonempty, bounded⟩ := recv_eq_some reads received
            have shorter : symbols.length ≤ content.length := by omega
            obtain ⟨content', rfl⟩ : symbols <+: content :=
              List.prefix_of_prefix_length_le ⟨_, split.symm.trans stream⟩ ⟨_, rfl⟩ shorter
            rw [List.length_append] at missing
            have fewer := List.length_pos_iff.mpr nonempty
            have stream' : rest.flatten = content' ++ later := by
              rw [stream, List.append_assoc] at split
              exact (List.append_cancel_left split).symm
            obtain ⟨rest', left, runs⟩ := ih (remaining - symbols.length) (by omega)
              (written ++ symbols) stream' (by omega)
            have first : receiver.receive (loop remaining written, segments) =
                some (loop (remaining - symbols.length) (written ++ symbols), rest) := by
              rw [receive_of_recv (capacity ▸ reads) (capacity ▸ received),
                counts remaining written symbols more]
            refine ⟨rest', left, .head first ?_⟩
            rw [← List.append_assoc]
            exact runs

/-- Enough fuel is enough. -/
theorem settleWithin_eq {now : σ × List (List α)} {fuel : Nat}
    (enough : now.2.flatten.length ≤ fuel) :
    receiver.settleWithin fuel now = receiver.settle now.1 now.2 := by
  unfold settle
  induction fuel using Nat.strongRecOn generalizing now with
  | _ fuel ih =>
      cases receives : receiver.receive now with
      | none =>
          cases fuel <;> cases now.2.flatten.length <;> simp [settleWithin, receives]
      | some after =>
          have shorter := receive_shortens receives
          obtain ⟨count, waiting⟩ : ∃ count, now.2.flatten.length = count + 1 :=
            ⟨now.2.flatten.length - 1, by omega⟩
          obtain ⟨more, rfl⟩ : ∃ more, fuel = more + 1 := ⟨fuel - 1, by omega⟩
          rw [waiting]
          simp only [settleWithin, receives]
          rw [ih more (by omega) (by omega), ih count (by omega) (by omega)]

theorem settle_of_receive {before after : σ × List (List α)}
    (receives : receiver.receive before = some after) :
    receiver.settle before.1 before.2 = receiver.settle after.1 after.2 := by
  have shorter := receive_shortens receives
  obtain ⟨count, waiting⟩ : ∃ count, before.2.flatten.length = count + 1 :=
    ⟨before.2.flatten.length - 1, by omega⟩
  rw [settle, waiting]
  simp only [settleWithin, receives]
  exact settleWithin_eq (by omega)

theorem settle_of_blocked {state : σ} {segments : List (List α)}
    (blocked : receiver.receive (state, segments) = none) :
    receiver.settle state segments = (state, segments) := by
  rw [settle]
  cases segments.flatten.length <;> simp [settleWithin, blocked]

theorem settle_of_runs {before after : σ × List (List α)} (runs : receiver.Runs before after) :
    receiver.settle before.1 before.2 = receiver.settle after.1 after.2 := by
  induction runs with
  | refl => rfl
  | tail _ receives ih => exact ih.trans (settle_of_receive receives)

/-- The receive rule: what every call preserves holds once the program has come to rest, and by then
it either reads no more or has read everything. -/
theorem settle_induction (receiver : Receiver σ α) (assertion : σ × List (List α) → Prop)
    (preserved : ∀ before after, assertion before → receiver.receive before = some after →
      assertion after)
    (state : σ) (segments : List (List α)) (initially : assertion (state, segments)) :
    assertion (receiver.settle state segments) ∧
      receiver.receive (receiver.settle state segments) = none := by
  generalize waiting : segments.flatten.length = count
  induction count using Nat.strongRecOn generalizing state segments with
  | _ count ih =>
      cases receives : receiver.receive (state, segments) with
      | none =>
          rw [settle_of_blocked receives]
          exact ⟨initially, receives⟩
      | some after =>
          have shorter := receive_shortens receives
          rw [settle_of_receive receives]
          exact ih _ (by simpa [waiting] using shorter) _ _ (preserved _ _ initially receives) rfl

end Receiver

end SegmentedStream
