import CmyMessage.Foundation.Socket

/-!
# Loops that count down what is left to receive

A loop asks for what is left, a limited number of bytes at a time, and writes what it gets.  It is
through when nothing is left, and gives up on an error.  The end of the stream counts as no bytes,
so behind it the loop goes on asking.
-/

namespace ReceiveLoop

/-- Where a loop stands. -/
inductive Pc
  /-- Before a `recv`. -/
  | receiving (remaining : Nat) (written : List UInt8)
  /-- Through, unless it has given up. -/
  | returned (complete : Bool) (written : List UInt8)
  deriving DecidableEq

/-- The test of the loop. -/
def enter (remaining : Nat) (written : List UInt8) : Pc :=
  if 0 < remaining then .receiving remaining written else .returned true written

/-- The body of the loop on the result of its `recv`. -/
def step : Pc → RecvResult → Pc
  | .receiving remaining written, .data bytes =>
      enter (remaining - bytes.length) (written ++ bytes)
  | .receiving remaining written, .closed => enter remaining written
  | .receiving _ written, .error => .returned false written
  | .returned complete written, _ => .returned complete written

/-- The loop on the results of its calls. -/
def run (pc : Pc) (results : List RecvResult) : Pc := results.foldl step pc

/-- The loop is left, or its test has come out true. -/
def Tested : Pc → Prop
  | .receiving remaining _ => 0 < remaining
  | .returned _ _ => True

/-- How much the next `recv` asks for, or zero when there is none. -/
def Pc.asks (limit : Nat) : Pc → Nat
  | receiving remaining _ => min remaining limit
  | returned _ _ => 0

/-- The loop makes as many calls as there are results, and each result fits its call. -/
def Admits (limit : Nat) : Pc → List RecvResult → Prop
  | _, [] => True
  | pc, result :: results =>
      0 < pc.asks limit ∧ result.fits (pc.asks limit) ∧ Admits limit (step pc result) results

variable {limit remaining : Nat} {written : List UInt8} {results : List RecvResult}

theorem tested_enter (remaining : Nat) (written : List UInt8) :
    Tested (enter remaining written) := by
  rw [enter]
  split
  · exact ‹_›
  · exact trivial

theorem Tested.step {pc : Pc} (tested : Tested pc) (result : RecvResult) :
    Tested (ReceiveLoop.step pc result) := by
  cases pc with
  | receiving remaining written =>
      cases result with
      | error => exact trivial
      | _ => exact tested_enter _ _
  | returned complete written => exact trivial

@[simp]
theorem run_nil (pc : Pc) : run pc [] = pc := rfl

@[simp]
theorem run_cons (pc : Pc) (result : RecvResult) (results : List RecvResult) :
    run pc (result :: results) = run (step pc result) results := rfl

theorem run_append (pc : Pc) (front back : List RecvResult) :
    run pc (front ++ back) = run (run pc front) back := List.foldl_append

/-- The end of the stream changes nothing. -/
theorem step_closed (remaining : Nat) (written : List UInt8) :
    step (enter remaining written) .closed = enter remaining written := by
  rw [enter]
  split
  · exact if_pos ‹_›
  · rfl

theorem run_closed (remaining : Nat) (written : List UInt8) (count : Nat) :
    run (enter remaining written) (List.replicate count .closed) = enter remaining written := by
  induction count with
  | zero => rfl
  | succ count ih => rw [List.replicate_succ, run_cons, step_closed, ih]

theorem asks_enter (positive : 0 < (enter remaining written).asks limit) :
    enter remaining written = .receiving remaining written ∧ 0 < remaining := by
  rw [enter] at positive ⊢
  split
  · exact ⟨rfl, ‹_›⟩
  · rw [if_neg ‹_›] at positive
    exact absurd positive (Nat.lt_irrefl 0)

/-- What a loop has done behind the results of its calls: it has written what they returned, and
either has that much less to receive, or has given up with something left. -/
theorem run_admitted (admits : Admits limit (enter remaining written) results) :
    (.error ∉ results ∧ (results.flatMap RecvResult.bytes).length ≤ remaining ∧
      run (enter remaining written) results =
        enter (remaining - (results.flatMap RecvResult.bytes).length)
          (written ++ results.flatMap RecvResult.bytes)) ∨
    (.error ∈ results ∧ (results.flatMap RecvResult.bytes).length < remaining ∧
      run (enter remaining written) results =
        .returned false (written ++ results.flatMap RecvResult.bytes)) := by
  induction results generalizing remaining written with
  | nil => exact .inl ⟨List.not_mem_nil, Nat.zero_le _, by simp⟩
  | cons result results ih =>
      obtain ⟨positive, fits, rest⟩ := admits
      obtain ⟨receives, more⟩ := asks_enter positive
      rw [receives] at fits rest
      rw [run_cons, receives]
      cases result with
      | data bytes =>
          have short : bytes.length ≤ min remaining limit := (of_decide_eq_true fits).2
          rw [step, List.flatMap_cons, RecvResult.bytes, List.length_append, ← List.append_assoc,
            ← Nat.sub_sub, List.mem_cons]
          rcases ih rest with ⟨still, inside, ran⟩ | ⟨failed, inside, ran⟩
          · exact .inl ⟨by simpa using still, by omega, ran⟩
          · exact .inr ⟨.inr failed, by omega, ran⟩
      | closed =>
          rw [step, List.flatMap_cons, RecvResult.bytes, List.nil_append, List.mem_cons]
          rcases ih rest with ⟨still, inside, ran⟩ | ⟨failed, inside, ran⟩
          · exact .inl ⟨by simpa using still, inside, ran⟩
          · exact .inr ⟨.inr failed, inside, ran⟩
      | error =>
          rw [step]
          have last : results = [] := by
            cases results with
            | nil => rfl
            | cons result results => exact absurd rest.1 (Nat.lt_irrefl 0)
          subst last
          exact .inr ⟨List.mem_cons_self, more, by simp [RecvResult.bytes]⟩

/-- A loop that has received some data and then meets nothing but the end of the stream or an error
returns, and says so if something is missing, unless something is missing at the end of the stream.
What it returns with is the data. -/
theorem returns_iff {chunks : List (List UInt8)} {ending : RecvResult}
    (stops : ending.isData = false)
    (admits : Admits limit (enter remaining []) (chunks.map .data)) :
    (∃ count complete, run (enter remaining []) (chunks.map .data ++ List.replicate count ending) =
        .returned complete chunks.flatten ∧
      (chunks.flatten.length < remaining → complete = false)) ↔
      ¬ (ending = .closed ∧ chunks.flatten.length < remaining) := by
  have received : (chunks.map RecvResult.data).flatMap RecvResult.bytes = chunks.flatten := by
    rw [List.flatMap_map]
    exact List.flatMap_id
  obtain ⟨-, inside, ran⟩ | ⟨failed, -⟩ := run_admitted admits
  · rw [received] at inside ran
    rw [List.nil_append] at ran
    rcases Nat.lt_or_ge chunks.flatten.length remaining with missing | whole
    · have receives : enter (remaining - chunks.flatten.length) chunks.flatten =
          .receiving (remaining - chunks.flatten.length) chunks.flatten := if_pos (by omega)
      cases ending with
      | data bytes => cases stops
      | closed =>
          refine iff_of_false (fun returns => ?_) fun ends => ends ⟨rfl, missing⟩
          obtain ⟨count, complete, returned, -⟩ := returns
          rw [run_append, ran, run_closed, receives] at returned
          cases returned
      | error =>
          refine iff_of_true ⟨1, false, ?_, fun _ => rfl⟩ fun ends => RecvResult.noConfusion ends.1
          rw [run_append, ran, receives]
          rfl
    · refine iff_of_true ⟨0, true, ?_, fun missing => ?_⟩ fun ends => ?_
      · rw [List.replicate_zero, List.append_nil, ran, enter, if_neg (by omega)]
      · omega
      · omega
  · simp at failed

end ReceiveLoop
