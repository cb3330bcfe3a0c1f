import Mathlib.Data.List.Basic

/-!
# Loops that count down what is left to send

A loop reads a piece of a file, a limited number of bytes at a time, offers it to one `send` and
counts it down as it was read.  How much of the piece was accepted it does not look at.
-/

namespace SendLoop

/-- Where a loop stands, with the bytes that were accepted so far. -/
inductive Pc
  /-- Before a `send`, with what is left to count down and to read. -/
  | sending (remaining : Nat) (content accepted : List UInt8)
  /-- Through, unless there was nothing left to read. -/
  | returned (complete : Bool) (accepted : List UInt8)
  deriving DecidableEq

/-- The test of the loop, and the test of what was read. -/
def enter (remaining : Nat) (content accepted : List UInt8) : Pc :=
  if remaining = 0 then .returned true accepted
  else if content = [] then .returned false accepted
  else .sending remaining content accepted

variable (limit : Nat)

/-- The piece that is read for the next `send`. -/
def Pc.offered : Pc → List UInt8
  | sending remaining content _ => content.take (min remaining limit)
  | returned _ _ => []

/-- The rest of the body of the loop, when `count` bytes of the piece are accepted. -/
def step : Pc → Nat → Pc
  | .sending remaining content accepted, count =>
      enter (remaining - (content.take (min remaining limit)).length)
        (content.drop (min remaining limit))
        (accepted ++ (content.take (min remaining limit)).take count)
  | .returned complete accepted, _ => .returned complete accepted

/-- The loop on the numbers of bytes that its calls accept. -/
def run (pc : Pc) (counts : List Nat) : Pc := counts.foldl (step limit) pc

/-- The loop makes as many calls as there are numbers, and each accepts a part of what it is offered
that is not empty. -/
def Admits : Pc → List Nat → Prop
  | _, [] => True
  | pc, count :: counts =>
      0 < count ∧ count ≤ (pc.offered limit).length ∧ Admits (step limit pc count) counts

/-- Every call accepts all it is offered. -/
def TakesWhole : Pc → List Nat → Prop
  | _, [] => True
  | pc, count :: counts =>
      count = (pc.offered limit).length ∧ TakesWhole (step limit pc count) counts

variable {limit} {remaining : Nat} {content accepted : List UInt8} {counts : List Nat}

/-- With nothing more to do, the loop is through if it has counted down to zero. -/
theorem enter_done (done : remaining = 0 ∨ content = []) :
    enter remaining content accepted =
      .returned (decide (remaining ≤ content.length)) accepted := by
  by_cases isZero : remaining = 0
  · rw [enter, if_pos isZero, decide_eq_true (by omega)]
  · obtain rfl := done.resolve_left isZero
    rw [enter, if_neg isZero, if_pos rfl, decide_eq_false (by simpa using isZero)]

theorem enter_more (more : ¬ (remaining = 0 ∨ content = [])) :
    enter remaining content accepted = .sending remaining content accepted := by
  rw [not_or] at more
  rw [enter, if_neg more.1, if_neg more.2]

/-- A call that accepts all it is offered. -/
theorem step_whole (limit remaining : Nat) (content accepted : List UInt8) :
    step limit (.sending remaining content accepted) (content.take (min remaining limit)).length =
      enter (remaining - (content.take (min remaining limit)).length)
        (content.drop (min remaining limit))
        (accepted ++ content.take (min remaining limit)) := by
  rw [step, List.take_length]

theorem offered_enter {count : Nat} (positive : 0 < count)
    (inside : count ≤ ((enter remaining content accepted).offered limit).length) :
    enter remaining content accepted = .sending remaining content accepted := by
  by_cases done : remaining = 0 ∨ content = []
  · rw [enter_done done] at inside
    exact absurd inside (Nat.not_le.mpr positive)
  · exact enter_more done

/-- A piece from the front of a list, and the rest of what is wanted. -/
theorem take_eq_take_append {wanted first : Nat} (inside : first ≤ wanted)
    (content : List UInt8) :
    content.take wanted = content.take first ++
      (content.drop first).take (wanted - (content.take first).length) := by
  rw [List.length_take]
  by_cases long : first ≤ content.length
  · rw [Nat.min_eq_left long]
    conv_lhs => rw [← Nat.add_sub_cancel' inside, List.take_add]
  · rw [List.take_of_length_le (by omega), List.take_of_length_le (by omega),
      List.drop_eq_nil_of_le (by omega), List.take_nil, List.append_nil]

/-- When a loop is through the file had the bytes it was to send.  At most so many were accepted,
and exactly those if and only if every call took all it was offered. -/
theorem run_admitted {whole : List UInt8} (admits : Admits limit (enter remaining content accepted)
    counts) (ends : run limit (enter remaining content accepted) counts = .returned true whole) :
    remaining ≤ content.length ∧ whole.length ≤ accepted.length + remaining ∧
      (whole = accepted ++ content.take remaining ↔
        TakesWhole limit (enter remaining content accepted) counts) := by
  induction counts generalizing remaining content accepted with
  | nil =>
      change enter remaining content accepted = .returned true whole at ends
      rw [enter] at ends
      split at ends
      · rename_i done
        cases ends
        rw [done, List.take_zero, List.append_nil]
        exact ⟨Nat.zero_le _, Nat.le_refl _, iff_of_true rfl trivial⟩
      · split at ends <;> cases ends
  | cons count counts ih =>
      obtain ⟨positive, inside, rest⟩ := admits
      have sends := offered_enter positive inside
      rw [sends] at ends inside rest ⊢
      obtain ⟨enough, bounded, same⟩ := ih rest ends
      have split := take_eq_take_append (Nat.min_le_left remaining limit) content
      change count ≤ (content.take (min remaining limit)).length at inside
      change _ ∧ _ ∧ (_ ↔ count = (content.take (min remaining limit)).length ∧ TakesWhole limit
        (enter _ _ _) counts)
      have read : (content.take (min remaining limit)).length =
          min (min remaining limit) content.length := List.length_take
      rw [List.length_append, List.length_take, Nat.min_eq_left inside] at bounded
      rw [List.length_drop] at enough
      have there : remaining ≤ content.length := by omega
      refine ⟨there, by omega, ?_⟩
      rw [← same]
      constructor
      · intro isWhole
        have length := congrArg List.length isWhole
        rw [List.length_append, List.length_take, Nat.min_eq_left there] at length
        have all : count = (content.take (min remaining limit)).length := by omega
        refine ⟨all, ?_⟩
        rw [isWhole, all, List.take_length, split, List.append_assoc]
      · rintro ⟨all, isWhole⟩
        rw [isWhole, all, List.take_length, split, List.append_assoc]

end SendLoop
