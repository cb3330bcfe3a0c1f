import Mathlib.Data.List.Basic
import Mathlib.Data.List.Induction

/-!
# Relative paths and the folder they stay in

Following a relative path needs no file system as long as links are left aside: a name leads one
level down, `..` one level up, and above the start only the number of levels counts.  A path that
starts in a folder ends inside it exactly when it climbs at most one level out and always climbs
back in through the folder's own name.
-/

/-- One component of a path. -/
inductive PathStep (ν : Type*)
  | up
  | down (name : ν)
  deriving DecidableEq

/-- How many levels further from the root a component leads. -/
def PathStep.rise {ν : Type*} : PathStep ν → Int
  | up => -1
  | down _ => 1

/-- Where a relative path leads: some levels up from the start and then down along names, of which
the innermost comes first. -/
structure Location (ν : Type*) where
  /-- Levels above the start. -/
  ups : Nat
  /-- Names of the folders below that, innermost first. -/
  names : List ν
  deriving DecidableEq

namespace Location

variable {ν : Type*}

/-- Follow one component. -/
def step (location : Location ν) : PathStep ν → Location ν
  | .down name => ⟨location.ups, name :: location.names⟩
  | .up =>
      match location.names with
      | [] => ⟨location.ups + 1, []⟩
      | _ :: names => ⟨location.ups, names⟩

/-- Follow a path. -/
def walk (location : Location ν) (steps : List (PathStep ν)) : Location ν :=
  steps.foldl step location

/-- The location is a folder next to the start, or below it. -/
def Inside (folder : ν) (location : Location ν) : Prop :=
  location.ups = 0 ∧ location.names.getLast? = some folder

instance [DecidableEq ν] (folder : ν) (location : Location ν) :
    Decidable (location.Inside folder) :=
  inferInstanceAs (Decidable (_ ∧ _))

/-- How many levels below its start a path ends. -/
def descent : List (PathStep ν) → Int
  | [] => 0
  | first :: steps => first.rise + descent steps

/-- From `depth` levels below the parent of a folder, the path never climbs above that parent, and
whenever it gets there it goes into the folder at once or gets there again. -/
def ClimbsBack (folder : ν) (depth : Int) (steps : List (PathStep ν)) : Prop :=
  ∀ front back, steps = front ++ back → 0 ≤ depth + descent front ∧
    (depth + descent front = 0 →
      back.head? = some (.down folder) ∨ ∃ more, more <+: back ∧ more ≠ [] ∧ descent more = 0)

/-- Nothing leads back from above the start. -/
theorem ups_walk (location : Location ν) (steps : List (PathStep ν)) :
    location.ups ≤ (location.walk steps).ups := by
  induction steps generalizing location with
  | nil => exact Nat.le_refl _
  | cons first steps ih =>
      refine Nat.le_trans ?_ (ih (location.step first))
      obtain ⟨ups, names⟩ := location
      cases first with
      | up => cases names <;> simp [step]
      | down name => exact Nat.le_refl _

theorem climbsBack_nil (folder : ν) (depth : Int) : ClimbsBack folder depth [] ↔ 0 < depth := by
  constructor
  · intro climbs
    obtain ⟨low, back⟩ := climbs [] [] rfl
    simp only [descent, Int.add_zero] at low back
    by_contra high
    rcases back (by omega) with head | ⟨more, inside, nonempty, -⟩
    · cases head
    · exact nonempty (List.prefix_nil.mp inside)
  · intro positive front back split
    obtain ⟨rfl, rfl⟩ := List.append_eq_nil_iff.mp split.symm
    simp only [descent, Int.add_zero]
    exact ⟨Int.le_of_lt positive, fun zero => by omega⟩

/-- What the first component asks for, and then the rest. -/
theorem climbsBack_cons (folder : ν) (depth : Int) (first : PathStep ν)
    (steps : List (PathStep ν)) :
    ClimbsBack folder depth (first :: steps) ↔
      (0 ≤ depth ∧ (depth = 0 → first = .down folder ∨
        ∃ more, more <+: steps ∧ descent (first :: more) = 0)) ∧
      ClimbsBack folder (depth + first.rise) steps := by
  have descents (front : List (PathStep ν)) :
      depth + descent (first :: front) = depth + first.rise + descent front := by
    rw [descent, Int.add_assoc]
  constructor
  · intro climbs
    refine ⟨?_, fun front back split => ?_⟩
    · obtain ⟨low, back⟩ := climbs [] (first :: steps) rfl
      simp only [descent, Int.add_zero, List.head?_cons, Option.some.injEq] at low back
      refine ⟨low, fun zero => (back zero).imp_right ?_⟩
      rintro ⟨more, inside, nonempty, level⟩
      obtain ⟨head, more, rfl⟩ := List.exists_cons_of_ne_nil nonempty
      obtain ⟨rfl, shorter⟩ := List.cons_prefix_cons.mp inside
      exact ⟨more, shorter, level⟩
    · rw [← descents]
      exact climbs (first :: front) back (congrArg _ split)
  · rintro ⟨⟨low, back⟩, climbs⟩ front rest split
    cases front with
    | nil =>
        simp only [List.nil_append] at split
        subst split
        simp only [descent, Int.add_zero, List.head?_cons, Option.some.injEq]
        refine ⟨low, fun zero => (back zero).imp_right ?_⟩
        rintro ⟨more, inside, level⟩
        exact ⟨first :: more, List.cons_prefix_cons.mpr ⟨rfl, inside⟩, List.cons_ne_nil _ _, level⟩
    | cons head front =>
        obtain ⟨rfl, split'⟩ := List.cons.inj split
        rw [descents]
        exact climbs front rest split'

/-- A path comes to a level at once or behind its first component. -/
theorem exits_cons (names : List ν) (first : PathStep ν) (steps : List (PathStep ν)) :
    (∃ front, front <+: first :: steps ∧ (names.length : Int) + descent front = 0) ↔
      names = [] ∨
        ∃ more, more <+: steps ∧ (names.length : Int) + descent (first :: more) = 0 := by
  constructor
  · rintro ⟨front, inside, level⟩
    cases front with
    | nil =>
        simp only [descent] at level
        exact .inl (List.length_eq_zero_iff.mp (by omega))
    | cons head front =>
        obtain ⟨rfl, shorter⟩ := List.cons_prefix_cons.mp inside
        exact .inr ⟨front, shorter, level⟩
  · rintro (rfl | ⟨more, inside, level⟩)
    · exact ⟨[], List.nil_prefix, rfl⟩
    · exact ⟨first :: more, List.cons_prefix_cons.mpr ⟨rfl, inside⟩, level⟩

theorem descent_up (name : ν) (names : List ν) (more : List (PathStep ν)) :
    ((name :: names).length : Int) + descent (.up :: more) = names.length + descent more := by
  simp only [List.length_cons, descent, PathStep.rise]
  omega

theorem descent_down (name : ν) (names : List ν) (more : List (PathStep ν)) :
    (names.length : Int) + descent (.down name :: more) =
      (name :: names).length + descent more := by
  simp only [List.length_cons, descent, PathStep.rise]
  omega

theorem walk_nil_inside_iff (folder : ν) (names : List ν) :
    ((⟨0, names⟩ : Location ν).walk []).Inside folder ↔
      ClimbsBack folder names.length [] ∧
        (names.getLast? = some folder ∨
          ∃ front, front <+: [] ∧ names.length + descent (ν := ν) front = 0) := by
  rw [climbsBack_nil]
  cases names with
  | nil => simp [walk, Inside]
  | cons name names =>
      simp only [walk, List.foldl_nil, Inside, true_and, List.length_cons, List.prefix_nil,
        exists_eq_left, descent]
      refine ⟨fun last => ⟨by omega, .inl last⟩, ?_⟩
      rintro ⟨-, last | level⟩
      · exact last
      · omega

/-- A step up from below the parent leaves the rest of the path to do what the whole one does. -/
theorem ends_inside_up_iff (folder name : ν) (names : List ν) (steps : List (PathStep ν)) :
    (ClimbsBack folder (name :: names).length (.up :: steps) ∧
        ((name :: names).getLast? = some folder ∨ ∃ front, front <+: .up :: steps ∧
          ((name :: names).length : Int) + descent front = 0)) ↔
      ClimbsBack folder names.length steps ∧
        (names.getLast? = some folder ∨
          ∃ front, front <+: steps ∧ names.length + descent front = 0) := by
  have depth : ((name :: names).length : Int) + PathStep.rise (.up (ν := ν)) =
      names.length := by
    simp only [List.length_cons, PathStep.rise]
    omega
  rw [climbsBack_cons, exits_cons, depth]
  simp only [descent_up]
  cases names with
  | nil =>
      refine ⟨fun climbs => ⟨climbs.1.2, .inr ?_⟩,
        fun climbs => ⟨⟨⟨by simp, by simp⟩, climbs.1⟩, .inr (.inr ?_)⟩⟩ <;>
        exact ⟨[], List.nil_prefix, rfl⟩
  | cons other names =>
      simp only [List.getLast?_cons_cons, List.length_cons, reduceCtorEq, false_or]
      exact ⟨fun climbs => ⟨climbs.1.2, climbs.2⟩,
        fun climbs => ⟨⟨⟨by omega, by omega⟩, climbs.1⟩, climbs.2⟩⟩

/-- So does a step down.  From the parent itself it must enter the folder, or the rest comes back to
the parent. -/
theorem ends_inside_down_iff (folder name : ν) (names : List ν) (steps : List (PathStep ν)) :
    (ClimbsBack folder names.length (.down name :: steps) ∧
        (names.getLast? = some folder ∨ ∃ front, front <+: .down name :: steps ∧
          (names.length : Int) + descent front = 0)) ↔
      ClimbsBack folder (name :: names).length steps ∧
        ((name :: names).getLast? = some folder ∨
          ∃ front, front <+: steps ∧ ((name :: names).length : Int) + descent front = 0) := by
  have depth : (names.length : Int) + (PathStep.down name).rise = (name :: names).length := by
    simp [PathStep.rise]
  rw [climbsBack_cons, exits_cons, depth]
  simp only [descent_down]
  cases names with
  | nil =>
      have level (more : List (PathStep ν)) :
          descent (.down name :: more) = [name].length + descent more := by
        simp [descent, PathStep.rise]
      simp only [level, List.getLast?_singleton, Option.some.injEq, PathStep.down.injEq,
        List.length_nil, Int.ofNat_zero, Int.le_refl, true_and, true_or, or_true, and_true,
        forall_const, List.getLast?_nil, reduceCtorEq]
      exact and_comm
  | cons other names =>
      simp only [List.getLast?_cons_cons, reduceCtorEq, false_or]
      refine ⟨fun climbs => ⟨climbs.1.2, climbs.2⟩,
        fun climbs => ⟨⟨⟨by omega, fun zero => ?_⟩, climbs.1⟩, climbs.2⟩⟩
      simp only [List.length_cons] at zero
      omega

/-- From a location below the parent of a folder, a path ends inside the folder when it climbs back
and starts inside or leaves at least once. -/
theorem walk_inside_iff (folder : ν) (names : List ν) (steps : List (PathStep ν)) :
    ((⟨0, names⟩ : Location ν).walk steps).Inside folder ↔
      ClimbsBack folder names.length steps ∧
        (names.getLast? = some folder ∨
          ∃ front, front <+: steps ∧ names.length + descent front = 0) := by
  induction steps generalizing names with
  | nil => exact walk_nil_inside_iff folder names
  | cons first steps ih =>
      cases first with
      | up =>
          cases names with
          | nil =>
              -- Above the parent there is no way back.
              have above : 1 ≤ ((⟨1, []⟩ : Location ν).walk steps).ups :=
                ups_walk ⟨1, []⟩ steps
              refine iff_of_false (fun inside => ?_) (fun climbs => ?_)
              · exact absurd inside.1 (Nat.ne_of_gt above)
              · have low := (((climbsBack_cons _ _ _ _).mp climbs.1).2 [] steps rfl).1
                simp [descent, PathStep.rise] at low
          | cons name names =>
              rw [ends_inside_up_iff]
              exact ih names
      | down name =>
          rw [ends_inside_down_iff]
          exact ih (name :: names)

/-- A path that starts in a folder ends inside it exactly when it climbs back. -/
theorem walk_from_inside_iff (folder : ν) (steps : List (PathStep ν)) :
    ((⟨0, [folder]⟩ : Location ν).walk steps).Inside folder ↔ ClimbsBack folder 1 steps := by
  rw [walk_inside_iff]
  exact and_iff_left (.inl rfl)

end Location

/-! ## Paths as strings -/

namespace PathText

/-- The components between the slashes. -/
def components : List UInt8 → List (List UInt8)
  | [] => [[]]
  | byte :: path =>
      if byte = 47 then [] :: components path
      else
        match components path with
        | [] => [[byte]]
        | component :: rest => (byte :: component) :: rest

/-- The components that lead anywhere: empty ones and `.` do not. -/
def steps (path : List UInt8) : List (PathStep (List UInt8)) :=
  (components path).filterMap fun component =>
    if component = [] ∨ component = [46] then none
    else if component = [46, 46] then some .up
    else some (.down component)

/-- The normal form of a relative path. -/
def location (path : List UInt8) : Location (List UInt8) := Location.walk ⟨0, []⟩ (steps path)

theorem components_folder {folder : List UInt8} (solid : 47 ∉ folder) (path : List UInt8) :
    components (folder ++ 47 :: path) = folder :: components path := by
  induction folder with
  | nil => exact if_pos rfl
  | cons byte folder ih =>
      rw [List.mem_cons, not_or] at solid
      rw [List.cons_append, components, if_neg (Ne.symm solid.1), ih solid.2]

/-- A path that begins with the name of a folder starts in that folder. -/
theorem location_folder {folder : List UInt8} (solid : 47 ∉ folder)
    (named : folder ≠ [] ∧ folder ≠ [46] ∧ folder ≠ [46, 46]) (path : List UInt8) :
    location (folder ++ 47 :: path) = Location.walk ⟨0, [folder]⟩ (steps path) := by
  rw [location, steps, components_folder solid, List.filterMap_cons,
    if_neg (not_or.mpr ⟨named.1, named.2.1⟩), if_neg named.2.2]
  rfl

/-- What stands behind the last slash of a path: the name of the file, unless it is empty. -/
def baseName (path : List UInt8) : List UInt8 := (path.reverse.takeWhile (· != 47)).reverse

theorem baseName_concat (path : List UInt8) (byte : UInt8) :
    baseName (path ++ [byte]) = if byte = 47 then [] else baseName path ++ [byte] := by
  rw [baseName, List.reverse_append, List.reverse_singleton, List.singleton_append,
    List.takeWhile_cons]
  by_cases slash : byte = 47
  · simp [slash]
  · simp [slash, baseName]

/-- The folders in front of a name do not matter. -/
theorem baseName_folder (folder path : List UInt8) :
    baseName (folder ++ 47 :: path) = baseName path := by
  induction path using List.reverseRecOn with
  | nil => exact (baseName_concat folder 47).trans (if_pos rfl)
  | append_singleton path byte ih =>
      rw [← List.cons_append, ← List.append_assoc, baseName_concat, baseName_concat, ih]

/-- Dropping the last byte of a path keeps its base name only if there is none. -/
theorem baseName_dropLast_iff (path : List UInt8) :
    baseName path.dropLast = baseName path ↔ baseName path = [] ∧ baseName path.dropLast = [] := by
  constructor
  · intro same
    induction path using List.reverseRecOn with
    | nil => exact ⟨rfl, rfl⟩
    | append_singleton path byte _ =>
        rw [List.dropLast_concat, baseName_concat] at same ⊢
        split at same
        · rw [if_pos ‹_›]
          exact ⟨rfl, same⟩
        · have lengths := congrArg List.length same
          rw [List.length_append, List.length_singleton] at lengths
          omega
  · rintro ⟨whole, shorter⟩
    rw [whole, shorter]

end PathText
