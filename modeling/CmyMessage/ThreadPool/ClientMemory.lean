import Mathlib.Logic.Function.Basic

/-!
# The memory of a client

`ClientInfo_t` and the blocks it points to, with the functions that allocate and free them.  The
struct is not initialised, so its pointers are indeterminate until they are written.  A client's
blocks are its own, and each of them is allocated at one place, after which it is named.
-/

namespace CmyMessage

/-- What is allocated for a client. -/
inductive ClientBlock
  /-- The struct. -/
  | info
  | pAddr | pAddrLen | name | buffer
  deriving DecidableEq

/-- A pointer. -/
inductive Pointer
  | indeterminate
  | null
  | address (block : ClientBlock)
  deriving DecidableEq

/-- The memory of a client. -/
structure ClientMemory where
  /-- The blocks that are allocated. -/
  live : ClientBlock → Bool := fun _ => false
  /-- The pointers in the struct. -/
  fields : ClientBlock → Pointer := fun _ => .indeterminate
  /-- A pointer to no allocated block was followed or freed. -/
  violated : Bool := false

namespace ClientMemory

/-- Undefined behaviour. -/
def violate (memory : ClientMemory) : ClientMemory := { memory with violated := true }

/-- `malloc` or `calloc` -/
def malloc (memory : ClientMemory) (block : ClientBlock) (succeeds : Bool) :
    Pointer × ClientMemory :=
  if succeeds then (.address block, { memory with live := Function.update memory.live block true })
  else (.null, memory)

/-- `free` -/
def free (memory : ClientMemory) : Pointer → ClientMemory
  | .null => memory
  | .indeterminate => memory.violate
  | .address block =>
      if memory.live block then { memory with live := Function.update memory.live block false }
      else memory.violate

/-- Write a pointer into the struct. -/
def store (memory : ClientMemory) (field : ClientBlock) (pointer : Pointer) : ClientMemory :=
  if memory.live .info then { memory with fields := Function.update memory.fields field pointer }
  else memory.violate

/-- Free what a pointer in the struct points to, unless it is null. -/
def freeField (memory : ClientMemory) (field : ClientBlock) : ClientMemory :=
  if memory.fields field = .null then memory
  else (memory.free (memory.fields field)).store field .null

/-- `free_client_memory_with_ptr_to_ptr` -/
def freeClientMemoryWithPtrToPtr (memory : ClientMemory) : Pointer → ClientMemory
  | .null => memory
  | .address .info =>
      if memory.live .info then
        -- The variable is null when it is freed, so the struct stays.
        (((memory.freeField .pAddr).freeField .pAddrLen).freeField .buffer).free .null
      else memory.violate
  | _ => memory.violate

/-- `allocate_client_info_struct` -/
def allocateClientInfoStruct (memory : ClientMemory) (succeeds : ClientBlock → Bool) :
    Pointer × ClientMemory :=
  let (info, memory) := memory.malloc .info (succeeds .info)
  if info = .null then (.null, memory)
  else
    let (pAddr, memory) := memory.malloc .pAddr (succeeds .pAddr)
    let memory := memory.store .pAddr pAddr
    if pAddr = .null then (.null, memory.freeClientMemoryWithPtrToPtr info)
    else
      let (pAddrLen, memory) := memory.malloc .pAddrLen (succeeds .pAddrLen)
      let memory := memory.store .pAddrLen pAddrLen
      if pAddrLen = .null then (.null, memory.freeClientMemoryWithPtrToPtr info)
      else (info, memory)

/-- `accept_connection`, which follows the pointer it got without a test. -/
def acceptConnection (memory : ClientMemory) (succeeds : ClientBlock → Bool) (accepts : Bool) :
    Pointer × ClientMemory :=
  let (info, memory) := memory.allocateClientInfoStruct succeeds
  let memory := if info = .null then memory.violate else memory
  if accepts then (info, memory) else (.null, memory.freeClientMemoryWithPtrToPtr info)

/-- `prepare_client_structs_for_data`, where `inet_ntop` succeeds or not. -/
def prepareClientStructsForData (memory : ClientMemory) (succeeds : ClientBlock → Bool)
    (converts : Bool) (info : Pointer) : ClientMemory :=
  if info = .null then memory
  else
    let (name, memory) := memory.malloc .name (succeeds .name)
    let memory := memory.store .name name
    if name = .null then memory.freeClientMemoryWithPtrToPtr info
    else
      let (buffer, memory) := memory.malloc .buffer (succeeds .buffer)
      let memory := memory.store .buffer buffer
      if buffer = .null then memory.freeClientMemoryWithPtrToPtr info
      else if converts then memory
      else memory.freeClientMemoryWithPtrToPtr info

/-! ## The stages of a client -/

/-- Nothing is allocated. -/
structure Untouched (memory : ClientMemory) : Prop where
  live : ∀ block, memory.live block = false
  fields : ∀ block, memory.fields block = .indeterminate

/-- The client was accepted. -/
structure Unprepared (memory : ClientMemory) : Prop where
  live : ∀ block, memory.live block = decide (block ≠ .name ∧ block ≠ .buffer)
  pAddr : memory.fields .pAddr = .address .pAddr
  pAddrLen : memory.fields .pAddrLen = .address .pAddrLen
  buffer : memory.fields .buffer = .indeterminate

/-- The service can use the client. -/
structure Prepared (memory : ClientMemory) : Prop where
  live : ∀ block, memory.live block = true
  pAddr : memory.fields .pAddr = .address .pAddr
  pAddrLen : memory.fields .pAddrLen = .address .pAddrLen
  buffer : memory.fields .buffer = .address .buffer

/-- The client was freed, and the struct and the name are left. -/
structure Released (memory : ClientMemory) : Prop where
  live : ∀ block, memory.live block = decide (block = .info ∨ block = .name)
  pAddr : memory.fields .pAddr = .null
  pAddrLen : memory.fields .pAddrLen = .null
  buffer : memory.fields .buffer = .null

variable {memory : ClientMemory}

theorem store_of_live (live : memory.live .info = true) (field : ClientBlock) (pointer : Pointer) :
    memory.store field pointer =
      { memory with fields := Function.update memory.fields field pointer } := if_pos live

/-! ## What is freed -/

/-- A pointer in the struct that may be freed: it is null, or it points to its own block. -/
def Clean (memory : ClientMemory) (field : ClientBlock) : Prop :=
  memory.fields field = .null ∧ memory.live field = false ∨
    memory.fields field = .address field ∧ memory.live field = true

/-- Freeing a clean pointer leaves it clean and its block free, and everything else as it was. -/
structure FreesField (memory : ClientMemory) (field : ClientBlock) (after : ClientMemory) :
    Prop where
  null : after.fields field = .null
  freed : after.live field = false
  fields : ∀ other, other ≠ field → after.fields other = memory.fields other
  live : ∀ other, other ≠ field → after.live other = memory.live other
  violated : after.violated = memory.violated

theorem freesField {field : ClientBlock} (live : memory.live .info = true)
    (different : field ≠ .info) (clean : memory.Clean field) :
    memory.FreesField field (memory.freeField field) := by
  rcases clean with ⟨null, freed⟩ | ⟨own, allocated⟩
  · rw [freeField, if_pos null]
    exact ⟨null, freed, fun _ _ => rfl, fun _ _ => rfl, rfl⟩
  · rw [freeField, own, if_neg Pointer.noConfusion, free, if_pos allocated,
      store_of_live ((Function.update_of_ne different.symm _ _).trans live)]
    exact ⟨Function.update_self _ _ _, Function.update_self _ _ _,
      fun other apart => Function.update_of_ne apart _ _,
      fun other apart => Function.update_of_ne apart _ _, rfl⟩

theorem FreesField.clean {after : ClientMemory} {field other : ClientBlock}
    (frees : memory.FreesField field after) (apart : other ≠ field) (clean : memory.Clean other) :
    after.Clean other := by
  rw [Clean, frees.fields other apart, frees.live other apart]
  exact clean

/-- Of a struct with clean pointers and its name nothing else is left. -/
theorem released_of_clean (live : memory.live .info = true) (named : memory.live .name = true)
    (pAddr : memory.Clean .pAddr) (pAddrLen : memory.Clean .pAddrLen)
    (buffer : memory.Clean .buffer) :
    (memory.freeClientMemoryWithPtrToPtr (.address .info)).Released ∧
      (memory.freeClientMemoryWithPtrToPtr (.address .info)).violated = memory.violated := by
  have unfolded : memory.freeClientMemoryWithPtrToPtr (.address .info) =
      ((memory.freeField .pAddr).freeField .pAddrLen).freeField .buffer := if_pos live
  have first := freesField live (by decide) pAddr
  have live' := (first.live .info (by decide)).trans live
  have second := freesField live' (by decide) (first.clean (by decide) pAddrLen)
  have live'' := (second.live .info (by decide)).trans live'
  have third := freesField live'' (by decide)
    (second.clean (by decide) (first.clean (by decide) buffer))
  rw [unfolded]
  refine ⟨⟨fun block => ?_, ?_, ?_, third.null⟩,
    third.violated.trans (second.violated.trans first.violated)⟩
  · cases block with
    | info => exact (third.live _ (by decide)).trans live''
    | name =>
        rw [third.live _ (by decide), second.live _ (by decide), first.live _ (by decide), named]
        rfl
    | pAddr =>
        exact (third.live _ (by decide)).trans ((second.live _ (by decide)).trans first.freed)
    | pAddrLen => exact (third.live _ (by decide)).trans second.freed
    | buffer => exact third.freed
  · rw [third.fields _ (by decide), second.fields _ (by decide), first.null]
  · rw [third.fields _ (by decide), second.null]

theorem Prepared.free (prepared : memory.Prepared) :
    (memory.freeClientMemoryWithPtrToPtr (.address .info)).Released ∧
      (memory.freeClientMemoryWithPtrToPtr (.address .info)).violated = memory.violated :=
  released_of_clean (prepared.live _) (prepared.live _) (.inr ⟨prepared.pAddr, prepared.live _⟩)
    (.inr ⟨prepared.pAddrLen, prepared.live _⟩) (.inr ⟨prepared.buffer, prepared.live _⟩)

/-- A second call finds nothing to free. -/
theorem Released.free (released : memory.Released) :
    (memory.freeClientMemoryWithPtrToPtr (.address .info)).Released ∧
      (memory.freeClientMemoryWithPtrToPtr (.address .info)).violated = memory.violated :=
  released_of_clean (released.live _) (released.live _) (.inl ⟨released.pAddr, released.live _⟩)
    (.inl ⟨released.pAddrLen, released.live _⟩) (.inl ⟨released.buffer, released.live _⟩)

/-- A buffer that was never written is freed. -/
theorem violated_of_indeterminate (live : memory.live .info = true) (pAddr : memory.Clean .pAddr)
    (pAddrLen : memory.Clean .pAddrLen) (unwritten : memory.fields .buffer = .indeterminate) :
    (memory.freeClientMemoryWithPtrToPtr (.address .info)).violated = true := by
  have unfolded : memory.freeClientMemoryWithPtrToPtr (.address .info) =
      ((memory.freeField .pAddr).freeField .pAddrLen).freeField .buffer := if_pos live
  have first := freesField live (by decide) pAddr
  have live' := (first.live .info (by decide)).trans live
  have second := freesField live' (by decide) (first.clean (by decide) pAddrLen)
  have still : ((memory.freeField .pAddr).freeField .pAddrLen).fields .buffer = .indeterminate := by
    rw [second.fields _ (by decide), first.fields _ (by decide), unwritten]
  rw [unfolded, freeField, still, if_neg Pointer.noConfusion, free, store]
  split <;> rfl

theorem Unprepared.free (unprepared : memory.Unprepared) :
    (memory.freeClientMemoryWithPtrToPtr (.address .info)).violated = true :=
  violated_of_indeterminate (unprepared.live _) (.inr ⟨unprepared.pAddr, unprepared.live _⟩)
    (.inr ⟨unprepared.pAddrLen, unprepared.live _⟩) unprepared.buffer

/-! ## What is allocated -/

/-- A block is allocated and its pointer written into the struct. -/
def allocate (memory : ClientMemory) (block : ClientBlock) : ClientMemory :=
  { memory with
    live := Function.update memory.live block true
    fields := Function.update memory.fields block (.address block) }

/-- A pointer in the struct is set to null. -/
def clear (memory : ClientMemory) (field : ClientBlock) : ClientMemory :=
  { memory with fields := Function.update memory.fields field .null }

@[simp]
theorem allocate_live (memory : ClientMemory) (block other : ClientBlock) :
    (memory.allocate block).live other = if other = block then true else memory.live other :=
  Function.update_apply _ _ _ _

@[simp]
theorem allocate_fields (memory : ClientMemory) (block other : ClientBlock) :
    (memory.allocate block).fields other =
      if other = block then .address block else memory.fields other := Function.update_apply _ _ _ _

@[simp]
theorem clear_fields (memory : ClientMemory) (block other : ClientBlock) :
    (memory.clear block).fields other = if other = block then .null else memory.fields other :=
  Function.update_apply _ _ _ _

@[simp]
theorem clear_live (memory : ClientMemory) (block : ClientBlock) :
    (memory.clear block).live = memory.live := rfl

theorem Clean.allocate {field block : ClientBlock} (clean : memory.Clean field)
    (apart : field ≠ block) : (memory.allocate block).Clean field := by
  simpa [Clean, apart] using clean

theorem Clean.clear {field block : ClientBlock} (clean : memory.Clean field)
    (apart : field ≠ block) : (memory.clear block).Clean field := by
  simpa [Clean, apart] using clean

/-- What `prepare_client_structs_for_data` does with an allocated struct. -/
theorem prepareClientStructsForData_eq (live : memory.live .info = true)
    (succeeds : ClientBlock → Bool) (converts : Bool) :
    memory.prepareClientStructsForData succeeds converts (.address .info) =
      if succeeds .name = false then
        (memory.clear .name).freeClientMemoryWithPtrToPtr (.address .info)
      else if succeeds .buffer = false then
        ((memory.allocate .name).clear .buffer).freeClientMemoryWithPtrToPtr (.address .info)
      else if converts then (memory.allocate .name).allocate .buffer
      else ((memory.allocate .name).allocate .buffer).freeClientMemoryWithPtrToPtr
        (.address .info) := by
  have named : (memory.malloc .name true).2.store .name (.address .name) = memory.allocate .name :=
    store_of_live (by simp [malloc, live]) _ _
  have buffered : ((memory.allocate .name).malloc .buffer true).2.store .buffer (.address .buffer) =
      (memory.allocate .name).allocate .buffer := store_of_live (by simp [malloc, live]) _ _
  simp only [malloc, if_true] at named buffered
  rw [prepareClientStructsForData, if_neg Pointer.noConfusion]
  cases succeeds .name with
  | false =>
      simp only [malloc, Bool.false_eq_true, if_false, if_true, store_of_live live]
      rfl
  | true =>
      simp only [malloc, if_true, named]
      cases succeeds .buffer with
      | false =>
          simp only [Bool.false_eq_true, Bool.true_eq_false, reduceCtorEq, if_false, if_true,
            store_of_live (show (memory.allocate .name).live .info = true by simp [live])]
          rfl
      | true => simp [buffered]

theorem Unprepared.prepare (unprepared : memory.Unprepared) {succeeds : ClientBlock → Bool}
    {converts : Bool} (named : succeeds .name = true) :
    (memory.prepareClientStructsForData succeeds converts (.address .info)).violated =
        memory.violated ∧
      if succeeds .buffer = true ∧ converts = true then
        (memory.prepareClientStructsForData succeeds converts (.address .info)).Prepared
      else (memory.prepareClientStructsForData succeeds converts (.address .info)).Released := by
  have live := unprepared.live .info
  have pAddr : memory.Clean .pAddr := .inr ⟨unprepared.pAddr, unprepared.live _⟩
  have pAddrLen : memory.Clean .pAddrLen := .inr ⟨unprepared.pAddrLen, unprepared.live _⟩
  have here : (memory.allocate .name).live .info = true := by simp [live]
  have there : ((memory.allocate .name).allocate .buffer).live .info = true := by simp [live]
  have pAddr' := (pAddr.allocate (show _ ≠ ClientBlock.name by decide))
  have pAddrLen' := (pAddrLen.allocate (show _ ≠ ClientBlock.name by decide))
  have prepared : ((memory.allocate .name).allocate .buffer).Prepared := by
    refine ⟨fun block => ?_, ?_, ?_, ?_⟩
    · cases block <;> simp [unprepared.live]
    · simp [unprepared.pAddr]
    · simp [unprepared.pAddrLen]
    · simp
  rw [prepareClientStructsForData_eq live, if_neg (by simp [named])]
  cases succeeds .buffer with
  | false =>
      have released := @released_of_clean ((memory.allocate .name).clear .buffer) here
        (by simp) (pAddr'.clear (by decide)) (pAddrLen'.clear (by decide))
        (.inl ⟨by simp, by simp [unprepared.live]⟩)
      exact ⟨released.2, released.1⟩
  | true =>
      cases converts with
      | false => exact ⟨prepared.free.2, prepared.free.1⟩
      | true => exact ⟨rfl, prepared⟩

/-- A failure before the buffer was written frees what is in it. -/
theorem Unprepared.prepare_unnamed (unprepared : memory.Unprepared)
    {succeeds : ClientBlock → Bool} {converts : Bool} (unnamed : succeeds .name = false) :
    (memory.prepareClientStructsForData succeeds converts (.address .info)).violated = true := by
  have live := unprepared.live .info
  have pAddr : memory.Clean .pAddr := .inr ⟨unprepared.pAddr, unprepared.live _⟩
  have pAddrLen : memory.Clean .pAddrLen := .inr ⟨unprepared.pAddrLen, unprepared.live _⟩
  rw [prepareClientStructsForData_eq live, if_pos unnamed]
  exact violated_of_indeterminate live (pAddr.clear (by decide)) (pAddrLen.clear (by decide))
    (by simp [unprepared.buffer])

/-- The struct is allocated, with nothing in it. -/
def withInfo (memory : ClientMemory) : ClientMemory :=
  { memory with live := Function.update memory.live .info true }

@[simp]
theorem withInfo_live (memory : ClientMemory) (block : ClientBlock) :
    memory.withInfo.live block = if block = .info then true else memory.live block :=
  Function.update_apply _ _ _ _

@[simp]
theorem withInfo_fields (memory : ClientMemory) : memory.withInfo.fields = memory.fields := rfl

/-- What `accept_connection` does. -/
theorem acceptConnection_eq (memory : ClientMemory) (succeeds : ClientBlock → Bool)
    (accepts : Bool) :
    (memory.acceptConnection succeeds accepts).2 =
      if succeeds .info = false then memory.violate
      else if succeeds .pAddr = false then
        ((memory.withInfo.clear .pAddr).freeClientMemoryWithPtrToPtr (.address .info)).violate
      else if succeeds .pAddrLen = false then
        (((memory.withInfo.allocate .pAddr).clear .pAddrLen).freeClientMemoryWithPtrToPtr
          (.address .info)).violate
      else if accepts then (memory.withInfo.allocate .pAddr).allocate .pAddrLen
      else ((memory.withInfo.allocate .pAddr).allocate .pAddrLen).freeClientMemoryWithPtrToPtr
        (.address .info) := by
  rw [acceptConnection, allocateClientInfoStruct]
  cases succeeds .info with
  | false => cases accepts <;> rfl
  | true =>
      cases succeeds .pAddr with
      | false => cases accepts <;> rfl
      | true => cases succeeds .pAddrLen <;> cases accepts <;> rfl

theorem Untouched.accept (untouched : memory.Untouched) {succeeds : ClientBlock → Bool}
    (allocates : succeeds .info = true ∧ succeeds .pAddr = true ∧ succeeds .pAddrLen = true) :
    (memory.acceptConnection succeeds true).2.Unprepared ∧
      (memory.acceptConnection succeeds true).2.violated = memory.violated := by
  obtain ⟨info, pAddr, pAddrLen⟩ := allocates
  rw [acceptConnection_eq, info, pAddr, pAddrLen]
  refine ⟨⟨fun block => ?_, ?_, ?_, ?_⟩, rfl⟩
  · cases block <;> simp [untouched.live]
  · simp
  · simp
  · simp [untouched.fields]

/-- No connection fails to be accepted without a violation. -/
theorem Untouched.accept_fails (untouched : memory.Untouched) {succeeds : ClientBlock → Bool}
    {accepts : Bool} (fails : ¬ (succeeds .info = true ∧ succeeds .pAddr = true ∧
      succeeds .pAddrLen = true ∧ accepts = true)) :
    (memory.acceptConnection succeeds accepts).2.violated = true := by
  have freed : (((memory.withInfo.allocate .pAddr).allocate .pAddrLen).freeClientMemoryWithPtrToPtr
      (.address .info)).violated = true := by
    apply violated_of_indeterminate <;> simp [Clean, untouched.fields]
  rw [acceptConnection_eq]
  cases info : succeeds .info with
  | false => rfl
  | true =>
      cases pAddr : succeeds .pAddr with
      | false => rfl
      | true =>
          cases pAddrLen : succeeds .pAddrLen with
          | false => rfl
          | true =>
              cases accepts with
              | true => exact absurd ⟨info, pAddr, pAddrLen, rfl⟩ fails
              | false => exact freed

/-! ## A violation stays -/

theorem violated_malloc (violated : memory.violated = true) (block : ClientBlock)
    (succeeds : Bool) : (memory.malloc block succeeds).2.violated = true := by
  rw [malloc]
  split <;> exact violated

theorem violated_free (violated : memory.violated = true) (pointer : Pointer) :
    (memory.free pointer).violated = true := by
  cases pointer with
  | indeterminate => rfl
  | null => exact violated
  | address block =>
      rw [free]
      split
      · exact violated
      · rfl

theorem violated_store (violated : memory.violated = true) (field : ClientBlock)
    (pointer : Pointer) : (memory.store field pointer).violated = true := by
  rw [store]
  split
  · exact violated
  · rfl

theorem violated_freeField (violated : memory.violated = true) (field : ClientBlock) :
    (memory.freeField field).violated = true := by
  rw [freeField]
  split
  · exact violated
  · exact violated_store (violated_free violated _) _ _

theorem violated_freeClientMemory (violated : memory.violated = true) (pointer : Pointer) :
    (memory.freeClientMemoryWithPtrToPtr pointer).violated = true := by
  rw [freeClientMemoryWithPtrToPtr.eq_def]
  split
  · exact violated
  · split
    · exact violated_free (violated_freeField (violated_freeField
        (violated_freeField violated _) _) _) _
    · rfl
  · rfl

theorem violated_prepare (violated : memory.violated = true) (succeeds : ClientBlock → Bool)
    (converts : Bool) (info : Pointer) :
    (memory.prepareClientStructsForData succeeds converts info).violated = true := by
  have named := violated_store (violated_malloc violated .name (succeeds .name)) .name
    (memory.malloc .name (succeeds .name)).1
  have buffered := violated_store (violated_malloc named .buffer (succeeds .buffer)) .buffer
  simp only [prepareClientStructsForData]
  split
  · exact violated
  · split
    · exact violated_freeClientMemory named info
    · split
      · exact violated_freeClientMemory (buffered _) info
      · split
        · exact buffered _
        · exact violated_freeClientMemory (buffered _) info

theorem violated_accept (violated : memory.violated = true) (succeeds : ClientBlock → Bool)
    (accepts : Bool) : (memory.acceptConnection succeeds accepts).2.violated = true := by
  rw [acceptConnection_eq]
  split
  · rfl
  · split
    · rfl
    · split
      · rfl
      · split
        · exact violated
        · exact violated_freeClientMemory (by exact violated) _

end ClientMemory
end CmyMessage
