/-
Reservation of a slot. A block that `is_slot_free` granted keeps other blocks out of its slot until
the slot is freed, unless its bunch_id is the value that marks an empty slot.
-/
import SfDaqBuffer.SfWriter.BlockHistory

namespace SfDaqBuffer.SfWriter

open ImageAssembler

/-- A call on an assembler of `n` modules. -/
inductive Operation (n : Nat)
  | isSlotFree (bunchId : UInt64)
  | isSlotFull (bunchId : UInt64)
  | process (bunchId : UInt64) (iModule : Fin n) (block : BufferBinaryBlock)
  | freeSlot (bunchId : UInt64)
  | getMetadataBuffer (bunchId : UInt64)
  | getDataBuffer (bunchId : UInt64)

namespace Operation

variable {n : Nat}

/-- The assembler after a call. -/
def apply (ia : ImageAssembler) : Operation n → ImageAssembler
  | isSlotFree bunchId => (ia.isSlotFree bunchId).2
  | isSlotFull _ => ia
  | process bunchId iModule block => ia.process bunchId iModule block
  | freeSlot bunchId => ia.freeSlot bunchId
  | getMetadataBuffer bunchId => (ia.getMetadataBuffer bunchId).2
  | getDataBuffer _ => ia

/-- A call of `free_slot` for a slot. -/
def Frees (slot : Nat) : Operation n → Prop
  | freeSlot bunchId => slotId bunchId = slot
  | _ => False

end Operation

/-- The assembler after a sequence of calls. -/
def runOperations {n : Nat} (ia : ImageAssembler) (operations : List (Operation n)) : ImageAssembler :=
  operations.foldl Operation.apply ia

/-- Once `is_slot_free` has granted the slot to `b`, it refuses it to `b'` until the slot is freed,
whatever is called before and in between. -/
def Exclusive (n : Nat) (ia : ImageAssembler) (b b' : UInt64) : Prop :=
  ∀ before after : List (Operation n),
    ((runOperations ia before).isSlotFree b).1 = true → (∀ op ∈ after, ¬ op.Frees (slotId b)) →
      ((runOperations ((runOperations ia before).isSlotFree b).2 after).isSlotFree b').1 = false

/-! ## What is_slot_free does -/

section

variable {ia : ImageAssembler} {b b' : UInt64}

/-- `is_slot_free` takes an empty slot; an owned slot stays as it is, and only its owner may use it. -/
theorem isSlotFree_cases (ia : ImageAssembler) (b : UInt64) :
    (ia.bufferBunchId (slotId b) = iaEmptySlotValue ∧ (ia.isSlotFree b).1 = true ∧
      (ia.isSlotFree b).2 = { ia with bufferBunchId := Function.update ia.bufferBunchId (slotId b) b }) ∨
    (ia.bufferBunchId (slotId b) ≠ iaEmptySlotValue ∧ (ia.isSlotFree b).2 = ia ∧
      ((ia.isSlotFree b).1 = true → ia.bufferBunchId (slotId b) = b)) := by
  unfold isSlotFree tryAcquire
  by_cases hempty : ia.bufferBunchId (slotId b) = iaEmptySlotValue
  · simp only [if_pos hempty, Bool.true_or]
    exact .inl ⟨hempty, trivial, trivial⟩
  · simp only [if_neg hempty, Bool.false_or]
    refine .inr ⟨hempty, trivial, fun h => ?_⟩
    unfold isFreeFor at h
    rw [Bool.and_eq_true, beq_iff_eq] at h
    exact h.2

/-- Whoever is granted a slot owns it. -/
theorem owner_of_granted (h : (ia.isSlotFree b).1 = true) :
    (ia.isSlotFree b).2.bufferBunchId (slotId b) = b := by
  rcases isSlotFree_cases ia b with ⟨-, -, heq⟩ | ⟨-, heq, howner⟩
  · rw [heq]
    exact Function.update_self ..
  · rw [heq]
    exact howner h

/-- `is_slot_free` refuses a slot that another block owns. -/
theorem refused_of_owned (hb : b ≠ iaEmptySlotValue) (hne : b ≠ b') (hslot : slotId b = slotId b')
    (howner : ia.bufferBunchId (slotId b) = b) : (ia.isSlotFree b').1 = false := by
  rcases isSlotFree_cases ia b' with ⟨hempty, -, -⟩ | ⟨-, -, hgranted⟩
  · rw [← hslot, howner] at hempty
    exact absurd hempty hb
  · by_contra h
    have howner' := hgranted (Bool.of_not_eq_false h)
    rw [← hslot, howner] at howner'
    exact hne howner'

end

/-! ## Ownership over a run -/

section

variable {n : Nat} {b : UInt64}

theorem releaseModule_bufferBunchId (ia : ImageAssembler) (bunchId : UInt64) :
    (ia.releaseModule bunchId).bufferBunchId = ia.bufferBunchId := rfl

theorem process_bufferBunchId (ia : ImageAssembler) (bunchId : UInt64) (m : Nat) (block : BufferBinaryBlock) :
    (ia.process bunchId m block).bufferBunchId = ia.bufferBunchId := by
  unfold process
  rw [releaseModule_bufferBunchId]
  exact Runs.foldl_frame ImageAssembler.bufferBunchId (fun _ _ => copyFrame_bufferBunchId ..) _ ia

/-- Only `free_slot` takes a slot from its owner. -/
theorem apply_owner (hb : b ≠ iaEmptySlotValue) {op : Operation n} (hop : ¬ op.Frees (slotId b))
    {ia : ImageAssembler} (howner : ia.bufferBunchId (slotId b) = b) :
    (op.apply ia).bufferBunchId (slotId b) = b := by
  cases op with
  | isSlotFree c =>
    show (ia.isSlotFree c).2.bufferBunchId (slotId b) = b
    rcases isSlotFree_cases ia c with ⟨hempty, -, heq⟩ | ⟨-, heq, -⟩
    · have hslot : slotId b ≠ slotId c := by
        rintro hslot
        rw [← hslot, howner] at hempty
        exact hb hempty
      rw [heq]
      exact (Function.update_of_ne hslot ..).trans howner
    · rw [heq]
      exact howner
  | freeSlot c =>
    have hslot : slotId b ≠ slotId c := fun h => hop h.symm
    exact (Function.update_of_ne hslot ..).trans howner
  | process c m block =>
    show (ia.process c m block).bufferBunchId (slotId b) = b
    rw [process_bufferBunchId]
    exact howner
  | isSlotFull | getMetadataBuffer | getDataBuffer => exact howner

theorem runOperations_owner (hb : b ≠ iaEmptySlotValue) {ops : List (Operation n)} {ia : ImageAssembler}
    (hops : ∀ op ∈ ops, ¬ op.Frees (slotId b)) (howner : ia.bufferBunchId (slotId b) = b) :
    (runOperations ia ops).bufferBunchId (slotId b) = b := by
  induction ops generalizing ia with
  | nil => exact howner
  | cons op ops ih =>
    refine ih (fun o ho => hops o (List.mem_cons_of_mem _ ho)) ?_
    exact apply_owner hb (hops op (List.mem_cons_self ..)) howner

/-- After the constructor every slot is empty. -/
theorem Constructed.bufferBunchId {ia : ImageAssembler} (h : Constructed n ia) (b : UInt64) :
    ia.bufferBunchId (slotId b) = iaEmptySlotValue := by
  obtain ⟨imageBuffer, metaBuffer, frameMetaBuffer, bufferStatus, bufferBunchId, rfl⟩ := h
  exact (new_fields n imageBuffer metaBuffer frameMetaBuffer bufferStatus bufferBunchId
    (Nat.mod_lt _ Nat.zero_lt_two)).2.2

/-- The reservation of a slot is exclusive exactly for the blocks whose bunch_id is not the value
of an empty slot. -/
theorem exclusive_iff {ia : ImageAssembler} (h : Constructed n ia) {b b' : UInt64} (hne : b ≠ b')
    (hslot : slotId b = slotId b') : Exclusive n ia b b' ↔ b ≠ 0 := by
  constructor
  · rintro hexcl rfl
    -- the grant leaves the slot empty
    have hgranted : (ia.isSlotFree 0).1 = true := by
      rcases isSlotFree_cases ia 0 with ⟨-, hgranted, -⟩ | ⟨howned, -, -⟩
      · exact hgranted
      · exact absurd (h.bufferBunchId 0) howned
    have howner := owner_of_granted hgranted
    have hrefused := hexcl [] [] hgranted (by simp)
    change ((ia.isSlotFree 0).2.isSlotFree b').1 = false at hrefused
    rcases isSlotFree_cases (ia.isSlotFree 0).2 b' with ⟨-, hgranted', -⟩ | ⟨howned, -, -⟩
    · rw [hgranted'] at hrefused
      cases hrefused
    · rw [← hslot, howner] at howned
      exact howned rfl
  · intro hb before after hgranted hafter
    exact refused_of_owned hb hne hslot (runOperations_owner hb hafter (owner_of_granted hgranted))

/-- Blocks 2 and 4, of an assembler whose slot 0 is empty. -/
theorem exclusive_iff_two : Exclusive 1 zeroedAssembler 2 4 := by
  have hne : (2 : UInt64) ≠ 4 := by decide
  have hslot : slotId 2 = slotId 4 := rfl
  exact (exclusive_iff constructed_zeroedAssembler hne hslot).2 (by decide)

/-- Block 0 is granted slot 0, and then block 2 is. -/
theorem not_exclusive_zero : Constructed 1 zeroedAssembler ∧ (zeroedAssembler.isSlotFree 0).1 = true ∧
    ((zeroedAssembler.isSlotFree 0).2.isSlotFree 2).1 = true ∧ ¬ Exclusive 1 zeroedAssembler 0 2 := by
  refine ⟨constructed_zeroedAssembler, rfl, rfl, fun h => ?_⟩
  have hrefused : ((zeroedAssembler.isSlotFree 0).2.isSlotFree 2).1 = false := h [] [] rfl (by simp)
  cases hrefused

end

end SfDaqBuffer.SfWriter
