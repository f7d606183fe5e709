/-
The threads of sf-writer cannot deadlock on the slots. While the main thread waits for a block,
either all readers have processed it and its slot is full, or a reader that has not finds the slot
empty or owned by the block.
-/
import SfDaqBuffer.SfWriter.SlotProtocol

namespace SfDaqBuffer.SfWriter

open ImageAssembler

variable {c : Request} {s : State}

/-- A reader with blocks left is past its wait, or `is_slot_free` holds for its block. -/
def ReaderUnblocked (c : Request) (s : State) (m : Nat) : Prop :=
  (s.readers m).pos < c.nBlocks ∧
    ((s.readers m).phase.Granted ∨ (s.assembler.isSlotFree (c.block (s.readers m).pos)).1 = true)

/-- The main thread is past its wait, or `is_slot_full` holds for its block. -/
def MainUnblocked (c : Request) (s : State) : Prop :=
  s.main.phase ≠ .poll ∨ s.assembler.isSlotFull (c.block s.main.pos) = true

theorem isSlotFree_of_empty {ia : ImageAssembler} {b : UInt64} (h : ia.bufferBunchId (slotId b) = iaEmptySlotValue) :
    (ia.isSlotFree b).1 = true := by
  unfold isSlotFree tryAcquire
  simp only [if_pos h, Bool.true_or]

theorem isSlotFree_of_owned {ia : ImageAssembler} {b : UInt64} (hb : b ≠ iaEmptySlotValue)
    (hown : ia.bufferBunchId (slotId b) = b) (hstatus : 0 < ia.bufferStatus (slotId b)) :
    (ia.isSlotFree b).1 = true := by
  have hfull : ia.bufferBunchId (slotId b) ≠ iaEmptySlotValue := hown.symm ▸ hb
  have hseen : ia.tryAcquire b = (false, b, ia) := by
    unfold tryAcquire
    simp only [if_neg hfull]
    rw [hown]
  unfold isSlotFree isFreeFor
  simp only [hseen, beq_self_eq_true, decide_eq_true hstatus, Bool.and_self, Bool.or_true]

/-- A reader at the main thread's block can take the slot. -/
theorem Inv.slotFree (h : Inv c s) (hj : s.main.pos < c.nBlocks) (hpoll : s.main.phase = .poll) {m : Nat}
    (hm : m < c.nModules) (hpos : (s.readers m).pos = s.main.pos) :
    (s.assembler.isSlotFree (c.block s.main.pos)).1 = true := by
  have hslot := h.slots s.main.pos ⟨le_refl _, Nat.le_succ _⟩
  have hid := slotId_block hj
  rcases hslot.bunch with ⟨hown, -⟩ | ⟨hempty, -⟩
  · apply isSlotFree_of_owned (block_ne_empty hj)
    · rw [hid]
      exact hown
    · -- the reader itself has not processed the block
      have hfree : ¬ Freeing s s.main.pos := fun hf => by
        have hphase := hf.2
        rw [hpoll] at hphase
        cases hphase
      have hsub : finished c s s.main.pos ⊂ Finset.range c.nModules :=
        Finset.filter_ssubset.2 ⟨m, Finset.mem_range.2 hm, fun hlt => by omega⟩
      have hcard := Finset.card_lt_card hsub
      rw [Finset.card_range] at hcard
      rw [hid, hslot.status hfree]
      omega
  · apply isSlotFree_of_empty
    rw [hid]
    exact hempty

/-- A block that all readers have processed has a full slot. -/
theorem Inv.slotFull (h : Inv c s) (hj : s.main.pos < c.nBlocks) (hpoll : s.main.phase = .poll)
    (hall : ∀ m < c.nModules, s.main.pos < (s.readers m).pos) :
    s.assembler.isSlotFull (c.block s.main.pos) = true := by
  have hslot := h.slots s.main.pos ⟨le_refl _, Nat.le_succ _⟩
  have hfree : ¬ Freeing s s.main.pos := fun hf => by
    have hphase := hf.2
    rw [hpoll] at hphase
    cases hphase
  have hfinished : finished c s s.main.pos = Finset.range c.nModules :=
    Finset.filter_true_of_mem fun m hm => hall m (Finset.mem_range.1 hm)
  have hstatus := hslot.status hfree
  rw [hfinished, Finset.card_range, Int.sub_self] at hstatus
  unfold isSlotFull
  rw [slotId_block hj, hstatus]
  rfl

/-- While blocks are left to write, some thread is not blocked. -/
theorem slots_deadlock_free (c : Request) (s : State) (hr : Reachable c s) (hleft : s.main.pos < c.nBlocks) :
    MainUnblocked c s ∨ ∃ m < c.nModules, ReaderUnblocked c s m := by
  have h := reachable_inv hr
  by_cases hpoll : s.main.phase = .poll
  · by_cases hall : ∀ m < c.nModules, s.main.pos < (s.readers m).pos
    · exact .inl (.inr (h.slotFull hleft hpoll hall))
    · obtain ⟨m, hm, hnot⟩ : ∃ m, m < c.nModules ∧ ¬ s.main.pos < (s.readers m).pos := by
        simpa using hall
      have hpos : (s.readers m).pos = s.main.pos := le_antisymm (Nat.le_of_not_lt hnot) (h.lower m hm)
      refine .inr ⟨m, hm, by rw [hpos]; exact hleft, .inr ?_⟩
      rw [hpos]
      exact h.slotFree hleft hpoll hm hpos
  · exact .inl (.inl hpoll)

/-- The first reader waits for a slot and the main thread for a block, but the second reader can go on. -/
theorem slots_deadlock_free_waiting : ∃ s, Reachable threeBlocks s ∧ ¬ MainUnblocked threeBlocks s ∧
    ¬ ReaderUnblocked threeBlocks s 0 ∧ ReaderUnblocked threeBlocks s 1 := by
  have hrun : ((Runs.run (step threeBlocks) untilReaderWaits threeBlocksStart).map fun s => ((s.main.pos, s.main.phase),
      s.assembler.isSlotFull 1, ((s.readers 0).pos, (s.readers 0).phase), (s.assembler.isSlotFree 3).1)) =
      some ((0, .poll), false, (2, .checkStatus 1), false) := by
    decide +kernel
  obtain ⟨s, hs, hobs⟩ := Option.map_eq_some_iff.1 hrun
  simp only [Prod.mk.injEq] at hobs
  obtain ⟨⟨hmain, hpoll⟩, hfull, ⟨hpos, hphase⟩, hfree⟩ := hobs
  have hreach : Reachable threeBlocks s := (Runs.Reachable.init threeBlocks_init).run hs
  have hblocked : ¬ MainUnblocked threeBlocks s := by
    rintro (hnot | hslot)
    · exact hnot hpoll
    · rw [hmain] at hslot
      exact Bool.false_ne_true (hfull.symm.trans hslot)
  have hwaits : ¬ ReaderUnblocked threeBlocks s 0 := by
    rintro ⟨-, hgranted | hslot⟩
    · rw [hphase] at hgranted
      exact hgranted
    · rw [hpos] at hslot
      exact Bool.false_ne_true (hfree.symm.trans hslot)
  obtain ⟨m, hm, hunblocked⟩ := (slots_deadlock_free threeBlocks s hreach (by rw [hmain]; decide)).resolve_left hblocked
  refine ⟨s, hreach, hblocked, hwaits, ?_⟩
  change m < 2 at hm
  rcases (by omega : m = 0 ∨ m = 1) with rfl | rfl
  · exact absurd hunblocked hwaits
  · exact hunblocked

end SfDaqBuffer.SfWriter
