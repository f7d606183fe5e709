/-
`sf_writer` terminates under every fair schedule of its threads, and the buffer writers cannot keep it
from doing so. What is left to do is counted in steps that do not poll; while blocks are left, the main
thread can go on with its block, or a reader that has not processed that block can.
-/
import SfDaqBuffer.Lib.Fairness
import SfDaqBuffer.SfWriter.Progress
import SfDaqBuffer.SfWriter.Sequential

namespace SfDaqBuffer.SfWriter

open CoreBuffer DiskBuffer ImageAssembler Fairness

/-! ## What is left to do -/

/-- The steps of its round that a reader has done; polling is none. -/
def ReaderPhase.progress : ReaderPhase → Nat
  | .acquire | .checkStatus _ => 0
  | .getBlock => 1
  | .copying i => i + 2
  | .release => bufferBlockSize + 2

/-- The steps that a reader has left. -/
def Reader.work (nBlocks : Nat) (r : Reader) : Nat :=
  (nBlocks - r.pos) * (bufferBlockSize + 3) - r.phase.progress

/-- The steps of its round that the main thread has done, with `loaded` images loaded. -/
def MainPhase.progress (loaded : Nat) : MainPhase → Nat
  | .poll => 0
  | .getMetadata => 1
  | .write => loaded + 2
  | .resetStatus => bufferBlockSize + 3
  | .resetBunchId => bufferBlockSize + 4

theorem MainPhase.progress_lt (p : MainPhase) {loaded : Nat} (hloaded : loaded ≤ bufferBlockSize) :
    p.progress loaded < bufferBlockSize + 5 := by
  cases p with
  | write =>
    show loaded + 2 < bufferBlockSize + 5
    omega
  | poll => exact Nat.succ_pos _
  | getMetadata => exact Nat.succ_lt_succ (Nat.succ_pos _)
  | resetStatus =>
    show bufferBlockSize + 3 < bufferBlockSize + 5
    omega
  | resetBunchId => exact Nat.lt_succ_self _

/-- The steps that the main thread has left. -/
def MainThread.work (nBlocks loaded : Nat) (t : MainThread) : Nat :=
  (nBlocks - t.pos) * (bufferBlockSize + 5) - t.phase.progress loaded

/-! ## Readers -/

section

variable {c : Request} {s : State} {m : Nat} {r r' : Reader} {b : UInt64}

/-- What a step does to its reader. -/
inductive ReaderMove (r r' : Reader) : Prop
  | forward (pos : r'.pos = r.pos) (progress : r.phase.progress < r'.phase.progress)
  | next (phase : r.phase = .release) (pos : r'.pos = r.pos + 1) (acquire : r'.phase = .acquire)
  | polls (pos : r'.pos = r.pos) (before : r.phase.progress = 0) (after : r'.phase.progress = 0)

theorem readerStep_acquire (h : r.phase = .acquire) : (readerStep c m s r b).readers m = { r with
    phase := if s.assembler.bufferBunchId (slotId b) = iaEmptySlotValue then .getBlock
      else .checkStatus (s.assembler.bufferBunchId (slotId b)) } := by
  unfold readerStep tryAcquire
  rw [h]
  by_cases hempty : s.assembler.bufferBunchId (slotId b) = iaEmptySlotValue
  · simp only [if_pos hempty, State.setReader_self]
  · simp only [if_neg hempty, State.setReader_self]

theorem readerStep_checkStatus {seen : UInt64} (h : r.phase = .checkStatus seen) :
    (readerStep c m s r b).readers m = { r with
      phase := if s.assembler.isFreeFor b seen then .getBlock else .acquire } := by
  unfold readerStep
  rw [h]
  simp only
  split
  · simp only [State.setReader_self]
  · simp only [State.setReader_self]

theorem readerStep_move (c : Request) (m : Nat) (s : State) (r : Reader) (b : UInt64) :
    ReaderMove r ((readerStep c m s r b).readers m) := by
  cases hphase : r.phase with
  | acquire =>
    rw [readerStep_acquire hphase]
    split
    · exact .forward rfl (by rw [hphase]; exact Nat.zero_lt_one)
    · exact .polls rfl (by rw [hphase]; rfl) rfl
  | checkStatus seen =>
    rw [readerStep_checkStatus hphase]
    split
    · exact .forward rfl (by rw [hphase]; exact Nat.zero_lt_one)
    · exact .polls rfl (by rw [hphase]; rfl) rfl
  | getBlock =>
    unfold readerStep
    rw [hphase]
    simp only [State.setReader_self]
    refine .forward rfl ?_
    rw [hphase]
    exact Nat.lt_succ_self 1
  | copying i =>
    have hi := i.2
    unfold readerStep
    rw [hphase]
    simp only [State.setReader_self]
    refine .forward rfl ?_
    rw [hphase]
    split
    · exact Nat.lt_succ_self _
    · show (i : Nat) + 2 < bufferBlockSize + 2
      omega
  | release =>
    unfold readerStep
    rw [hphase]
    simp only [State.setReader_self]
    exact .next hphase rfl rfl

theorem ReaderPhase.progress_lt (p : ReaderPhase) : p.progress < bufferBlockSize + 3 := by
  cases p with
  | copying i =>
    have hi := i.2
    show (i : Nat) + 2 < bufferBlockSize + 3
    omega
  | acquire => decide
  | checkStatus seen => exact Nat.succ_pos _
  | getBlock => decide
  | release => decide

/-- A reader with blocks left has more steps left than it has done in this round. -/
theorem Reader.progress_lt {nBlocks : Nat} (hk : r.pos < nBlocks) :
    r.phase.progress < (nBlocks - r.pos) * (bufferBlockSize + 3) :=
  r.phase.progress_lt.trans_le (Nat.le_mul_of_pos_left _ (by omega))

theorem ReaderMove.work_le {nBlocks : Nat} (h : ReaderMove r r') (hk : r.pos < nBlocks) :
    r'.work nBlocks ≤ r.work nBlocks := by
  unfold Reader.work
  cases h with
  | forward pos progress =>
    rw [pos]
    omega
  | next phase pos acquire =>
    rw [pos, phase, acquire]
    obtain ⟨d, hd⟩ : ∃ d, nBlocks - r.pos = d + 1 := ⟨nBlocks - (r.pos + 1), by omega⟩
    rw [← Nat.sub_sub, hd, Nat.add_sub_cancel, Nat.succ_mul]
    show d * (bufferBlockSize + 3) - 0 ≤ d * (bufferBlockSize + 3) + (bufferBlockSize + 3) - (bufferBlockSize + 2)
    omega
  | polls pos before after =>
    rw [pos, before, after]

theorem ReaderMove.work_lt {nBlocks : Nat} (h : ReaderMove r r') (hk : r.pos < nBlocks)
    (hmoves : r.phase.progress ≠ 0 ∨ r.phase.progress < r'.phase.progress) : r'.work nBlocks < r.work nBlocks := by
  have hleft := Reader.progress_lt hk
  unfold Reader.work
  cases h with
  | forward pos progress =>
    rw [pos]
    omega
  | next phase pos acquire =>
    rw [pos, phase, acquire]
    obtain ⟨d, hd⟩ : ∃ d, nBlocks - r.pos = d + 1 := ⟨nBlocks - (r.pos + 1), by omega⟩
    rw [← Nat.sub_sub, hd, Nat.add_sub_cancel, Nat.succ_mul]
    show d * (bufferBlockSize + 3) - 0 < d * (bufferBlockSize + 3) + (bufferBlockSize + 3) - (bufferBlockSize + 2)
    omega
  | polls pos before after =>
    rcases hmoves with hne | hlt
    · exact absurd before hne
    · omega

/-- A step takes a reader to its next block at most. -/
theorem ReaderMove.pos_le (h : ReaderMove r r') : r.pos ≤ r'.pos := by
  cases h with
  | forward pos progress => omega
  | next phase pos acquire => omega
  | polls pos before after => omega

end

/-! ## The program -/

namespace Program

variable {H : Hdf5} {j : Retrieval}

/-- The steps that all threads have left. -/
def work (s : Program H j.config) : Nat :=
  (Finset.range j.config.nModules.toNat).sum (fun m => (s.threads.readers m).work j.nBlocks) +
    s.threads.main.work j.nBlocks s.loaded

/-- All blocks are written. -/
def Done (s : Program H j.config) : Prop := s.threads.main.pos = j.nBlocks

/-- The threads of the program. -/
def threadActions (j : Retrieval) : Set Action :=
  {a | a = .thread .main ∨ ∃ m < j.config.nModules.toNat, a = .thread (.reader m)}

/-- The thread that can bring the main thread's block forward. -/
def Helps (s : Program H j.config) : Action → Prop
  | .thread .main => ∀ m < j.config.nModules.toNat, s.threads.main.pos < (s.threads.readers m).pos
  | .thread (.reader m) => m < j.config.nModules.toNat ∧ (s.threads.readers m).pos = s.threads.main.pos
  | .store .. => False

/-- How many polls a reader that finds its slot free may still make. -/
def polls (s : Program H j.config) : Action → Nat
  | .thread (.reader m) =>
    match (s.threads.readers m).phase with
    | .acquire => 1
    | .checkStatus seen => if seen = j.block (s.threads.readers m).pos then 0 else 2
    | .getBlock | .copying _ | .release => 0
  | .thread .main | .store .. => 0

variable {ws : Nat → List (UInt64 × BufferBinaryFormat)} {old : Nat → ImageMetadataBlock} {start : JFH5Writer H j.config}
  {s s' : Program H j.config}

section

variable {m : Nat} (hother : ∀ q, q ≠ m → s'.threads.readers q = s.threads.readers q)
  (hmain : s'.threads.main = s.threads.main) (hloaded : s'.loaded = s.loaded)

include hother hmain hloaded

theorem work_reader_le (hle : (s'.threads.readers m).work j.nBlocks ≤ (s.threads.readers m).work j.nBlocks) :
    work s' ≤ work s := by
  unfold work
  rw [hmain, hloaded]
  refine Nat.add_le_add_right (Finset.sum_le_sum fun q _ => ?_) _
  by_cases hq : q = m
  · subst hq
    exact hle
  · rw [hother q hq]

theorem work_reader_lt (hm : m < j.config.nModules.toNat)
    (hlt : (s'.threads.readers m).work j.nBlocks < (s.threads.readers m).work j.nBlocks) : work s' < work s := by
  unfold work
  rw [hmain, hloaded]
  refine Nat.add_lt_add_right (Finset.sum_lt_sum (fun q _ => ?_) ⟨m, Finset.mem_range.2 hm, hlt⟩) _
  by_cases hq : q = m
  · subst hq
    exact hlt.le
  · rw [hother q hq]

end

theorem work_main_lt (hreaders : s'.threads.readers = s.threads.readers)
    (hlt : s'.threads.main.work j.nBlocks s'.loaded < s.threads.main.work j.nBlocks s.loaded) : work s' < work s := by
  unfold work
  rw [hreaders]
  exact Nat.add_lt_add_left hlt _

section

variable (h : Inv j ws old start s)

include h

theorem Inv.notDone (hdone : ¬ Done s) : s.threads.main.pos < j.nBlocks := by
  have hinv := SfWriter.reachable_inv h.threads
  have hlower := hinv.lower 0 j.nModules_pos
  have hbound := hinv.bound 0 j.nModules_pos
  exact lt_of_le_of_ne (hlower.trans hbound) hdone

/-- While a reader is at its block the main thread polls. -/
theorem Inv.polling {m : Nat} (hm : m < j.config.nModules.toNat)
    (hpos : (s.threads.readers m).pos = s.threads.main.pos) : s.threads.main.phase = .poll := by
  by_contra hne
  have hlt := ((SfWriter.reachable_inv h.threads).reading hne).2 m hm
  omega

theorem Inv.some_helps : ∃ t ∈ threadActions j, Helps s t := by
  by_cases hall : ∀ m < j.config.nModules.toNat, s.threads.main.pos < (s.threads.readers m).pos
  · exact ⟨.thread .main, .inl rfl, hall⟩
  · obtain ⟨m, hm, hnot⟩ : ∃ m, m < j.config.nModules.toNat ∧ ¬ s.threads.main.pos < (s.threads.readers m).pos := by
      simpa using hall
    have hlower := (SfWriter.reachable_inv h.threads).lower m hm
    exact ⟨.thread (.reader m), .inr ⟨m, hm, rfl⟩, hm, by omega⟩

/-! ## Steps of a reader -/

/-- What a step of a reader does. -/
theorem Inv.reader_moves {m : Nat} (hm : m < j.config.nModules.toNat) (hk : (s.threads.readers m).pos < j.nBlocks) :
    ∃ s', step j (.thread (.reader m)) s = some s' ∧ ReaderMove (s.threads.readers m) (s'.threads.readers m) ∧
      s'.threads.readers m = (SfWriter.readerStep (j.request (stored ws)) m s.threads (s.threads.readers m)
        (j.block (s.threads.readers m).pos)).readers m ∧
      (∀ q, q ≠ m → s'.threads.readers q = s.threads.readers q) ∧ s'.threads.main = s.threads.main ∧
      s'.loaded = s.loaded := by
  obtain ⟨clients, heq, -⟩ := h.readerStep_eq hm hk
  have hframe := readerStep_frame (j.request (stored ws)) m s.threads (s.threads.readers m)
    (j.block (s.threads.readers m).pos)
  refine ⟨_, if_pos ⟨h.aborted, hm, hk⟩, ?_⟩
  rw [heq]
  exact ⟨readerStep_move .., rfl, hframe.others, hframe.main, rfl⟩

/-- A reader at the main thread's block gets its slot after at most two polls. -/
theorem Inv.reader_helps {m : Nat} (hm : m < j.config.nModules.toNat)
    (hpos : (s.threads.readers m).pos = s.threads.main.pos) (hdone : ¬ Done s) :
    ∃ s', step j (.thread (.reader m)) s = some s' ∧ (work s' < work s ∨ work s' ≤ work s ∧
      Helps s' (.thread (.reader m)) ∧ polls s' (.thread (.reader m)) < polls s (.thread (.reader m))) := by
  have hinv := SfWriter.reachable_inv h.threads
  have hj := h.notDone hdone
  have hk : (s.threads.readers m).pos < j.nBlocks := by omega
  obtain ⟨s', hstep, hmove, hself, hother, hmain, hloaded⟩ := h.reader_moves hm hk
  refine ⟨s', hstep, ?_⟩
  have hprogress : (s.threads.readers m).phase.progress ≠ 0 ∨
      (s.threads.readers m).phase.progress < (s'.threads.readers m).phase.progress → work s' < work s :=
    fun hp => work_reader_lt hother hmain hloaded hm (hmove.work_lt hk hp)
  have hfree := hinv.slotFree hj (h.polling hm hpos) hm hpos
  rw [← hpos] at hfree
  -- the slot is empty, or it is that of the block
  have hslot : s.threads.assembler.bufferBunchId (slotId (j.block (s.threads.readers m).pos)) = iaEmptySlotValue ∨
      s.threads.assembler.isFreeFor (j.block (s.threads.readers m).pos)
        (s.threads.assembler.bufferBunchId (slotId (j.block (s.threads.readers m).pos))) = true := by
    unfold isSlotFree tryAcquire at hfree
    by_cases hempty : s.threads.assembler.bufferBunchId (slotId (j.block (s.threads.readers m).pos)) = iaEmptySlotValue
    · exact .inl hempty
    · refine .inr ?_
      have hblock : (j.request (stored ws)).block (s.threads.readers m).pos = j.block (s.threads.readers m).pos := rfl
      rw [hblock] at hfree
      simp only [if_neg hempty, Bool.false_or] at hfree
      exact hfree
  cases hphase : (s.threads.readers m).phase with
  | acquire =>
    rw [readerStep_acquire hphase] at hself
    rcases hslot with hempty | hown
    · rw [if_pos hempty] at hself
      exact .inl (hprogress (.inr (by rw [hphase, hself]; exact Nat.zero_lt_one)))
    · by_cases hempty : s.threads.assembler.bufferBunchId (slotId (j.block (s.threads.readers m).pos)) = iaEmptySlotValue
      · rw [if_pos hempty] at hself
        exact .inl (hprogress (.inr (by rw [hphase, hself]; exact Nat.zero_lt_one)))
      · rw [if_neg hempty] at hself
        have hseen : s.threads.assembler.bufferBunchId (slotId (j.block (s.threads.readers m).pos)) =
            j.block (s.threads.readers m).pos := by
          unfold isFreeFor at hown
          exact beq_iff_eq.1 (Bool.and_eq_true_iff.1 hown).2
        refine .inr ⟨work_reader_le hother hmain hloaded (hmove.work_le hk), ⟨hm, by rw [hself, hmain]; exact hpos⟩, ?_⟩
        unfold polls
        simp only [hself, hphase, hseen, if_true, Nat.zero_lt_one]
  | checkStatus seen =>
    rw [readerStep_checkStatus hphase] at hself
    by_cases hseen : seen = j.block (s.threads.readers m).pos
    · have hbunch := hinv.seen m hm hk (by rw [hphase, hseen]; rfl)
      rw [← slotId_block (c := j.request (stored ws)) hk] at hbunch
      have hown := hslot.resolve_left fun hempty => block_ne_empty (c := j.request (stored ws)) hk (hbunch.symm.trans hempty)
      have hbunch' : s.threads.assembler.bufferBunchId (slotId (j.block (s.threads.readers m).pos)) = seen :=
        hbunch.trans hseen.symm
      rw [hbunch'] at hown
      rw [if_pos hown] at hself
      exact .inl (hprogress (.inr (by rw [hphase, hself]; exact Nat.zero_lt_one)))
    · have hnot : ¬ s.threads.assembler.isFreeFor (j.block (s.threads.readers m).pos) seen = true := by
        unfold isFreeFor
        intro hfree
        exact hseen (beq_iff_eq.1 (Bool.and_eq_true_iff.1 hfree).2)
      rw [if_neg hnot] at hself
      refine .inr ⟨work_reader_le hother hmain hloaded (hmove.work_le hk), ⟨hm, by rw [hself, hmain]; exact hpos⟩, ?_⟩
      unfold polls
      simp only [hself, hphase, if_neg hseen]
      decide
  | getBlock => exact .inl (hprogress (.inl (by rw [hphase]; decide)))
  | copying i => exact .inl (hprogress (.inl (by rw [hphase]; exact Nat.succ_ne_zero _)))
  | release => exact .inl (hprogress (.inl (by rw [hphase]; decide)))

/-! ## Steps of the main thread -/

/-- What a step of the main thread does. -/
inductive MainMove (s s' : Program H j.config) : Prop
  | forward (pos : s'.threads.main.pos = s.threads.main.pos)
    (progress : s.threads.main.phase.progress s.loaded < s'.threads.main.phase.progress s'.loaded)
  | next (phase : s.threads.main.phase = .resetBunchId) (pos : s'.threads.main.pos = s.threads.main.pos + 1)
    (poll : s'.threads.main.phase = .poll)
  | polls (phase : s.threads.main.phase = .poll)
    (full : s.threads.assembler.isSlotFull (j.block s.threads.main.pos) = false) (same : s' = s)

theorem Inv.main_moves (hj : s.threads.main.pos < j.nBlocks) : ∃ s', step j (.thread .main) s = some s' ∧
    s'.threads.readers = s.threads.readers ∧ MainMove s s' := by
  refine ⟨_, if_pos ⟨h.aborted, hj⟩, ?_⟩
  have hloaded := h.loaded_le
  have haborted := (h.mainStep hj).aborted
  unfold Program.mainStep at haborted ⊢
  cases hphase : s.threads.main.phase with
  | poll =>
    simp only
    unfold SfWriter.mainStep
    rw [hphase]
    by_cases hfull : s.threads.assembler.isSlotFull (j.block s.threads.main.pos) = true
    · simp only [if_pos hfull]
      refine ⟨trivial, .forward rfl ?_⟩
      rw [hphase]
      exact Nat.zero_lt_one
    · simp only [if_neg hfull]
      exact ⟨trivial, .polls hphase (Bool.eq_false_iff.2 hfull) rfl⟩
  | getMetadata =>
    simp only
    unfold SfWriter.mainStep
    rw [hphase]
    refine ⟨rfl, .forward rfl ?_⟩
    rw [hphase]
    show 1 < s.loaded + 2
    omega
  | write =>
    simp only [hphase] at haborted ⊢
    by_cases hlt : s.loaded < bufferBlockSize
    · rw [if_pos hlt]
      refine ⟨rfl, .forward rfl ?_⟩
      unfold loadImage
      simp only [hphase]
      exact Nat.lt_succ_self _
    · rw [if_neg hlt] at haborted ⊢
      cases hwrite : s.writer.write (s.threads.assembler.metaBuffer (slotId (j.block s.threads.main.pos)))
          ⟨⟨s.data⟩, j.data_fits⟩ with
      | error e =>
        rw [hwrite] at haborted
        cases haborted
      | ok w =>
        simp only
        unfold SfWriter.mainStep
        rw [hphase]
        refine ⟨rfl, .forward rfl ?_⟩
        rw [hphase]
        show s.loaded + 2 < bufferBlockSize + 3
        omega
  | resetStatus =>
    simp only
    unfold SfWriter.mainStep
    rw [hphase]
    refine ⟨rfl, .forward rfl ?_⟩
    rw [hphase]
    exact Nat.lt_succ_self _
  | resetBunchId =>
    simp only
    unfold SfWriter.mainStep
    rw [hphase]
    exact ⟨rfl, .next hphase rfl rfl⟩

/-- A step of the main thread that does not poll lowers what it has left. -/
theorem Inv.main_work_lt (hj : s.threads.main.pos < j.nBlocks) (hmove : MainMove s s')
    (hmoves : s.threads.main.phase ≠ .poll ∨ s.threads.assembler.isSlotFull (j.block s.threads.main.pos) = true) :
    s'.threads.main.work j.nBlocks s'.loaded < s.threads.main.work j.nBlocks s.loaded := by
  have hround := s.threads.main.phase.progress_lt h.loaded_le
  have hleft : s.threads.main.phase.progress s.loaded < (j.nBlocks - s.threads.main.pos) * (bufferBlockSize + 5) :=
    hround.trans_le (Nat.le_mul_of_pos_left _ (by omega))
  unfold MainThread.work
  cases hmove with
  | forward pos progress =>
    rw [pos]
    omega
  | next phase pos poll =>
    rw [pos, phase, poll]
    obtain ⟨d, hd⟩ : ∃ d, j.nBlocks - s.threads.main.pos = d + 1 := ⟨j.nBlocks - (s.threads.main.pos + 1), by omega⟩
    rw [← Nat.sub_sub, hd, Nat.add_sub_cancel, Nat.succ_mul]
    show d * (bufferBlockSize + 5) - 0 < d * (bufferBlockSize + 5) + (bufferBlockSize + 5) - (bufferBlockSize + 4)
    omega
  | polls phase full same =>
    rcases hmoves with hne | hfull
    · exact absurd phase hne
    · rw [full] at hfull
      cases hfull

/-- When all readers are past the block the main thread does not wait. -/
theorem Inv.main_helps (hall : ∀ m < j.config.nModules.toNat, s.threads.main.pos < (s.threads.readers m).pos)
    (hdone : ¬ Done s) : ∃ s', step j (.thread .main) s = some s' ∧ work s' < work s := by
  have hj := h.notDone hdone
  obtain ⟨s', hstep, hreaders, hmove⟩ := h.main_moves hj
  refine ⟨s', hstep, work_main_lt hreaders (h.main_work_lt hj hmove ?_)⟩
  by_cases hpoll : s.threads.main.phase = .poll
  · exact .inr ((SfWriter.reachable_inv h.threads).slotFull hj hpoll hall)
  · exact .inl hpoll

/-! ## Steps of the others -/

/-- A step of the main thread does not hold up a reader at its block. -/
theorem Inv.main_other {m : Nat} (hm : m < j.config.nModules.toNat)
    (hpos : (s.threads.readers m).pos = s.threads.main.pos) (hstep : step j (.thread .main) s = some s') :
    work s' ≤ work s ∧ Helps s' (.thread (.reader m)) ∧
      polls s' (.thread (.reader m)) ≤ polls s (.thread (.reader m)) := by
  have hj : s.threads.main.pos < j.nBlocks := by
    by_contra hge
    have hcond : ¬ (s.aborted = none ∧ s.threads.main.pos < j.nBlocks) := fun hc => hge hc.2
    have hnone : step j (.thread .main) s = none := if_neg hcond
    rw [hnone] at hstep
    cases hstep
  obtain ⟨s₁, hstep₁, hreaders, hmove⟩ := h.main_moves hj
  obtain rfl : s₁ = s' := Option.some.inj (hstep₁.symm.trans hstep)
  have hpoll := h.polling hm hpos
  have hreader : (s₁.threads.readers m) = s.threads.readers m := congrFun hreaders m
  have hpolls : polls s₁ (.thread (.reader m)) ≤ polls s (.thread (.reader m)) := by
    unfold polls
    simp only [hreader, le_refl]
  cases hmove with
  | forward pos progress =>
    have hlt : s₁.threads.main.work j.nBlocks s₁.loaded < s.threads.main.work j.nBlocks s.loaded := by
      refine h.main_work_lt hj (.forward pos progress) (.inr ?_)
      by_contra hfull
      -- a poll that fails changes nothing
      have hsame : s.mainStep (j.block s.threads.main.pos) = s := by
        unfold Program.mainStep SfWriter.mainStep
        rw [hpoll]
        simp only [if_neg hfull]
      have hs₁ : s₁ = s := by
        have hcond : step j (.thread .main) s = some (s.mainStep (j.block s.threads.main.pos)) := if_pos ⟨h.aborted, hj⟩
        rw [hcond, hsame] at hstep
        exact (Option.some.inj hstep).symm
      rw [hs₁] at progress
      exact Nat.lt_irrefl _ progress
    exact ⟨(work_main_lt hreaders hlt).le, ⟨hm, by rw [hreader, pos]; exact hpos⟩, hpolls⟩
  | next phase pos poll =>
    rw [hpoll] at phase
    cases phase
  | polls phase full same =>
    rw [same]
    exact ⟨le_refl _, ⟨hm, hpos⟩, le_refl _⟩

theorem Inv.reader_other {m : Nat} (hstep : step j (.thread (.reader m)) s = some s') :
    work s' ≤ work s ∧ s'.threads.main = s.threads.main ∧
      (∀ q, q ≠ m → s'.threads.readers q = s.threads.readers q) ∧
      (s.threads.readers m).pos ≤ (s'.threads.readers m).pos := by
  by_cases hcond : s.aborted = none ∧ m < j.config.nModules.toNat ∧ (s.threads.readers m).pos < j.nBlocks
  · obtain ⟨s₁, hstep₁, hmove, -, hother, hmain, hloaded⟩ := h.reader_moves hcond.2.1 hcond.2.2
    obtain rfl : s₁ = s' := Option.some.inj (hstep₁.symm.trans hstep)
    exact ⟨work_reader_le hother hmain hloaded (hmove.work_le hcond.2.2), hmain, hother, hmove.pos_le⟩
  · have hnone : step j (.thread (.reader m)) s = none := if_neg hcond
    rw [hnone] at hstep
    cases hstep

/-- A step of another thread, or of a buffer writer, does not hold up a thread that helps. -/
theorem Inv.others {t a : Action} (hhelps : Helps s t) (hne : a ≠ t) (hstep : step j a s = some s') :
    work s' < work s ∨ work s' ≤ work s ∧ Helps s' t ∧ polls s' t ≤ polls s t := by
  have hstore : ∀ m pulseId record, a = .store m pulseId record → s'.threads = s.threads ∧ s'.loaded = s.loaded := by
    rintro m pulseId record rfl
    unfold step at hstep
    simp only at hstep
    split at hstep
    · cases hstep
    · obtain rfl := Option.some.inj hstep
      exact ⟨rfl, rfl⟩
  have hsame : s'.threads = s.threads ∧ s'.loaded = s.loaded →
      work s' ≤ work s ∧ Helps s' t ∧ polls s' t ≤ polls s t := by
    rintro ⟨hthreads, hloaded⟩
    refine ⟨?_, ?_, ?_⟩
    · unfold work
      rw [hthreads, hloaded]
    · unfold Helps at hhelps ⊢
      rw [hthreads]
      exact hhelps
    · unfold polls
      rw [hthreads]
  cases a with
  | store n pulseId record => exact .inr (hsame (hstore n pulseId record rfl))
  | thread b =>
    cases t with
    | store n pulseId record => exact hhelps.elim
    | thread t =>
      cases t with
      | main =>
        cases b with
        | main => exact absurd rfl hne
        | reader n =>
          obtain ⟨hwork, hmain, hother, hpos⟩ := h.reader_other hstep
          refine .inr ⟨hwork, fun q hq => ?_, le_refl _⟩
          have hold := hhelps q hq
          rw [hmain]
          by_cases hqn : q = n
          · subst hqn
            omega
          · rw [hother q hqn]
            exact hold
      | reader m =>
        obtain ⟨hm, hpos⟩ := hhelps
        cases b with
        | main => exact .inr (h.main_other hm hpos hstep)
        | reader n =>
          have hmn : m ≠ n := fun heq => hne (heq ▸ rfl)
          obtain ⟨hwork, hmain, hother, -⟩ := h.reader_other hstep
          have hreader := hother m hmn
          refine .inr ⟨hwork, ⟨hm, by rw [hreader, hmain]; exact hpos⟩, ?_⟩
          unfold polls
          simp only [hreader, le_refl]

end

/-! ## Termination -/

theorem helps (j : Retrieval) (ws : Nat → List (UInt64 × BufferBinaryFormat)) (old : Nat → ImageMetadataBlock)
    (start : JFH5Writer H j.config) : Fairness.Helps (step j) (threadActions j) (Inv j ws old start) Done work
      (fun a s => polls s a) (fun a s => Helps s a) where
  keep _ _ _ h hstep := step_inv h hstep
  some_helps _ h _ := h.some_helps
  moves t s h hdone hhelps := by
    cases t with
    | store m pulseId record => exact hhelps.elim
    | thread t =>
      cases t with
      | main =>
        obtain ⟨s', hstep, hlt⟩ := h.main_helps hhelps hdone
        exact ⟨s', hstep, .inl hlt⟩
      | reader m => exact h.reader_helps hhelps.1 hhelps.2 hdone
  others _ _ _ _ h _ hhelps hne hstep := h.others hhelps hne hstep

/-- Some schedule leads to the end. -/
theorem exists_schedule {s : Program H j.config} (h : Program.Reachable j ws old start s) :
    ∃ schedule n, Done (states (step j) schedule s n) := by
  have hfair := fair_roundRobin (Action.thread .main :: (List.range j.config.nModules.toNat).map fun m => .thread (.reader m))
    (Action.thread .main)
  have hfair' : Fair (threadActions j) (roundRobin (Action.thread .main ::
      (List.range j.config.nModules.toNat).map fun m => Action.thread (.reader m)) (Action.thread .main)) := by
    intro t ht
    apply hfair t
    rcases ht with rfl | ⟨m, hm, rfl⟩
    · exact List.mem_cons_self ..
    · exact List.mem_cons_of_mem _ (List.mem_map_of_mem (List.mem_range.2 hm))
  exact ⟨_, (helps j ws old start).eventually hfair' (reachable_inv h)⟩

theorem exists_done {s : Program H j.config} (h : Program.Reachable j ws old start s) :
    ∃ s', Program.Reachable j ws old start s' ∧ Done s' := by
  obtain ⟨schedule, n, hdone⟩ := exists_schedule h
  exact ⟨_, states_reachable h n, hdone⟩

end Program

/-- Under every schedule that gives each thread its turn again and again, whatever the buffer writers do in
between, `sf_writer` writes all blocks. -/
theorem terminates_fair {H : Hdf5} {j : Retrieval} {ws : Nat → List (UInt64 × BufferBinaryFormat)}
    {old : Nat → ImageMetadataBlock} {start : JFH5Writer H j.config} {s : Program H j.config}
    (h : Program.Reachable j ws old start s) {schedule : Nat → Program.Action}
    (hfair : Fair (Program.threadActions j) schedule) :
    ∃ n, Program.Done (states (Program.step j) schedule s n) :=
  (Program.helps j ws old start).eventually hfair (Program.reachable_inv h)

/-- Every second pulse from 198 to 202, in two blocks of two modules. -/
def twoBlocksConfig : WriterConfig := ⟨2, 198, 202, 2, 3, 5⟩

theorem twoBlocksConfig_ranged : Ranged twoBlocksConfig :=
  ⟨⟨by decide, by decide, by decide, by decide, by decide⟩, by decide, by decide⟩

theorem twoBlocks_fits : writerIaNSlots * (bufferBlockSize * moduleNBytes * twoBlocksConfig.nModules.toNat) < 2 ^ 64 := by
  decide

theorem twoBlocks_start_le : bufferBlockSize ≤ twoBlocksConfig.startPulseId.toNat := by decide

theorem twoBlocks_nModules_pos : 1 ≤ twoBlocksConfig.nModules.toNat := by decide

def twoBlocks : Retrieval :=
  ⟨"/buffer/JF02", twoBlocksConfig, twoBlocksConfig_ranged, twoBlocks_start_le, twoBlocks_nModules_pos, twoBlocks_fits⟩

/-- A frame of pulse `p` with all packets, whose bytes are the number of its module. -/
def frameOf (p : UInt64) (m : Nat) : BufferBinaryFormat :=
  ⟨formatMarkerValue, ⟨p, p, 0, 128, UInt64.ofNat m⟩, fun _ => UInt8.ofNat m⟩

/-- Both modules write the pulses of the images. -/
def twoBlocksCalls : List ClientCall :=
  [198, 200, 202].flatMap fun p => [.write 0 p (frameOf p 0), .write 1 p (frameOf p 1)]

theorem twoBlocks_init (H : Hdf5) : Program.Init twoBlocks (fun m => moduleWrites m twoBlocksCalls)
    (fun _ => Program.zeroMetadata) (Program.newWriter H twoBlocksConfig)
    (Program.start H twoBlocks emptyDisk twoBlocksCalls) := by
  refine Program.init_start H twoBlocks (fun _ _ => rfl) fun m hm k hk => ?_
  have hfile : ∀ k < 2, BufferUtils.fileBase (twoBlocks.block k * UInt64.ofNat bufferBlockSize) = 0 := by decide
  rw [hfile k hk]
  have hm : m < 2 := hm
  interval_cases m
  · exact ⟨(198, frameOf 198 0), List.mem_cons_self .., rfl⟩
  · exact ⟨(198, frameOf 198 1), List.mem_cons_self .., rfl⟩

/-- The threads take turns. -/
theorem terminates_fair_twoBlocks : ∃ n, Program.Done (states (Program.step twoBlocks)
    (roundRobin [.thread .main, .thread (.reader 0), .thread (.reader 1)] (.thread .main))
    (Program.start Hdf5.rows twoBlocks emptyDisk twoBlocksCalls) n) := by
  refine terminates_fair (.init (twoBlocks_init Hdf5.rows)) fun t ht => fair_roundRobin _ _ t ?_
  have hreaders : ∀ m < 2, Program.Action.thread (.reader m) ∈
      [Program.Action.thread .main, .thread (.reader 0), .thread (.reader 1)] := by
    intro m hm
    interval_cases m <;> simp
  rcases ht with rfl | ⟨m, hm, rfl⟩
  · exact List.mem_cons_self ..
  · exact hreaders m hm

end SfDaqBuffer.SfWriter
