/-
The threads of `sf_writer` export what the sequential program would: in every interleaving no call fails,
and the writer is that of a loop which reads the blocks of all modules one after the other, assembles
them and writes them. What `get_metadata_buffer` leaves in a slot is part of that loop.
-/
import SfDaqBuffer.SfWriter.BlockHistory
import SfDaqBuffer.SfWriter.Program

namespace SfDaqBuffer.SfWriter

open CoreBuffer DiskBuffer ImageAssembler
open SfUtils (deviceName)

/-! ## The sequential program -/

/-- What the buffer files hold of a block of a module, in the zeroed memory of a reading thread. -/
def stored (ws : Nat → List (UInt64 × BufferBinaryFormat)) (blockId : UInt64) (m : Nat) : BufferBinaryBlock :=
  ⟨fun i => lastRecord (ws m) (bufferBlockSize * blockId.toNat + i), 0⟩

section

variable (c : Request)

/-- The metadata of the frames of pulse `i` in block `k`. -/
def pulseFrames (k : Nat) (i : Fin bufferBlockSize) : List ModuleFrame :=
  (List.range c.nModules).map fun m => ((c.getBlock (c.block k) m).frame i).metadata

/-- `get_metadata_buffer` for pulse `i` of block `k`, in a slot whose last use left `old`. -/
def mergedImage (old : ImageMetadataBlock) (k : Nat) (i : Fin bufferBlockSize) : PulseMeta :=
  mergeFrames (old.frameIndex i) (old.daqRec i) (pulseFrames c k i)

/-- `get_metadata_buffer` for block `k`. -/
def mergedBlock (old : ImageMetadataBlock) (k : Nat) : ImageMetadataBlock where
  pulseId i := (mergedImage c old k i).pulseId
  frameIndex i := (mergedImage c old k i).frameIndex
  daqRec i := (mergedImage c old k i).daqRec
  isGoodImage i := (mergedImage c old k i).isGoodImage
  blockStartPulseId := c.block k * UInt64.ofNat bufferBlockSize
  blockStopPulseId := c.block k * UInt64.ofNat bufferBlockSize + UInt64.ofNat bufferBlockSize - 1

/-- The image metadata of the slots after the first `k` blocks were assembled one after the other. -/
def metaAfter (old : Nat → ImageMetadataBlock) : Nat → Nat → ImageMetadataBlock
  | 0 => old
  | k + 1 => Function.update (metaAfter old k) (c.slot k) (mergedBlock c (metaAfter old k (c.slot k)) k)

/-- The image metadata of block `k` in that order. -/
def assembledMeta (old : Nat → ImageMetadataBlock) (k : Nat) : ImageMetadataBlock :=
  mergedBlock c (metaAfter c old k (c.slot k)) k

theorem byteInModule_lt (a : Nat) : a % moduleNBytes < moduleNBytes := Nat.mod_lt _ (by decide)

/-- Byte `a` of the images of block `k`: pulse by pulse, and module by module in an image. -/
def blockByte (k a : Nat) : UInt8 :=
  let tile := a / moduleNBytes
  if h : tile / c.nModules < bufferBlockSize then
    ((c.getBlock (c.block k) (tile % c.nModules)).frame ⟨tile / c.nModules, h⟩).data ⟨a % moduleNBytes, byteInModule_lt a⟩
  else 0

end

/-- What `write` gets of each block in the sequential program. -/
def Retrieval.blocks (j : Retrieval) (getBlock : UInt64 → Nat → BufferBinaryBlock) (old : Nat → ImageMetadataBlock) :
    Blocks j.config := fun b =>
  (assembledMeta (j.request getBlock) old (b - j.startBlock),
    ⟨⟨blockByte (j.request getBlock) (b - j.startBlock)⟩, j.data_fits⟩)

/-! ## The metadata of the slots -/

section

variable {c : Request} {s s' : State}

/-- The blocks that were assembled. -/
def assembledBlocks (s : State) : Nat :=
  match s.main.phase with
  | .poll | .getMetadata => s.main.pos
  | .write | .resetStatus | .resetBunchId => s.main.pos + 1

/-- The blocks that were written. -/
def writtenBlocks (s : State) : Nat :=
  match s.main.phase with
  | .poll | .getMetadata | .write => s.main.pos
  | .resetStatus | .resetBunchId => s.main.pos + 1

/-- What a step of a reader leaves as it is. -/
structure ReaderFrame (m : Nat) (s s' : State) : Prop where
  main : s'.main = s.main
  metaBuffer : s'.assembler.metaBuffer = s.assembler.metaBuffer
  others : ∀ q, q ≠ m → s'.readers q = s.readers q

theorem readerStep_frame (c : Request) (m : Nat) (s : State) (r : Reader) (b : UInt64) :
    ReaderFrame m s (readerStep c m s r b) := by
  unfold readerStep
  cases r.phase with
  | acquire =>
    unfold tryAcquire
    by_cases hempty : s.assembler.bufferBunchId (slotId b) = iaEmptySlotValue
    · simp only [if_pos hempty]
      exact ⟨rfl, rfl, fun q hq => s.setReader_other hq _⟩
    · simp only [if_neg hempty]
      exact ⟨rfl, rfl, fun q hq => s.setReader_other hq _⟩
  | checkStatus seen =>
    simp only
    split
    · exact ⟨rfl, rfl, fun q hq => s.setReader_other hq _⟩
    · exact ⟨rfl, rfl, fun q hq => s.setReader_other hq _⟩
  | getBlock => exact ⟨rfl, rfl, fun q hq => s.setReader_other hq _⟩
  | copying i =>
    have hmeta := copyFrame_metaBuffer s.assembler b m r.blockBuffer i
    simp only
    generalize s.assembler.copyFrame b m r.blockBuffer i = ia at hmeta ⊢
    exact ⟨rfl, hmeta, fun q hq => s.setReader_other hq _⟩
  | release => exact ⟨rfl, rfl, fun q hq => s.setReader_other hq _⟩

/-- The blocks of the request matter to `get_block` only, and only it changes the block buffer. -/
theorem readerStep_request {d : Request} {m : Nat} {r : Reader} {b : UInt64} (h : r.phase ≠ .getBlock) :
    readerStep d m s r b = readerStep c m s r b ∧ ((readerStep c m s r b).readers m).blockBuffer = r.blockBuffer := by
  unfold readerStep
  cases hphase : r.phase with
  | acquire =>
    unfold tryAcquire
    by_cases hempty : s.assembler.bufferBunchId (slotId b) = iaEmptySlotValue
    · simp only [if_pos hempty, State.setReader_self, and_self]
    · simp only [if_neg hempty, State.setReader_self, and_self]
  | checkStatus seen =>
    simp only
    split
    · simp only [State.setReader_self, and_self]
    · simp only [State.setReader_self, and_self]
  | getBlock => exact absurd hphase h
  | copying i => simp only [State.setReader_self, and_self]
  | release => simp only [State.setReader_self, and_self]

/-- What the main thread finds in the slot it assembles. -/
theorem getMetadataBuffer_merged (hr : Reachable c s) (hphase : s.main.phase = .getMetadata) :
    (s.assembler.getMetadataBuffer (c.block s.main.pos)).1 =
      mergedBlock c (s.assembler.metaBuffer (c.slot s.main.pos)) s.main.pos := by
  have hj := ((reachable_inv hr).reading (by rw [hphase]; decide)).1
  have himage : ∀ i, s.assembler.mergePulse (slotId (c.block s.main.pos)) i =
      mergedImage c (s.assembler.metaBuffer (c.slot s.main.pos)) s.main.pos i := by
    intro i
    rw [mergePulse_eq, gathered hr hphase rfl i, slotId_block hj]
    rfl
  unfold getMetadataBuffer mergedBlock
  simp only [himage]

/-- The slots hold what the sequential program would have in them. -/
def MetasAssembled (c : Request) (old : Nat → ImageMetadataBlock) (s : State) : Prop :=
  s.assembler.metaBuffer = metaAfter c old (assembledBlocks s)

variable {old : Nat → ImageMetadataBlock}

theorem assembledBlocks_congr (h : s'.main = s.main) : assembledBlocks s' = assembledBlocks s := by
  unfold assembledBlocks
  rw [h]

theorem metas_step {t : Thread} (hr : Reachable c s) (h : MetasAssembled c old s) (hstep : step c t s = some s') :
    MetasAssembled c old s' := by
  unfold MetasAssembled at h ⊢
  cases t with
  | reader m =>
    simp only [step] at hstep
    split at hstep
    · obtain rfl := Option.some.inj hstep
      have hframe := readerStep_frame c m s (s.readers m) (c.block (s.readers m).pos)
      rw [hframe.metaBuffer, assembledBlocks_congr hframe.main]
      exact h
    · cases hstep
  | main =>
    simp only [step] at hstep
    split at hstep
    · rename_i hj
      obtain rfl := Option.some.inj hstep
      unfold mainStep
      cases hphase : s.main.phase with
      | poll =>
        unfold assembledBlocks at h
        rw [hphase] at h
        simp only
        split
        · exact h
        · unfold assembledBlocks
          rw [hphase]
          exact h
      | getMetadata =>
        have hmerged := getMetadataBuffer_merged hr hphase
        unfold assembledBlocks at h
        rw [hphase] at h
        simp only at h
        show Function.update s.assembler.metaBuffer (slotId (c.block s.main.pos))
          (s.assembler.getMetadataBuffer (c.block s.main.pos)).1 = metaAfter c old (s.main.pos + 1)
        rw [hmerged, slotId_block hj, h]
        rfl
      | write =>
        unfold assembledBlocks at h
        rw [hphase] at h
        exact h
      | resetStatus =>
        unfold assembledBlocks at h
        rw [hphase] at h
        exact h
      | resetBunchId =>
        unfold assembledBlocks at h
        rw [hphase] at h
        exact h
    · cases hstep

/-- The metadata of a block while it is written. -/
theorem MetasAssembled.block (h : MetasAssembled c old s) (hphase : s.main.phase = .write) :
    s.assembler.metaBuffer (c.slot s.main.pos) = assembledMeta c old s.main.pos := by
  unfold MetasAssembled assembledBlocks at h
  rw [hphase] at h
  rw [h]
  exact Function.update_self ..

end

/-! ## The images of a slot -/

/-- Byte `r` of the tile of a module in an image. -/
theorem tile_position {n bytes i m r : Nat} (hm : m < n) (hr : r < bytes) :
    (i * (bytes * n) + (m * bytes + r)) / bytes / n = i ∧ (i * (bytes * n) + (m * bytes + r)) / bytes % n = m ∧
      (i * (bytes * n) + (m * bytes + r)) % bytes = r := by
  have hbytes : 0 < bytes := by omega
  have hsplit : i * (bytes * n) + (m * bytes + r) = bytes * (n * i + m) + r := by ring
  have htile : (i * (bytes * n) + (m * bytes + r)) / bytes = n * i + m := by
    rw [hsplit, Nat.mul_add_div hbytes, Nat.div_eq_of_lt hr, Nat.add_zero]
  rw [htile]
  refine ⟨?_, ?_, ?_⟩
  · rw [Nat.mul_add_div (by omega), Nat.div_eq_of_lt hm, Nat.add_zero]
  · rw [Nat.mul_add_mod, Nat.mod_eq_of_lt hm]
  · rw [hsplit, Nat.mul_add_mod, Nat.mod_eq_of_lt hr]

theorem blockByte_tile (c : Request) (k : Nat) (i : Fin bufferBlockSize) {m : Nat} (hm : m < c.nModules)
    (r : Fin moduleNBytes) : blockByte c k (i * (moduleNBytes * c.nModules) + (m * moduleNBytes + r)) =
      ((c.getBlock (c.block k) m).frame i).data r := by
  obtain ⟨himage, hmodule, hbyte⟩ := tile_position (i := i) hm r.2
  unfold blockByte
  simp only [himage, hmodule, hbyte, i.2, dite_true, Fin.eta]

/-- While the main thread works on a block its slot has the images of the block. -/
theorem slot_images {c : Request} {s : State} (hr : Reachable c s) (hpoll : s.main.phase ≠ .poll)
    (i : Fin bufferBlockSize) {x : Nat} (hx : x < moduleNBytes * c.nModules) :
    s.assembler.imageBuffer (s.assembler.getDataBuffer (c.block s.main.pos) + i * (moduleNBytes * c.nModules) + x) =
      blockByte c s.main.pos (i * (moduleNBytes * c.nModules) + x) := by
  have h := reachable_inv hr
  have hcur := h.slots s.main.pos ⟨le_refl _, Nat.le_succ _⟩
  obtain ⟨hj, hall⟩ := h.reading hpoll
  have hm : x / moduleNBytes < c.nModules := Nat.div_lt_of_lt_mul hx
  have hbyte : x % moduleNBytes < moduleNBytes := byteInModule_lt x
  have hsplit : x = x / moduleNBytes * moduleNBytes + x % moduleNBytes := (Nat.div_add_mod' x moduleNBytes).symm
  have hcell := congrFun (hcur.cells _ hm i (.inl (hall _ hm))).2 ⟨x % moduleNBytes, hbyte⟩
  unfold cellData Memory.read imageOffset getDataOffset imageBufferSlotNBytes at hcell
  rw [h.nModules] at hcell
  unfold getDataBuffer imageBufferSlotNBytes
  rw [h.nModules, slotId_block hj]
  have htile := blockByte_tile c s.main.pos i hm ⟨x % moduleNBytes, hbyte⟩
  simp only at htile hcell
  rw [← hsplit] at htile
  have haddress : ∀ u v q r : Nat, x = q + r → u + v + x = u + q + v + r := by omega
  rw [htile, ← hcell, haddress _ _ _ _ hsplit]

end SfDaqBuffer.SfWriter
