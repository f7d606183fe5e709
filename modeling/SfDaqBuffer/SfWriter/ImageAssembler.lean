/-
`ImageAssembler` of sf-writer: two slots of module blocks in flat memory, a status counter and a
bunch_id for each slot. The operations that several threads run at the same time are given by
their atomic parts.
-/
import SfDaqBuffer.Core.Formats

namespace SfDaqBuffer.SfWriter

abbrev writerIaNSlots : Nat := 2
abbrev iaEmptySlotValue : UInt64 := 0

structure ImageMetadataBlock where
  pulseId : Fin bufferBlockSize → UInt64
  frameIndex : Fin bufferBlockSize → UInt64
  daqRec : Fin bufferBlockSize → UInt32
  isGoodImage : Fin bufferBlockSize → UInt8
  blockStartPulseId : UInt64
  blockStopPulseId : UInt64

structure ImageAssembler where
  nModules : Nat
  imageBuffer : Nat → UInt8
  metaBuffer : Nat → ImageMetadataBlock
  frameMetaBuffer : Nat → ModuleFrame
  bufferStatus : Nat → Int
  bufferBunchId : Nat → UInt64

namespace ImageAssembler

def slotId (bunchId : UInt64) : Nat := bunchId.toNat % writerIaNSlots

/-! ## Acquiring and releasing a slot -/

/-- The compare-exchange of `is_slot_free`: whether it stored `bunchId`, and the value it saw. -/
def tryAcquire (ia : ImageAssembler) (bunchId : UInt64) : Bool × UInt64 × ImageAssembler :=
  let seen := ia.bufferBunchId (slotId bunchId)
  if seen = iaEmptySlotValue then
    (true, seen, { ia with bufferBunchId := Function.update ia.bufferBunchId (slotId bunchId) bunchId })
  else (false, seen, ia)

/-- The status load of `is_slot_free`, after the compare-exchange saw `slotBunchId`. -/
def isFreeFor (ia : ImageAssembler) (bunchId slotBunchId : UInt64) : Bool :=
  0 < ia.bufferStatus (slotId bunchId) && slotBunchId == bunchId

/-- `is_slot_free` with no other thread between its two parts. -/
def isSlotFree (ia : ImageAssembler) (bunchId : UInt64) : Bool × ImageAssembler :=
  let (acquired, slotBunchId, ia) := ia.tryAcquire bunchId
  (acquired || ia.isFreeFor bunchId slotBunchId, ia)

def isSlotFull (ia : ImageAssembler) (bunchId : UInt64) : Bool := ia.bufferStatus (slotId bunchId) == 0

/-- The `fetch_sub` at the end of `process`. -/
def releaseModule (ia : ImageAssembler) (bunchId : UInt64) : ImageAssembler :=
  let left := ia.bufferStatus (slotId bunchId) - 1
  { ia with bufferStatus := Function.update ia.bufferStatus (slotId bunchId) left }

/-- The first store of `free_slot`. -/
def resetStatus (ia : ImageAssembler) (bunchId : UInt64) : ImageAssembler :=
  { ia with bufferStatus := Function.update ia.bufferStatus (slotId bunchId) ia.nModules }

/-- The second store of `free_slot`. -/
def resetBunchId (ia : ImageAssembler) (bunchId : UInt64) : ImageAssembler :=
  { ia with bufferBunchId := Function.update ia.bufferBunchId (slotId bunchId) iaEmptySlotValue }

def freeSlot (ia : ImageAssembler) (bunchId : UInt64) : ImageAssembler :=
  (ia.resetStatus bunchId).resetBunchId bunchId

/-- The assembler after its constructor; the buffers are not initialized. -/
def new (nModules : Nat) (imageBuffer : Nat → UInt8) (metaBuffer : Nat → ImageMetadataBlock)
    (frameMetaBuffer : Nat → ModuleFrame) (bufferStatus : Nat → Int) (bufferBunchId : Nat → UInt64) :
    ImageAssembler :=
  (List.range writerIaNSlots).foldl (fun ia i => ia.freeSlot (UInt64.ofNat i))
    ⟨nModules, imageBuffer, metaBuffer, frameMetaBuffer, bufferStatus, bufferBunchId⟩

/-! ## Offsets -/

def imageBufferSlotNBytes (ia : ImageAssembler) : Nat := bufferBlockSize * moduleNBytes * ia.nModules

def getDataOffset (ia : ImageAssembler) (slotId iModule : Nat) : Nat :=
  slotId * ia.imageBufferSlotNBytes + iModule * moduleNBytes

def getMetadataOffset (ia : ImageAssembler) (slotId iModule : Nat) : Nat :=
  slotId * (ia.nModules * bufferBlockSize) + iModule

/-- `image_offset` in round `i` of the loop of `process`. -/
def imageOffset (ia : ImageAssembler) (slotId iModule i : Nat) : Nat :=
  ia.getDataOffset slotId iModule + i * (moduleNBytes * ia.nModules)

/-- `meta_offset` in round `i` of the loop of `process`. -/
def metaOffset (ia : ImageAssembler) (slotId iModule i : Nat) : Nat :=
  ia.getMetadataOffset slotId iModule + i * ia.nModules

/-! ## Copying a block -/

/-- The assembler with other contents of the frame buffers. -/
def setFrameBuffers (ia : ImageAssembler) (frameMetaBuffer : Nat → ModuleFrame) (imageBuffer : Nat → UInt8) :
    ImageAssembler :=
  { ia with frameMetaBuffer := frameMetaBuffer, imageBuffer := imageBuffer }

/-- Round `i` of the loop of `process`. -/
def copyFrame (ia : ImageAssembler) (bunchId : UInt64) (iModule : Nat) (block : BufferBinaryBlock)
    (i : Fin bufferBlockSize) : ImageAssembler :=
  ia.setFrameBuffers
    (Function.update ia.frameMetaBuffer (ia.metaOffset (slotId bunchId) iModule i) (block.frame i).metadata)
    (Memory.write ia.imageBuffer (ia.imageOffset (slotId bunchId) iModule i) (block.frame i).data)

/-- `process` with no other thread between its steps. -/
def process (ia : ImageAssembler) (bunchId : UInt64) (iModule : Nat) (block : BufferBinaryBlock) : ImageAssembler :=
  ((List.finRange bufferBlockSize).foldl (fun ia i => ia.copyFrame bunchId iModule block i) ia).releaseModule bunchId

section

variable (ia : ImageAssembler) (frameMetaBuffer : Nat → ModuleFrame) (imageBuffer : Nat → UInt8)

theorem setFrameBuffers_nModules : (ia.setFrameBuffers frameMetaBuffer imageBuffer).nModules = ia.nModules := rfl

theorem setFrameBuffers_metaBuffer :
    (ia.setFrameBuffers frameMetaBuffer imageBuffer).metaBuffer = ia.metaBuffer := rfl

theorem setFrameBuffers_bufferStatus :
    (ia.setFrameBuffers frameMetaBuffer imageBuffer).bufferStatus = ia.bufferStatus := rfl

theorem setFrameBuffers_bufferBunchId :
    (ia.setFrameBuffers frameMetaBuffer imageBuffer).bufferBunchId = ia.bufferBunchId := rfl

theorem setFrameBuffers_frameMetaBuffer :
    (ia.setFrameBuffers frameMetaBuffer imageBuffer).frameMetaBuffer = frameMetaBuffer := rfl

theorem setFrameBuffers_imageBuffer :
    (ia.setFrameBuffers frameMetaBuffer imageBuffer).imageBuffer = imageBuffer := rfl

variable (bunchId : UInt64) (iModule : Nat) (block : BufferBinaryBlock) (i : Fin bufferBlockSize)

@[simp] theorem copyFrame_nModules : (ia.copyFrame bunchId iModule block i).nModules = ia.nModules :=
  setFrameBuffers_nModules ..

@[simp] theorem copyFrame_metaBuffer : (ia.copyFrame bunchId iModule block i).metaBuffer = ia.metaBuffer :=
  setFrameBuffers_metaBuffer ..

@[simp] theorem copyFrame_bufferStatus :
    (ia.copyFrame bunchId iModule block i).bufferStatus = ia.bufferStatus :=
  setFrameBuffers_bufferStatus ..

@[simp] theorem copyFrame_bufferBunchId :
    (ia.copyFrame bunchId iModule block i).bufferBunchId = ia.bufferBunchId :=
  setFrameBuffers_bufferBunchId ..

@[simp] theorem metaOffset_copyFrame (slotId iModule' i' : Nat) :
    (ia.copyFrame bunchId iModule block i).metaOffset slotId iModule' i' =
      ia.metaOffset slotId iModule' i' := by
  unfold metaOffset getMetadataOffset
  rw [copyFrame_nModules]

@[simp] theorem imageOffset_copyFrame (slotId iModule' i' : Nat) :
    (ia.copyFrame bunchId iModule block i).imageOffset slotId iModule' i' =
      ia.imageOffset slotId iModule' i' := by
  unfold imageOffset getDataOffset imageBufferSlotNBytes
  rw [copyFrame_nModules]

end

/-! ## Image metadata -/

/-- The entries of one pulse in the image metadata. -/
structure PulseMeta where
  pulseId : UInt64
  frameIndex : UInt64
  daqRec : UInt32
  isGoodImage : UInt8

/-- One round of the module loop of `get_metadata_buffer`, with `is_pulse_init`. -/
def mergeModule (state : Bool × PulseMeta) (frameMeta : ModuleFrame) : Bool × PulseMeta :=
  let (isPulseInit, image) := state
  if frameMeta.nRecvPackets.toNat ≠ jfNPacketsPerFrame then (isPulseInit, { image with isGoodImage := 0 })
  else
    let image := if isPulseInit then image
      else { image with
        pulseId := frameMeta.pulseId
        frameIndex := frameMeta.frameIndex
        daqRec := frameMeta.daqRec.toUInt32 }
    let image := if image.isGoodImage = 1 ∧ (frameMeta.pulseId ≠ image.pulseId ∨
        frameMeta.frameIndex ≠ image.frameIndex ∨ frameMeta.nRecvPackets.toNat ≠ jfNPacketsPerFrame)
      then { image with isGoodImage := 0 } else image
    (true, image)

/-- The module loop for one pulse; what no module sets keeps the value of the slot's last use. -/
def mergePulse (ia : ImageAssembler) (slotId : Nat) (i : Fin bufferBlockSize) : PulseMeta :=
  let old := ia.metaBuffer slotId
  ((List.range ia.nModules).foldl
    (fun state iModule => mergeModule state (ia.frameMetaBuffer (ia.metaOffset slotId iModule i)))
    (false, ⟨0, old.frameIndex i, old.daqRec i, 1⟩)).2

def getMetadataBuffer (ia : ImageAssembler) (bunchId : UInt64) : ImageMetadataBlock × ImageAssembler :=
  let slotId := slotId bunchId
  let startPulseId := bunchId * UInt64.ofNat bufferBlockSize
  let block : ImageMetadataBlock :=
    { pulseId := fun i => (ia.mergePulse slotId i).pulseId
      frameIndex := fun i => (ia.mergePulse slotId i).frameIndex
      daqRec := fun i => (ia.mergePulse slotId i).daqRec
      isGoodImage := fun i => (ia.mergePulse slotId i).isGoodImage
      blockStartPulseId := startPulseId
      blockStopPulseId := startPulseId + UInt64.ofNat bufferBlockSize - 1 }
  (block, { ia with metaBuffer := Function.update ia.metaBuffer slotId block })

/-- `get_data_buffer`, as an offset in the image buffer. -/
def getDataBuffer (ia : ImageAssembler) (bunchId : UInt64) : Nat := slotId bunchId * ia.imageBufferSlotNBytes

/-! ## The cells of a slot -/

/-- The metadata of frame `i` of a module in a slot. -/
def cellMeta (ia : ImageAssembler) (slotId iModule : Nat) (i : Fin bufferBlockSize) : ModuleFrame :=
  ia.frameMetaBuffer (ia.metaOffset slotId iModule i)

/-- The pixels of frame `i` of a module in a slot. -/
def cellData (ia : ImageAssembler) (slotId iModule : Nat) (i : Fin bufferBlockSize) : ModuleData :=
  Memory.read ia.imageBuffer (ia.imageOffset slotId iModule i) moduleNBytes

/-- Cells are numbered slot by slot, in a slot pulse by pulse. -/
theorem metaOffset_eq (ia : ImageAssembler) (slotId iModule i : Nat) :
    ia.metaOffset slotId iModule i = ia.nModules * (slotId * bufferBlockSize + i) + iModule := by
  unfold metaOffset getMetadataOffset
  ring

theorem imageOffset_eq (ia : ImageAssembler) (slotId iModule i : Nat) :
    ia.imageOffset slotId iModule i = ia.metaOffset slotId iModule i * moduleNBytes := by
  unfold imageOffset getDataOffset imageBufferSlotNBytes metaOffset getMetadataOffset
  ring

/-- Distinct cells have distinct numbers. -/
theorem metaOffset_inj {ia : ImageAssembler} {slotId slotId' iModule iModule' : Nat}
    {i i' : Fin bufferBlockSize} (hm : iModule < ia.nModules) (hm' : iModule' < ia.nModules)
    (h : ia.metaOffset slotId iModule i = ia.metaOffset slotId' iModule' i') :
    slotId = slotId' ∧ iModule = iModule' ∧ i = i' := by
  rw [metaOffset_eq, metaOffset_eq] at h
  obtain ⟨hrow, hcol⟩ := Memory.rowMajor_inj hm hm' h
  have hi := i.2
  have hi' := i'.2
  simp only [bufferBlockSize] at hrow hi hi'
  refine ⟨by omega, hcol, Fin.ext (by omega)⟩

/-- Copying a frame fills its cell. -/
theorem cell_copyFrame_same (ia : ImageAssembler) (bunchId : UInt64) (iModule : Nat)
    (block : BufferBinaryBlock) (i : Fin bufferBlockSize) :
    (ia.copyFrame bunchId iModule block i).cellMeta (slotId bunchId) iModule i = (block.frame i).metadata ∧
    (ia.copyFrame bunchId iModule block i).cellData (slotId bunchId) iModule i = (block.frame i).data := by
  unfold cellMeta cellData
  rw [metaOffset_copyFrame, imageOffset_copyFrame]
  unfold copyFrame
  rw [setFrameBuffers_frameMetaBuffer, setFrameBuffers_imageBuffer]
  exact ⟨Function.update_self .., Memory.read_write_same ..⟩

/-- Copying a frame leaves the other cells unchanged. -/
theorem cell_copyFrame_other {ia : ImageAssembler} {bunchId : UInt64} {iModule iModule' slotId' : Nat}
    (block : BufferBinaryBlock) {i i' : Fin bufferBlockSize} (hm : iModule < ia.nModules)
    (hm' : iModule' < ia.nModules) (hne : ¬ (slotId' = slotId bunchId ∧ iModule' = iModule ∧ i' = i)) :
    (ia.copyFrame bunchId iModule block i).cellMeta slotId' iModule' i' = ia.cellMeta slotId' iModule' i' ∧
    (ia.copyFrame bunchId iModule block i).cellData slotId' iModule' i' = ia.cellData slotId' iModule' i' := by
  have hoff : ia.metaOffset slotId' iModule' i' ≠ ia.metaOffset (slotId bunchId) iModule i :=
    fun h => hne (metaOffset_inj hm' hm h)
  have hdis := Memory.cells_disjoint (n := moduleNBytes) hoff
  rw [← imageOffset_eq, ← imageOffset_eq] at hdis
  unfold cellMeta cellData
  rw [metaOffset_copyFrame, imageOffset_copyFrame]
  unfold copyFrame
  rw [setFrameBuffers_frameMetaBuffer, setFrameBuffers_imageBuffer]
  exact ⟨Function.update_of_ne hoff .., Memory.read_write_disjoint _ _ _ hdis⟩

end ImageAssembler

end SfDaqBuffer.SfWriter
