/-
`JFH5Writer` of sf-writer: the check of the pulse_id range, the arrays of the metadata of all
pulses, and `write`, which copies the metadata of a block and writes every `pulse_id_step`-th image
of it.
-/
import SfDaqBuffer.SfWriter.Hdf5
import SfDaqBuffer.SfWriter.ImageAssembler

namespace SfDaqBuffer.SfWriter

open Memory

/-! ## The range of pulses -/

/-- The step is an `int`; it is converted where it meets an unsigned pulse_id. -/
def getNPulsesInRange (startPulseId stopPulseId : UInt64) (pulseIdStep : Int32) : Except Fault UInt64 :=
  let step := UInt64.ofInt pulseIdStep.toInt
  let nPulses := 1 + stopPulseId / step - startPulseId / step
  if stopPulseId < startPulseId then .error (.threw "stop_pulse_id smaller than start_pulse_id.")
  else if pulseIdStep = 0 then .error .divisionByZero
  else if (100 : Int).tmod pulseIdStep.toInt ≠ 0 then
    .error (.threw "100 is not divisible by the pulse_id_step.")
  else if startPulseId % step ≠ 0 then .error (.threw "start_pulse_id not divisible by pulse_id_step.")
  else if stopPulseId % step ≠ 0 then .error (.threw "stop_pulse_id not divisible by pulse_id_step.")
  else if nPulses = 0 then .error (.threw "Zero pulses to write in given range.")
  else .ok nPulses

/-- The constant members of the writer. -/
structure WriterConfig where
  nModules : UInt64
  startPulseId : UInt64
  stopPulseId : UInt64
  pulseIdStep : UInt64
  nImages : UInt64
  nTotalPulses : UInt64

/-- The initializers of the constructor. -/
def WriterConfig.new (nModules startPulseId stopPulseId pulseIdStep : UInt64) : Except Fault WriterConfig := do
  let nImages ← getNPulsesInRange startPulseId stopPulseId pulseIdStep.toUInt32.toInt32
  return ⟨nModules, startPulseId, stopPulseId, pulseIdStep, nImages, stopPulseId - startPulseId + 1⟩

/-! ## State -/

/-- `MODULE_N_BYTES * n_modules_`. -/
def imageNBytes (nModules : UInt64) : UInt64 := UInt64.ofNat moduleNBytes * nModules

/-- The pixels of one image. -/
abbrev Image (nModules : UInt64) := Fin (imageNBytes nModules).toNat → UInt8

/-- The data of a block: its images one after the other. No object has `2^64` bytes. -/
structure BlockData (nModules : UInt64) where
  pixels : Region UInt8 (bufferBlockSize * (imageNBytes nModules).toNat)
  fits : bufferBlockSize * (imageNBytes nModules).toNat < 2 ^ 64

structure JFH5Writer (H : Hdf5) (c : WriterConfig) where
  metaWriteIndex : UInt64
  dataWriteIndex : UInt64
  imageDataset : H.Dataset (Image c.nModules)
  bPulseId : Region UInt64 c.nTotalPulses.toNat
  bFrameIndex : Region UInt64 c.nTotalPulses.toNat
  bDaqRec : Region UInt32 c.nTotalPulses.toNat
  bIsGoodFrame : Region UInt8 c.nTotalPulses.toNat

namespace JFH5Writer

variable {H : Hdf5} {c : WriterConfig}

/-- The writer after its constructor; the arrays are not initialized. -/
def new (bPulseId bFrameIndex : Region UInt64 c.nTotalPulses.toNat) (bDaqRec : Region UInt32 c.nTotalPulses.toNat)
    (bIsGoodFrame : Region UInt8 c.nTotalPulses.toNat) : JFH5Writer H c :=
  ⟨0, 0, H.create _ c.nImages, bPulseId, bFrameIndex, bDaqRec, bIsGoodFrame⟩

/-! ## Writing a block -/

/-- `n_images_offset`. -/
def nImagesOffset (c : WriterConfig) (metadata : ImageMetadataBlock) : UInt64 :=
  if c.startPulseId > metadata.blockStartPulseId then c.startPulseId - metadata.blockStartPulseId else 0

/-- `n_images_to_copy`. -/
def nImagesToCopy (c : WriterConfig) (metadata : ImageMetadataBlock) : UInt64 :=
  let n := UInt64.ofNat bufferBlockSize - nImagesOffset c metadata
  if c.stopPulseId < metadata.blockStopPulseId then n - (metadata.blockStopPulseId - c.stopPulseId) else n

/-- The writer with other images. -/
def setImages (w : JFH5Writer H c) (imageDataset : H.Dataset (Image c.nModules)) (dataWriteIndex : UInt64) :
    JFH5Writer H c :=
  { w with imageDataset := imageDataset, dataWriteIndex := dataWriteIndex }

/-- The writer after an image went to the dataset. -/
def appendImage (w : JFH5Writer H c) (image : Image c.nModules) : JFH5Writer H c :=
  w.setImages (H.writeChunk w.imageDataset w.dataWriteIndex image) (w.dataWriteIndex + 1)

/-- The loop over the images: `n` rounds from `iImage` on. -/
def writeImages (data : BlockData c.nModules) :
    Nat → UInt64 → JFH5Writer H c → Except Fault (JFH5Writer H c)
  | 0, _, w => .ok w
  | n + 1, iImage, w =>
    if iImage % c.pulseIdStep ≠ 0 then writeImages data n (iImage + 1) w
    else
      let dataOffset := iImage * UInt64.ofNat moduleNBytes * c.nModules
      match data.pixels.load dataOffset.toNat (imageNBytes c.nModules).toNat with
      | none => .error .outOfBounds
      | some image => writeImages data n (iImage + 1) (w.appendImage image)

/-- `writeImages` with the size of a module as a variable: unfolding it computes nothing. -/
def writeImagesOf (nBytes : UInt64) (data : BlockData c.nModules) :
    Nat → UInt64 → JFH5Writer H c → Except Fault (JFH5Writer H c)
  | 0, _, w => .ok w
  | n + 1, iImage, w =>
    if iImage % c.pulseIdStep ≠ 0 then writeImagesOf nBytes data n (iImage + 1) w
    else
      let dataOffset := iImage * nBytes * c.nModules
      match data.pixels.load dataOffset.toNat (imageNBytes c.nModules).toNat with
      | none => .error .outOfBounds
      | some image => writeImagesOf nBytes data n (iImage + 1) (w.appendImage image)

theorem writeImages_eq (data : BlockData c.nModules) :
    @writeImages H c data = writeImagesOf (UInt64.ofNat moduleNBytes) data := by
  delta writeImages writeImagesOf
  rfl

theorem writeImages_succ (data : BlockData c.nModules) (n : Nat) (iImage : UInt64) (w : JFH5Writer H c) :
    writeImages data (n + 1) iImage w =
      if iImage % c.pulseIdStep ≠ 0 then writeImages data n (iImage + 1) w
      else
        match data.pixels.load (iImage * UInt64.ofNat moduleNBytes * c.nModules).toNat
          (imageNBytes c.nModules).toNat with
        | none => .error .outOfBounds
        | some image => writeImages data n (iImage + 1) (w.appendImage image) := by
  rw [writeImages_eq, writeImagesOf]

/-- `memcpy` of `n` entries of a block from `offset` on to an array of the writer. -/
def copyEntries {α : Type} {size : Nat} (array : Region α size) (index : UInt64)
    (entries : Fin bufferBlockSize → α) (offset n : UInt64) : Except Fault (Region α size) :=
  if h : offset.toNat + n.toNat ≤ bufferBlockSize then
    match array.store index.toNat fun i : Fin n.toNat => entries ⟨offset.toNat + i, by omega⟩ with
    | none => .error .outOfBounds
    | some array => .ok array
  else .error .outOfBounds

/-- The four copies at the end of `write`. -/
def copyMetadata (w : JFH5Writer H c) (metadata : ImageMetadataBlock) (offset n : UInt64) :
    Except Fault (JFH5Writer H c) := do
  let bPulseId ← copyEntries w.bPulseId w.metaWriteIndex metadata.pulseId offset n
  let bFrameIndex ← copyEntries w.bFrameIndex w.metaWriteIndex metadata.frameIndex offset n
  let bDaqRec ← copyEntries w.bDaqRec w.metaWriteIndex metadata.daqRec offset n
  let bIsGoodFrame ← copyEntries w.bIsGoodFrame w.metaWriteIndex metadata.isGoodImage offset n
  return ⟨w.metaWriteIndex + n, w.dataWriteIndex, w.imageDataset, bPulseId, bFrameIndex, bDaqRec, bIsGoodFrame⟩

def write (w : JFH5Writer H c) (metadata : ImageMetadataBlock) (data : BlockData c.nModules) :
    Except Fault (JFH5Writer H c) :=
  let offset := nImagesOffset c metadata
  let n := nImagesToCopy c metadata
  if offset > UInt64.ofNat bufferBlockSize then
    .error (.threw "Received unexpected block for start_pulse_id.")
  else if n < 1 then .error (.threw "Received unexpected block for stop_pulse_id.")
  else do
    -- the bound of the loop is a sum that wraps
    let rounds := if offset < offset + n then n.toNat else 0
    let w ← writeImages data rounds offset w
    w.copyMetadata metadata offset n

/-! ## Closing the file -/

/-- The datasets of `write_metadata`. -/
structure MetadataDatasets (H : Hdf5) where
  pulseId : H.Dataset UInt64
  frameIndex : H.Dataset UInt64
  daqRec : H.Dataset UInt32
  isGoodFrame : H.Dataset UInt8

/-- `b_m_space` after `selectHyperslab`. -/
def metadataSelection (c : WriterConfig) : Hyperslab where
  dims := c.nTotalPulses
  count := c.nImages
  start := 0
  stride := c.pulseIdStep

def writeMetadata (w : JFH5Writer H c) : MetadataDatasets H where
  pulseId := H.writeSelected (H.create _ c.nImages) (metadataSelection c) w.bPulseId.cell
  frameIndex := H.writeSelected (H.create _ c.nImages) (metadataSelection c) w.bFrameIndex.cell
  daqRec := H.writeSelected (H.create _ c.nImages) (metadataSelection c) w.bDaqRec.cell
  isGoodFrame := H.writeSelected (H.create _ c.nImages) (metadataSelection c) w.bIsGoodFrame.cell

end JFH5Writer

end SfDaqBuffer.SfWriter
