/-
A run of `sf_writer`: the reading threads with their `BufferBinaryReader`, the main thread with its
`JFH5Writer`, and the disk, on which the buffer writers of the detector go on writing other pulses. The
images of a block are loaded from the image buffer one step each.
-/
import SfDaqBuffer.DiskBuffer.Clients
import SfDaqBuffer.SfWriter.Alignment
import SfDaqBuffer.SfWriter.Threads

namespace SfDaqBuffer.SfWriter

open CoreBuffer DiskBuffer ImageAssembler
open SfUtils (deviceName)

/-! ## The request -/

/-- What `sf_writer` is asked for, once the range is rounded and accepted. No block has the number that
marks an empty slot, and the image buffer could be allocated. -/
structure Retrieval where
  detectorFolder : String
  config : WriterConfig
  ranged : Ranged config
  start_le : bufferBlockSize ≤ config.startPulseId.toNat
  nModules_pos : 1 ≤ config.nModules.toNat
  fits : writerIaNSlots * (bufferBlockSize * moduleNBytes * config.nModules.toNat) < 2 ^ 64

namespace Retrieval

variable (j : Retrieval)

/-- `start_block`. -/
def startBlock : Nat := j.config.startPulseId.toNat / bufferBlockSize

/-- The length of `buffer_blocks`. -/
def nBlocks : Nat := j.config.stopPulseId.toNat / bufferBlockSize + 1 - j.startBlock

theorem startBlock_pos : 1 ≤ j.startBlock := (Nat.one_le_div_iff (by decide)).2 j.start_le

theorem startBlock_le : j.startBlock ≤ j.config.stopPulseId.toNat / bufferBlockSize :=
  Nat.div_le_div_right j.ranged.le

theorem blocks_lt : j.startBlock + j.nBlocks ≤ 2 ^ 64 := by
  have hle := j.startBlock_le
  have hstop := j.config.stopPulseId.toNat_lt
  unfold nBlocks
  simp only [bufferBlockSize] at hle ⊢
  omega

/-- The threads of the run, where `get_block` delivers `getBlock`. -/
def request (getBlock : UInt64 → Nat → BufferBinaryBlock) : Request where
  nModules := j.config.nModules.toNat
  firstBlock := j.startBlock
  nBlocks := j.nBlocks
  getBlock := getBlock
  nModules_pos := j.nModules_pos
  firstBlock_pos := j.startBlock_pos
  blocks_lt := j.blocks_lt

/-- `buffer_blocks[k]`. -/
def block (k : Nat) : UInt64 := UInt64.ofNat (j.startBlock + k)

/-- The bytes of an image. -/
theorem imageNBytes_toNat : (imageNBytes j.config.nModules).toNat = moduleNBytes * j.config.nModules.toNat := by
  have hsize : (UInt64.ofNat moduleNBytes).toNat = moduleNBytes := rfl
  have hfits := j.fits
  simp only [writerIaNSlots, bufferBlockSize] at hfits
  unfold imageNBytes
  rw [UInt64.toNat_mul, hsize]
  exact Nat.mod_eq_of_lt (by simp only [moduleNBytes] at hfits ⊢; omega)

theorem data_fits : bufferBlockSize * (imageNBytes j.config.nModules).toNat < 2 ^ 64 := by
  have hfits := j.fits
  rw [j.imageNBytes_toNat]
  simp only [writerIaNSlots, bufferBlockSize, moduleNBytes] at hfits ⊢
  omega

end Retrieval

/-! ## State -/

/-- The threads of the program, the disk with all its users, the images of the block that `write` has
loaded so far, the writer, and the exception that ended the program. -/
structure Program (H : Hdf5) (c : WriterConfig) where
  threads : State
  clients : Clients
  loaded : Nat
  data : Nat → UInt8
  writer : JFH5Writer H c
  aborted : Option Fault

namespace Program

variable {H : Hdf5} {j : Retrieval}

/-! ## Steps -/

theorem bufferBlockSize_pos : 0 < bufferBlockSize := by decide

/-- The step of a reading thread at block `b`. Nothing catches the exceptions of `get_block`. -/
def readerStep (j : Retrieval) (m : Nat) (s : Program H j.config) (r : Reader) (b : UInt64) : Program H j.config :=
  if r.phase = .getBlock then
    match s.clients.getBlock m b r.blockBuffer with
    | (.error e, _, clients) => { s with clients := clients, aborted := some (.threw e) }
    | (.ok (), block, clients) =>
      { s with
        clients := clients
        threads := s.threads.setReader m { r with phase := .copying ⟨0, bufferBlockSize_pos⟩, blockBuffer := block } }
  -- the blocks of the request are those of `get_block` only
  else { s with threads := SfWriter.readerStep (j.request fun _ _ => emptyBlock) m s.threads r b }

/-- One image of the block goes from the image buffer to `write`. -/
def loadImage (s : Program H j.config) (b : UInt64) : Program H j.config :=
  let imageBytes := (imageNBytes j.config.nModules).toNat
  let image := Memory.read s.threads.assembler.imageBuffer
    (s.threads.assembler.getDataBuffer b + s.loaded * imageBytes) imageBytes
  { s with data := Memory.write s.data (s.loaded * imageBytes) image, loaded := s.loaded + 1 }

/-- The step of the main thread at block `b`. -/
def mainStep (s : Program H j.config) (b : UInt64) : Program H j.config :=
  match s.threads.main.phase with
  | .write =>
    if s.loaded < bufferBlockSize then s.loadImage b
    else
      match s.writer.write (s.threads.assembler.metaBuffer (slotId b)) ⟨⟨s.data⟩, j.data_fits⟩ with
      | .error e => { s with aborted := some e }
      | .ok writer =>
        { s with writer := writer, loaded := 0, data := fun _ => 0, threads := SfWriter.mainStep s.threads b }
  | _ => { s with threads := SfWriter.mainStep s.threads b }

/-- `store` is a write of the buffer writer of a module. -/
inductive Action
  | thread (t : Thread)
  | store (iModule : Nat) (pulseId : UInt64) (record : BufferBinaryFormat)

/-- The pulses of the blocks that are read. -/
def Reads (j : Retrieval) (p : Nat) : Prop :=
  j.startBlock ≤ p / bufferBlockSize ∧ p / bufferBlockSize < j.startBlock + j.nBlocks

instance (j : Retrieval) (p : Nat) : Decidable (Reads j p) := inferInstanceAs (Decidable (_ ∧ _))

/-- One step. The buffer writers write no pulse of the blocks that are read. -/
def step (j : Retrieval) (a : Action) (s : Program H j.config) : Option (Program H j.config) :=
  match a with
  | .thread (.reader m) =>
    if s.aborted = none ∧ m < j.config.nModules.toNat ∧ (s.threads.readers m).pos < j.nBlocks then
      some (readerStep j m s (s.threads.readers m) (j.block (s.threads.readers m).pos))
    else none
  | .thread .main =>
    if s.aborted = none ∧ s.threads.main.pos < j.nBlocks then some (s.mainStep (j.block s.threads.main.pos)) else none
  | .store m pulseId record =>
    if Reads j pulseId.toNat then none else some { s with clients := s.clients.write m pulseId record }

/-- The start of the program: since there were no files the buffer writers have written `ws`, the files of
the blocks exist, and `old` is what is in the memory of the image metadata. -/
structure Init (j : Retrieval) (ws : Nat → List (UInt64 × BufferBinaryFormat)) (old : Nat → ImageMetadataBlock)
    (start : JFH5Writer H j.config) (s : Program H j.config) : Prop where
  threads : SfWriter.Init (j.request fun _ _ => emptyBlock) s.threads
  metaBuffer : s.threads.assembler.metaBuffer = old
  blockBuffer : ∀ m, (s.threads.readers m).blockBuffer.startPulseId = 0
  clients : ∃ disk calls,
    (∀ m p, disk.file (BufferUtils.getFilename j.detectorFolder (deviceName m) p) = none) ∧
      s.clients = calls.foldl Clients.perform (.start j.detectorFolder disk) ∧ ws = fun m => moduleWrites m calls
  files : ∀ m < j.config.nModules.toNat, ∀ k < j.nBlocks, ∃ f, s.clients.disk.file
    (BufferUtils.getFilename j.detectorFolder (deviceName m) (j.block k * UInt64.ofNat bufferBlockSize)) = some f
  loaded : s.loaded = 0
  data : s.data = fun _ => 0
  writer : s.writer = start
  new : ∃ bPulseId bFrameIndex bDaqRec bIsGoodFrame, start = .new bPulseId bFrameIndex bDaqRec bIsGoodFrame
  aborted : s.aborted = none

abbrev Reachable (j : Retrieval) (ws : Nat → List (UInt64 × BufferBinaryFormat)) (old : Nat → ImageMetadataBlock)
    (start : JFH5Writer H j.config) : Program H j.config → Prop :=
  Runs.Reachable (Init j ws old start) (step j)

/-- Metadata in zeroed memory. -/
def zeroMetadata : ImageMetadataBlock := ⟨fun _ => 0, fun _ => 0, fun _ => 0, fun _ => 0, 0, 0⟩

/-- A writer with zeroed arrays. -/
def newWriter (H : Hdf5) (c : WriterConfig) : JFH5Writer H c := .new ⟨fun _ => 0⟩ ⟨fun _ => 0⟩ ⟨fun _ => 0⟩ ⟨fun _ => 0⟩

/-- The program at its start in zeroed memory, on the buffer that `calls` left. -/
def start (H : Hdf5) (j : Retrieval) (disk : Posix.Disk) (calls : List ClientCall) : Program H j.config where
  threads := {
    assembler := .new j.config.nModules.toNat (fun _ => 0) (fun _ => zeroMetadata) (fun _ => ⟨0, 0, 0, 0, 0⟩)
      (fun _ => 0) (fun _ => 0)
    readers := fun _ => ⟨0, .acquire, emptyBlock⟩
    main := ⟨0, .poll⟩
    processed := fun _ => [] }
  clients := calls.foldl Clients.perform (.start j.detectorFolder disk)
  loaded := 0
  data := fun _ => 0
  writer := newWriter H j.config
  aborted := none

theorem init_start (H : Hdf5) (j : Retrieval) {disk : Posix.Disk} {calls : List ClientCall}
    (hempty : ∀ m p, disk.file (BufferUtils.getFilename j.detectorFolder (deviceName m) p) = none)
    (hwritten : ∀ m < j.config.nModules.toNat, ∀ k < j.nBlocks, ∃ w ∈ moduleWrites m calls,
      BufferUtils.fileBase w.1 = BufferUtils.fileBase (j.block k * UInt64.ofNat bufferBlockSize)) :
    Init j (fun m => moduleWrites m calls) (fun _ => zeroMetadata) (newWriter H j.config) (start H j disk calls) := by
  refine ⟨⟨⟨_, _, _, _, _, rfl⟩, fun _ => ⟨rfl, rfl⟩, rfl, fun _ => rfl⟩, rfl, fun _ => rfl, ⟨disk, calls, hempty, rfl, rfl⟩,
    fun m hm k hk => ?_, rfl, rfl, rfl, ⟨_, _, _, _, rfl⟩, rfl⟩
  obtain ⟨w, hw, hbase⟩ := hwritten m hm k hk
  obtain ⟨f, hf⟩ := ((ClientsOk.after hempty calls).holds m).written w hw
  rw [BufferUtils.getFilename_inj.2 hbase] at hf
  exact ⟨f, hf⟩

end Program

end SfDaqBuffer.SfWriter
