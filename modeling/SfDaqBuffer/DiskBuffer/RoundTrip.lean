/-
The round trip through the disk buffer: after any calls of a writer and a reader of one module, each
block that is read holds the last frame written for each of its pulses.
-/
import SfDaqBuffer.DiskBuffer.Contents

namespace SfDaqBuffer.DiskBuffer

open Posix CoreBuffer BufferUtils BufferWriter SfWriter
open BufferBinaryWriter (recordOffset)

/-! ## Sessions -/

/-- A call of the writer or of the reader of a module. -/
inductive DiskCall
  | write (pulseId : UInt64) (record : BufferBinaryFormat)
  | getBlock (blockId : UInt64)

structure Session where
  writer : BufferBinaryWriter
  reader : BufferBinaryReader
  block : BufferBinaryBlock
  disk : Disk

namespace Session

def start (detectorFolder moduleName : String) (block : BufferBinaryBlock) (disk : Disk) : Session :=
  ⟨.new detectorFolder moduleName, .new detectorFolder moduleName, block, disk⟩

/-- One call; an exception goes to a caller that carries on. -/
def perform (s : Session) : DiskCall → Session
  | .write pulseId record =>
    let (_, writer, disk) := s.writer.write Disk.os pulseId record s.disk
    { s with writer := writer, disk := disk }
  | .getBlock blockId =>
    let (_, reader, block, disk) := s.reader.getBlock Disk.os blockId s.block s.disk
    { s with reader := reader, block := block, disk := disk }

end Session

/-- The frames written by some calls. -/
def writesOf (calls : List DiskCall) : List (UInt64 × BufferBinaryFormat) :=
  calls.filterMap fun
    | .write pulseId record => some (pulseId, record)
    | .getBlock _ => none

/-! ## The invariant -/

/-- Writer and reader use descriptors of their own, and the files hold what was written. -/
structure SessionOk (detectorFolder moduleName : String) (ws : List (UInt64 × BufferBinaryFormat)) (s : Session) :
    Prop where
  writerFolder : s.writer.detectorFolder = detectorFolder
  writerModule : s.writer.moduleName = moduleName
  readerFolder : s.reader.detectorFolder = detectorFolder
  readerModule : s.reader.moduleName = moduleName
  holds : DiskHolds detectorFolder moduleName ws s.disk
  writer : Attached s.writer s.disk
  reader : ReaderAttached s.reader s.disk
  apart : s.writer.outputFileFd = s.reader.inputFileFd → s.writer.outputFileFd = -1

section

variable {detectorFolder moduleName : String} {ws : List (UInt64 × BufferBinaryFormat)} {s : Session}

theorem SessionOk.start (block : BufferBinaryBlock) {disk : Disk}
    (hnew : ∀ p, disk.file (getFilename detectorFolder moduleName p) = none) :
    SessionOk detectorFolder moduleName [] (.start detectorFolder moduleName block disk) where
  writerFolder := rfl
  writerModule := rfl
  readerFolder := rfl
  readerModule := rfl
  holds := diskHolds_nil hnew
  writer := ⟨rfl, .inl ⟨rfl, rfl⟩⟩
  reader := .inl ⟨rfl, rfl⟩
  apart _ := rfl

theorem SessionOk.write (h : SessionOk detectorFolder moduleName ws s) (pulseId : UInt64) (record : BufferBinaryFormat) :
    SessionOk detectorFolder moduleName (ws ++ [(pulseId, record)]) (s.perform (.write pulseId record)) := by
  obtain ⟨rfl, rfl, hfolder, hmodule, hholds, hwriter, hreader, hapart⟩ := h
  obtain ⟨fd, d', hwrite, hholds', hwriter', hother⟩ := hholds.write hwriter pulseId record
  simp only [Session.perform, hwrite]
  rcases hreader with ⟨hclosed, hname⟩ | hopen
  · exact ⟨rfl, rfl, hfolder, hmodule, hholds', hwriter', .inl ⟨hclosed, hname⟩, fun heq => heq.trans hclosed⟩
  · have hnonneg := hopen.nonneg
    obtain ⟨hne, hopen'⟩ := hother _ _ hopen (by omega)
    exact ⟨rfl, rfl, hfolder, hmodule, hholds', hwriter', .inr hopen', fun heq => absurd heq.symm hne⟩

theorem SessionOk.getBlock (h : SessionOk detectorFolder moduleName ws s) (blockId : UInt64) :
    SessionOk detectorFolder moduleName ws (s.perform (.getBlock blockId)) := by
  obtain ⟨hwfolder, hwmodule, hfolder, hmodule, hholds, ⟨hlatest, hwriter⟩, hreader, hapart⟩ := h
  have hpos : BlockPosition s.reader blockId _ _ := ⟨rfl, rfl⟩
  obtain ⟨result, r', block, d', hread, hreads, -⟩ := getBlock_disk hreader hpos s.block
  have hfile := hreads.file
  have hholds' : DiskHolds detectorFolder moduleName ws d' :=
    ⟨by rw [hfile]; exact hholds.size, by rw [hfile]; exact hholds.record, by rw [hfile]; exact hholds.written⟩
  have hfolder' := hreads.folder.trans hfolder
  have hmodule' := hreads.module.trans hmodule
  simp only [Session.perform, hread]
  rcases hwriter with ⟨hclosed, hname⟩ | ⟨hname, hopen⟩
  · exact ⟨hwfolder, hwmodule, hfolder', hmodule', hholds', ⟨hlatest, .inl ⟨hclosed, hname⟩⟩, hreads.attached,
      fun _ => hclosed⟩
  · have hnonneg := hopen.nonneg
    obtain ⟨hne, hopen'⟩ := hreads.otherHandle _ _ hopen (by omega)
    exact ⟨hwfolder, hwmodule, hfolder', hmodule', hholds', ⟨hlatest, .inr ⟨hname, hopen'⟩⟩, hreads.attached,
      fun heq => absurd heq hne⟩

theorem SessionOk.perform (h : SessionOk detectorFolder moduleName ws s) (call : DiskCall) :
    SessionOk detectorFolder moduleName (ws ++ writesOf [call]) (s.perform call) := by
  cases call with
  | write pulseId record => exact h.write pulseId record
  | getBlock blockId =>
    have hnone : writesOf [.getBlock blockId] = [] := rfl
    rw [hnone, List.append_nil]
    exact h.getBlock blockId

theorem SessionOk.foldl : ∀ (calls : List DiskCall) {ws : List (UInt64 × BufferBinaryFormat)} {s : Session},
    SessionOk detectorFolder moduleName ws s →
      SessionOk detectorFolder moduleName (ws ++ writesOf calls) (calls.foldl Session.perform s)
  | [], ws, s, h => by
    have hnone : writesOf [] = [] := rfl
    rw [hnone, List.append_nil]
    exact h
  | call :: calls, ws, s, h => by
    have hsplit : writesOf (call :: calls) = writesOf [call] ++ writesOf calls := by
      unfold writesOf
      rw [← List.filterMap_append, List.singleton_append]
    rw [hsplit, ← List.append_assoc]
    exact SessionOk.foldl calls (h.perform call)

end

/-! ## Blocks -/

theorem blockStart_toNat {blockId : UInt64} (h : bufferBlockSize * blockId.toNat < 2 ^ 64) :
    (blockId * UInt64.ofNat bufferBlockSize).toNat = bufferBlockSize * blockId.toNat := by
  have hsize : (UInt64.ofNat bufferBlockSize).toNat = bufferBlockSize := rfl
  rw [UInt64.toNat_mul, hsize, Nat.mul_comm]
  exact Nat.mod_eq_of_lt h

/-- A block does not cross the end of a file. -/
theorem block_within {blockId : UInt64} (h : bufferBlockSize * blockId.toNat < 2 ^ 64) :
    (getFileFrameIndex (blockId * UInt64.ofNat bufferBlockSize)).toNat + bufferBlockSize ≤ fileMod := by
  rw [getFileFrameIndex_toNat, blockStart_toNat h]
  simp only [bufferBlockSize, fileMod]
  omega

/-- The pulses of a block follow each other in one file. -/
theorem block_position {blockId p : UInt64} (detectorFolder moduleName : String) {i : Nat} (hi : i < bufferBlockSize)
    (hp : p.toNat = bufferBlockSize * blockId.toNat + i) :
    getFilename detectorFolder moduleName p =
        getFilename detectorFolder moduleName (blockId * UInt64.ofNat bufferBlockSize) ∧
      (getFileFrameIndex p).toNat = (getFileFrameIndex (blockId * UInt64.ofNat bufferBlockSize)).toNat + i := by
  have hlt := p.toNat_lt
  have hstart := @blockStart_toNat blockId (by omega)
  have hwithin := @block_within blockId (by omega)
  have hbase := fileBase_add_index (blockId * UInt64.ofNat bufferBlockSize)
  have hsame : fileBase p = fileBase (blockId * UInt64.ofNat bufferBlockSize) :=
    fileBase_of_eq_add
      (k := (getFileFrameIndex (blockId * UInt64.ofNat bufferBlockSize)).toNat + i) (by omega) (by omega)
  have hindex := fileBase_add_index p
  exact ⟨getFilename_inj.2 hsame, by omega⟩

/-! ## The round trip -/

/-- What can be read back after the writes `ws`. -/
structure RoundTrip (detectorFolder moduleName : String) (ws : List (UInt64 × BufferBinaryFormat)) (s : Session) :
    Prop where
  block : ∀ blockId : UInt64, bufferBlockSize * blockId.toNat < 2 ^ 64 →
    (∃ f, s.disk.file (getFilename detectorFolder moduleName (blockId * UInt64.ofNat bufferBlockSize)) = some f) →
      ∀ buffer, ∃ r block d, s.reader.getBlock Disk.os blockId buffer s.disk = (.ok (), r, block, d) ∧
        ∀ i, block.frame i = lastRecord ws (bufferBlockSize * blockId.toNat + i)
  file : ∀ w ∈ ws, ∃ f, s.disk.file (getFilename detectorFolder moduleName w.1) = some f
  oneFile : ∀ (blockId p : UInt64) (i : Nat), i < bufferBlockSize → p.toNat = bufferBlockSize * blockId.toNat + i →
    getFilename detectorFolder moduleName p =
        getFilename detectorFolder moduleName (blockId * UInt64.ofNat bufferBlockSize) ∧
      (getFileFrameIndex p).toNat = (getFileFrameIndex (blockId * UInt64.ofNat bufferBlockSize)).toNat + i
  mark : ∀ p, recordOffset p + sizeofBufferBinaryFormat ≤ maxFileBytes

theorem SessionOk.roundTrip {detectorFolder moduleName : String} {ws : List (UInt64 × BufferBinaryFormat)}
    {s : Session} (h : SessionOk detectorFolder moduleName ws s) : RoundTrip detectorFolder moduleName ws s where
  block blockId hblock := by
    rintro ⟨f, hf⟩ buffer
    obtain ⟨offset, hoffset⟩ : ∃ offset, offset =
      (getFileFrameIndex (blockId * UInt64.ofNat bufferBlockSize)).toNat * sizeofBufferBinaryFormat := ⟨_, rfl⟩
    have hpos : BlockPosition s.reader blockId
        (getFilename detectorFolder moduleName (blockId * UInt64.ofNat bufferBlockSize)) offset :=
      ⟨by rw [h.readerFolder, h.readerModule], hoffset⟩
    have hwithin := block_within hblock
    have hsize := h.holds.size _ f hf
    have hend : offset + sizeofBlockFrames ≤ maxFileBytes := by
      rw [hoffset, ← Nat.add_mul]
      exact Nat.mul_le_mul_right _ hwithin
    obtain ⟨result, r, block, d, hread, -, hfull⟩ := getBlock_disk h.reader hpos buffer
    obtain ⟨rfl, rfl⟩ := hfull f hf (hend.trans hsize.le)
    refine ⟨r, _, d, hread, fun i => ?_⟩
    have hi := i.2
    have hbase := fileBase_add_index (blockId * UInt64.ofNat bufferBlockSize)
    rw [blockStart_toNat hblock] at hbase
    rw [fillBlock_frame buffer f _ i hoffset, h.holds.record _ f hf _ (by omega), ← Nat.add_assoc, hbase]
  file := h.holds.written
  oneFile _ _ _ hi hp := block_position _ _ hi hp
  mark := recordOffset_within

/-- Whatever a writer and a reader of a module did with its files, which did not exist before: reading
a block delivers the last frame written for each pulse, and zeros where none was written. -/
theorem disk_round_trip (detectorFolder moduleName : String) (block : BufferBinaryBlock) (disk : Disk)
    (hnew : ∀ p, disk.file (getFilename detectorFolder moduleName p) = none) (calls : List DiskCall) :
    RoundTrip detectorFolder moduleName (writesOf calls)
      (calls.foldl Session.perform (.start detectorFolder moduleName block disk)) :=
  (SessionOk.foldl calls (SessionOk.start block hnew)).roundTrip

/-- Zeroed memory for a block. -/
def emptyBlock : BufferBinaryBlock := ⟨fun _ => .zero, 0⟩

/-- A disk without files. -/
def emptyDisk : Disk := ⟨fun _ => none, fun _ => none, 0⟩

/-- A frame of pulse 5. -/
def recordOfFive (frameIndex : UInt64) : BufferBinaryFormat := ⟨formatMarkerValue, ⟨5, frameIndex, 0, 128, 0⟩, fun _ => 0⟩

/-- Pulse 5 is written, then a frame to another file, then pulse 5 again: block 0 has the second frame
of pulse 5 and none of pulse 6. -/
theorem disk_round_trip_overwrite :
    ∃ s r block d, s = [.write 5 (recordOfFive 1), .getBlock 0, .write 1005 (recordOfFive 2),
        .write 5 (recordOfFive 3)].foldl Session.perform (.start "/buffer/JF01" "M00" emptyBlock emptyDisk) ∧
      s.reader.getBlock Disk.os 0 emptyBlock s.disk = (.ok (), r, block, d) ∧
      block.frame 5 = recordOfFive 3 ∧ block.frame 6 = .zero := by
  have h := disk_round_trip "/buffer/JF01" "M00" emptyBlock emptyDisk (fun _ => rfl)
    [.write 5 (recordOfFive 1), .getBlock 0, .write 1005 (recordOfFive 2), .write 5 (recordOfFive 3)]
  generalize List.foldl Session.perform _ _ = s at h ⊢
  have hfile := h.file (5, recordOfFive 1) (List.mem_cons_self ..)
  have hname : getFilename "/buffer/JF01" "M00" 5 =
      getFilename "/buffer/JF01" "M00" (0 * UInt64.ofNat bufferBlockSize) := getFilename_inj.2 rfl
  simp only [hname] at hfile
  obtain ⟨r, block, d, hread, hframe⟩ := h.block 0 (by decide) hfile emptyBlock
  exact ⟨s, r, block, d, rfl, hread, hframe 5, hframe 6⟩

end SfDaqBuffer.DiskBuffer
