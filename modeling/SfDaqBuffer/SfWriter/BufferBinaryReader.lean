/-
`BufferBinaryReader` of sf-writer: blocks of records read from the buffer files of a module.
-/
import SfDaqBuffer.CoreBuffer.BufferUtils

namespace SfDaqBuffer.SfWriter

open Posix CoreBuffer BufferUtils

structure BufferBinaryReader where
  detectorFolder : String
  moduleName : String
  currentInputFile : String
  inputFileFd : Int

/-- The records of a block in memory. -/
abbrev sizeofBlockFrames : Nat := bufferBlockSize * sizeofBufferBinaryFormat

theorem blockByte_lt (i : Fin bufferBlockSize) (j : Fin sizeofBufferBinaryFormat) :
    (i : Nat) * sizeofBufferBinaryFormat + j < sizeofBlockFrames :=
  calc (i : Nat) * sizeofBufferBinaryFormat + j < i * sizeofBufferBinaryFormat + sizeofBufferBinaryFormat :=
        Nat.add_lt_add_left j.2 _
    _ ≤ sizeofBlockFrames := Memory.cell_within i.2

/-- The block after its first `count` bytes received `bytes`. -/
def fillBlock (buffer : BufferBinaryBlock) (count : Nat) (bytes : Fin sizeofBlockFrames → UInt8) :
    BufferBinaryBlock :=
  { buffer with
    frame := fun i => .ofBytes fun j =>
      if (i : Nat) * sizeofBufferBinaryFormat + j < count then bytes ⟨_, blockByte_lt i j⟩
      else (buffer.frame i).toBytes j }

theorem frame_fillBlock (buffer : BufferBinaryBlock) (count : Nat) (bytes : Fin sizeofBlockFrames → UInt8)
    (i : Fin bufferBlockSize) :
    (fillBlock buffer count bytes).frame i = .ofBytes fun j =>
      if (i : Nat) * sizeofBufferBinaryFormat + j < count then bytes ⟨_, blockByte_lt i j⟩
      else (buffer.frame i).toBytes j := rfl

namespace BufferBinaryReader

def new (detectorFolder moduleName : String) : BufferBinaryReader := ⟨detectorFolder, moduleName, "", -1⟩

variable {σ : Type} (os : Os σ)

def closeCurrentFile (r : BufferBinaryReader) (s : σ) : Except String Unit × BufferBinaryReader × σ :=
  if r.inputFileFd ≠ -1 then
    let (result, s) := os.closeFile r.inputFileFd s
    if result < 0 then
      (.error ("[BinaryWriter::close_current_file] Error while closing file " ++ r.currentInputFile ++ ": " ++
        os.strerror s ++ "\n"), r, s)
    else (.ok (), { r with inputFileFd := -1, currentInputFile := "" }, s)
  else (.ok (), r, s)

def openFile (r : BufferBinaryReader) (filename : String) (s : σ) : Except String Unit × BufferBinaryReader × σ :=
  match r.closeCurrentFile os s with
  | (.error e, r, s) => (.error e, r, s)
  | (.ok (), r, s) =>
    let (fd, s) := os.openFile filename false s
    let r := { r with inputFileFd := fd }
    if fd < 0 then
      (.error ("[BufferBinaryReader::open_file] Cannot open file " ++ filename ++ ": " ++ os.strerror s ++ "\n"), r, s)
    else (.ok (), { r with currentInputFile := filename }, s)

/-- What follows in `get_block` once the file of the block is open. -/
def readBlock (r : BufferBinaryReader) (nBytesOffset : Nat) (buffer : BufferBinaryBlock) (s : σ) :
    Except String Unit × BufferBinaryReader × BufferBinaryBlock × σ :=
  let (sought, s) := os.lseek r.inputFileFd nBytesOffset s
  if sought < 0 then
    (.error ("[BufferBinaryReader::get_block] Error while lseek on file " ++ r.currentInputFile ++
      " for n_bytes_offset " ++ toString nBytesOffset ++ ": " ++ os.strerror s ++ "\n"), r, buffer, s)
  else
    let (nBytes, bytes, s) := os.read r.inputFileFd sizeofBlockFrames s
    let buffer := fillBlock buffer nBytes.toNat bytes
    -- the comparison is one of `size_t`
    if toSizeT nBytes < sizeofBufferBinaryFormat then
      (.error ("[BufferBinaryReader::get_block] Error while reading from file " ++ r.currentInputFile ++ ": " ++
        os.strerror s ++ "\n"), r, buffer, s)
    else (.ok (), r, buffer, s)

def getBlock (r : BufferBinaryReader) (blockId : UInt64) (buffer : BufferBinaryBlock) (s : σ) :
    Except String Unit × BufferBinaryReader × BufferBinaryBlock × σ :=
  let blockStartPulseId := blockId * UInt64.ofNat bufferBlockSize
  let currentBlockFile := getFilename r.detectorFolder r.moduleName blockStartPulseId
  let fileStartIndex := getFileFrameIndex blockStartPulseId
  let nBytesOffset := fileStartIndex.toNat * sizeofBufferBinaryFormat
  if currentBlockFile ≠ r.currentInputFile then
    match r.openFile os currentBlockFile s with
    | (.error e, r, s) => (.error e, r, buffer, s)
    | (.ok (), r, s) => r.readBlock os nBytesOffset buffer s
  else r.readBlock os nBytesOffset buffer s

/-- The file of a block. -/
def blockFile (r : BufferBinaryReader) (blockId : UInt64) : String :=
  getFilename r.detectorFolder r.moduleName (blockId * UInt64.ofNat bufferBlockSize)

/-- The offset of a block in its file. -/
def blockOffset (blockId : UInt64) : Nat :=
  (getFileFrameIndex (blockId * UInt64.ofNat bufferBlockSize)).toNat * sizeofBufferBinaryFormat

theorem getBlock_eq (r : BufferBinaryReader) (blockId : UInt64) (buffer : BufferBinaryBlock) (s : σ) :
    r.getBlock os blockId buffer s =
      if r.blockFile blockId ≠ r.currentInputFile then
        match r.openFile os (r.blockFile blockId) s with
        | (.error e, r, s) => (.error e, r, buffer, s)
        | (.ok (), r, s) => r.readBlock os (blockOffset blockId) buffer s
      else r.readBlock os (blockOffset blockId) buffer s := rfl

end BufferBinaryReader

end SfDaqBuffer.SfWriter
