/-
The shared data formats: the constants of `buffer_config.hpp`, `jungfrau.hpp` and
`jungfraujoch.hpp`, the packet headers the receivers read, the module frame and image metadata
records, and the byte images under which records reach shared memory and disk.
-/
import SfDaqBuffer.Lib.Memory
import SfDaqBuffer.Lib.Bytes

namespace SfDaqBuffer

/-! ## Constants -/

abbrev moduleNBytes : Nat := 1024 * 512 * 2
abbrev fileMod : Nat := 1000
abbrev folderMod : Nat := 100000
def fileExtension : String := ".bin"
abbrev bufferBlockSize : Nat := 100
abbrev bufferUdpNRecvMsg : Nat := 128

abbrev jungfrauDataBytesPerPacket : Nat := 8192
abbrev jfNPacketsPerFrame : Nat := 128
abbrev jungfrauDataBytesPerFrame : Nat := 1048576

abbrev jfjochNModules : Nat := 32
abbrev jfjochDataBytesPerPacket : Nat := 8192
abbrev jfjochNPacketsPerFrame : Nat := jfjochNModules * 128
abbrev jfjochDataBytesPerFrame : Nat := jfjochNModules * 1048576

/-! ## Doubles -/

/-- A C++ `double`, as its IEEE-754 bits. What the conversion to `uint64_t` gives for it outside the range of
that type is undefined in C++, and whatever it is here. -/
structure Double where
  bits : UInt64
  outOfRange : UInt64
  deriving DecidableEq, Repr

/-- A `double` that is in the range of `uint64_t`. -/
def Double.ofBits (bits : UInt64) : Double := ⟨bits, 0⟩

def Double.zero : Double := .ofBits 0

def Double.one : Double := .ofBits 0x3FF0000000000000

def Double.two : Double := .ofBits 0x4000000000000000

def Double.three : Double := .ofBits 0x4008000000000000

/-- The conversion to `uint64_t`: truncation toward zero. -/
def Double.toUInt64 (d : Double) : UInt64 :=
  let exponent := (d.bits.toNat / 2 ^ 52) % 2 ^ 11
  let fraction := d.bits.toNat % 2 ^ 52
  let mantissa := if exponent = 0 then fraction else 2 ^ 52 + fraction
  let magnitude := if 1075 ≤ exponent then mantissa * 2 ^ (exponent - 1075)
    else mantissa / 2 ^ (1075 - exponent)
  let negative := d.bits.toNat / 2 ^ 63 = 1
  if magnitude = 0 ∨ ¬ negative ∧ magnitude < 2 ^ 64 then UInt64.ofNat magnitude else d.outOfRange

/-! ## Packets -/

/-- The payload of one UDP packet. -/
abbrev PacketData := Fin jungfrauDataBytesPerPacket → UInt8

/-- `jungfrau_packet`, with the fields the receiver reads. -/
structure JungfrauPacket where
  framenum : UInt64
  packetnum : UInt32
  bunchid : Double
  debug : UInt32
  data : PacketData

/-- `jfjoch_packet_t`, with the fields the receiver reads. -/
structure JfjochPacket where
  framenum : UInt64
  packetnum : UInt32
  bunchid : Int64
  debug : UInt32
  data : PacketData

/-! ## Frames and images -/

/-- The pixels of one module. -/
abbrev ModuleData := Fin moduleNBytes → UInt8

structure ModuleFrame where
  pulseId : UInt64
  frameIndex : UInt64
  daqRec : UInt64
  nRecvPackets : UInt64
  moduleId : UInt64
  deriving DecidableEq, Repr

/-- What a receive loop remembers of a frame: `pulse_id_previous` and `frame_index_previous`. -/
structure FrameMark where
  pulseId : UInt64
  frameIndex : UInt64
  deriving DecidableEq, Repr

structure ImageMetadata where
  pulseId : UInt64
  frameIndex : UInt64
  daqRec : UInt32
  isGoodImage : UInt32
  deriving DecidableEq, Repr

/-- `sizeof(ModuleFrame)`. -/
abbrev sizeofModuleFrame : Nat := 8 * 5

namespace ModuleFrame

/-- The frame of zeroed memory. -/
def zero : ModuleFrame := ⟨0, 0, 0, 0, 0⟩

def words (m : ModuleFrame) : Fin 5 → UInt64 :=
  ![m.pulseId, m.frameIndex, m.daqRec, m.nRecvPackets, m.moduleId]

def ofWords (w : Fin 5 → UInt64) : ModuleFrame := ⟨w 0, w 1, w 2, w 3, w 4⟩

@[simp] theorem ofWords_words (m : ModuleFrame) : ofWords m.words = m := rfl

/-- The packed struct in memory. -/
def toBytes (m : ModuleFrame) : Fin sizeofModuleFrame → UInt8 := Bytes.ofWords m.words

def ofBytes (b : Fin sizeofModuleFrame → UInt8) : ModuleFrame := ofWords (Bytes.toWords b)

@[simp] theorem ofBytes_toBytes (m : ModuleFrame) : ofBytes m.toBytes = m := by
  unfold ofBytes toBytes
  rw [Bytes.toWords_ofWords, ofWords_words]

@[simp] theorem ofBytes_zero : ofBytes (fun _ => 0) = zero := by
  unfold ofBytes
  rw [Bytes.toWords_zero]
  rfl

end ModuleFrame

/-! ## Buffer files -/

/-- `FORMAT_MARKER`. -/
abbrev formatMarkerValue : UInt8 := 0xBE

/-- One record of a buffer file. -/
structure BufferBinaryFormat where
  formatMarker : UInt8
  metadata : ModuleFrame
  data : ModuleData

/-- `sizeof(BufferBinaryFormat)`. -/
abbrev sizeofBufferBinaryFormat : Nat := 1 + sizeofModuleFrame + moduleNBytes

namespace BufferBinaryFormat

/-- The record of zeroed memory. -/
def zero : BufferBinaryFormat := ⟨0, .zero, fun _ => 0⟩

/-- The packed struct in a file. -/
def toBytes (r : BufferBinaryFormat) : Fin sizeofBufferBinaryFormat → UInt8 :=
  Fin.append (Fin.append (fun _ : Fin 1 => r.formatMarker) r.metadata.toBytes) r.data

def ofBytes (b : Fin sizeofBufferBinaryFormat → UInt8) : BufferBinaryFormat where
  formatMarker := b (Fin.castAdd moduleNBytes (Fin.castAdd sizeofModuleFrame (0 : Fin 1)))
  metadata := .ofBytes fun j => b (Fin.castAdd moduleNBytes (Fin.natAdd 1 j))
  data k := b (Fin.natAdd (1 + sizeofModuleFrame) k)

@[simp] theorem ofBytes_toBytes (r : BufferBinaryFormat) : ofBytes r.toBytes = r := by
  unfold ofBytes toBytes
  simp only [Fin.append_left, Fin.append_right, ModuleFrame.ofBytes_toBytes]

@[simp] theorem ofBytes_zero : ofBytes (fun _ => 0) = zero := by
  unfold ofBytes
  rw [ModuleFrame.ofBytes_zero]
  rfl

end BufferBinaryFormat

structure BufferBinaryBlock where
  frame : Fin bufferBlockSize → BufferBinaryFormat
  startPulseId : UInt64

/-! ## Failing calls -/

/-- How a call fails: with an exception, or by something C++ leaves undefined. -/
inductive Fault
  | threw (what : String)
  | divisionByZero
  | outOfBounds
  deriving DecidableEq, Repr

end SfDaqBuffer
