/-
`RamBuffer` of core-buffer: one flat mapping with the metadata of all slots in front and the
images of all slots after it. Addresses are computed as in the source: products of two `int` are
undefined when they overflow, products of `size_t` wrap.
-/
import SfDaqBuffer.Core.Formats

namespace SfDaqBuffer.CoreBuffer

open Memory

/-- Arithmetic of `size_t`. -/
def sizeT (n : Nat) : Nat := n % 2 ^ 64

/-- The product of two nonnegative `int`s. -/
def intMul (a b : Nat) : Option Nat := if a * b < 2 ^ 31 then some (a * b) else none

/-- The numbers of modules and slots of a buffer. -/
structure Geometry where
  nModules : Nat
  nSlots : Nat
  nModules_pos : 1 ≤ nModules
  nSlots_pos : 1 ≤ nSlots
  cells_lt : nModules * nSlots < 2 ^ 31

namespace Geometry

/-- The geometry of two numbers that pass the checks. -/
def checked (nModules nSlots : Nat)
    (h : (Nat.ble 1 nModules && Nat.ble 1 nSlots && Nat.blt (nModules * nSlots) (2 ^ 31)) = true) : Geometry where
  nModules := nModules
  nSlots := nSlots
  nModules_pos := by simp only [Bool.and_eq_true, Nat.ble_eq] at h; exact h.1.1
  nSlots_pos := by simp only [Bool.and_eq_true, Nat.ble_eq] at h; exact h.1.2
  cells_lt := by simp only [Bool.and_eq_true, Nat.blt_eq] at h; exact h.2

variable (g : Geometry)

def metaBytes : Nat := sizeT (sizeofModuleFrame * g.nModules)

def imageBytes : Nat := sizeT (moduleNBytes * g.nModules)

def bufferBytes : Nat := sizeT (sizeT (g.metaBytes + g.imageBytes) * g.nSlots)

/-- `image_buffer_`, as an offset from `meta_buffer_`. -/
def imageBuffer : Nat := sizeT (g.metaBytes * g.nSlots)

def slotN (pulseId : UInt64) : Nat := pulseId.toNat % g.nSlots

end Geometry

/-- The mapping, `buffer_bytes_` long. -/
abbrev RamBuffer (g : Geometry) := Region UInt8 g.bufferBytes

namespace RamBuffer

variable {g : Geometry}

/-- A new mapping is zeroed. -/
def new (g : Geometry) : RamBuffer g := ⟨fun _ => 0⟩

/-! ## Frames -/

def writeFrame (b : RamBuffer g) (srcMeta : ModuleFrame) (srcData : ModuleData) : Option (RamBuffer g) := do
  let slotN := g.slotN srcMeta.pulseId
  let index ← intMul g.nModules slotN
  let dstMeta := (index + srcMeta.moduleId.toNat) * sizeofModuleFrame
  let dstData := g.imageBuffer + sizeT (g.imageBytes * slotN) +
    sizeT (moduleNBytes * srcMeta.moduleId.toNat)
  let b ← b.store dstMeta srcMeta.toBytes
  b.store dstData srcData

def readFrame (b : RamBuffer g) (pulseId moduleId : UInt64) : Option (ModuleFrame × ModuleData) := do
  let slotN := g.slotN pulseId
  let srcMeta := (sizeT (g.nModules * slotN) + moduleId.toNat) * sizeofModuleFrame
  let srcData := g.imageBuffer + sizeT (g.imageBytes * slotN) + sizeT (moduleNBytes * moduleId.toNat)
  let frameMeta ← b.load srcMeta sizeofModuleFrame
  let data ← b.load srcData moduleNBytes
  return (ModuleFrame.ofBytes frameMeta, data)

/-- The start of the image, as an offset from `meta_buffer_`. -/
def readImage (_ : RamBuffer g) (pulseId : UInt64) : Nat :=
  g.imageBuffer + sizeT (g.imageBytes * g.slotN pulseId)

/-! ## Assembling an image -/

def unexpectedPulseError (nModules : Nat) (pulseId got : UInt64) : String :=
  -- the loop over the modules prints the frame that failed the check each time
  let modules := (List.range nModules).map fun i => s!" (module {i}, {got}),"
  "[RamBuffer::read_image] Unexpected pulse_id in ram buffer." ++
    s!" expected={pulseId} got={got}" ++ String.join modules ++ "\n"

/-- The loop over the modules: `is_pulse_init`, `is_good_image` and the fields of `image_meta` it
has set. -/
def assembleLoop (nModules : Nat) (pulseId : UInt64) :
    List ModuleFrame → Bool → Bool → ImageMetadata → Except String (Bool × Bool) × ImageMetadata
  | [], isPulseInit, isGoodImage, image => (.ok (isPulseInit, isGoodImage), image)
  | frameMeta :: frames, isPulseInit, isGoodImage, image =>
    if frameMeta.nRecvPackets.toNat ≠ jfNPacketsPerFrame then
      assembleLoop nModules pulseId frames isPulseInit false image
    else if ¬ isPulseInit ∧ frameMeta.pulseId ≠ pulseId then
      (.error (unexpectedPulseError nModules pulseId frameMeta.pulseId), image)
    else
      let image := if isPulseInit then image
        else { image with
          pulseId := frameMeta.pulseId
          frameIndex := frameMeta.frameIndex
          daqRec := frameMeta.daqRec.toUInt32 }
      let same := frameMeta.pulseId == image.pulseId && frameMeta.frameIndex == image.frameIndex &&
        frameMeta.daqRec == image.daqRec.toUInt64
      assembleLoop nModules pulseId frames true (isGoodImage && same) image

/-- `assemble_image` on the metadata of a slot: the exception it throws or none, and
`image_meta`. -/
def assembleSlot (frames : List ModuleFrame) (pulseId : UInt64) (image : ImageMetadata) :
    Except String Unit × ImageMetadata :=
  match assembleLoop frames.length pulseId frames false true image with
  | (.error e, image) => (.error e, image)
  | (.ok (isPulseInit, isGoodImage), image) =>
    let image := { image with isGoodImage := if isGoodImage then 1 else 0 }
    (.ok (), if isPulseInit then image else { image with pulseId := 0, frameIndex := 0, daqRec := 0 })

/-- The metadata of the modules in a slot. -/
def slotMetas (b : RamBuffer g) (slotN : Nat) : Option (List ModuleFrame) :=
  (List.range g.nModules).mapM fun iModule =>
    (b.load ((sizeT (g.nModules * slotN) + iModule) * sizeofModuleFrame) sizeofModuleFrame).map
      ModuleFrame.ofBytes

def assembleImage (b : RamBuffer g) (pulseId : UInt64) (image : ImageMetadata) :
    Option (Except String Unit × ImageMetadata) :=
  (b.slotMetas (g.slotN pulseId)).map fun frames => assembleSlot frames pulseId image

end RamBuffer

end SfDaqBuffer.CoreBuffer
