/-
`BinaryBufferReader.py` of sf-utils: the image of a pulse read from the buffer files of all modules,
with the module loop of `read_pulse_id` as a fold over the records.
-/
import SfDaqBuffer.CoreBuffer.BufferUtils

namespace SfDaqBuffer.SfUtils

open Posix CoreBuffer

/-! ## Files -/

def getFileFrameIndex (pulseId : Nat) : Nat :=
  let fileBase := pulseId / fileMod * fileMod
  pulseId - fileBase

def getFilename (rootFolder deviceName : String) (pulseId : Nat) : String :=
  let folderBase := pulseId / folderMod * folderMod
  let fileBase := pulseId / fileMod * fileMod
  rootFolder ++ "/" ++ deviceName ++ "/" ++ toString folderBase ++ "/" ++ toString fileBase ++ fileExtension

/-- `f"M{i_module:02}"`. -/
def deviceName (iModule : Nat) : String := "M" ++ (toString iModule).leftpad 2 '0'

/-- The exceptions of reading one record. -/
inductive ReadError
  | fileNotFound (filename : String)
  | bufferTooSmall (size : Nat)
  deriving DecidableEq, Repr

/-- `open`, `seek`, `read` and `from_buffer_copy`. -/
def readFrameBuffer (files : String → Option File) (filename : String) (nBytesOffset : Nat) :
    Except ReadError BufferBinaryFormat :=
  match files filename with
  | none => .error (.fileNotFound filename)
  | some f =>
    if f.size - nBytesOffset < sizeofBufferBinaryFormat then .error (.bufferTooSmall (f.size - nBytesOffset))
    else .ok (.ofBytes (Memory.read f.byte nBytesOffset sizeofBufferBinaryFormat))

/-! ## The image of a pulse -/

structure BinaryBufferReader where
  rootFolder : String
  nModules : Nat

/-- The dictionary `metadata`. -/
structure ReadMetadata where
  pulseId : Nat
  frameIndex : Nat
  daqRec : Nat
  isGoodFrame : Bool
  deriving DecidableEq, Repr

/-- The variables of the module loop. -/
structure ReadState where
  metadata : ReadMetadata
  metadataInit : Bool
  data : Nat → UInt8

def ReadState.start : ReadState := ⟨⟨0, 0, 0, true⟩, false, fun _ => 0⟩

/-- The body of the module loop, for a record that was read. -/
def readModule (s : ReadState) (iModule : Nat) (frameBuffer : BufferBinaryFormat) : ReadState :=
  if frameBuffer.formatMarker ≠ formatMarkerValue then
    { s with metadata := { s.metadata with isGoodFrame := false } }
  else
    let s := { s with data := Memory.write s.data (moduleNBytes * iModule) frameBuffer.data }
    if frameBuffer.metadata.nRecvPackets.toNat ≠ jfNPacketsPerFrame then
      { s with metadata := { s.metadata with isGoodFrame := false } }
    else
      let pulseId := frameBuffer.metadata.pulseId.toNat
      let frameIndex := frameBuffer.metadata.frameIndex.toNat
      let daqRec := frameBuffer.metadata.daqRec.toNat
      let metadata := if s.metadataInit then s.metadata else ⟨pulseId, frameIndex, daqRec, s.metadata.isGoodFrame⟩
      -- the keys of `current` are compared one after the other
      let mismatch := pulseId ≠ metadata.pulseId ∨ frameIndex ≠ metadata.frameIndex ∨ daqRec ≠ metadata.daqRec
      let metadata := if metadata.isGoodFrame ∧ mismatch then { metadata with isGoodFrame := false } else metadata
      { s with metadata := metadata, metadataInit := true }

namespace BinaryBufferReader

/-- The record of a module, as `read_pulse_id` reads it. -/
def readRecord (r : BinaryBufferReader) (files : String → Option File) (pulseId iModule : Nat) :
    Except ReadError BufferBinaryFormat :=
  readFrameBuffer files (getFilename r.rootFolder (deviceName iModule) pulseId)
    (getFileFrameIndex pulseId * sizeofBufferBinaryFormat)

def readPulseId (r : BinaryBufferReader) (files : String → Option File) (pulseId : Nat) :
    Except ReadError (ReadMetadata × (Nat → UInt8)) := do
  let s ← (List.range r.nModules).foldlM (fun s iModule => do
    let frameBuffer ← r.readRecord files pulseId iModule
    return readModule s iModule frameBuffer) ReadState.start
  let metadata := if s.metadataInit then s.metadata else { s.metadata with isGoodFrame := false }
  return (metadata, s.data)

/-- When every record can be read the loop is a fold over them. -/
theorem readPulseId_eq {r : BinaryBufferReader} {files : String → Option File} {pulseId : Nat}
    {record : Nat → BufferBinaryFormat} (h : ∀ m < r.nModules, r.readRecord files pulseId m = .ok (record m)) :
    r.readPulseId files pulseId =
      let s := (List.range r.nModules).foldl (fun s m => readModule s m (record m)) ReadState.start
      .ok (if s.metadataInit then s.metadata else { s.metadata with isGoodFrame := false }, s.data) := by
  have hloop : ∀ (ms : List Nat) (s : ReadState), (∀ m ∈ ms, m < r.nModules) →
      ms.foldlM (fun s m => do
        let frameBuffer ← r.readRecord files pulseId m
        return readModule s m frameBuffer) s =
      (.ok (ms.foldl (fun s m => readModule s m (record m)) s) : Except ReadError ReadState) := by
    intro ms
    induction ms with
    | nil =>
      intro s _
      rfl
    | cons m ms ih =>
      intro s hms
      rw [List.foldlM_cons, h m (hms m (List.mem_cons_self ..))]
      exact ih _ fun m' hm' => hms m' (List.mem_cons_of_mem _ hm')
  unfold readPulseId
  rw [hloop _ _ fun m hm => List.mem_range.1 hm]
  rfl

end BinaryBufferReader

end SfDaqBuffer.SfUtils
