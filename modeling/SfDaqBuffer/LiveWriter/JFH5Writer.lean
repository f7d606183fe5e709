/-
`JFH5Writer` of jf-live-writer. HDF5, which is not part of the repository, is a parameter: a state
and the result of every call on it. What an operation did before it throws stays done.
-/
import SfDaqBuffer.Core.Formats
import SfDaqBuffer.Lib.Actions

namespace SfDaqBuffer.LiveWriter

open SfDaqBuffer.Action

/-! ## HDF5 -/

inductive PropertyList
  | fileAccess
  | datasetCreate
  deriving DecidableEq, Repr

inductive Datatype
  | nativeUInt8
  | nativeUInt16
  | nativeUInt32
  | nativeUInt64
  deriving DecidableEq, Repr

/-- What is written: an image, by its address in the RAM buffer, or a number. -/
inductive Source
  | image (offset : Nat)
  | uint64 (value : UInt64)
  | uint32 (value : UInt32)
  deriving DecidableEq, Repr

/-- The calls that the writer makes, with the arguments that vary. -/
inductive Call
  | pCreate (properties : PropertyList)
  | pSetFaplMpio (fapl : Int)
  | pSetChunk (dcpl : Int) (dims : List Nat)
  | pSetFillTimeNever (dcpl : Int)
  | pSetAllocTimeEarly (dcpl : Int)
  | pClose (properties : Int)
  | fCreate (name : String) (fapl : Int)
  | fClose (file : Int)
  | gCreate (file : Int) (name : String)
  | gClose (group : Int)
  | sCreateSimple (dims : List Nat)
  | sSelectHyperslab (space : Int) (start stride count block : List Nat)
  | sClose (space : Int)
  | dCreate (group : Int) (name : String) (type : Datatype) (space dcpl : Int)
  | dGetSpace (dataset : Int)
  | dWrite (dataset : Int) (type : Datatype) (ramSpace fileSpace : Int) (source : Source)
  | dClose (dataset : Int)
  deriving DecidableEq, Repr

/-- `H5P_DEFAULT`. -/
def defaultProperties : Int := 0

abbrev Hdf5 (σ : Type) := Call → σ → Int × σ

/-! ## The class -/

structure JFH5Writer where
  rootFolder : String
  detectorName : String
  currentRunId : Int64
  imageYSize : UInt32
  imageXSize : UInt32
  bitsPerPixel : UInt32
  imageNBytes : UInt32
  fileId : Int
  imageDatasetId : Int
  pulseDatasetId : Int
  frameDatasetId : Int
  daqRecDatasetId : Int
  isGoodDatasetId : Int
  deriving DecidableEq, Repr

/-- `NO_RUN_ID`. -/
def noRunId : Int64 := -1

/-- `OUTPUT_FOLDER_SYMLINK`. -/
def outputFolderSymlink : String := "OUTPUT/"

/-- The writer and the library. -/
structure Session (σ : Type) where
  writer : JFH5Writer
  library : σ

namespace JFH5Writer

def new (rootFolder detectorName : String) : JFH5Writer :=
  ⟨rootFolder, detectorName, noRunId, 0, 0, 0, 0, -1, -1, -1, -1, -1, -1⟩

section

variable {σ : Type} (h5 : Hdf5 σ)

def call (c : Call) : Action Fault (Session σ) Int :=
  act fun s => ((h5 c s.library).1, { s with library := (h5 c s.library).2 })

def update (f : JFH5Writer → JFH5Writer) : Action Fault (Session σ) Unit :=
  modify fun s => { s with writer := f s.writer }

def this : Action Fault (Session σ) JFH5Writer := act fun s => (s.writer, s)

/-- `if (c) throw runtime_error(text)`. -/
def throwIf (c : Prop) [Decidable c] (text : String) : Action Fault (Session σ) Unit :=
  onlyIf c (throw (.threw text))

def getDatatype (bitsPerPixel : UInt32) : Action Fault (Session σ) Datatype :=
  if bitsPerPixel = 8 then pure .nativeUInt8
  else if bitsPerPixel = 16 then pure .nativeUInt16
  else if bitsPerPixel = 32 then pure .nativeUInt32
  -- the parameter of `get_datatype` is an `int`
  else throw (.threw ("Unsupported bits per pixel:" ++ toString bitsPerPixel.toInt32))

/-! ### Files -/

def closeFile : Action Fault (Session σ) Unit := do
  let w ← this
  onlyIf (¬ w.fileId < 0) do
    let _ ← call h5 (.dClose w.imageDatasetId)
    update fun w => { w with imageDatasetId := -1 }
    let _ ← call h5 (.dClose w.pulseDatasetId)
    update fun w => { w with pulseDatasetId := -1 }
    let _ ← call h5 (.dClose w.frameDatasetId)
    update fun w => { w with frameDatasetId := -1 }
    let _ ← call h5 (.dClose w.daqRecDatasetId)
    update fun w => { w with daqRecDatasetId := -1 }
    let _ ← call h5 (.dClose w.isGoodDatasetId)
    update fun w => { w with isGoodDatasetId := -1 }
    let _ ← call h5 (.fClose w.fileId)
    update fun w => { w with fileId := -1 }

/-- `create_meta_dataset`. -/
def createMetaDataset (group space : Int) (name : String) (type : Datatype) : Action Fault (Session σ) Int := do
  let dataset ← call h5 (.dCreate group name type space defaultProperties)
  throwIf (dataset < 0) ("Cannot create " ++ name ++ " dataset.")
  return dataset

def openFile (outputFile : String) (nImages : UInt32) : Action Fault (Session σ) Unit := do
  let w ← this
  let fcpl ← call h5 (.pCreate .fileAccess)
  throwIf (fcpl = -1) "Error in file access property list."
  let result ← call h5 (.pSetFaplMpio fcpl)
  throwIf (result < 0) "Cannot set mpio to property list."
  let file ← call h5 (.fCreate outputFile fcpl)
  update fun w => { w with fileId := file }
  throwIf (file < 0) "Cannot create output file."
  let _ ← call h5 (.pClose fcpl)
  let dataGroup ← call h5 (.gCreate file w.detectorName)
  throwIf (dataGroup < 0) "Cannot create data group."
  let dcpl ← call h5 (.pCreate .datasetCreate)
  throwIf (dcpl < 0) "Error in creating dataset create property list."
  let result ← call h5 (.pSetChunk dcpl [1, w.imageYSize.toNat, w.imageXSize.toNat])
  throwIf (result < 0) "Cannot set image dataset chunking."
  let result ← call h5 (.pSetFillTimeNever dcpl)
  throwIf (result < 0) "Cannot set image dataset fill time."
  let result ← call h5 (.pSetAllocTimeEarly dcpl)
  throwIf (result < 0) "Cannot set image dataset allocation time."
  let imageSpace ← call h5 (.sCreateSimple [nImages.toNat, w.imageYSize.toNat, w.imageXSize.toNat])
  throwIf (imageSpace < 0) "Cannot create image dataset space."
  let datatype ← getDatatype w.bitsPerPixel
  let imageDataset ← call h5 (.dCreate dataGroup "data" datatype imageSpace dcpl)
  update fun w => { w with imageDatasetId := imageDataset }
  throwIf (imageDataset < 0) "Cannot create image dataset."
  let metaSpace ← call h5 (.sCreateSimple [nImages.toNat])
  throwIf (metaSpace < 0) "Cannot create meta dataset space."
  let pulseDataset ← createMetaDataset h5 dataGroup metaSpace "pulse_id" .nativeUInt64
  update fun w => { w with pulseDatasetId := pulseDataset }
  let frameDataset ← createMetaDataset h5 dataGroup metaSpace "frame_index" .nativeUInt64
  update fun w => { w with frameDatasetId := frameDataset }
  let daqRecDataset ← createMetaDataset h5 dataGroup metaSpace "daq_rec" .nativeUInt32
  update fun w => { w with daqRecDatasetId := daqRecDataset }
  let isGoodDataset ← createMetaDataset h5 dataGroup metaSpace "is_good_frame" .nativeUInt8
  update fun w => { w with isGoodDatasetId := isGoodDataset }
  let _ ← call h5 (.sClose metaSpace)
  let _ ← call h5 (.sClose imageSpace)
  let _ ← call h5 (.pClose dcpl)
  let _ ← call h5 (.gClose dataGroup)

/-! ### Runs -/

def closeRun : Action Fault (Session σ) Unit := do
  closeFile h5
  update fun w =>
    { w with currentRunId := noRunId, imageYSize := 0, imageXSize := 0, bitsPerPixel := 0, imageNBytes := 0 }

def openRun (runId : Int64) (nImages imageYSize imageXSize bitsPerPixel : UInt32) :
    Action Fault (Session σ) Unit := do
  closeRun h5
  let w ← this
  let outputFolder := w.rootFolder ++ "/" ++ outputFolderSymlink
  let outputFile := outputFolder ++ toString runId.toInt ++ ".h5"
  update fun w =>
    { w with
      currentRunId := runId
      imageYSize := imageYSize
      imageXSize := imageXSize
      bitsPerPixel := bitsPerPixel
      imageNBytes := imageYSize * imageXSize * bitsPerPixel / 8 }
  openFile h5 outputFile nImages

/-! ### Images -/

def writeData (runId : Int64) (index : UInt32) (data : Source) : Action Fault (Session σ) Unit := do
  let w ← this
  throwIf (runId ≠ w.currentRunId) "Invalid run_id."
  let ramSpace ← call h5 (.sCreateSimple [1, w.imageYSize.toNat, w.imageXSize.toNat])
  throwIf (ramSpace < 0) "Cannot create image ram dataspace."
  let fileSpace ← call h5 (.dGetSpace w.imageDatasetId)
  throwIf (fileSpace < 0) "Cannot get image dataset file dataspace."
  let result ← call h5 (.sSelectHyperslab fileSpace [index.toNat, 0, 0] [1, 1, 1]
    [1, w.imageYSize.toNat, w.imageXSize.toNat] [1, 1, 1])
  throwIf (result < 0) "Cannot select image dataset file hyperslab."
  let datatype ← getDatatype w.bitsPerPixel
  let result ← call h5 (.dWrite w.imageDatasetId datatype ramSpace fileSpace data)
  throwIf (result < 0) "Cannot write data to image dataset."
  let _ ← call h5 (.sClose fileSpace)
  let _ ← call h5 (.sClose ramSpace)

def writeMeta (runId : Int64) (index : UInt32) (image : ImageMetadata) : Action Fault (Session σ) Unit := do
  let w ← this
  throwIf (runId ≠ w.currentRunId) "Invalid run_id."
  let ramSpace ← call h5 (.sCreateSimple [1, 1, 1])
  throwIf (ramSpace < 0) "Cannot create metadata ram dataspace."
  let fileSpace ← call h5 (.dGetSpace w.pulseDatasetId)
  throwIf (fileSpace < 0) "Cannot get metadata dataset file dataspace."
  let result ← call h5 (.sSelectHyperslab fileSpace [index.toNat, 0, 0] [1, 1, 1] [1, 1, 1] [1, 1, 1])
  throwIf (result < 0) "Cannot select metadata dataset file hyperslab."
  let result ← call h5 (.dWrite w.pulseDatasetId .nativeUInt64 ramSpace fileSpace (.uint64 image.pulseId))
  throwIf (result < 0) "Cannot write data to pulse_id dataset."
  let result ← call h5 (.dWrite w.frameDatasetId .nativeUInt64 ramSpace fileSpace (.uint64 image.frameIndex))
  throwIf (result < 0) "Cannot write data to frame_index dataset."
  let result ← call h5 (.dWrite w.daqRecDatasetId .nativeUInt32 ramSpace fileSpace (.uint32 image.daqRec))
  throwIf (result < 0) "Cannot write data to daq_rec dataset."
  let result ← call h5 (.dWrite w.isGoodDatasetId .nativeUInt32 ramSpace fileSpace (.uint32 image.isGoodImage))
  throwIf (result < 0) "Cannot write data to is_good_image dataset."
  let _ ← call h5 (.sClose fileSpace)
  let _ ← call h5 (.sClose ramSpace)

end

end JFH5Writer

end SfDaqBuffer.LiveWriter
