/-
`main` of jf-live-writer: what every rank does with a message of the store stream. A ghost list
records the images whose data or metadata a rank has written.
-/
import SfDaqBuffer.CoreBuffer.RamBuffer
import SfDaqBuffer.LiveWriter.JFH5Writer

namespace SfDaqBuffer.LiveWriter

open SfDaqBuffer.Action CoreBuffer

structure StoreStream where
  imageMetadata : ImageMetadata
  runId : Int64
  iImage : UInt32
  nImages : UInt32
  imageYSize : UInt32
  imageXSize : UInt32
  bitsPerPixel : UInt32
  deriving DecidableEq, Repr

/-! ## WriterStats -/

structure WriterStats where
  detectorName : String
  imageNBytes : UInt32
  imageCounter : Int32
  totalBytes : UInt64
  totalBufferWriteUs : UInt32
  maxBufferWriteUs : UInt32
  statsIntervalStart : Nat
  deriving DecidableEq, Repr

/-- What `print_stats` computes without floating point. -/
structure Report where
  detectorName : String
  nWrittenImages : Int32
  avgBufferWriteUs : UInt32
  maxBufferWriteUs : UInt32
  deriving DecidableEq, Repr

namespace WriterStats

def resetCounters (s : WriterStats) : WriterStats :=
  { s with imageCounter := 0, totalBufferWriteUs := 0, maxBufferWriteUs := 0, totalBytes := 0 }

def new (detectorName : String) : WriterStats := resetCounters ⟨detectorName, 0, 0, 0, 0, 0, 0⟩

def startRun (s : WriterStats) (m : StoreStream) : WriterStats :=
  { s with imageNBytes := m.imageYSize * m.imageXSize * m.bitsPerPixel / 8 }

/-- `now` is in nanoseconds. -/
def startImageWrite (s : WriterStats) (now : Nat) : WriterStats := { s with statsIntervalStart := now }

def endImageWrite (s : WriterStats) (now : Nat) : WriterStats :=
  let writeUsDuration := UInt32.ofNat ((now - s.statsIntervalStart) / 1000)
  { s with
    imageCounter := s.imageCounter + 1
    totalBytes := s.totalBytes + s.imageNBytes.toUInt64
    totalBufferWriteUs := s.totalBufferWriteUs + writeUsDuration
    maxBufferWriteUs := max s.maxBufferWriteUs writeUsDuration }

def printStats (s : WriterStats) : Except Fault Report :=
  -- the quotient is one of integers, also where it is stored as a `float`
  if s.imageCounter = 0 then .error .divisionByZero
  else .ok ⟨s.detectorName, s.imageCounter, s.totalBufferWriteUs / s.imageCounter.toUInt32, s.maxBufferWriteUs⟩

end WriterStats

/-! ## Ranks -/

/-- `MPI_COMM_WORLD`; the number of processes is an `int`. -/
structure World where
  size : Nat
  size_pos : 1 ≤ size
  size_lt : size < 2 ^ 31

/-- The processes of a number that passes the checks. -/
def World.checked (size : Nat) (h : (Nat.ble 1 size && Nat.blt size (2 ^ 31)) = true) : World where
  size := size
  size_pos := by simp only [Bool.and_eq_true, Nat.ble_eq] at h; exact h.1
  size_lt := by simp only [Bool.and_eq_true, Nat.blt_eq] at h; exact h.2

/-- What `MPI_Comm_size` stores. -/
def World.commSize (world : World) : Int32 := Int32.ofNat world.size

structure Ranks where
  nWriters : Int32
  iWriter : Int32
  deriving DecidableEq, Repr

/-- The assignments in `main`. -/
def World.ranks (world : World) : Ranks where
  nWriters := world.commSize
  iWriter := world.commSize

/-! ## A process -/

/-- What a rank has written. -/
inductive Done
  | data (runId : Int64) (iImage : UInt32)
  | metadata (runId : Int64) (iImage : UInt32)
  deriving DecidableEq, Repr

structure Process (σ : Type) where
  session : Session σ
  stats : WriterStats
  reports : List Report
  done : List Done

/-- The library and the steady clock. -/
structure Environment (σ : Type) where
  hdf5 : Hdf5 σ
  clock : σ → Nat

namespace Process

variable {σ : Type}

def start (rootFolder detectorName : String) (library : σ) : Process σ :=
  ⟨⟨.new rootFolder detectorName, library⟩, .new detectorName, [], []⟩

def withWriter {α : Type} (x : Action Fault (Session σ) α) : Action Fault (Process σ) α :=
  onPart Process.session (fun session p => { p with session := session }) x

def updateStats (f : WriterStats → Nat → WriterStats) (env : Environment σ) : Action Fault (Process σ) Unit :=
  modify fun p => { p with stats := f p.stats (env.clock p.session.library) }

def note (d : Done) : Action Fault (Process σ) Unit := modify fun p => { p with done := p.done ++ [d] }

/-- `WriterStats::end_run`. -/
def endRun : Action Fault (Process σ) Unit := fun p =>
  match p.stats.printStats with
  | .error e => (.error e, p)
  | .ok report => (.ok (), { p with stats := p.stats.resetCounters, reports := p.reports ++ [report] })

theorem endRun_error {p : Process σ} {e : Fault} (h : p.stats.printStats = .error e) :
    endRun.run p = (.error e, p) := by
  unfold run endRun
  rw [h]

theorem endRun_ok {p : Process σ} {report : Report} (h : p.stats.printStats = .ok report) :
    endRun.run p = (.ok (), { p with stats := p.stats.resetCounters, reports := p.reports ++ [report] }) := by
  unfold run endRun
  rw [h]

/-! ## The loop -/

section

variable {g : Geometry} (env : Environment σ) (ranks : Ranks) (ramBuffer : RamBuffer g)

def openFirst (m : StoreStream) : Action Fault (Process σ) Unit := do
  withWriter (JFH5Writer.openRun env.hdf5 m.runId m.nImages m.imageYSize m.imageXSize m.bitsPerPixel)
  updateStats (fun s _ => s.startRun m) env

def writeImage (m : StoreStream) : Action Fault (Process σ) Unit := do
  let data := ramBuffer.readImage m.imageMetadata.pulseId
  updateStats WriterStats.startImageWrite env
  withWriter (JFH5Writer.writeData env.hdf5 m.runId m.iImage (.image data))
  note (.data m.runId m.iImage)
  updateStats WriterStats.endImageWrite env

def writeMetadata (m : StoreStream) : Action Fault (Process σ) Unit := do
  withWriter (JFH5Writer.writeMeta env.hdf5 m.runId m.iImage m.imageMetadata)
  note (.metadata m.runId m.iImage)

def closeLast : Action Fault (Process σ) Unit := do
  withWriter (JFH5Writer.closeRun env.hdf5)
  endRun

/-- The message loop after one `zmq_recv`. -/
def onMessage (m : StoreStream) : Action Fault (Process σ) Unit := do
  onlyIf (m.iImage = 0) (openFirst env m)
  -- both `int`s are converted to unsigned
  onlyIf (m.iImage % ranks.nWriters.toUInt32 = ranks.iWriter.toUInt32) (writeImage env ramBuffer m)
  onlyIf (ranks.iWriter = 0) (writeMetadata env m)
  onlyIf (m.iImage + 1 = m.nImages) (closeLast env)

/-- The message loop over the messages that arrive; a fault ends the process. -/
def loop : List StoreStream → Action Fault (Process σ) Unit
  | [] => pure ()
  | m :: ms => do
    onMessage env ranks ramBuffer m
    loop ms

end

end Process

end SfDaqBuffer.LiveWriter
