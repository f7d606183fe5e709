/-
jf_buffer_writer of one module next to the live path: it receives the pulse_ids that jf_udp_recv
announces, reads the frame from the RAM buffer and writes it to the buffer files. `read_frame` is one
step.
-/
import SfDaqBuffer.DiskBuffer.Contents
import SfDaqBuffer.LivePath.System

namespace SfDaqBuffer.BufferWriter

open Posix CoreBuffer LivePath

/-- The `module_name` of a module. -/
def moduleName (moduleId : Int) : String :=
  let modulePrefix := if moduleId < 10 then "0" else ""
  "M" ++ modulePrefix ++ toString moduleId

/-- The call that jf_buffer_writer executes next. -/
inductive WriterPhase
  | receive
  | readFrame (pulseId : UInt64)
  | write (pulseId : UInt64)
  | threw (what : String)
  deriving DecidableEq, Repr

/-- `written` is the list of the frames of all `write` so far. -/
structure State (g : Geometry) where
  live : LivePath.State g
  announcements : List UInt64
  writer : BufferBinaryWriter
  disk : Disk
  fileBuff : BufferBinaryFormat
  phase : WriterPhase
  written : List (UInt64 × BufferBinaryFormat)

/-- `drop i` loses announcement `i`. -/
inductive Action
  | live (action : LivePath.Action)
  | drop (i : Nat)
  | writer

variable {g : Geometry}

/-- What jf_udp_recv of module `m` sends in a step of the live path. -/
def announced (m : Nat) (s : LivePath.State g) (a : LivePath.Action) : List UInt64 :=
  match a with
  | .sender m' => if m' = m ∧ (s.senders m).phase = .send then [(s.senders m).pulseId] else []
  | _ => []

/-- The loop of jf_buffer_writer for module `m`. -/
def writerStep (m : Nat) (s : State g) : Option (State g) :=
  match s.phase with
  | .receive =>
    match s.announcements with
    | [] => none
    | p :: msgs => some { s with announcements := msgs, phase := .readFrame p }
  | .readFrame p => do
    let (metadata, data) ← s.live.buffer.readFrame p (UInt64.ofInt m)
    return { s with fileBuff := { s.fileBuff with metadata := metadata, data := data }, phase := .write p }
  | .write p =>
    if p ≠ s.fileBuff.metadata.pulseId then some { s with phase := .receive }
    else
      match s.writer.write Disk.os p s.fileBuff s.disk with
      | (.error e, writer, disk) => some { s with writer := writer, disk := disk, phase := .threw e }
      | (.ok (), writer, disk) =>
        some { s with writer := writer, disk := disk, written := s.written ++ [(p, s.fileBuff)], phase := .receive }
  | .threw _ => none

def step (m : Nat) (a : Action) (s : State g) : Option (State g) :=
  match a with
  | .live action => do
    let live ← LivePath.step action s.live
    return { s with live := live, announcements := s.announcements ++ announced m s.live action }
  | .drop i => some { s with announcements := s.announcements.eraseIdx i }
  | .writer => writerStep m s

/-- The files of the module hold what was written to them before, in `earlier` runs. -/
structure Init (m : Nat) (bufferFolder : String) (earlier : List (UInt64 × BufferBinaryFormat)) (s : State g) :
    Prop where
  live : LivePath.Init s.live
  announcements : s.announcements = []
  writer : s.writer = .new bufferFolder (moduleName m)
  files : DiskBuffer.DiskHolds bufferFolder (moduleName m) earlier s.disk
  phase : s.phase = .receive
  written : s.written = []
  marker : s.fileBuff.formatMarker = formatMarkerValue

abbrev Reachable (m : Nat) (bufferFolder : String) (earlier : List (UInt64 × BufferBinaryFormat)) (s : State g) :
    Prop :=
  Runs.Reachable (Init m bufferFolder earlier) (step m) s

end SfDaqBuffer.BufferWriter
