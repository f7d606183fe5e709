/-
`JfjFrameUdpReceiver` of jfj-udp-recv: packets are popped from a `PacketBuffer` and copied into
the frame of the caller; the framenum of the current frame is a member that outlives the calls.
A call keeps a log of the packets it copied and of the packets that were still in the buffer
whenever it reset it; the log is not part of the program.
-/
import SfDaqBuffer.Core.Formats
import SfDaqBuffer.JfjRecv.PacketBuffer

namespace SfDaqBuffer.JfjRecv

abbrev Buffer := PacketBuffer JfjochPacket bufferUdpNRecvMsg

abbrev RecvMany := ReceiveMany JfjochPacket bufferUdpNRecvMsg

/-- The packets that the calls of `receive_many` delivered. -/
def received (evs : List RecvMany) : List JfjochPacket := evs.flatMap ReceiveMany.items

/-- The out parameters of `get_frame_from_udp`. -/
structure Frame where
  metadata : ModuleFrame
  frameBuffer : Nat → UInt8

/-- What a call of `get_frame_from_udp` did to the packets it received. -/
structure CallLog where
  copied : List JfjochPacket
  discarded : List JfjochPacket

structure JfjFrameUdpReceiver where
  mFrameIndex : UInt64
  mBuffer : Buffer

/-- The receiver after its constructor, which sets neither `m_frame_index` nor the container. -/
def JfjFrameUdpReceiver.new (mFrameIndex : UInt64) (container : Fin bufferUdpNRecvMsg → JfjochPacket) :
    JfjFrameUdpReceiver := ⟨mFrameIndex, .new container⟩

/-! ## Copying packets -/

def initFrame (f : Frame) (p : JfjochPacket) : Frame :=
  { f with metadata := { f.metadata with
      pulseId := p.bunchid.toUInt64
      frameIndex := p.framenum
      daqRec := p.debug.toUInt64
      moduleId := 0 } }

/-- The product is taken in 32-bit arithmetic, then widened to `size_t`. -/
def frameBufferOffset (p : JfjochPacket) : Nat :=
  (jfjochDataBytesPerPacket * p.packetnum.toNat) % 2 ^ 32

def copyPacket (f : Frame) (p : JfjochPacket) : Frame where
  metadata := { f.metadata with nRecvPackets := f.metadata.nRecvPackets + 1 }
  frameBuffer := Memory.write f.frameBuffer (frameBufferOffset p) p.data

def CallLog.copy (log : CallLog) (p : JfjochPacket) : CallLog := { log with copied := log.copied ++ [p] }

/-- The loop of `process_packets`; each round pops a packet, so the buffer size bounds them. No caller
catches the exceptions of the buffer. -/
def processLoop : Nat → JfjFrameUdpReceiver → Frame → CallLog →
    Except PacketBufferError (UInt64 × JfjFrameUdpReceiver × Frame × CallLog)
  | 0, r, f, log => .ok (0, r, f, log)
  | n + 1, r, f, log =>
    if r.mBuffer.isEmpty then .ok (0, r, f, log)
    else do
      let (front, _) ← PacketBuffer.peekFront.uncaught r.mBuffer
      -- the last packet of the previous frame got lost
      if r.mFrameIndex ≠ front.framenum then
        return (f.metadata.pulseId, { r with mFrameIndex := front.framenum }, f, log)
      let (p, buffer) ← PacketBuffer.popFront.uncaught r.mBuffer
      let r := { r with mFrameIndex := p.framenum, mBuffer := buffer }
      let f := copyPacket (initFrame f p) p
      let log := log.copy p
      if p.packetnum.toNat = jfjochNPacketsPerFrame - 1 then
        return (f.metadata.pulseId, r, f, log)
      processLoop n r f log

def processPackets (r : JfjFrameUdpReceiver) (f : Frame) (log : CallLog) :
    Except PacketBufferError (UInt64 × JfjFrameUdpReceiver × Frame × CallLog) :=
  processLoop r.mBuffer.size.toNat r f log

theorem processLoop_empty (n : Nat) {r : JfjFrameUdpReceiver} (f : Frame) (log : CallLog) (hw : r.mBuffer.WF)
    (hl : r.mBuffer.content = []) : processLoop (n + 1) r f log = .ok (0, r, f, log) := by
  unfold processLoop
  rw [if_pos ((PacketBuffer.isEmpty_iff hw).2 hl)]

/-- What a round does with the packet at the front of the buffer. -/
theorem processLoop_front (n : Nat) {r : JfjFrameUdpReceiver} (f : Frame) (log : CallLog) (hw : r.mBuffer.WF)
    {p : JfjochPacket} {l : List JfjochPacket} (hl : r.mBuffer.content = p :: l) :
    ∃ b', PacketBuffer.content b' = l ∧ PacketBuffer.WF b' ∧ processLoop (n + 1) r f log =
      if r.mFrameIndex ≠ p.framenum then .ok (f.metadata.pulseId, { r with mFrameIndex := p.framenum }, f, log)
      else if p.packetnum.toNat = jfjochNPacketsPerFrame - 1 then
        .ok ((copyPacket (initFrame f p) p).metadata.pulseId, ⟨p.framenum, b'⟩, copyPacket (initFrame f p) p, log.copy p)
      else processLoop n ⟨p.framenum, b'⟩ (copyPacket (initFrame f p) p) (log.copy p) := by
  have hne : ¬ r.mBuffer.isEmpty = true := by
    rw [PacketBuffer.isEmpty_of_cons hw hl]
    decide
  obtain ⟨b', hpop, hb', hw'⟩ := PacketBuffer.popFront_eq hw hl
  refine ⟨b', hb', hw', ?_⟩
  rw [processLoop, if_neg hne, Action.uncaught_ok (PacketBuffer.peekFront_eq hw hl)]
  simp only [bind, Except.bind, Action.uncaught_ok hpop]
  split
  · rfl
  · rfl

/-! ## Receiving a frame -/

/-- A call of `get_frame_from_udp` returns a frame, with the `receive_many` results it did not
use, or waits for packets, or throws. -/
inductive Outcome
  | returned (pulseId : UInt64) (r : JfjFrameUdpReceiver) (f : Frame) (log : CallLog)
      (rest : List RecvMany)
  | receiving (r : JfjFrameUdpReceiver) (f : Frame) (log : CallLog)
  | threw (e : PacketBufferError)

/-- `m_buffer.reset()`, with the packets it drops. -/
def resetBuffer (r : JfjFrameUdpReceiver) (log : CallLog) : JfjFrameUdpReceiver × CallLog :=
  ({ r with mBuffer := r.mBuffer.reset }, { log with discarded := log.discarded ++ r.mBuffer.content })

/-- The `while (true)` loop of `get_frame_from_udp`. -/
def receiveLoop : List RecvMany → JfjFrameUdpReceiver → Frame → CallLog → Outcome
  | [], r, f, log => .receiving (resetBuffer r log).1 f (resetBuffer r log).2
  | ev :: evs, r, f, log =>
    let (r, log) := resetBuffer r log
    let r := { r with mBuffer := r.mBuffer.fillFrom ev }
    if r.mBuffer.isEmpty then receiveLoop evs r f log
    else
      match processPackets r f log with
      | .error e => .threw e
      | .ok (pulseId, r, f, log) =>
        if pulseId ≠ 0 then .returned pulseId r f log evs else receiveLoop evs r f log

def resetFrame (f : Frame) : Frame where
  metadata := { f.metadata with pulseId := 0, nRecvPackets := 0 }
  frameBuffer := Memory.write f.frameBuffer 0 fun _ : Fin jfjochDataBytesPerFrame => 0

def getFrameFromUdp (r : JfjFrameUdpReceiver) (f : Frame) (evs : List RecvMany) : Outcome :=
  let f := resetFrame f
  let log : CallLog := ⟨[], []⟩
  if r.mBuffer.isEmpty then receiveLoop evs r f log
  else
    match processPackets r f log with
    | .error e => .threw e
    | .ok (pulseId, r, f, log) =>
      if pulseId ≠ 0 then .returned pulseId r f log evs else receiveLoop evs r f log

/-- The calls of `get_frame_from_udp` on the same out parameters until one waits for packets:
the returned frames, and the frame of the waiting call. -/
structure Run where
  frames : List (UInt64 × Frame × CallLog)
  pending : Frame × CallLog

/-- At most `n` calls; `none` if none of them waits, or one throws. -/
def calls : Nat → JfjFrameUdpReceiver → Frame → List RecvMany → Option Run
  | 0, _, _, _ => none
  | n + 1, r, f, evs =>
    match getFrameFromUdp r f evs with
    | .threw _ => none
    | .receiving _ f log => some ⟨[], f, log⟩
    | .returned pulseId r f log rest =>
      (calls n r f rest).map fun run => { run with frames := (pulseId, f, log) :: run.frames }

end SfDaqBuffer.JfjRecv
