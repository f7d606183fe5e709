/-
`FrameUdpReceiver` of jf-udp-recv: the packet slots filled by `recvmmsg`, the loop that copies
packets into the frame of the caller, and `get_frame_from_udp`, which keeps the packets of a
batch that belong to the next frame for the next call.
-/
import SfDaqBuffer.Core.Formats

namespace SfDaqBuffer.UdpRecv

/-- The result of one `recvmmsg` call: -1, or the packets now in the first slots. -/
inductive RecvMany
  | error
  | msgs (packets : List JungfrauPacket)

/-- The packets that the calls delivered. -/
def received : List RecvMany → List JungfrauPacket
  | [] => []
  | .error :: evs => received evs
  | .msgs ps :: evs => ps ++ received evs

/-- The out parameters of `get_frame_from_udp`. -/
structure Frame where
  metadata : ModuleFrame
  frameBuffer : Nat → UInt8

structure FrameUdpReceiver where
  moduleId : Int
  packetBuffer : List JungfrauPacket
  packetBufferLoaded : Bool
  packetBufferNPackets : Int
  packetBufferOffset : Nat

/-- The receiver after its constructor; the packet slots are not initialized. -/
def FrameUdpReceiver.new (moduleId : Int) (slots : List JungfrauPacket) : FrameUdpReceiver :=
  ⟨moduleId, slots, false, 0, 0⟩

/-! ## Copying packets -/

def initFrame (moduleId : Int) (f : Frame) (p : JungfrauPacket) : Frame :=
  { f with metadata := { f.metadata with
      pulseId := p.bunchid.toUInt64
      frameIndex := p.framenum
      daqRec := p.debug.toUInt64
      moduleId := UInt64.ofInt moduleId } }

/-- The product is taken in 32-bit arithmetic, then widened to `size_t`. -/
def frameBufferOffset (p : JungfrauPacket) : Nat :=
  (jungfrauDataBytesPerPacket * p.packetnum.toNat) % 2 ^ 32

def copyPacketToBuffers (f : Frame) (p : JungfrauPacket) : Frame where
  metadata := { f.metadata with nRecvPackets := f.metadata.nRecvPackets + 1 }
  frameBuffer := Memory.write f.frameBuffer (frameBufferOffset p) p.data

/-- The loop of `process_packets`: `i` is the slot of the first packet of the list. -/
def processLoop (r : FrameUdpReceiver) :
    Nat → List JungfrauPacket → Frame → UInt64 × FrameUdpReceiver × Frame
  | _, [], f => (0, { r with packetBufferLoaded := false, packetBufferOffset := 0 }, f)
  | i, p :: ps, f =>
    -- the last packet of the previous frame got lost: continue on this packet
    if f.metadata.pulseId ≠ 0 ∧ f.metadata.frameIndex ≠ p.framenum then
      (f.metadata.pulseId, { r with packetBufferLoaded := true, packetBufferOffset := i }, f)
    else
      let f := if f.metadata.pulseId = 0 then initFrame r.moduleId f p else f
      let f := copyPacketToBuffers f p
      if p.packetnum.toNat = jfNPacketsPerFrame - 1 then
        if (i : Int) + 1 ≠ r.packetBufferNPackets then
          (f.metadata.pulseId, { r with packetBufferLoaded := true, packetBufferOffset := i + 1 }, f)
        else
          (f.metadata.pulseId, { r with packetBufferLoaded := false, packetBufferOffset := 0 }, f)
      else
        processLoop r (i + 1) ps f

/-- The slots that hold packets of the last batch. -/
def FrameUdpReceiver.batch (r : FrameUdpReceiver) : List JungfrauPacket :=
  r.packetBuffer.take r.packetBufferNPackets.toNat

def processPackets (r : FrameUdpReceiver) (startOffset : Nat) (f : Frame) :
    UInt64 × FrameUdpReceiver × Frame :=
  processLoop r startOffset (r.batch.drop startOffset) f

/-! ## Receiving a frame -/

def receiveMany (r : FrameUdpReceiver) : RecvMany → FrameUdpReceiver
  | .error => { r with packetBufferNPackets := -1 }
  | .msgs ps => { r with
      packetBuffer := ps ++ r.packetBuffer.drop ps.length
      packetBufferNPackets := ps.length }

/-- A call of `get_frame_from_udp` returns a frame, with the `recvmmsg` results it did not use,
or waits for packets. -/
inductive Outcome
  | returned (pulseId : UInt64) (r : FrameUdpReceiver) (f : Frame) (rest : List RecvMany)
  | receiving (r : FrameUdpReceiver) (f : Frame)

/-- The `while (true)` loop of `get_frame_from_udp`. -/
def receiveLoop : List RecvMany → FrameUdpReceiver → Frame → Outcome
  | [], r, f => .receiving r f
  | ev :: evs, r, f =>
    let r := receiveMany r ev
    if r.packetBufferNPackets = 0 then receiveLoop evs r f
    else
      match processPackets r 0 f with
      | (pulseId, r, f) => if pulseId ≠ 0 then .returned pulseId r f evs else receiveLoop evs r f

def resetFrame (f : Frame) : Frame where
  metadata := { f.metadata with pulseId := 0, nRecvPackets := 0 }
  frameBuffer := Memory.write f.frameBuffer 0 fun _ : Fin jungfrauDataBytesPerFrame => 0

def getFrameFromUdp (r : FrameUdpReceiver) (f : Frame) (evs : List RecvMany) : Outcome :=
  let f := resetFrame f
  if r.packetBufferLoaded then
    match processPackets r r.packetBufferOffset f with
    | (pulseId, r, f) => if pulseId ≠ 0 then .returned pulseId r f evs else receiveLoop evs r f
  else receiveLoop evs r f

/-- The results of the first `n` calls of `get_frame_from_udp` on the same out parameters, up to
the first call that waits for packets. -/
def calls : Nat → FrameUdpReceiver → Frame → List RecvMany → List (UInt64 × Frame)
  | 0, _, _, _ => []
  | n + 1, r, f, evs =>
    match getFrameFromUdp r f evs with
    | .returned pulseId r f rest => (pulseId, f) :: calls n r f rest
    | .receiving _ _ => []

end SfDaqBuffer.UdpRecv
