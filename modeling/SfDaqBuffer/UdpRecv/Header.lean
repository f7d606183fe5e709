/-
The header of the frames that `get_frame_from_udp` returns, whatever the packets are: the returned
pulse_id, the module of the receiver, and a 32-bit `daq_rec`.
-/
import SfDaqBuffer.UdpRecv.Calls

namespace SfDaqBuffer.UdpRecv

/-- A frame that was started has the header of a packet. -/
def Headed (moduleId : Int) (f : Frame) : Prop :=
  f.metadata.pulseId ≠ 0 →
    f.metadata.moduleId = UInt64.ofInt moduleId ∧ ∃ debug : UInt32, f.metadata.daqRec = debug.toUInt64

theorem headed_reset (moduleId : Int) (f : Frame) : Headed moduleId (resetFrame f) := fun h => absurd rfl h

theorem headed_copy {moduleId : Int} {f : Frame} (h : Headed moduleId f) (p : JungfrauPacket) :
    Headed moduleId (copyPacketToBuffers
      (if f.metadata.pulseId = 0 then initFrame moduleId f p else f) p) := by
  by_cases h0 : f.metadata.pulseId = 0
  · rw [if_pos h0]
    exact fun _ => ⟨rfl, p.debug, rfl⟩
  · rw [if_neg h0]
    exact fun _ => h h0

theorem headed_kept (moduleId : Int) : KeptByCopy moduleId (fun _ => True) fun _ f => Headed moduleId f where
  reset := headed_reset moduleId
  copy h _ _ := headed_copy h _

/-- What a call that returned hands over. -/
structure Returned (moduleId : Int) (pulseId : UInt64) (r : FrameUdpReceiver) (f : Frame) : Prop where
  receiver : r.moduleId = moduleId
  pulseId : f.metadata.pulseId = pulseId
  moduleId : f.metadata.moduleId = UInt64.ofInt moduleId
  daqRec : ∃ debug : UInt32, f.metadata.daqRec = debug.toUInt64

theorem getFrameFromUdp_returned {r : FrameUdpReceiver} {f : Frame} {evs : List RecvMany} {pulseId : UInt64}
    {r' : FrameUdpReceiver} {f' : Frame} {rest : List RecvMany}
    (hout : getFrameFromUdp r f evs = .returned pulseId r' f' rest) : Returned r.moduleId pulseId r' f' := by
  have hcall := getFrameFromUdpLog_keeps (headed_kept r.moduleId) f evs fun _ _ => trivial
  rw [← getFrameFromUdpLog_fst] at hout
  generalize getFrameFromUdpLog r f evs = out at hcall hout
  cases hcall with
  | receiving => cases hout
  | returned read hid hheaded h0 =>
    cases hout
    obtain ⟨hmodule, hdaq⟩ := hheaded h0
    exact ⟨hid, rfl, hmodule, hdaq⟩

end SfDaqBuffer.UdpRecv
