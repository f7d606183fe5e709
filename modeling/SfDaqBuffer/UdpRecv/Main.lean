/-
The receive loop of jf-udp-recv: each assembled frame is compared with the frame assembled before
it, and written and announced unless its frame index or its pulse_id is out of step. Assembled
frames show up in the order of the packets they come from, whatever the packets are.
-/
import SfDaqBuffer.Lib.Consecutive
import SfDaqBuffer.UdpRecv.Grouping

namespace SfDaqBuffer.UdpRecv

/-! ## The loop -/

/-- One pass through the accepting branch: the frame of `write_frame`, and the message. -/
structure Published where
  written : Frame
  announced : UInt64

/-- The differences are unsigned. -/
def badPulseId (previous next : FrameMark) : Bool :=
  next.frameIndex ≠ previous.frameIndex + 1 || next.pulseId - previous.pulseId ≤ 0 ||
    next.pulseId - previous.pulseId > 1000

/-- At most `n` rounds of the loop, up to the first one that waits for packets. -/
def mainLoop : Nat → FrameUdpReceiver → Frame → FrameMark → List RecvMany → List Published
  | 0, _, _, _, _ => []
  | n + 1, r, f, previous, evs =>
    match getFrameFromUdp r f evs with
    | .receiving _ _ => []
    | .returned pulseId r f rest =>
      let next : FrameMark := ⟨pulseId, f.metadata.frameIndex⟩
      if badPulseId previous next then mainLoop n r f next rest
      else ⟨f, pulseId⟩ :: mainLoop n r f next rest

def Published.mark (out : Published) : FrameMark := ⟨out.announced, out.written.metadata.frameIndex⟩

/-- The marks of the frames that successive calls return. -/
def assembled (n : Nat) (r : FrameUdpReceiver) (f : Frame) (evs : List RecvMany) : List FrameMark :=
  (calls n r f evs).map fun out => ⟨out.1, out.2.metadata.frameIndex⟩

/-- The mark of the frame that a call returns. -/
def callMark (out : UInt64 × Frame) : FrameMark := ⟨out.1, out.2.metadata.frameIndex⟩

/-- The loop filters the frames that successive calls return. -/
theorem mainLoop_calls : ∀ (n : Nat) (r : FrameUdpReceiver) (f : Frame) (previous : UInt64 × Frame)
    (evs : List RecvMany), mainLoop n r f (callMark previous) evs =
      (Consecutive.kept (fun a b => badPulseId (callMark a) (callMark b)) previous (calls n r f evs)).map
        fun out => ⟨out.2, out.1⟩
  | 0, _, _, _, _ => rfl
  | n + 1, r, f, previous, evs => by
    unfold mainLoop calls
    cases getFrameFromUdp r f evs with
    | receiving r' f' => rfl
    | returned pulseId r' f' rest =>
      have ih := mainLoop_calls n r' f' (pulseId, f') rest
      have hnext : (⟨pulseId, f'.metadata.frameIndex⟩ : FrameMark) = callMark (pulseId, f') := rfl
      simp only [Consecutive.kept_cons, hnext]
      split
      · exact ih
      · rw [List.map_cons, ← ih]

theorem mainLoop_marks (n : Nat) (r : FrameUdpReceiver) (f : Frame) (previous : FrameMark)
    (evs : List RecvMany) : (mainLoop n r f previous evs).map Published.mark =
      Consecutive.kept badPulseId previous (assembled n r f evs) := by
  have h := mainLoop_calls n r f
    (previous.pulseId, ⟨{ ModuleFrame.zero with frameIndex := previous.frameIndex }, fun _ => 0⟩) evs
  have hmap := Consecutive.kept_map badPulseId callMark
    (previous.pulseId, ⟨{ ModuleFrame.zero with frameIndex := previous.frameIndex }, fun _ => 0⟩)
    (calls n r f evs)
  exact ((congrArg (List.map Published.mark) h).trans List.map_map).trans hmap.symm

/-! ## The order of the assembled frames -/

/-- The mark a packet gives to a frame that starts with it. -/
def packetMark (p : JungfrauPacket) : FrameMark := ⟨p.bunchid.toUInt64, p.framenum⟩

/-- The frame has no pulse_id yet, or its mark is one of `seen`. -/
def Shows (seen : List FrameMark) (f : Frame) : Prop :=
  f.metadata.pulseId ≠ 0 → ⟨f.metadata.pulseId, f.metadata.frameIndex⟩ ∈ seen

theorem shows_copy {seen : List FrameMark} {f : Frame} (h : Shows seen f) (moduleId : Int)
    (p : JungfrauPacket) : Shows (seen ++ [packetMark p]) (copyPacketToBuffers
      (if f.metadata.pulseId = 0 then initFrame moduleId f p else f) p) := by
  intro h0
  by_cases hf : f.metadata.pulseId = 0
  · rw [if_pos hf]
    exact List.mem_append_right _ (List.mem_singleton.2 rfl)
  · rw [if_neg hf]
    exact List.mem_append_left _ (h hf)

theorem shows_kept (moduleId : Int) :
    KeptByCopy moduleId (fun _ => True) fun copied f => Shows (copied.map packetMark) f where
  reset _ h0 := absurd rfl h0
  copy h _ _ := by
    rw [List.map_append]
    exact shows_copy h moduleId _

/-- The assembled frames have the marks of packets, in the order of the stream. -/
theorem assembled_sublist : ∀ (n : Nat) (r : FrameUdpReceiver) (f : Frame) (evs : List RecvMany),
    (assembled n r f evs).Sublist (((leftover r ++ received evs).map packetMark).filter (·.pulseId ≠ 0))
  | 0, _, _, _ => List.nil_sublist _
  | n + 1, r, f, evs => by
    have hcall := getFrameFromUdpLog_keeps (shows_kept r.moduleId) f evs fun _ _ => trivial
    unfold assembled calls
    rw [← getFrameFromUdpLog_fst]
    generalize getFrameFromUdpLog r f evs = out at hcall ⊢
    cases hcall with
    | receiving => exact List.nil_sublist _
    | @returned r' f' rest log read hid hshow h0 hps hsub =>
      rw [List.nil_append] at hsub
      have hmem := (hsub.map packetMark).subset (hshow h0)
      rw [hps, List.map_append, List.filter_append, List.map_cons, ← List.singleton_append]
      refine List.Sublist.append (List.singleton_sublist.2 ?_) (assembled_sublist n r' f' rest)
      exact List.mem_filter.2 ⟨hmem, by simpa using h0⟩

end SfDaqBuffer.UdpRecv
