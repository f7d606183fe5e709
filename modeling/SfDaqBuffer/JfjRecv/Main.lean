/-
The receive loop of jfj-udp-recv: as in jf-udp-recv each assembled frame is compared with the
frame assembled before it, but a pulse_id that repeats passes the comparison of the unsigned
difference with 0.
-/
import SfDaqBuffer.Lib.Consecutive
import SfDaqBuffer.JfjRecv.Calls

namespace SfDaqBuffer.JfjRecv

/-! ## The loop -/

/-- One pass through the accepting branch: the frame of `write_frame`, and the message. -/
structure Published where
  written : Frame
  imageMeta : ImageMetadata

/-- The differences are unsigned: the comparison with 0 never holds. -/
def badPulseId (previous next : FrameMark) : Bool :=
  next.frameIndex ≠ previous.frameIndex + 1 || next.pulseId - previous.pulseId < 0 ||
    next.pulseId - previous.pulseId > 1000

/-- The image metadata of an accepted frame; `daq_rec` is narrowed to 32 bits. -/
def imageMeta (frameMeta : ModuleFrame) : ImageMetadata where
  pulseId := frameMeta.pulseId
  frameIndex := frameMeta.frameIndex
  daqRec := frameMeta.daqRec.toUInt32
  isGoodImage := 1

/-- At most `n` rounds of the loop, up to the first one that waits for packets or throws. -/
def mainLoop : Nat → JfjFrameUdpReceiver → Frame → FrameMark → List RecvMany → List Published
  | 0, _, _, _, _ => []
  | n + 1, r, f, previous, evs =>
    match getFrameFromUdp r f evs with
    | .threw _ => []
    | .receiving _ _ _ => []
    | .returned pulseId r f _ rest =>
      let next : FrameMark := ⟨pulseId, f.metadata.frameIndex⟩
      if badPulseId previous next then mainLoop n r f next rest
      else ⟨f, imageMeta f.metadata⟩ :: mainLoop n r f next rest

def Published.mark (out : Published) : FrameMark := ⟨out.imageMeta.pulseId, out.imageMeta.frameIndex⟩

/-- The marks of the frames that successive calls return. -/
def assembled : Nat → JfjFrameUdpReceiver → Frame → List RecvMany → List FrameMark
  | 0, _, _, _ => []
  | n + 1, r, f, evs =>
    match getFrameFromUdp r f evs with
    | .threw _ => []
    | .receiving _ _ _ => []
    | .returned pulseId r f _ rest => ⟨pulseId, f.metadata.frameIndex⟩ :: assembled n r f rest

/-! ## The order of the assembled frames -/

/-- The mark a packet gives to the frame it is copied into. -/
def packetMark (p : JfjochPacket) : FrameMark := ⟨p.bunchid.toUInt64, p.framenum⟩

/-- The frame has no pulse_id yet, or its mark is one of `seen`. -/
def Shows (seen : List FrameMark) (f : Frame) : Prop :=
  f.metadata.pulseId ≠ 0 → ⟨f.metadata.pulseId, f.metadata.frameIndex⟩ ∈ seen

theorem shows_copy (seen : List FrameMark) (f : Frame) (p : JfjochPacket) :
    Shows (seen ++ [packetMark p]) (copyPacket (initFrame f p) p) :=
  fun _ => List.mem_append_right _ (List.mem_singleton.2 rfl)

theorem shows_kept : KeptByCopy (fun _ => True) fun _ copied f => Shows (copied.map packetMark) f where
  reset _ _ h0 := absurd rfl h0
  copy _ _ _ := by
    rw [List.map_append]
    exact shows_copy _ _ _
  renumber _ h _ := h

/-- The assembled frames have the marks of packets, in the order of the stream. -/
theorem assembled_sublist : ∀ (n : Nat) (r : JfjFrameUdpReceiver) (f : Frame) (evs : List RecvMany),
    r.mBuffer.WF → (assembled n r f evs).Sublist
      (((r.mBuffer.content ++ received evs).map packetMark).filter (·.pulseId ≠ 0))
  | 0, _, _, _, _ => List.nil_sublist _
  | n + 1, r, f, evs, hw => by
    have h := getFrameFromUdp_keeps shows_kept hw f evs fun _ _ => trivial
    unfold assembled
    cases hout : getFrameFromUdp r f evs with
    | threw e => exact List.nil_sublist _
    | receiving r' f' log => exact List.nil_sublist _
    | returned pulseId r' f' log rest =>
      rw [hout] at h
      cases h with
      | returned read hw' hshow h0 hps hsub =>
        rw [List.nil_append] at hsub
        have hmem := (hsub.map packetMark).subset (hshow h0)
        rw [hps, List.map_append, List.filter_append]
        refine List.Sublist.append (List.singleton_sublist.2 ?_) (assembled_sublist n r' f' rest hw')
        exact List.mem_filter.2 ⟨hmem, by simpa using h0⟩

theorem mainLoop_marks : ∀ (n : Nat) (r : JfjFrameUdpReceiver) (f : Frame) (previous : FrameMark)
    (evs : List RecvMany), r.mBuffer.WF → (mainLoop n r f previous evs).map Published.mark =
      Consecutive.kept badPulseId previous (assembled n r f evs)
  | 0, _, _, _, _, _ => rfl
  | n + 1, r, f, previous, evs, hw => by
    have h := getFrameFromUdp_keeps shows_kept hw f evs fun _ _ => trivial
    unfold mainLoop assembled
    cases hout : getFrameFromUdp r f evs with
    | threw e => rfl
    | receiving r' f' log => rfl
    | returned pulseId r' f' log rest =>
      rw [hout] at h
      cases h with
      | returned read hw' =>
        have ih := mainLoop_marks n r' f' ⟨f'.metadata.pulseId, f'.metadata.frameIndex⟩ rest hw'
        simp only [Consecutive.kept_cons]
        split
        · exact ih
        · rw [List.map_cons, ih]
          rfl

end SfDaqBuffer.JfjRecv
