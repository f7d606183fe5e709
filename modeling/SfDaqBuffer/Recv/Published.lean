/-
The pulse_ids that a receive loop publishes, for both receivers. They increase strictly when the
packets come in the order of their pulse_ids or not at all; a late packet of an earlier frame can
have frames published a second time.
-/
import SfDaqBuffer.JfjRecv.Loss
import SfDaqBuffer.JfjRecv.Main
import SfDaqBuffer.UdpRecv.Main

namespace SfDaqBuffer.Recv

/-! ## Packets in order -/

/-- The pulse_ids never decrease. -/
def InOrder (marks : List FrameMark) : Prop := marks.Pairwise fun a b => a.pulseId ≤ b.pulseId

/-- A pulse_id belongs to one frame index. -/
def OneFramePerPulse (marks : List FrameMark) : Prop :=
  marks.Pairwise fun a b => a.pulseId = b.pulseId → a.frameIndex = b.frameIndex

instance : DecidablePred InOrder := fun _ => inferInstanceAs (Decidable (List.Pairwise _ _))

instance : DecidablePred OneFramePerPulse := fun _ => inferInstanceAs (Decidable (List.Pairwise _ _))

/-- The frame before the first one, as the loops initialize it. -/
def noFrame : FrameMark := ⟨0, 0⟩

/-! ## Accepted frames -/

theorem udp_accepts {a b : FrameMark} (h : UdpRecv.badPulseId a b = false) (hle : a.pulseId ≤ b.pulseId) :
    a.pulseId < b.pulseId := by
  unfold UdpRecv.badPulseId at h
  simp only [Bool.or_eq_false_iff, decide_eq_false_iff_not] at h
  obtain ⟨⟨-, hpos⟩, -⟩ := h
  have hne : a.pulseId ≠ b.pulseId := by
    intro heq
    rw [heq, UInt64.sub_self] at hpos
    exact hpos (UInt64.le_refl _)
  exact UInt64.lt_of_le_of_ne hle hne

theorem jfj_accepts {a b : FrameMark} (h : JfjRecv.badPulseId a b = false) (hle : a.pulseId ≤ b.pulseId)
    (hone : a.pulseId = b.pulseId → a.frameIndex = b.frameIndex) : a.pulseId < b.pulseId := by
  unfold JfjRecv.badPulseId at h
  simp only [Bool.or_eq_false_iff, decide_eq_false_iff_not, not_not] at h
  obtain ⟨⟨hnext, -⟩, -⟩ := h
  have hne : a.pulseId ≠ b.pulseId := by
    intro heq
    have hsame := hone heq
    rw [hnext] at hsame
    grind
  exact UInt64.lt_of_le_of_ne hle hne

theorem lt_of_le_of_lt (a b c : FrameMark) (h : a.pulseId ≤ b.pulseId) (h' : b.pulseId < c.pulseId) :
    a.pulseId < c.pulseId := by grind

theorem lt_trans (a b c : FrameMark) (h : a.pulseId < b.pulseId) (h' : b.pulseId < c.pulseId) :
    a.pulseId < c.pulseId := by grind

/-- A mark with a pulse_id comes after the frame before the first one. -/
theorem noFrame_pairwise {R : FrameMark → FrameMark → Prop} (h0 : ∀ b, b.pulseId ≠ 0 → R noFrame b)
    {marks ms : List FrameMark} (hs : ms.Sublist (marks.filter (·.pulseId ≠ 0))) (h : marks.Pairwise R) :
    (noFrame :: ms).Pairwise R := by
  refine List.pairwise_cons.2 ⟨fun b hb => h0 b ?_, (h.filter _).sublist hs⟩
  simpa using (List.mem_filter.1 (hs.subset hb)).2

theorem udp_published_increasing (moduleId : Int) (slots : List JungfrauPacket) (f : UdpRecv.Frame)
    (evs : List UdpRecv.RecvMany) (n : Nat)
    (h : InOrder ((UdpRecv.received evs).map UdpRecv.packetMark)) :
    ((UdpRecv.mainLoop n (.new moduleId slots) f noFrame evs).map (·.announced)).Pairwise (· < ·) := by
  have hs := UdpRecv.assembled_sublist n (.new moduleId slots) f evs
  have hR := noFrame_pairwise (fun b _ => show (0 : UInt64) ≤ b.pulseId by grind) hs h
  have hkept := Consecutive.kept_pairwise (S := fun a b => a.pulseId < b.pulseId)
    (fun _ _ => udp_accepts) lt_of_le_of_lt lt_trans _ _ hR
  rw [← UdpRecv.mainLoop_marks] at hkept
  have := (List.pairwise_cons.1 hkept).2
  rw [List.pairwise_map] at this ⊢
  exact this

theorem jfj_published_increasing (m : UInt64) (container : Fin bufferUdpNRecvMsg → JfjochPacket)
    (f : JfjRecv.Frame) (evs : List JfjRecv.RecvMany) (n : Nat)
    (h : InOrder ((JfjRecv.received evs).map JfjRecv.packetMark))
    (hone : OneFramePerPulse ((JfjRecv.received evs).map JfjRecv.packetMark)) :
    ((JfjRecv.mainLoop n (.new m container) f noFrame evs).map (·.imageMeta.pulseId)).Pairwise (· < ·) := by
  have hw : (JfjRecv.JfjFrameUdpReceiver.new m container).mBuffer.WF := JfjRecv.PacketBuffer.new_wf container
  have hs := JfjRecv.assembled_sublist n (.new m container) f evs hw
  have hR := noFrame_pairwise (fun b hb => ⟨show (0 : UInt64) ≤ b.pulseId by grind, fun h0 => absurd h0.symm hb⟩)
    hs (h.and hone)
  have hkept := Consecutive.kept_pairwise (S := fun a b => a.pulseId < b.pulseId)
    (fun _ _ hb hR => jfj_accepts hb hR.1 hR.2) (fun a b c hR => lt_of_le_of_lt a b c hR.1) lt_trans _ _ hR
  rw [← JfjRecv.mainLoop_marks _ _ _ _ _ hw] at hkept
  have := (List.pairwise_cons.1 hkept).2
  rw [List.pairwise_map] at this ⊢
  exact this

/-! ## Published pulse_ids -/

/-- Both receivers publish strictly increasing pulse_ids when the packets arrive in the order of
their pulse_ids; the jungfraujoch receiver also needs a pulse_id to belong to one frame. -/
theorem published_increasing :
    (∀ moduleId slots f evs n, InOrder ((UdpRecv.received evs).map UdpRecv.packetMark) →
      ((UdpRecv.mainLoop n (.new moduleId slots) f noFrame evs).map (·.announced)).Pairwise (· < ·)) ∧
    ∀ m container f evs n, InOrder ((JfjRecv.received evs).map JfjRecv.packetMark) →
      OneFramePerPulse ((JfjRecv.received evs).map JfjRecv.packetMark) →
      ((JfjRecv.mainLoop n (.new m container) f noFrame evs).map (·.imageMeta.pulseId)).Pairwise
        (· < ·) :=
  ⟨udp_published_increasing, jfj_published_increasing⟩

/-- Three frames of one packet each. -/
theorem published_increasing_three :
    ((UdpRecv.mainLoop 3 (.new 0 []) ⟨.zero, fun _ => 0⟩ noFrame
        [.msgs [UdpRecv.bare 1 127 .one, UdpRecv.bare 2 127 .two], .error,
          .msgs [UdpRecv.bare 3 127 .three]]).map (·.announced)).Pairwise (· < ·) ∧
      ((JfjRecv.mainLoop 2 (.new 1 fun _ => JfjRecv.bare 0 0 0) ⟨.zero, fun _ => 0⟩ noFrame
        [.msgs [JfjRecv.bare 1 0 1, JfjRecv.bare 2 0 2] (by decide), .error,
          .msgs [JfjRecv.bare 3 0 3] (by decide)]).map (·.imageMeta.pulseId)).Pairwise (· < ·) :=
  ⟨published_increasing.1 _ _ _ _ _ (by decide),
    published_increasing.2 _ _ _ _ _ (by decide) (by decide)⟩

/-- When frames 2 and 3 arrive a second time, frame 3 is published twice: frame 2 is rejected, and
then is the frame that frame 3 is compared with. -/
theorem published_repeats :
    ¬ ((UdpRecv.mainLoop 5 (.new 0 []) ⟨.zero, fun _ => 0⟩ noFrame
        [.msgs [UdpRecv.bare 1 127 .one, UdpRecv.bare 2 127 .two,
          UdpRecv.bare 3 127 .three, UdpRecv.bare 2 127 .two,
          UdpRecv.bare 3 127 .three]]).map (·.announced)).Pairwise (· < ·) := by
  decide

end SfDaqBuffer.Recv
