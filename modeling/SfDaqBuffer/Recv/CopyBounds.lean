/-
Where a packet is copied to, for both receivers: the offset of its block is a 32-bit product that nobody
compares with the size of the frame buffer. The copies stay inside the frame buffer in the runs whose
packets have the number of a block.
-/
import SfDaqBuffer.JfjRecv.Calls
import SfDaqBuffer.JfjRecv.Loss
import SfDaqBuffer.UdpRecv.Grouping

namespace SfDaqBuffer.Recv

/-- A payload of `n` bytes at offset `off` is block `k` of a frame buffer of `size` bytes. -/
structure InBlock (n size k off : Nat) : Prop where
  offset : off = n * k
  inside : off + n ≤ size

/-- The 32-bit product is the offset of a block exactly for the blocks of the frame. -/
theorem inBlock_iff {n c : Nat} (hn : 0 < n) (hc : n * c ≤ 2 ^ 32) (k : Nat) :
    InBlock n (n * c) k ((n * k) % 2 ^ 32) ↔ k < c := by
  constructor
  · rintro ⟨hoff, hin⟩
    rw [hoff, ← Nat.mul_succ] at hin
    exact Nat.le_of_mul_le_mul_left hin hn
  · intro hk
    have hle : n * k + n ≤ n * c := by
      rw [← Nat.mul_succ]
      exact Nat.mul_le_mul_left n hk
    have hmod : (n * k) % 2 ^ 32 = n * k := Nat.mod_eq_of_lt (by omega)
    constructor
    · exact hmod
    · rw [hmod]
      exact hle

/-- The copy of `FrameUdpReceiver::copy_packet_to_buffers`. -/
def UdpInBlock (p : JungfrauPacket) : Prop :=
  InBlock jungfrauDataBytesPerPacket jungfrauDataBytesPerFrame p.packetnum.toNat (UdpRecv.frameBufferOffset p)

/-- The copy of `JfjFrameUdpReceiver::process_packets`. -/
def JfjInBlock (p : JfjochPacket) : Prop :=
  InBlock jfjochDataBytesPerPacket jfjochDataBytesPerFrame p.packetnum.toNat (JfjRecv.frameBufferOffset p)

theorem udpInBlock_iff (p : JungfrauPacket) : UdpInBlock p ↔ p.packetnum.toNat < jfNPacketsPerFrame := by
  have h : jungfrauDataBytesPerFrame = jungfrauDataBytesPerPacket * jfNPacketsPerFrame := rfl
  unfold UdpInBlock
  rw [h]
  exact inBlock_iff (by decide) (by decide) _

theorem jfjInBlock_iff (p : JfjochPacket) : JfjInBlock p ↔ p.packetnum.toNat < jfjochNPacketsPerFrame := by
  have h : jfjochDataBytesPerFrame = jfjochDataBytesPerPacket * jfjochNPacketsPerFrame := rfl
  unfold JfjInBlock
  rw [h]
  exact inBlock_iff (by decide) (by decide) _

/-- A copy is the copy to a block of the frame buffer exactly for the packets that have the number of a
block; so every copy of a run is, when the packets it receives have such numbers. -/
theorem copies_in_block (moduleId : Int) (slots : List JungfrauPacket) (f : UdpRecv.Frame) (evs : List UdpRecv.RecvMany)
    (frameIndex : UInt64) (container : Fin bufferUdpNRecvMsg → JfjochPacket) (f' : JfjRecv.Frame)
    (evs' : List JfjRecv.RecvMany) (n : Nat) :
    ((∀ p, UdpInBlock p ↔ p.packetnum.toNat < jfNPacketsPerFrame) ∧
      ((∀ p ∈ UdpRecv.received evs, p.packetnum.toNat < jfNPacketsPerFrame) →
        ∀ out ∈ UdpRecv.callsLog n (.new moduleId slots) f evs, ∀ p ∈ out.2.copied, UdpInBlock p)) ∧
    (∀ p, JfjInBlock p ↔ p.packetnum.toNat < jfjochNPacketsPerFrame) ∧
      ((∀ p ∈ JfjRecv.received evs', p.packetnum.toNat < jfjochNPacketsPerFrame) →
        ∀ out ∈ JfjRecv.outcomes n (.new frameIndex container) f' evs', ∀ p ∈ out.copied, JfjInBlock p) := by
  refine ⟨⟨udpInBlock_iff, ?_⟩, jfjInBlock_iff, ?_⟩
  · intro hnum out hout p hp
    have hsub := UdpRecv.callsLog_copied n (.new moduleId slots) f evs out hout
    exact (udpInBlock_iff p).2 (hnum p (hsub.subset hp))
  · intro hnum out hout p hp
    have hsub := JfjRecv.outcomes_copied n (JfjRecv.PacketBuffer.new_wf container) f' evs' out hout
    exact (jfjInBlock_iff p).2 (hnum p (hsub.subset hp))

/-- One packet behind the last block of the frame, for each receiver; and a number that wraps around to
block 0. -/
theorem copies_in_block_not :
    (¬ ∀ out ∈ UdpRecv.callsLog 1 (.new 3 []) ⟨.zero, fun _ => 0⟩ [.msgs [UdpRecv.bare 8 128 .one]],
      ∀ p ∈ out.2.copied, UdpInBlock p) ∧
    (¬ ∀ out ∈ JfjRecv.outcomes 1 (.new 8 fun _ => JfjRecv.bare 0 0 0) ⟨.zero, fun _ => 0⟩
        [.msgs [JfjRecv.bare 8 4096 1] (by decide)], ∀ p ∈ out.copied, JfjInBlock p) ∧
    UdpRecv.frameBufferOffset (UdpRecv.bare 8 524288 .one) = 0 ∧
    JfjRecv.frameBufferOffset (JfjRecv.bare 8 524288 1) = 0 := by
  refine ⟨fun h => ?_, fun h => ?_, by decide, by decide⟩
  · have hall : ∀ p ∈ (UdpRecv.getFrameFromUdpLog (.new 3 []) ⟨.zero, fun _ => 0⟩
        [.msgs [UdpRecv.bare 8 128 .one]]).2.copied, p.packetnum.toNat < jfNPacketsPerFrame :=
      fun p hp => (udpInBlock_iff p).1 (h _ (UdpRecv.mem_callsLog_first 0 _ _ _) p hp)
    revert hall
    decide +kernel
  · have hall : ∀ p ∈ (JfjRecv.getFrameFromUdp (.new 8 fun _ => JfjRecv.bare 0 0 0) ⟨.zero, fun _ => 0⟩
        [.msgs [JfjRecv.bare 8 4096 1] (by decide)]).copied, p.packetnum.toNat < jfjochNPacketsPerFrame :=
      fun p hp => (jfjInBlock_iff p).1 (h _ (JfjRecv.mem_outcomes_first 0 _ _ _) p hp)
    revert hall
    decide +kernel

end SfDaqBuffer.Recv
