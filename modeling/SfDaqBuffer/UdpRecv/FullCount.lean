/-
`n_recv_packets` counts the packets that a call copies, the blocks of the frame are addressed by packet
number. A full count is a full frame when the packets of the frame have distinct numbers.
-/
import SfDaqBuffer.UdpRecv.Grouping

namespace SfDaqBuffer.UdpRecv

/-! ## The blocks of a frame and its count -/

/-- The frame was filled by the packets `copied`. -/
structure FilledBy (copied : List JungfrauPacket) (f : Frame) : Prop where
  count : f.metadata.nRecvPackets = UInt64.ofNat copied.length
  blocks : ∀ j < jfNPacketsPerFrame, frameBlock f j = groupBlock copied j
  framenum : ∀ p ∈ copied, p.bunchid.toUInt64 ≠ 0 →
    f.metadata.pulseId ≠ 0 ∧ p.framenum = f.metadata.frameIndex
  packetnum : ∀ p ∈ copied, p.packetnum.toNat < jfNPacketsPerFrame

theorem filledBy_reset (f : Frame) : FilledBy [] (resetFrame f) where
  count := rfl
  blocks _ hj := frameBlock_reset f hj
  framenum _ hp := absurd hp List.not_mem_nil
  packetnum _ hp := absurd hp List.not_mem_nil

theorem filledBy_copy {moduleId : Int} {copied : List JungfrauPacket} {f : Frame} {p : JungfrauPacket}
    (h : FilledBy copied f) (hp : p.packetnum.toNat < jfNPacketsPerFrame)
    (hframe : f.metadata.pulseId ≠ 0 → f.metadata.frameIndex = p.framenum) :
    FilledBy (copied ++ [p])
      (copyPacketToBuffers (if f.metadata.pulseId = 0 then initFrame moduleId f p else f) p) := by
  constructor
  · have hcount : (if f.metadata.pulseId = 0 then initFrame moduleId f p else f).metadata.nRecvPackets =
        f.metadata.nRecvPackets := by split <;> rfl
    unfold copyPacketToBuffers
    rw [hcount, h.count, List.length_append, List.length_singleton, UInt64.ofNat_add]
    rfl
  · intro j hj
    have hblock : frameBlock (if f.metadata.pulseId = 0 then initFrame moduleId f p else f) j =
        frameBlock f j := by split <;> rfl
    rw [frameBlock_copy _ hp, groupBlock_append, hblock, h.blocks j hj]
  · intro q hq h0
    by_cases hf : f.metadata.pulseId = 0
    · -- the frame is started again, so no packet before it had a pulse_id
      rw [if_pos hf]
      rcases List.mem_append.1 hq with hq | hq
      · exact absurd hf (h.framenum q hq h0).1
      · rw [List.mem_singleton.1 hq] at h0 ⊢
        exact ⟨h0, rfl⟩
    · rw [if_neg hf]
      refine ⟨hf, ?_⟩
      rcases List.mem_append.1 hq with hq | hq
      · exact (h.framenum q hq h0).2
      · rw [List.mem_singleton.1 hq]
        exact (hframe hf).symm
  · intro q hq
    rcases List.mem_append.1 hq with hq | hq
    · exact h.packetnum q hq
    · rw [List.mem_singleton.1 hq]
      exact hp

theorem filledBy_kept (moduleId : Int) :
    KeptByCopy moduleId (fun p => p.packetnum.toNat < jfNPacketsPerFrame) FilledBy where
  reset := filledBy_reset
  copy h hp hframe := filledBy_copy h hp hframe

/-! ## Counting -/

/-- As many distinct numbers below `n` as there are. -/
theorem mem_of_distinct {n : Nat} {l : List Nat} (hd : l.Nodup) (hlt : ∀ a ∈ l, a < n) (hn : n ≤ l.length) :
    ∀ j < n, j ∈ l := by
  intro j hj
  have hsub : l.Subperm (List.range n) := hd.subperm fun a ha => List.mem_range.2 (hlt a ha)
  have hperm := hsub.perm_of_length_le (by rw [List.length_range]; exact hn)
  exact hperm.mem_iff.2 (List.mem_range.2 hj)

theorem length_of_distinct {n : Nat} {l : List Nat} (hd : l.Nodup) (hlt : ∀ a ∈ l, a < n) : l.length ≤ n := by
  have hsub : l.Subperm (List.range n) := hd.subperm fun a ha => List.mem_range.2 (hlt a ha)
  have hle := hsub.length_le
  rwa [List.length_range] at hle

/-- The last packet with the number of a block. -/
theorem groupBlock_mem {g : List JungfrauPacket} {j : Nat} (h : ∃ p ∈ g, p.packetnum.toNat = j) :
    ∃ p ∈ g, p.packetnum.toNat = j ∧ groupBlock g j = p.data := by
  obtain ⟨q, hq, hj⟩ := h
  have hne : (g.filter fun p => p.packetnum.toNat == j) ≠ [] :=
    List.ne_nil_of_mem (List.mem_filter.2 ⟨hq, beq_iff_eq.2 hj⟩)
  have hmem := List.mem_filter.1 (List.getLast_mem hne)
  refine ⟨_, hmem.1, beq_iff_eq.1 hmem.2, ?_⟩
  unfold groupBlock
  rw [List.getLast?_eq_some_getLast hne]

/-! ## A full count -/

/-- The call returned a frame that counts all its packets. -/
def FullCount (out : Outcome) : Prop :=
  (out.frame?.map fun fr => fr.2.metadata.nRecvPackets.toNat) = some jfNPacketsPerFrame

instance decidableFullCount (out : Outcome) : Decidable (FullCount out) := inferInstanceAs (Decidable (_ = _))

/-- Block `j` of the frame that a call returned holds the payload of a packet that the call copied to it. -/
def Written (out : Outcome × CallLog) (j : Nat) : Prop :=
  ∃ fr, out.1.frame? = some fr ∧ ∃ p ∈ out.2.copied, p.packetnum.toNat = j ∧ frameBlock fr.2 j = p.data ∧
    (p.bunchid.toUInt64 ≠ 0 → p.framenum = fr.2.metadata.frameIndex)

theorem written_of_full {copied : List JungfrauPacket} {f : Frame} (h : FilledBy copied f)
    (hfull : f.metadata.nRecvPackets.toNat = jfNPacketsPerFrame) (hd : (copied.map (·.packetnum)).Nodup) :
    ∀ j < jfNPacketsPerFrame, ∃ p ∈ copied, p.packetnum.toNat = j ∧ frameBlock f j = p.data ∧
      (p.bunchid.toUInt64 ≠ 0 → p.framenum = f.metadata.frameIndex) := by
  intro j hj
  have hd' : (copied.map fun p => p.packetnum.toNat).Nodup := by
    have := hd.map (f := UInt32.toNat) fun a b => UInt32.toNat.inj
    rwa [List.map_map] at this
  have hlt : ∀ a ∈ copied.map fun p => p.packetnum.toNat, a < jfNPacketsPerFrame := by
    intro a ha
    obtain ⟨p, hp, rfl⟩ := List.mem_map.1 ha
    exact h.packetnum p hp
  -- distinct numbers keep the count from wrapping around
  have hlen := length_of_distinct hd' hlt
  rw [List.length_map] at hlen
  have hcount : copied.length = jfNPacketsPerFrame := by
    rw [h.count, UInt64.toNat_ofNat', Nat.mod_eq_of_lt (by unfold jfNPacketsPerFrame at hlen; omega)] at hfull
    exact hfull
  have hmem := mem_of_distinct hd' hlt (by rw [List.length_map]; exact hcount.ge) j hj
  obtain ⟨p, hp, hpj, hblock⟩ := groupBlock_mem (List.mem_map.1 hmem)
  refine ⟨p, hp, hpj, ?_, fun h0 => (h.framenum p hp h0).2⟩
  rw [h.blocks j hj, hblock]

/-- A returned frame with the full count, filled by packets with distinct numbers: every block was
written by a packet that the call copied. -/
theorem full_count_full_frame (moduleId : Int) (slots : List JungfrauPacket) (f : Frame) (evs : List RecvMany)
    (hnum : ∀ p ∈ received evs, p.packetnum.toNat < jfNPacketsPerFrame) (n : Nat) :
    ∀ out ∈ callsLog n (.new moduleId slots) f evs, FullCount out.1 → (out.2.copied.map (·.packetnum)).Nodup →
      out.2.copied.Sublist (received evs) ∧ ∀ j < jfNPacketsPerFrame, Written out j := by
  intro out hout hfull hd
  refine ⟨callsLog_copied n (.new moduleId slots) f evs out hout, ?_⟩
  obtain ⟨ps, -, hkeeps⟩ := callsLog_keeps (filledBy_kept moduleId) n (.new moduleId slots) f evs rfl hnum out hout
  cases hkeeps with
  | receiving => cases hfull
  | returned read hid hf h0 hps hsub =>
    intro j hj
    exact ⟨_, rfl, written_of_full hf (Option.some.inj hfull) hd j hj⟩

/-- The packets `first, …, first + n - 1` of a frame. -/
def packets (framenum : UInt64) (bunchid : Double) (first n : Nat) : List JungfrauPacket :=
  (List.range' first n).map fun k => bare framenum (UInt32.ofNat k) bunchid

/-- The first call, which receives one batch. -/
def oneBatch (ps : List JungfrauPacket) : Outcome × CallLog :=
  getFrameFromUdpLog (.new 3 []) ⟨.zero, fun _ => 0⟩ [.msgs ps]

/-- All packets of a frame. -/
theorem full_count_full_frame_packets : FullCount (oneBatch (packets 8 .one 0 128)).1 ∧
    ∀ j < jfNPacketsPerFrame, Written (oneBatch (packets 8 .one 0 128)) j := by
  have hnum : ∀ p ∈ packets 8 .one 0 128, p.packetnum.toNat < jfNPacketsPerFrame := by
    decide +kernel
  have hfull : FullCount (oneBatch (packets 8 .one 0 128)).1 := by decide +kernel
  have hd : ((oneBatch (packets 8 .one 0 128)).2.copied.map (·.packetnum)).Nodup := by
    decide +kernel
  generalize packets 8 .one 0 128 = ps at hnum hfull hd ⊢
  rw [← List.append_nil ps] at hnum
  exact ⟨hfull, (full_count_full_frame 3 [] ⟨.zero, fun _ => 0⟩ [.msgs ps] hnum 1 (oneBatch ps)
    (mem_callsLog_first 0 _ _ _) hfull hd).2⟩

/-- A frame with packet 0 instead of packet 126. -/
def repeated : List JungfrauPacket :=
  packets 8 .one 0 126 ++ packets 8 .one 0 1 ++ packets 8 .one 127 1

/-- The first half of a frame without pulse_id, and the second half of the next frame. -/
def halves : List JungfrauPacket := packets 7 .zero 0 64 ++ packets 8 .one 64 64

/-- A full count without block 126, and a full count over two triggers. -/
theorem full_count_not_full :
    (FullCount (oneBatch repeated).1 ∧ ∀ p ∈ (oneBatch repeated).2.copied, p.packetnum ≠ 126) ∧
      FullCount (oneBatch halves).1 ∧
        ∀ p ∈ (oneBatch halves).2.copied, p.packetnum = 0 →
          (oneBatch halves).1.frame?.map (·.2.metadata.frameIndex) ≠ some p.framenum := by
  decide +kernel

end SfDaqBuffer.UdpRecv
