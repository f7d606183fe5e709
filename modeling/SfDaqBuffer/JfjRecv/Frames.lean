/-
What is in a frame of `JfjFrameUdpReceiver`: the packets that a call has copied, one block for each,
the metadata of the last one. The copied packets of all calls are a part of the stream in its order;
with nonzero bunchids those of one frame have one framenum.
-/
import SfDaqBuffer.JfjRecv.Calls
import SfDaqBuffer.JfjRecv.Loss

namespace SfDaqBuffer.JfjRecv

/-! ## The contents of a frame -/

/-- Block `j` of a frame with the packets `copied`: the payload of the last one with this number. -/
def block (copied : List JfjochPacket) (j : Nat) : PacketData :=
  match copied.reverse.find? fun p => p.packetnum.toNat = j with
  | some p => p.data
  | none => fun _ => 0

/-- The frame holds the packets `copied`. -/
structure Filled (copied : List JfjochPacket) (f : Frame) : Prop where
  count : f.metadata.nRecvPackets = UInt64.ofNat copied.length
  last : ∀ p, copied.getLast? = some p → f.metadata.pulseId = p.bunchid.toUInt64 ∧
    f.metadata.frameIndex = p.framenum ∧ f.metadata.daqRec = p.debug.toUInt64 ∧ f.metadata.moduleId = 0
  pulseId : copied = [] → f.metadata.pulseId = 0
  blocks : ∀ j < jfjochNPacketsPerFrame,
    Memory.read f.frameBuffer (j * jfjochDataBytesPerPacket) jfjochDataBytesPerPacket = block copied j

theorem block_append_same (copied : List JfjochPacket) (p : JfjochPacket) :
    block (copied ++ [p]) p.packetnum.toNat = p.data := by
  simp [block]

theorem block_append_other (copied : List JfjochPacket) {p : JfjochPacket} {j : Nat} (h : p.packetnum.toNat ≠ j) :
    block (copied ++ [p]) j = block copied j := by
  simp [block, h]

theorem filled_reset (f : Frame) : Filled [] (resetFrame f) where
  count := rfl
  last := nofun
  pulseId _ := rfl
  blocks j hj := by
    funext k
    have hle := Memory.cell_within (n := jfjochDataBytesPerPacket) hj
    have hk : j * jfjochDataBytesPerPacket + (k : Nat) < jfjochDataBytesPerFrame := by
      have hlt := k.isLt
      simp only [jfjochNPacketsPerFrame, jfjochDataBytesPerPacket, jfjochDataBytesPerFrame,
        jfjochNModules] at hle hlt ⊢
      omega
    have hinside := Memory.write_inside f.frameBuffer 0 (fun _ : Fin jfjochDataBytesPerFrame => 0) ⟨_, hk⟩
    rw [Nat.zero_add] at hinside
    exact hinside

theorem frameBufferOffset_eq {p : JfjochPacket} (h : p.packetnum.toNat < jfjochNPacketsPerFrame) :
    frameBufferOffset p = p.packetnum.toNat * jfjochDataBytesPerPacket := by
  unfold frameBufferOffset
  simp only [jfjochNPacketsPerFrame, jfjochNModules, jfjochDataBytesPerPacket] at h ⊢
  omega

/-- Copying a packet sets the metadata and its block. -/
theorem filled_copy {copied : List JfjochPacket} {f : Frame} (h : Filled copied f) {p : JfjochPacket}
    (hp : p.packetnum.toNat < jfjochNPacketsPerFrame) : Filled (copied ++ [p]) (copyPacket (initFrame f p) p) where
  count := by
    simp [copyPacket, initFrame, h.count]
  last q hq := by
    rw [List.getLast?_concat] at hq
    cases hq
    exact ⟨rfl, rfl, rfl, rfl⟩
  pulseId hnil := by simp at hnil
  blocks j hj := by
    unfold copyPacket initFrame
    simp only [frameBufferOffset_eq hp]
    by_cases hpj : p.packetnum.toNat = j
    · subst hpj
      rw [block_append_same]
      exact Memory.read_write_same ..
    · rw [block_append_other _ hpj, ← h.blocks j hj]
      exact Memory.read_write_disjoint _ _ _ (Memory.cells_disjoint (Ne.symm hpj))

theorem filled_kept :
    KeptByCopy (fun p => p.packetnum.toNat < jfjochNPacketsPerFrame) fun _ copied f => Filled copied f where
  reset _ := filled_reset
  copy h hp _ := filled_copy h hp
  renumber _ h _ := h

/-! ## Frames of one framenum -/

def Regular (ps : List JfjochPacket) : Prop := ∀ p ∈ ps, p.bunchid ≠ 0

/-- A frame that has no pulse_id has no packet. -/
theorem Filled.copied_eq_nil {copied : List JfjochPacket} {f : Frame} (h : Filled copied f) (hreg : Regular copied)
    (hpulse : f.metadata.pulseId = 0) : copied = [] := by
  rcases List.eq_nil_or_concat copied with hnil | ⟨pre, p, rfl⟩
  · exact hnil
  · rw [List.concat_eq_append] at *
    obtain ⟨hp, -⟩ := h.last p List.getLast?_concat
    have hne := hreg p (by simp)
    exact absurd (hp.symm.trans hpulse) (bunchid_toUInt64 hne)

/-- The frame holds packets of framenum `m`. -/
structure FilledOne (m : UInt64) (copied : List JfjochPacket) (f : Frame) : Prop extends Filled copied f where
  regular : Regular copied
  framenum : ∀ p ∈ copied, p.framenum = m

theorem filledOne_kept :
    KeptByCopy (fun p => p.packetnum.toNat < jfjochNPacketsPerFrame ∧ p.bunchid ≠ 0) FilledOne where
  reset _ f := ⟨filled_reset f, nofun, nofun⟩
  copy {m copied f p} h hp hm := by
    refine ⟨filled_copy h.toFilled hp.1, fun q hq => ?_, fun q hq => ?_⟩
    · rcases List.mem_append.1 hq with hq | hq
      · exact h.regular q hq
      · exact List.mem_singleton.1 hq ▸ hp.2
    · rcases List.mem_append.1 hq with hq | hq
      · exact (h.framenum q hq).trans hm
      · exact congrArg _ (List.mem_singleton.1 hq)
  renumber m' h hpulse := by
    have hnil := h.toFilled.copied_eq_nil h.regular hpulse
    refine ⟨h.toFilled, h.regular, ?_⟩
    rw [hnil]
    exact nofun

/-! ## Successive calls -/

/-- A frame that a call has returned, with the packets that the call has copied. -/
structure FrameOf (copied : List JfjochPacket) (pulseId : UInt64) (f : Frame) : Prop where
  framenum : ∀ p ∈ copied, p.framenum = f.metadata.frameIndex
  last : ∃ p, copied.getLast? = some p ∧ f.metadata.pulseId = p.bunchid.toUInt64 ∧
    f.metadata.daqRec = p.debug.toUInt64
  pulseId : pulseId = f.metadata.pulseId
  count : f.metadata.nRecvPackets = UInt64.ofNat copied.length
  blocks : ∀ j < jfjochNPacketsPerFrame,
    Memory.read f.frameBuffer (j * jfjochDataBytesPerPacket) jfjochDataBytesPerPacket = block copied j

theorem FilledOne.frameOf {m : UInt64} {copied : List JfjochPacket} {f : Frame} (h : FilledOne m copied f)
    (hpulse : f.metadata.pulseId ≠ 0) : FrameOf copied f.metadata.pulseId f := by
  rcases List.eq_nil_or_concat copied with rfl | ⟨pre, p, rfl⟩
  · exact absurd (h.pulseId rfl) hpulse
  · rw [List.concat_eq_append] at *
    obtain ⟨hp, hframe, hdaq, -⟩ := h.last p List.getLast?_concat
    refine ⟨fun q hq => ?_, ⟨p, List.getLast?_concat, hp, hdaq⟩, rfl, h.count, h.blocks⟩
    rw [hframe, h.framenum q hq, h.framenum p (by simp)]

theorem calls_frames (n : Nat) (r : JfjFrameUdpReceiver) (f : Frame) (evs : List RecvMany) {run : Run}
    (hw : r.mBuffer.WF) (hnum : ∀ p ∈ r.mBuffer.content ++ received evs, p.packetnum.toNat < jfjochNPacketsPerFrame)
    (hreg : Regular (r.mBuffer.content ++ received evs)) (hrun : calls n r f evs = some run) :
    run.copied.Sublist (r.mBuffer.content ++ received evs) ∧
      ∀ out ∈ run.frames, FrameOf out.2.2.copied out.1 out.2.1 := by
  induction n generalizing r f evs run with
  | zero => cases hrun
  | succ n ih =>
    have h := getFrameFromUdp_keeps filledOne_kept hw f evs fun p hp => ⟨hnum p hp, hreg p hp⟩
    unfold calls at hrun
    cases hout : getFrameFromUdp r f evs with
    | threw e =>
      rw [hout] at hrun
      cases hrun
    | receiving r' f' log =>
      rw [hout] at h hrun
      cases hrun
      cases h with
      | receiving hf hsub => exact ⟨by simpa [Run.copied] using hsub, fun out hmem => by cases hmem⟩
    | returned pulseId r' f' log rest =>
      rw [hout] at h hrun
      obtain ⟨run', hrun', rfl⟩ := Option.map_eq_some_iff.1 hrun
      cases h with
      | returned read hw' hf hpulse hps hsub =>
        rw [List.nil_append] at hsub
        have hrest : r'.mBuffer.content ++ received rest ⊆ r.mBuffer.content ++ received evs := by
          rw [hps]
          exact List.subset_append_right ..
        obtain ⟨hcopied, hframes⟩ := ih r' f' rest hw' (fun p hp => hnum p (hrest hp))
          (fun p hp => hreg p (hrest hp)) hrun'
        constructor
        · rw [Run.copied_cons, hps]
          exact hsub.append hcopied
        · intro out hmem
          rcases List.mem_cons.1 hmem with rfl | hmem
          · exact hf.frameOf hpulse
          · exact hframes out hmem

/-- Repeated calls never mix frames: the copied packets of all calls are a part of the stream in its
order, and each returned frame is made of the packets of its call, which have one framenum. -/
theorem frames_not_mixed (m : UInt64) (container : Fin bufferUdpNRecvMsg → JfjochPacket) (f : Frame)
    (evs : List RecvMany) (hnum : ∀ p ∈ received evs, p.packetnum.toNat < jfjochNPacketsPerFrame)
    (hreg : ∀ p ∈ received evs, p.bunchid ≠ 0) :
    ∃ run, (∀ n > (received evs).length, calls n (.new m container) f evs = some run) ∧
      run.copied.Sublist (received evs) ∧ ∀ out ∈ run.frames, FrameOf out.2.2.copied out.1 out.2.1 := by
  obtain ⟨run, hrun, -⟩ := calls_spec ((received evs).length + 1) (.new m container) f evs
    (PacketBuffer.new_wf container) hreg (by exact Nat.lt_succ_self _)
  refine ⟨run, fun n hn => hrun n hn, ?_⟩
  exact calls_frames _ (.new m container) f evs (PacketBuffer.new_wf container) hnum hreg (hrun _ le_rfl)

/-- Frame 7 loses its last packet and is closed by the first packet of frame 8. -/
theorem frames_not_mixed_two : ∃ run,
    calls 4 (.new 7 fun _ => bare 0 0 0) ⟨.zero, fun _ => 0⟩
      [.msgs [bare 7 0 5, bare 7 1 5] (by decide), .msgs [bare 8 0 6] (by decide)] = some run ∧
    run.copied.Sublist [bare 7 0 5, bare 7 1 5, bare 8 0 6] ∧
    ∀ out ∈ run.frames, FrameOf out.2.2.copied out.1 out.2.1 := by
  obtain ⟨run, hrun, hspec⟩ := frames_not_mixed 7 (fun _ => bare 0 0 0) ⟨.zero, fun _ => 0⟩
    [.msgs [bare 7 0 5, bare 7 1 5] (by decide), .msgs [bare 8 0 6] (by decide)] (by decide) (by decide)
  exact ⟨run, hrun 4 (by decide), hspec⟩

end SfDaqBuffer.JfjRecv
