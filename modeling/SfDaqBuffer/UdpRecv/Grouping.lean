/-
`FrameUdpReceiver` refines a grouping of the packet stream that knows nothing of batches: the
successive results of `get_frame_from_udp` are the closed groups of the received packets, in
order. A call keeps what it has read of a batch as the invariant `Holds`: the out parameters are
those of the open group, and the packets still in the slots come before the next batch.
-/
import SfDaqBuffer.Lib.Grouping
import SfDaqBuffer.UdpRecv.Calls

namespace SfDaqBuffer.UdpRecv

open Memory

/-! ## The reference grouping -/

/-- Packets of different triggers do not share a frame. -/
def otherFrame (first p : JungfrauPacket) : Bool := first.framenum != p.framenum

/-- The packet that ends a frame. -/
def lastPacket (p : JungfrauPacket) : Bool := p.packetnum.toNat == jfNPacketsPerFrame - 1

theorem lastPacket_iff {p : JungfrauPacket} : lastPacket p = true ↔ p.packetnum.toNat = jfNPacketsPerFrame - 1 :=
  beq_iff_eq

theorem lastPacket_eq_false {p : JungfrauPacket} : lastPacket p = false ↔ p.packetnum.toNat ≠ jfNPacketsPerFrame - 1 :=
  beq_eq_false_iff_ne

/-- The closed groups of a packet sequence. -/
def closedGroups (ps : List JungfrauPacket) : List (List JungfrauPacket) :=
  Grouping.closed otherFrame lastPacket [] ps

/-- Block `j` of the frame of a group: the payload of its last packet numbered `j`, or zeros. -/
def groupBlock (g : List JungfrauPacket) (j : Nat) : PacketData :=
  match (g.filter fun p => p.packetnum.toNat == j).getLast? with
  | some p => p.data
  | none => fun _ => 0

/-- What a call of `get_frame_from_udp` gives its caller. -/
structure Received where
  pulseId : UInt64
  metadata : ModuleFrame
  blocks : Fin jfNPacketsPerFrame → PacketData

/-- The blocks of 8192 bytes of a frame buffer. -/
def frameBlock (f : Frame) (j : Nat) : PacketData :=
  read f.frameBuffer (j * jungfrauDataBytesPerPacket) jungfrauDataBytesPerPacket

def view (out : UInt64 × Frame) : Received := ⟨out.1, out.2.metadata, fun j => frameBlock out.2 j⟩

/-- The metadata of a group whose first packet is `first`. -/
def groupMetadata (moduleId : Int) (first : JungfrauPacket) (n : Nat) : ModuleFrame where
  pulseId := first.bunchid.toUInt64
  frameIndex := first.framenum
  daqRec := first.debug.toUInt64
  nRecvPackets := UInt64.ofNat n
  moduleId := UInt64.ofInt moduleId

/-- The frame of a group. -/
def groupFrame (moduleId : Int) : List JungfrauPacket → Received
  | [] => ⟨0, ModuleFrame.zero, fun _ _ => 0⟩
  | p :: ps => ⟨p.bunchid.toUInt64, groupMetadata moduleId p (ps.length + 1),
      fun j => groupBlock (p :: ps) j⟩

/-- A packet the grouping is about: a block number of the frame, and a pulse_id that is not the
mark of "no frame yet". -/
structure Regular (p : JungfrauPacket) : Prop where
  packetnum : p.packetnum.toNat < jfNPacketsPerFrame
  bunchid : p.bunchid.toUInt64 ≠ 0

/-! ## Copying a packet -/

theorem frameBufferOffset_eq {p : JungfrauPacket} (h : p.packetnum.toNat < jfNPacketsPerFrame) :
    frameBufferOffset p = p.packetnum.toNat * jungfrauDataBytesPerPacket := by
  have hlt : jungfrauDataBytesPerPacket * p.packetnum.toNat < 2 ^ 32 := by
    simp only [jfNPacketsPerFrame, jungfrauDataBytesPerPacket] at *
    omega
  unfold frameBufferOffset
  rw [Nat.mod_eq_of_lt hlt, Nat.mul_comm]

theorem frameBlock_copy (f : Frame) {p : JungfrauPacket} (h : p.packetnum.toNat < jfNPacketsPerFrame) (j : Nat) :
    frameBlock (copyPacketToBuffers f p) j =
      if p.packetnum.toNat = j then p.data else frameBlock f j := by
  unfold frameBlock copyPacketToBuffers
  simp only
  rw [frameBufferOffset_eq h]
  split
  · rename_i hj
    rw [hj, read_write_same]
  · rename_i hj
    exact read_write_disjoint _ _ _ (cells_disjoint fun e => hj e.symm)

theorem groupBlock_append (g : List JungfrauPacket) (p : JungfrauPacket) (j : Nat) :
    groupBlock (g ++ [p]) j = if p.packetnum.toNat = j then p.data else groupBlock g j := by
  unfold groupBlock
  rw [List.filter_append]
  by_cases h : p.packetnum.toNat = j
  · simp [h]
  · simp [h]

theorem frameBlock_reset (f : Frame) {j : Nat} (hj : j < jfNPacketsPerFrame) :
    frameBlock (resetFrame f) j = fun _ => 0 := by
  funext k
  have hlt : j * jungfrauDataBytesPerPacket + k < jungfrauDataBytesPerFrame := by
    have hk := k.2
    simp only [jfNPacketsPerFrame, jungfrauDataBytesPerPacket, jungfrauDataBytesPerFrame] at *
    omega
  have h := write_inside f.frameBuffer 0 (fun _ : Fin jungfrauDataBytesPerFrame => (0 : UInt8))
    ⟨_, hlt⟩
  rw [Nat.zero_add] at h
  exact h

/-! ## The frame of the open group -/

/-- The out parameters hold the frame of the open group `g`. -/
structure Holds (moduleId : Int) (g : List JungfrauPacket) (f : Frame) : Prop where
  none : g = [] → f.metadata.pulseId = 0 ∧ f.metadata.nRecvPackets = 0
  some : ∀ p ps, g = p :: ps → f.metadata = groupMetadata moduleId p (ps.length + 1)
  blocks : ∀ j < jfNPacketsPerFrame, frameBlock f j = groupBlock g j

theorem holds_reset (moduleId : Int) (f : Frame) : Holds moduleId [] (resetFrame f) :=
  ⟨fun _ => ⟨rfl, rfl⟩, nofun, fun _ hj => frameBlock_reset f hj⟩

/-- Copying a packet of the open group, with `init_frame` for the first one. -/
theorem holds_copy {moduleId : Int} {g : List JungfrauPacket} {f : Frame} {p : JungfrauPacket}
    (hf : Holds moduleId g f) (hp : Regular p) (hg : ∀ q ∈ g, Regular q) :
    Holds moduleId (g ++ [p]) (copyPacketToBuffers
      (if f.metadata.pulseId = 0 then initFrame moduleId f p else f) p) := by
  refine ⟨fun h => by simp at h, fun q qs hq => ?_, fun j hj => ?_⟩
  · cases g with
    | nil =>
      obtain ⟨rfl, rfl⟩ : p = q ∧ [] = qs := by simpa using hq
      obtain ⟨h0, hn⟩ := hf.none rfl
      rw [if_pos h0]
      simp [copyPacketToBuffers, initFrame, groupMetadata, hn]
    | cons a as =>
      obtain ⟨rfl, rfl⟩ : a = q ∧ as ++ [p] = qs := by simpa using hq
      have hm := hf.some a as rfl
      have h0 : f.metadata.pulseId ≠ 0 := by
        rw [hm]; exact (hg a (List.mem_cons_self ..)).bunchid
      rw [if_neg h0]
      simp [copyPacketToBuffers, hm, groupMetadata]
  · rw [frameBlock_copy _ hp.packetnum, groupBlock_append]
    have : frameBlock (if f.metadata.pulseId = 0 then initFrame moduleId f p else f) j =
        frameBlock f j := by split <;> rfl
    rw [this, hf.blocks j hj]

theorem holds_pulse {moduleId : Int} {g : List JungfrauPacket} {f : Frame}
    (hf : Holds moduleId g f) (hg : ∀ q ∈ g, Regular q) : f.metadata.pulseId ≠ 0 ↔ g ≠ [] := by
  cases g with
  | nil => simp [(hf.none rfl).1]
  | cons a as =>
    rw [hf.some a as rfl]
    simp [groupMetadata, (hg a (List.mem_cons_self ..)).bunchid]

/-- The test of the loop is the cut of the grouping. -/
theorem holds_cuts {moduleId : Int} {g : List JungfrauPacket} {f : Frame}
    (hf : Holds moduleId g f) (hg : ∀ q ∈ g, Regular q) (p : JungfrauPacket) :
    (f.metadata.pulseId ≠ 0 ∧ f.metadata.frameIndex ≠ p.framenum) ↔
      Grouping.cuts otherFrame g p = true := by
  rw [holds_pulse hf hg]
  cases g with
  | nil => simp [Grouping.cuts]
  | cons a as =>
    rw [hf.some a as rfl]
    simp [Grouping.cuts, otherFrame, groupMetadata]

theorem holds_view {moduleId : Int} {g : List JungfrauPacket} {f : Frame}
    (hf : Holds moduleId g f) (hne : g ≠ []) :
    view (f.metadata.pulseId, f) = groupFrame moduleId g := by
  cases g with
  | nil => exact absurd rfl hne
  | cons a as =>
    have hm := hf.some a as rfl
    have hb : (fun j : Fin jfNPacketsPerFrame => frameBlock f j) =
        fun j : Fin jfNPacketsPerFrame => groupBlock (a :: as) j :=
      funext fun j => hf.blocks j j.2
    unfold view groupFrame
    simp only [hm, hb]
    rfl

/-! ## One batch -/

/-- The closed groups of a stream read with the open group `g`. -/
abbrev closedFrom (g ps : List JungfrauPacket) : List (List JungfrauPacket) :=
  Grouping.closed otherFrame lastPacket g ps

/-- The batch is used up without closing the open group. -/
def Emptied (r : FrameUdpReceiver) (g ps : List JungfrauPacket)
    (out : UInt64 × FrameUdpReceiver × Frame) : Prop :=
  ∃ f', out = (0, r.mark false 0, f') ∧ Holds r.moduleId (g ++ ps) f' ∧
    ∀ rest, closedFrom g (ps ++ rest) = closedFrom (g ++ ps) rest

/-- The open group is closed, and the packets after it are marked for the next call. -/
def Closed (r : FrameUdpReceiver) (g ps : List JungfrauPacket)
    (out : UInt64 × FrameUdpReceiver × Frame) : Prop :=
  ∃ g' ps' loaded offset f', out = (f'.metadata.pulseId, r.mark loaded offset, f') ∧
    g' ≠ [] ∧ (∀ q ∈ g', Regular q) ∧ Holds r.moduleId g' f' ∧ ps' <:+ ps ∧
    leftover (r.mark loaded offset) = ps' ∧
    ∀ rest, closedFrom g (ps ++ rest) = g' :: closedFrom [] (ps' ++ rest)

theorem processLoop_spec {r : FrameUdpReceiver} (hr : Counted r) :
    ∀ (ps : List JungfrauPacket) (i : Nat) (f : Frame) (g : List JungfrauPacket),
      Holds r.moduleId g f → (∀ q ∈ g, Regular q) → (∀ q ∈ ps, Regular q) → r.batch.drop i = ps →
      Emptied r g ps (processLoop r i ps f) ∨ Closed r g ps (processLoop r i ps f)
  | [], i, f, g, hf, hg, _, _ => .inl ⟨f, rfl, by simpa using hf, by simp⟩
  | p :: ps, i, f, g, hf, hg, hps, hi => by
    have hp := hps p (List.mem_cons_self ..)
    have hps' : ∀ q ∈ ps, Regular q := fun q hq => hps q (List.mem_cons_of_mem _ hq)
    have hg' : ∀ q ∈ g ++ [p], Regular q := by
      intro q hq
      rcases List.mem_append.1 hq with hq | hq
      · exact hg q hq
      · rw [List.mem_singleton.1 hq]
        exact hp
    have hcuts := holds_cuts hf hg p
    have hf' := holds_copy hf hp hg
    generalize hcopy : copyPacketToBuffers (if f.metadata.pulseId = 0 then initFrame r.moduleId f p else f)
      p = f' at hf'
    rcases processLoop_cases hr hi hcopy with ⟨hcut, hleft, hout⟩ |
      ⟨hcut, hlast, loaded, offset, hleft, -, hout⟩ | ⟨hcut, hlast, hi', hout⟩
    · -- the packet belongs to another trigger: the group is closed before it
      have hne : g ≠ [] := (holds_pulse hf hg).1 hcut.1
      rw [hout]
      refine .inr ⟨g, p :: ps, true, i, f, rfl, hne, hg, hf, List.suffix_refl _, hleft, fun rest => ?_⟩
      exact Grouping.closed_of_cuts (hcuts.1 hcut) _
    · rw [hcuts, Bool.not_eq_true] at hcut
      rw [hout]
      refine .inr ⟨g ++ [p], ps, loaded, offset, f', rfl, by simp, hg', hf', List.suffix_cons _ _, hleft, fun rest => ?_⟩
      exact Grouping.closed_of_ends hcut (lastPacket_iff.2 hlast) _
    · rw [hcuts, Bool.not_eq_true] at hcut
      have hmore : ∀ rest, closedFrom g ((p :: ps) ++ rest) = closedFrom (g ++ [p]) (ps ++ rest) :=
        fun rest => Grouping.closed_of_more hcut (lastPacket_eq_false.2 hlast) _
      rw [hout]
      rcases processLoop_spec hr ps (i + 1) f' (g ++ [p]) hf' hg' hps' hi' with
        ⟨f'', ho, hh, hc⟩ | ⟨g', ps', loaded, offset, f'', ho, hne, hg'', hh, hsuf, hleft, hc⟩
      · refine .inl ⟨f'', ho, by simpa using hh, fun rest => ?_⟩
        rw [hmore, hc]
        simp
      · exact .inr ⟨g', ps', loaded, offset, f'', ho, hne, hg'', hh,
          hsuf.trans (List.suffix_cons _ _), hleft, fun rest => by rw [hmore, hc]⟩

/-! ## One call -/

/-- A call waits for packets when the stream closes no group, and otherwise returns the frame of
the first closed group, with the rest of the stream still to be read. -/
inductive CallSpec (moduleId : Int) (groups : List (List JungfrauPacket)) : Outcome → Prop
  | receiving {r f} : groups = [] → CallSpec moduleId groups (.receiving r f)
  | returned {pulseId r f rest g} : view (pulseId, f) = groupFrame moduleId g →
      Counted r → r.moduleId = moduleId → (∀ q ∈ leftover r ++ received rest, Regular q) →
      groups = g :: closedFrom [] (leftover r ++ received rest) →
      CallSpec moduleId groups (.returned pulseId r f rest)

theorem callSpec_returned {r : FrameUdpReceiver} {g ps : List JungfrauPacket} {evs : List RecvMany}
    {out : UInt64 × FrameUdpReceiver × Frame} (hr : Counted r)
    (hps : ∀ q ∈ ps ++ received evs, Regular q) (h : Closed r g ps out) :
    out.1 ≠ 0 ∧ CallSpec r.moduleId (closedFrom g (ps ++ received evs))
      (.returned out.1 out.2.1 out.2.2 evs) := by
  obtain ⟨g', ps', loaded, offset, f', rfl, hne, hg', hf', hsuf, hleft, hc⟩ := h
  refine ⟨(holds_pulse hf' hg').2 hne, .returned (holds_view hf' hne) hr rfl (fun q hq => ?_) ?_⟩
  · rw [hleft] at hq
    rcases List.mem_append.1 hq with hq | hq
    · exact hps q (List.mem_append_left _ (hsuf.subset hq))
    · exact hps q (List.mem_append_right _ hq)
  · rw [hc, hleft]

theorem receiveLoop_spec : ∀ (evs : List RecvMany) (r : FrameUdpReceiver) (f : Frame)
    (g : List JungfrauPacket), Holds r.moduleId g f → (∀ q ∈ g, Regular q) →
      (∀ q ∈ received evs, Regular q) →
      CallSpec r.moduleId (closedFrom g (received evs)) (receiveLoop evs r f)
  | [], r, f, g, _, _, _ => .receiving rfl
  | ev :: evs, r, f, g, hf, hg, hev => by
    rw [received_cons r] at hev ⊢
    have hr := counted_receiveMany r ev
    have hid := moduleId_receiveMany r ev
    have hbatch : ∀ q ∈ (receiveMany r ev).batch, Regular q := fun q hq => hev q (List.mem_append_left _ hq)
    have hevs : ∀ q ∈ received evs, Regular q := fun q hq => hev q (List.mem_append_right _ hq)
    unfold receiveLoop
    simp only
    generalize receiveMany r ev = r' at hr hid hev hbatch ⊢
    rw [← hid] at hf ⊢
    split
    · -- `recvmmsg` returned no packet
      rename_i hn
      have hnil : r'.batch = [] := by
        unfold FrameUdpReceiver.batch; rw [hn]; rfl
      rw [hnil]
      exact receiveLoop_spec evs r' f g hf hg hevs
    · rcases processLoop_spec hr r'.batch 0 f g hf hg hbatch rfl with ⟨f', ho, hh, hc⟩ | h
      · unfold processPackets
        rw [List.drop_zero, ho, hc]
        refine receiveLoop_spec evs (r'.mark false 0) f' (g ++ r'.batch) hh (fun q hq => ?_) hevs
        rcases List.mem_append.1 hq with hq | hq
        · exact hg q hq
        · exact hbatch q hq
      · obtain ⟨h0, hs⟩ := callSpec_returned hr hev h
        unfold processPackets
        rw [List.drop_zero]
        simp only [if_pos h0]
        exact hs

theorem getFrameFromUdp_spec {r : FrameUdpReceiver} (hr : Counted r) (f : Frame) (evs : List RecvMany)
    (hps : ∀ q ∈ leftover r ++ received evs, Regular q) :
    CallSpec r.moduleId (closedFrom [] (leftover r ++ received evs)) (getFrameFromUdp r f evs) := by
  have hf := holds_reset r.moduleId f
  have hevs : ∀ q ∈ received evs, Regular q := fun q hq => hps q (List.mem_append_right _ hq)
  unfold getFrameFromUdp
  simp only
  generalize resetFrame f = f0 at hf ⊢
  split
  · rename_i hl
    have hleft : leftover r = r.batch.drop r.packetBufferOffset := if_pos hl
    rw [hleft] at hps ⊢
    have hbatch : ∀ q ∈ r.batch.drop r.packetBufferOffset, Regular q :=
      fun q hq => hps q (List.mem_append_left _ hq)
    rcases processLoop_spec hr _ r.packetBufferOffset f0 [] hf (by simp) hbatch rfl with
      ⟨f', ho, hh, hc⟩ | h
    · unfold processPackets
      rw [ho, hc]
      exact receiveLoop_spec evs (r.mark false 0) f' _ hh (by simpa using hbatch) hevs
    · obtain ⟨h0, hs⟩ := callSpec_returned hr hps h
      unfold processPackets
      simp only [if_pos h0]
      exact hs
  · rename_i hl
    have hleft : leftover r = [] := if_neg hl
    rw [hleft]
    exact receiveLoop_spec evs r f0 [] hf (by simp) hevs

/-! ## Successive calls -/

theorem calls_spec (moduleId : Int) : ∀ (n : Nat) (r : FrameUdpReceiver) (f : Frame)
    (evs : List RecvMany), Counted r → r.moduleId = moduleId →
      (∀ q ∈ leftover r ++ received evs, Regular q) →
      (calls n r f evs).map view =
        ((closedFrom [] (leftover r ++ received evs)).take n).map (groupFrame moduleId)
  | 0, _, _, _, _, _, _ => rfl
  | n + 1, r, f, evs, hr, hid, hps => by
    have h := getFrameFromUdp_spec hr f evs hps
    unfold calls
    rw [hid] at h
    generalize closedFrom [] (leftover r ++ received evs) = groups at h ⊢
    generalize getFrameFromUdp r f evs = out at h ⊢
    cases h with
    | receiving hg => rw [hg]; rfl
    | returned hv hr' hid' hps' hg =>
      rw [hg, List.take_succ_cons, List.map_cons, List.map_cons, hv]
      rw [calls_spec moduleId n _ _ _ hr' hid' hps']

/-- The calls of a new receiver. -/
theorem calls_closedGroups (moduleId : Int) (slots : List JungfrauPacket) (f : Frame) {evs : List RecvMany}
    (hreg : ∀ p ∈ received evs, Regular p) (n : Nat) : (calls n (.new moduleId slots) f evs).map view =
      ((closedGroups (received evs)).take n).map (groupFrame moduleId) := by
  have hr : Counted (.new moduleId slots) := by
    intro hne; exact absurd rfl hne
  exact calls_spec moduleId n _ f evs hr rfl hreg

/-- The successive results of `get_frame_from_udp` are the frames of the closed groups of the
received packets, in order, however `recvmmsg` delivers them. -/
theorem calls_eq_closedGroups (moduleId : Int) (slots : List JungfrauPacket) (f : Frame)
    (evs : List RecvMany) (hreg : ∀ p ∈ received evs, Regular p) :
    (∀ n, (calls n (.new moduleId slots) f evs).map view =
      ((closedGroups (received evs)).take n).map (groupFrame moduleId)) ∧
    ∀ evs' slots' f' n, received evs' = received evs →
      (calls n (.new moduleId slots') f' evs').map view = (calls n (.new moduleId slots) f evs).map view := by
  constructor
  · exact calls_closedGroups moduleId slots f hreg
  · intro evs' slots' f' n h
    have hreg' : ∀ p ∈ received evs', Regular p := by
      rw [h]
      exact hreg
    rw [calls_closedGroups moduleId slots f hreg, calls_closedGroups moduleId slots' f' hreg', h]

/-- A packet without payload. -/
def bare (framenum : UInt64) (packetnum : UInt32) (bunchid : Double) : JungfrauPacket :=
  ⟨framenum, packetnum, bunchid, 0, fun _ => 0⟩

/-- Two frames, the first one without its last packet, over three batches: the first is closed
by the first packet of the second. -/
theorem calls_eq_closedGroups_two :
    (calls 2 (.new 3 []) ⟨.zero, fun _ => 0⟩
        [.msgs [bare 8 0 .one, bare 8 1 .one], .error,
          .msgs [bare 9 126 .two], .msgs [],
          .msgs [bare 9 127 .two]]).map view =
      [[bare 8 0 .one, bare 8 1 .one],
        [bare 9 126 .two, bare 9 127 .two]].map (groupFrame 3) := by
  refine ((calls_eq_closedGroups 3 [] ⟨.zero, fun _ => 0⟩ _ ?_).1 2).trans rfl
  intro p hp
  simp only [received, List.cons_append, List.nil_append, List.mem_cons, List.not_mem_nil, or_false] at hp
  rcases hp with rfl | rfl | rfl | rfl <;> exact ⟨by decide, by decide⟩

end SfDaqBuffer.UdpRecv
