/-
The RAM buffer behind jfj-udp-recv. `write_frame` copies one module; a frame has 32, and the loop
announces each accepted frame as a good image. The image in its slot is the assembled frame only
when what was never copied happens to be there already.
-/
import SfDaqBuffer.CoreBuffer.RamStore
import SfDaqBuffer.JfjRecv.Groups
import SfDaqBuffer.Lib.Streams

namespace SfDaqBuffer.JfjRecv

open CoreBuffer CoreBuffer.RamBuffer CoreBuffer.Geometry

variable {g : Geometry}

/-! ## The loop with its RAM buffer -/

/-- A message that was sent, with the frame, the packets that were copied into it, and the RAM buffer
after `write_frame`. -/
structure Sent (g : Geometry) where
  copied : List JfjochPacket
  frame : Frame
  imageMeta : ImageMetadata
  buffer : RamBuffer g

/-- The part of the frame that `write_frame` reads. -/
def moduleData (f : Frame) : ModuleData := fun k => f.frameBuffer k

/-- `mainLoop` with the RAM buffer. -/
def ramLoop : Nat → JfjFrameUdpReceiver → Frame → FrameMark → RamBuffer g → List RecvMany → List (Sent g)
  | 0, _, _, _, _, _ => []
  | n + 1, r, f, previous, b, evs =>
    match getFrameFromUdp r f evs with
    | .threw _ => []
    | .receiving _ _ _ => []
    | .returned pulseId r f log rest =>
      let next : FrameMark := ⟨pulseId, f.metadata.frameIndex⟩
      if badPulseId previous next then ramLoop n r f next b rest
      else
        match b.writeFrame f.metadata (moduleData f) with
        | none => []
        | some b => ⟨log.copied, f, imageMeta f.metadata, b⟩ :: ramLoop n r f next b rest

/-! ## What `write_frame` leaves -/

/-- Beyond the first module of each slot the buffers are the same. -/
def TailKept (b₀ b : RamBuffer g) : Prop :=
  ∀ slot < g.nSlots, ∀ m < g.nModules, 1 ≤ m → b.cellData slot m = b₀.cellData slot m

theorem TailKept.store {b₀ b : RamBuffer g} (h : TailKept b₀ b) {slot : Nat} (hs : slot < g.nSlots)
    (frameMeta : ModuleFrame) (data : ModuleData) : TailKept b₀ (b.storeCell slot 0 frameMeta data) := by
  intro slot' hs' m hm hpos
  have hne : ¬ (slot' = slot ∧ m = 0) := fun heq => by omega
  rw [(cell_storeCell_other b frameMeta data hs g.nModules_pos hs' hm hne).2]
  exact h slot' hs' m hm hpos

/-- A returned frame goes to module 0. -/
theorem writeFrame_filled {copied : List JfjochPacket} {f : Frame} (h : Filled copied f)
    (hpulse : f.metadata.pulseId ≠ 0) (b : RamBuffer g) :
    b.writeFrame f.metadata (moduleData f) =
      some (b.storeCell (g.slotN f.metadata.pulseId) 0 f.metadata (moduleData f)) := by
  have hid : f.metadata.moduleId = 0 := by
    rcases List.eq_nil_or_concat copied with rfl | ⟨pre, p, rfl⟩
    · exact absurd (h.pulseId rfl) hpulse
    · rw [List.concat_eq_append] at h
      exact (h.last p List.getLast?_concat).2.2.2
  have hzero : f.metadata.moduleId.toNat = 0 := by
    rw [hid]
    rfl
  have hm : f.metadata.moduleId.toNat < g.nModules := by
    rw [hzero]
    exact g.nModules_pos
  rw [writeFrame_eq b _ hm, hzero]

/-- The loop of `mainLoop`: its sends are those with the RAM buffer. -/
theorem ramLoop_published : ∀ (n : Nat) (r : JfjFrameUdpReceiver) (f : Frame) (previous : FrameMark)
    (b : RamBuffer g) (evs : List RecvMany), r.mBuffer.WF →
    (∀ p ∈ r.mBuffer.content ++ received evs, p.packetnum.toNat < jfjochNPacketsPerFrame) →
      (ramLoop n r f previous b evs).map (fun s => (⟨s.frame, s.imageMeta⟩ : Published)) =
        mainLoop n r f previous evs
  | 0, _, _, _, _, _, _, _ => rfl
  | n + 1, r, f, previous, b, evs, hw, hnum => by
    have h := getFrameFromUdp_keeps filled_kept hw f evs hnum
    unfold ramLoop mainLoop
    cases hout : getFrameFromUdp r f evs with
    | threw e => rfl
    | receiving r' f' log => rfl
    | returned pulseId r' f' log rest =>
      rw [hout] at h
      cases h with
      | returned read hw' hf hpulse hps hsub =>
        have hnum' : ∀ p ∈ r'.mBuffer.content ++ received rest, p.packetnum.toNat < jfjochNPacketsPerFrame :=
          fun p hp => hnum p (by rw [hps]; exact List.mem_append_right _ hp)
        simp only [writeFrame_filled hf hpulse]
        split
        · exact ramLoop_published n r' f' _ b rest hw' hnum'
        · rw [List.map_cons, ramLoop_published n r' f' _ _ rest hw' hnum']

/-! ## What is sent -/

/-- Each message describes a frame with the packets that were copied, stored in module 0 of its slot. -/
structure SentSpec (b₀ : RamBuffer g) (s : Sent g) : Prop where
  filled : Filled s.copied s.frame
  imageMeta : s.imageMeta = JfjRecv.imageMeta s.frame.metadata
  buffer : ∃ b, TailKept b₀ b ∧
    s.buffer = b.storeCell (g.slotN s.frame.metadata.pulseId) 0 s.frame.metadata (moduleData s.frame)

/-- The messages of the loop are those of the frames that the packets close and that follow the frame before. -/
theorem ramLoop_spec (b₀ : RamBuffer g) : ∀ (n : Nat) (r : JfjFrameUdpReceiver) (f : Frame) (previous : FrameMark)
    (b : RamBuffer g) (evs : List RecvMany), r.mBuffer.WF →
    (∀ p ∈ r.mBuffer.content ++ received evs, p.packetnum.toNat < jfjochNPacketsPerFrame) → TailKept b₀ b →
      List.Forall₂ (fun s group => SentSpec b₀ s ∧ s.copied = group) (ramLoop n r f previous b evs)
        (accepted previous ((groups ⟨r.mFrameIndex, []⟩ (r.mBuffer.content :: batches evs)).take n))
  | 0, _, _, _, _, _, _, _, _ => .nil
  | n + 1, r, f, previous, b, evs, hw, hnum, hb => by
    have h := getFrameFromUdp_keeps filled_kept hw f evs hnum
    have hgroups := getFrameFromUdp_groups hw f evs hnum
    unfold ramLoop
    cases hout : getFrameFromUdp r f evs with
    | threw e =>
      rw [hout] at h
      cases h
    | receiving r' f' log =>
      rw [hout] at hgroups
      cases hgroups with
      | receiving hgroups =>
        rw [hgroups]
        exact .nil
    | returned pulseId r' f' log rest =>
      rw [hout] at h hgroups
      cases h with
      | returned read hw' hf hpulse hps hsub =>
        cases hgroups with
        | returned hgroups =>
          have hnum' : ∀ p ∈ r'.mBuffer.content ++ received rest, p.packetnum.toNat < jfjochNPacketsPerFrame :=
            fun p hp => hnum p (by rw [hps]; exact List.mem_append_right _ hp)
          have hmark : groupMark log.copied = ⟨f'.metadata.pulseId, f'.metadata.frameIndex⟩ :=
            hf.mark fun hnil => hpulse (hf.pulseId hnil)
          rw [hgroups, List.take_succ_cons, accepted_cons, hmark]
          simp only [writeFrame_filled hf hpulse]
          split
          · exact ramLoop_spec b₀ n r' f' _ b rest hw' hnum' hb
          · exact .cons ⟨⟨hf, rfl, b, hb, rfl⟩, rfl⟩
              (ramLoop_spec b₀ n r' f' _ _ rest hw' hnum' (hb.store (slotN_lt _) _ _))

/-! ## Good images -/

/-- The image that was announced is complete in the RAM buffer. -/
structure CompleteImage (s : Sent g) : Prop where
  packets : s.frame.metadata.nRecvPackets.toNat = jfjochNPacketsPerFrame
  image : ∃ image, s.buffer.load (s.buffer.readImage s.imageMeta.pulseId) jfjochDataBytesPerFrame = some image ∧
    ∀ k, image k = s.frame.frameBuffer k

/-- A byte of a frame with the packets `copied`. -/
def pixel (copied : List JfjochPacket) (a : Nat) : UInt8 :=
  block copied (a / jfjochDataBytesPerPacket) ⟨a % jfjochDataBytesPerPacket, Nat.mod_lt _ (by decide)⟩

/-- Module `m` of a frame with the packets `copied`. -/
def moduleOf (copied : List JfjochPacket) (m : Nat) : ModuleData := fun k => pixel copied (m * moduleNBytes + k)

theorem Filled.frameBuffer {copied : List JfjochPacket} {f : Frame} (h : Filled copied f) {a : Nat}
    (ha : a < jfjochDataBytesPerFrame) : f.frameBuffer a = pixel copied a := by
  have hj : a / jfjochDataBytesPerPacket < jfjochNPacketsPerFrame := by
    simp only [jfjochDataBytesPerFrame, jfjochNPacketsPerFrame, jfjochDataBytesPerPacket, jfjochNModules] at ha ⊢
    omega
  have hblock := congrFun (h.blocks _ hj) ⟨a % jfjochDataBytesPerPacket, Nat.mod_lt _ (by decide)⟩
  unfold Memory.read at hblock
  rw [Nat.div_add_mod'] at hblock
  exact hblock

/-- The packets of a frame number 4096, and what the slot of its pulse_id held of the modules 1 to 31 when the
loop started is what the packets hold of them. -/
structure Fits (b₀ : RamBuffer g) (group : List JfjochPacket) : Prop where
  packets : (UInt64.ofNat group.length).toNat = jfjochNPacketsPerFrame
  modules : ∀ m < jfjochNModules, 1 ≤ m → b₀.cellData (g.slotN (groupMark group).pulseId) m = moduleOf group m

theorem frame_within {m : Nat} (hm : m < jfjochNModules) (k : Fin moduleNBytes) :
    m * moduleNBytes + (k : Nat) < jfjochDataBytesPerFrame := by
  have hle := Memory.cell_within (n := moduleNBytes) hm
  have hk := k.isLt
  simp only [jfjochDataBytesPerFrame, jfjochNModules, moduleNBytes] at hle hk ⊢
  omega

/-- The image of a slot consists of the cells of its modules. -/
theorem Sent.image_modules (s : Sent g) (hg : g.nModules = jfjochNModules) :
    ∃ image, s.buffer.load (s.buffer.readImage s.imageMeta.pulseId) jfjochDataBytesPerFrame = some image ∧
      ∀ m < jfjochNModules, ∀ (k : Fin moduleNBytes) (hk : m * moduleNBytes + (k : Nat) < jfjochDataBytesPerFrame),
        image ⟨m * moduleNBytes + k, hk⟩ = s.buffer.cellData (g.slotN s.imageMeta.pulseId) m k := by
  have hself : Refines s.buffer fun slot m => (s.buffer.cellMeta slot m, s.buffer.cellData slot m) :=
    ⟨fun _ _ _ _ => rfl, fun _ _ _ _ => rfl⟩
  have hbytes : g.imageBytes = jfjochDataBytesPerFrame := by
    rw [imageBytes_eq, hg]
    decide
  have hread := hself.readImage s.imageMeta.pulseId
  rw [hbytes, hg] at hread
  obtain ⟨image, hload, hcells⟩ := hread
  refine ⟨image, hload, fun m hm k hk => ?_⟩
  obtain ⟨_, hcell⟩ := hcells m hm k
  exact hcell

section

variable {b₀ : RamBuffer g} {s : Sent g} (h : SentSpec b₀ s)

include h

theorem SentSpec.pulseId : s.imageMeta.pulseId = s.frame.metadata.pulseId := by
  rw [h.imageMeta]
  rfl

/-- Module 0 is the part of the frame that was written. -/
theorem SentSpec.cellData_zero : s.buffer.cellData (g.slotN s.imageMeta.pulseId) 0 = moduleOf s.copied 0 := by
  obtain ⟨b, -, hbuffer⟩ := h.buffer
  rw [hbuffer, h.pulseId, (cell_storeCell_same b _ _ (slotN_lt _) g.nModules_pos).2]
  funext k
  have hk := frame_within (by decide : 0 < jfjochNModules) k
  have hbyte := h.filled.frameBuffer hk
  rw [Nat.zero_mul, Nat.zero_add] at hbyte
  unfold moduleData moduleOf
  rw [hbyte, Nat.zero_mul, Nat.zero_add]

/-- The other modules are never written. -/
theorem SentSpec.cellData_tail {m : Nat} (hm : m < g.nModules) (hpos : 1 ≤ m) :
    s.buffer.cellData (g.slotN s.imageMeta.pulseId) m = b₀.cellData (g.slotN s.imageMeta.pulseId) m := by
  obtain ⟨b, hb, hbuffer⟩ := h.buffer
  rw [hbuffer]
  exact hb.store (slotN_lt _) _ _ _ (slotN_lt _) m hm hpos

end

theorem SentSpec.complete_iff {b₀ : RamBuffer g} {s : Sent g} (h : SentSpec b₀ s) (hg : g.nModules = jfjochNModules) :
    CompleteImage s ↔ Fits b₀ s.copied := by
  have hpulseId : (groupMark s.copied).pulseId = s.imageMeta.pulseId := h.filled.markPulse.trans h.pulseId.symm
  obtain ⟨image, hload, hcells⟩ := s.image_modules hg
  have hcount : s.frame.metadata.nRecvPackets = UInt64.ofNat s.copied.length := h.filled.count
  -- the image is the frame if its modules are
  have himage : (∀ k, image k = s.frame.frameBuffer k) ↔
      ∀ m < jfjochNModules, s.buffer.cellData (g.slotN s.imageMeta.pulseId) m = moduleOf s.copied m := by
    constructor
    · intro hall m hm
      funext k
      have hk := frame_within hm k
      rw [← hcells m hm k hk, hall, h.filled.frameBuffer hk]
      rfl
    · intro hmodules
      have hall : ∀ a < jfjochNModules * moduleNBytes, ∀ ha : a < jfjochDataBytesPerFrame,
          image ⟨a, ha⟩ = s.frame.frameBuffer a := by
        rw [Memory.forall_cells]
        intro m hm k hk ha
        rw [hcells m hm ⟨k, hk⟩ ha, hmodules m hm, h.filled.frameBuffer ha]
        rfl
      exact fun k => hall k k.isLt k.isLt
  constructor
  · rintro ⟨hpackets, image', hload', hall⟩
    obtain rfl := Option.some.inj (hload.symm.trans hload')
    refine ⟨by rw [← hcount]; exact hpackets, fun m hm hpos => ?_⟩
    rw [hpulseId, ← h.cellData_tail (hg ▸ hm) hpos]
    exact himage.1 hall m hm
  · rintro ⟨hpackets, hmodules⟩
    rw [hpulseId] at hmodules
    refine ⟨by rw [hcount]; exact hpackets, image, hload, himage.2 fun m hm => ?_⟩
    rcases Nat.eq_zero_or_pos m with rfl | hpos
    · exact h.cellData_zero
    · rw [h.cellData_tail (hg ▸ hm) hpos]
      exact hmodules m hm hpos

/-- In any run of the loop every image is announced as good, and the announcement is right exactly when the
packets of the frame fit what the buffer held. So all of them are right if and only if each frame that the
packets close and that follows the frame before fits. -/
theorem good_image_complete_iff (b₀ : RamBuffer g) (hg : g.nModules = jfjochNModules) (m : UInt64)
    (container : Fin bufferUdpNRecvMsg → JfjochPacket) (f : Frame) (previous : FrameMark) (evs : List RecvMany)
    (hnum : ∀ p ∈ received evs, p.packetnum.toNat < jfjochNPacketsPerFrame) (n : Nat) :
    let sent := ramLoop n (.new m container) f previous b₀ evs
    let frames := accepted previous ((groups ⟨m, []⟩ (batches evs)).take n)
    List.Forall₂ (fun s group => s.imageMeta.isGoodImage = 1 ∧ s.imageMeta.pulseId = (groupMark group).pulseId ∧
      (CompleteImage s ↔ Fits b₀ group)) sent frames ∧
    ((∀ s ∈ sent, CompleteImage s) ↔ ∀ group ∈ frames, Fits b₀ group) := by
  intro sent frames
  have hspec : List.Forall₂ (fun s group => SentSpec b₀ s ∧ s.copied = group) sent frames :=
    ramLoop_spec b₀ n (.new m container) f previous b₀ evs (PacketBuffer.new_wf container) hnum (fun _ _ _ _ _ => rfl)
  have hsent : List.Forall₂ (fun s group => s.imageMeta.isGoodImage = 1 ∧
      s.imageMeta.pulseId = (groupMark group).pulseId ∧ (CompleteImage s ↔ Fits b₀ group)) sent frames := by
    apply hspec.imp
    rintro s _ ⟨h, rfl⟩
    refine ⟨?_, ?_, h.complete_iff hg⟩
    · rw [h.imageMeta]
      rfl
    · rw [h.filled.markPulse, h.pulseId]
  refine ⟨hsent, fun hall group hgroup => ?_, fun hall s hs => ?_⟩
  · obtain ⟨s, hs, -, -, hiff⟩ := Streams.forall₂_mem_right hsent hgroup
    exact hiff.1 (hall s hs)
  · obtain ⟨group, hgroup, -, -, hiff⟩ := Streams.forall₂_mem_left hsent hs
    exact hiff.2 (hall group hgroup)

/-- A new buffer fits each frame of 4096 packets in which only module 0 has pixels that are not 0. -/
theorem fits_new {group : List JfjochPacket} (hlength : group.length = jfjochNPacketsPerFrame)
    (hzero : ∀ p ∈ group, 128 ≤ p.packetnum.toNat → p.data = fun _ => 0) (hg : g.nModules = jfjochNModules) :
    Fits (.new g) group := by
  refine ⟨by rw [hlength]; rfl, fun m hm hpos => ?_⟩
  have hnew : (RamBuffer.new g).cellData (g.slotN (groupMark group).pulseId) m = fun _ => 0 :=
    refines_new.data _ (slotN_lt _) m (hg ▸ hm)
  rw [hnew]
  funext k
  have hj : 128 ≤ (m * moduleNBytes + (k : Nat)) / jfjochDataBytesPerPacket := by
    simp only [moduleNBytes, jfjochDataBytesPerPacket]
    omega
  unfold moduleOf pixel block
  cases hfind : group.reverse.find? _ with
  | none => rfl
  | some p =>
    have hp : p ∈ group := List.mem_reverse.1 (List.mem_of_find?_eq_some hfind)
    have hnum : p.packetnum.toNat = (m * moduleNBytes + (k : Nat)) / jfjochDataBytesPerPacket := by
      simpa using List.find?_some hfind
    exact (congrFun (hzero p hp (hj.trans_eq hnum.symm)) _).symm

/-- All modules and one slot. -/
def allModules : Geometry := .checked 32 1 (@rfl Bool true)

/-- Packet `k` of frame 1: the pixels of module 0 are 7, those of the other modules 0. -/
def packetOfFull (k : Nat) : JfjochPacket := ⟨1, UInt32.ofNat k, 1, 0, fun _ => if k < 128 then 7 else 0⟩

/-- The `n` packets from packet `k` on. -/
def packetsOfFull (k n : Nat) : List JfjochPacket := (List.range n).map fun i => packetOfFull (k + i)

/-- All packets of frame 1 arrive, 128 with each `receive_many`. -/
def fullFrame : List RecvMany := (List.range 32).map fun b => .msgs (packetsOfFull (128 * b) 128) (by simp [packetsOfFull])

theorem batches_fullFrame : batches fullFrame =
    ((List.range 31).map fun b => packetsOfFull (128 * b) 128) ++ [packetsOfFull 3968 127 ++ [packetOfFull 4095]] := by
  have hlast : packetsOfFull (128 * 31) 128 = packetsOfFull 3968 127 ++ [packetOfFull 4095] := by
    unfold packetsOfFull
    rw [List.range_succ, List.map_append]
    rfl
  unfold batches fullFrame
  rw [List.map_map, List.range_succ, List.map_append, List.map_singleton]
  exact congrArg (_ ++ [·]) hlast

theorem mem_packetsOfFull {k n : Nat} {p : JfjochPacket} (h : p ∈ packetsOfFull k n) :
    ∃ i < n, p = packetOfFull (k + i) := by
  obtain ⟨i, hi, rfl⟩ := List.mem_map.1 h
  exact ⟨i, List.mem_range.1 hi, rfl⟩

theorem packetnum_full {k : Nat} (hk : k < 4096) : (packetOfFull k).packetnum.toNat = k :=
  UInt32.toNat_ofNat_of_lt' (hk.trans (by decide))

/-- The packets of the frame, up to the last one. -/
def beforeLast : List JfjochPacket :=
  ((List.range 31).map fun b => packetsOfFull (128 * b) 128).flatten ++ packetsOfFull 3968 127

/-- They are one frame. -/
theorem groups_fullFrame : groups ⟨1, []⟩ (batches fullFrame) = [beforeLast ++ [packetOfFull 4095]] ∧
    (beforeLast ++ [packetOfFull 4095]).length = jfjochNPacketsPerFrame ∧
      ∀ p ∈ beforeLast ++ [packetOfFull 4095], ∃ k < 4096, p = packetOfFull k := by
  have hbefore : ∀ p ∈ beforeLast, ∃ k < 4095, p = packetOfFull k := by
    intro p hp
    rcases List.mem_append.1 hp with hp | hp
    · obtain ⟨_, hbatch, hp⟩ := List.mem_flatten.1 hp
      obtain ⟨b, hb, rfl⟩ := List.mem_map.1 hbatch
      obtain ⟨i, hi, rfl⟩ := mem_packetsOfFull hp
      have hb := List.mem_range.1 hb
      exact ⟨_, by omega, rfl⟩
    · obtain ⟨i, hi, rfl⟩ := mem_packetsOfFull hp
      exact ⟨_, by omega, rfl⟩
  refine ⟨?_, ?_, ?_⟩
  · rw [batches_fullFrame]
    refine groups_ofFrame ⟨1, []⟩ (fun p hp => ?_) rfl rfl (by decide)
    obtain ⟨k, hk, rfl⟩ := hbefore p hp
    refine ⟨rfl, fun hend => ?_⟩
    have hnum := packetnum_full (hk.trans (Nat.lt_succ_self _))
    rw [endsFrame, hnum] at hend
    exact absurd hend (Nat.ne_of_lt hk)
  · simp [beforeLast, packetsOfFull, Function.comp_def, jfjochNPacketsPerFrame, jfjochNModules]
  · intro p hp
    rcases List.mem_append.1 hp with hp | hp
    · obtain ⟨k, hk, rfl⟩ := hbefore p hp
      exact ⟨k, hk.trans (Nat.lt_succ_self _), rfl⟩
    · exact ⟨4095, by decide, List.mem_singleton.1 hp⟩

/-- A full frame in which only module 0 has pixels that are not 0 is announced with the image that was assembled. -/
theorem good_image_complete_iff_full : ∃ s,
    ramLoop 1 (.new 1 fun _ => bare 0 0 0) ⟨.zero, fun _ => 0⟩ ⟨0, 0⟩ (.new allModules) fullFrame = [s] ∧
      s.imageMeta.pulseId = 1 ∧ s.imageMeta.isGoodImage = 1 ∧ CompleteImage s := by
  have hnum : ∀ p ∈ received fullFrame, p.packetnum.toNat < jfjochNPacketsPerFrame := by
    intro p hp
    obtain ⟨_, hev, hp⟩ := List.mem_flatMap.1 hp
    obtain ⟨b, hb, rfl⟩ := List.mem_map.1 hev
    obtain ⟨i, hi, rfl⟩ := mem_packetsOfFull hp
    have hb := List.mem_range.1 hb
    have hk : 128 * b + i < 4096 := by omega
    exact (packetnum_full hk).trans_lt hk
  obtain ⟨hgroups, hlength, hpackets⟩ := groups_fullFrame
  have hmark : groupMark (beforeLast ++ [packetOfFull 4095]) = ⟨1, 1⟩ := groupMark_concat _ _
  obtain ⟨hsent, -⟩ := good_image_complete_iff (.new allModules) rfl 1 (fun _ => bare 0 0 0) ⟨.zero, fun _ => 0⟩ ⟨0, 0⟩
    fullFrame hnum 1
  have hgood : badPulseId ⟨0, 0⟩ ⟨1, 1⟩ = false := by decide
  rw [hgroups, List.take_succ_cons, accepted_cons, hmark, hgood] at hsent
  obtain ⟨s, rest, ⟨hisGood, hpulse, hiff⟩, hrest, hs⟩ := List.forall₂_cons_right_iff.1 hsent
  cases hrest
  refine ⟨s, hs, hpulse.trans (by rw [hmark]), hisGood, hiff.2 (fits_new hlength (fun p hp h128 => ?_) rfl)⟩
  obtain ⟨k, hk, rfl⟩ := hpackets p hp
  rw [packetnum_full hk] at h128
  funext a
  exact if_neg (Nat.not_lt.2 h128)

/-- Of frame 1 arrive the first packet of module 1, filled with 7, and the last packet. -/
def twoPackets : List RecvMany := [.msgs [⟨1, 128, 1, 0, fun _ => 7⟩, bare 1 4095 1] (by decide)]

def sentOfTwo : List (Sent allModules) :=
  ramLoop 1 (.new 1 fun _ => bare 0 0 0) ⟨.zero, fun _ => 0⟩ ⟨0, 0⟩ (.new _) twoPackets

theorem sentOfTwo_observed :
    sentOfTwo.map (fun s => (s.imageMeta.pulseId, s.frame.metadata.nRecvPackets, s.frame.frameBuffer moduleNBytes,
      s.buffer.cellData 0 1 ⟨0, by decide⟩)) = [(1, 2, 7, 0)] := by
  decide +kernel

/-- Two of 4096 packets make a good image, and the pixels of module 1 are not in the buffer. -/
theorem incomplete_image_announced : ∃ s ∈ sentOfTwo, s.imageMeta.isGoodImage = 1 ∧ s.imageMeta.pulseId = 1 ∧
    s.frame.frameBuffer moduleNBytes = 7 ∧ s.buffer.cellData 0 1 ⟨0, by decide⟩ = 0 ∧ ¬ CompleteImage s := by
  obtain ⟨s, hs, hobs⟩ := List.mem_map.1 (sentOfTwo_observed ▸ List.mem_singleton.2 rfl)
  simp only [Prod.mk.injEq] at hobs
  obtain ⟨hpulse, hpackets, hframe, hcell⟩ := hobs
  obtain ⟨_, -, hspec, -⟩ := Streams.forall₂_mem_left (ramLoop_spec (.new allModules) 1 (.new 1 fun _ => bare 0 0 0)
    ⟨.zero, fun _ => 0⟩ ⟨0, 0⟩ _ twoPackets (PacketBuffer.new_wf _) (by decide) fun _ _ _ _ _ => rfl) hs
  refine ⟨s, hs, by rw [hspec.imageMeta]; rfl, hpulse, hframe, hcell, fun hcomplete => ?_⟩
  have hcount := hcomplete.packets
  rw [hpackets] at hcount
  revert hcount
  decide

end SfDaqBuffer.JfjRecv
