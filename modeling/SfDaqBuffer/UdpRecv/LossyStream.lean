/-
A stream of frames of which packets get lost, but no frame completely. jf-udp-recv writes and
announces all of its frames in order: a frame whose last packet is lost is closed by the next
frame, so only the last one can stay open, and only the first one can be out of step with what
the loop remembers.
-/
import SfDaqBuffer.UdpRecv.Main

namespace SfDaqBuffer.UdpRecv

/-! ## The stream -/

/-- The packets of a frame in the order in which they are sent, and the ones that arrive. -/
structure LossyFrame where
  framenum : UInt64
  pulseId : UInt64
  packet : Fin jfNPacketsPerFrame → JungfrauPacket
  arrives : Fin jfNPacketsPerFrame → Bool
  packet_framenum : ∀ k, (packet k).framenum = framenum
  packet_bunchid : ∀ k, (packet k).bunchid.toUInt64 = pulseId
  packet_packetnum : ∀ k, (packet k).packetnum.toNat = k
  some_arrives : ∃ k, arrives k = true

/-- The packet that ends a frame. -/
def finalPacket : Fin jfNPacketsPerFrame := ⟨jfNPacketsPerFrame - 1, by decide⟩

namespace LossyFrame

def arrived (fr : LossyFrame) : List JungfrauPacket :=
  ((List.finRange jfNPacketsPerFrame).filter fr.arrives).map fr.packet

/-- `b` is the trigger after `a`. -/
structure Follows (a b : LossyFrame) : Prop where
  framenum : b.framenum.toNat = a.framenum.toNat + 1
  pulse_lt : a.pulseId.toNat < b.pulseId.toNat
  pulse_le : b.pulseId.toNat ≤ a.pulseId.toNat + 1000

/-- The frames of consecutive triggers. -/
structure InStep (frames : List LossyFrame) : Prop where
  follows : frames.IsChain Follows
  pulse_pos : ∀ fr ∈ frames, 0 < fr.pulseId.toNat

/-- The frames that the stream closes. -/
def closedFrames (frames : List LossyFrame) : List LossyFrame :=
  Grouping.completed (·.arrives finalPacket) frames

/-- The frame is written with what has arrived of it, and announced. -/
structure PublishedAs (moduleId : Int) (fr : LossyFrame) (out : Published) : Prop where
  announced : out.announced = fr.pulseId
  pulseId : out.written.metadata.pulseId = fr.pulseId
  frameIndex : out.written.metadata.frameIndex = fr.framenum
  nRecvPackets : out.written.metadata.nRecvPackets.toNat = fr.arrived.length
  moduleId : out.written.metadata.moduleId = UInt64.ofInt moduleId
  blocks : ∀ k : Fin jfNPacketsPerFrame,
    frameBlock out.written k = if fr.arrives k then (fr.packet k).data else fun _ => 0

/-! ## The packets of one frame -/

variable (fr : LossyFrame)

theorem mem_arrived {p : JungfrauPacket} :
    p ∈ fr.arrived ↔ ∃ k, fr.arrives k = true ∧ fr.packet k = p := by
  simp [arrived]

theorem arrived_length_le : fr.arrived.length ≤ jfNPacketsPerFrame := by
  unfold arrived
  rw [List.length_map]
  exact (List.length_filter_le ..).trans_eq List.length_finRange

theorem framenum_of_mem {p : JungfrauPacket} (h : p ∈ fr.arrived) : p.framenum = fr.framenum := by
  obtain ⟨k, -, rfl⟩ := fr.mem_arrived.1 h
  exact fr.packet_framenum k

theorem lastPacket_packet (k : Fin jfNPacketsPerFrame) :
    lastPacket (fr.packet k) = decide (k = finalPacket) := by
  unfold lastPacket
  rw [fr.packet_packetnum k, Bool.eq_iff_iff, beq_iff_eq, decide_eq_true_iff, Fin.ext_iff]
  rfl

theorem any_lastPacket : fr.arrived.any lastPacket = fr.arrives finalPacket := by
  rw [Bool.eq_iff_iff, List.any_eq_true]
  constructor
  · rintro ⟨p, hp, hlast⟩
    obtain ⟨k, hk, rfl⟩ := fr.mem_arrived.1 hp
    rw [lastPacket_packet, decide_eq_true_iff] at hlast
    rwa [hlast] at hk
  · intro h
    refine ⟨fr.packet finalPacket, fr.mem_arrived.2 ⟨_, h, rfl⟩, ?_⟩
    rw [lastPacket_packet, decide_eq_true_iff]

theorem isGroup_arrived : Grouping.IsGroup otherFrame lastPacket fr.arrived := by
  constructor
  · obtain ⟨k, hk⟩ := fr.some_arrives
    exact List.ne_nil_of_mem (fr.mem_arrived.2 ⟨k, hk, rfl⟩)
  · intro p hp q hq
    simp [otherFrame, fr.framenum_of_mem hp, fr.framenum_of_mem hq]
  · refine List.pairwise_map.2 ((List.pairwise_lt_finRange _).filter _ |>.imp ?_)
    intro k k' hlt
    rw [lastPacket_packet, decide_eq_false_iff_not]
    rintro rfl
    exact absurd hlt (not_lt.2 (Nat.le_sub_one_of_lt k'.2))

theorem regular_of_mem (hpos : 0 < fr.pulseId.toNat) {p : JungfrauPacket} (h : p ∈ fr.arrived) :
    Regular p := by
  obtain ⟨k, -, rfl⟩ := fr.mem_arrived.1 h
  constructor
  · rw [fr.packet_packetnum k]
    exact k.2
  · rw [fr.packet_bunchid k]
    rintro h0
    rw [h0] at hpos
    exact absurd hpos (by decide)

theorem groupBlock_arrived (k : Fin jfNPacketsPerFrame) :
    groupBlock fr.arrived k = if fr.arrives k then (fr.packet k).data else fun _ => 0 := by
  unfold groupBlock
  cases hlast : (fr.arrived.filter fun p => p.packetnum.toNat == (k : Nat)).getLast? with
  | some p =>
    obtain ⟨hp, hnum⟩ := List.mem_filter.1 (List.mem_of_getLast? hlast)
    obtain ⟨j, hj, rfl⟩ := fr.mem_arrived.1 hp
    rw [fr.packet_packetnum j, beq_iff_eq] at hnum
    obtain rfl := Fin.ext hnum
    rw [if_pos hj]
  | none =>
    rw [List.getLast?_eq_none_iff, List.filter_eq_nil_iff] at hlast
    have hk : fr.arrives k ≠ true := by
      intro hk
      refine hlast _ (fr.mem_arrived.2 ⟨k, hk, rfl⟩) ?_
      rw [fr.packet_packetnum k, beq_self_eq_true]
    rw [if_neg hk]

theorem groupFrame_arrived (moduleId : Int) {out : UInt64 × Frame}
    (h : view out = groupFrame moduleId fr.arrived) : PublishedAs moduleId fr ⟨out.2, out.1⟩ := by
  have hblocks := fr.groupBlock_arrived
  have hlen := fr.arrived_length_le
  have hmem := fun p (hp : p ∈ fr.arrived) => fr.mem_arrived.1 hp
  obtain ⟨p, ps, hps⟩ := List.exists_cons_of_ne_nil fr.isGroup_arrived.ne_nil
  rw [hps] at h hblocks hlen hmem
  obtain ⟨k, -, rfl⟩ := hmem p (List.mem_cons_self ..)
  simp only [view, groupFrame, Received.mk.injEq] at h
  obtain ⟨hpulse, hmeta, hview⟩ := h
  constructor
  · exact hpulse.trans (fr.packet_bunchid k)
  · exact (congrArg ModuleFrame.pulseId hmeta).trans (fr.packet_bunchid k)
  · exact (congrArg ModuleFrame.frameIndex hmeta).trans (fr.packet_framenum k)
  · have hn : (UInt64.ofNat (ps.length + 1)).toNat = ps.length + 1 :=
      UInt64.toNat_ofNat_of_lt' (hlen.trans_lt (by decide))
    rw [hps]
    exact (congrArg (UInt64.toNat ∘ ModuleFrame.nRecvPackets) hmeta).trans hn
  · exact congrArg ModuleFrame.moduleId hmeta
  · intro j
    exact (congrFun hview j).trans (hblocks j)

/-! ## The stream of packets -/

variable {fr}

theorem closedGroups_arrived {frames : List LossyFrame} (h : frames.IsChain Follows) :
    closedGroups (frames.flatMap arrived) = (closedFrames frames).map arrived := by
  unfold closedGroups closedFrames
  rw [List.flatMap_def, Grouping.closed_flatten, Grouping.completed_map]
  · congr 2
    funext fr
    exact fr.any_lastPacket
  · intro g hg
    obtain ⟨fr, -, rfl⟩ := List.mem_map.1 hg
    exact fr.isGroup_arrived
  · refine (List.isChain_map _).2 (h.imp ?_)
    intro a b hab p hp q hq
    have hne : a.framenum ≠ b.framenum := by
      intro heq
      have := hab.framenum
      rw [heq] at this
      omega
    simpa [otherFrame, a.framenum_of_mem hp, b.framenum_of_mem hq] using hne

def mark (fr : LossyFrame) : FrameMark := ⟨fr.pulseId, fr.framenum⟩

/-- The frame of the next trigger passes the test of the loop. -/
theorem badPulseId_follows {a b : LossyFrame} (h : Follows a b) : badPulseId a.mark b.mark = false := by
  have hle : a.pulseId ≤ b.pulseId := UInt64.le_iff_toNat_le.2 h.pulse_lt.le
  have hsub := UInt64.toNat_sub_of_le _ _ hle
  have hlt := h.pulse_lt
  have hmax := h.pulse_le
  have hindex : b.framenum = a.framenum + 1 := by
    apply UInt64.toNat_inj.1
    have hb := UInt64.toNat_lt b.framenum
    have hnum := h.framenum
    rw [UInt64.toNat_add, UInt64.toNat_one]
    omega
  have hpos : ¬ b.pulseId - a.pulseId ≤ 0 := by
    rw [UInt64.le_iff_toNat_le, hsub, UInt64.toNat_zero]
    omega
  have hnear : ¬ b.pulseId - a.pulseId > 1000 := by
    rw [gt_iff_lt, UInt64.lt_iff_toNat_lt, hsub]
    have : (1000 : UInt64).toNat = 1000 := rfl
    omega
  simp [badPulseId, mark, hindex, hpos, hnear]

end LossyFrame

/-! ## The frames that are published -/

open LossyFrame

/-- A call returns the frame of each closed frame of the stream. -/
theorem calls_lossy (moduleId : Int) (slots : List JungfrauPacket) (f : Frame) {evs : List RecvMany}
    {frames : List LossyFrame} (h : InStep frames) (hevs : received evs = frames.flatMap arrived)
    {n : Nat} (hn : frames.length ≤ n) :
    List.Forall₂ (fun fr out => PublishedAs moduleId fr ⟨out.2, out.1⟩) (closedFrames frames)
      (calls n (.new moduleId slots) f evs) := by
  have hreg : ∀ p ∈ received evs, Regular p := by
    intro p hp
    rw [hevs] at hp
    obtain ⟨fr, hfr, hp⟩ := List.mem_flatMap.1 hp
    exact fr.regular_of_mem (h.pulse_pos fr hfr) hp
  have hcalls := calls_closedGroups moduleId slots f hreg n
  have hlen : ((closedFrames frames).map arrived).length ≤ n := by
    rw [List.length_map]
    exact (Grouping.completed_prefix _ frames).length_le.trans hn
  rw [hevs, closedGroups_arrived h.follows, List.take_of_length_le hlen, List.map_map,
    ← List.forall₂_eq_eq_eq, List.forall₂_map_left_iff, List.forall₂_map_right_iff] at hcalls
  exact hcalls.flip.imp fun fr out hout => fr.groupFrame_arrived moduleId hout

/-- The marks of the returned frames are those of the closed frames, so all but the first pass the
test of the loop. -/
theorem calls_chain {moduleId : Int} {frames : List LossyFrame} {outs : List (UInt64 × Frame)}
    (hchain : frames.IsChain Follows)
    (houts : List.Forall₂ (fun fr out => PublishedAs moduleId fr ⟨out.2, out.1⟩) frames outs) :
    outs.IsChain fun a b => badPulseId (callMark a) (callMark b) = false := by
  have hmarks : outs.map callMark = frames.map LossyFrame.mark := by
    rw [← List.forall₂_eq_eq_eq, List.forall₂_map_left_iff, List.forall₂_map_right_iff]
    refine houts.flip.imp fun out fr hout => ?_
    exact congrArg₂ FrameMark.mk hout.announced hout.frameIndex
  refine (List.isChain_map (R := fun a b => badPulseId a b = false) callMark).1 ?_
  rw [hmarks, List.isChain_map]
  exact hchain.imp fun _ _ => badPulseId_follows

/-- However the packets that arrive are delivered, the loop writes and announces the closed frames
of the stream, each of them once and in order. It can leave out the first one. -/
theorem mainLoop_lossy (moduleId : Int) (slots : List JungfrauPacket) (f : Frame) (evs : List RecvMany)
    (frames : List LossyFrame) (h : InStep frames) (hevs : received evs = frames.flatMap arrived)
    (n : Nat) (hn : frames.length ≤ n) :
    List.Forall₂ (PublishedAs moduleId) (closedFrames frames)
        (mainLoop n (.new moduleId slots) f ⟨0, 0⟩ evs) ∨
      List.Forall₂ (PublishedAs moduleId) (closedFrames frames).tail
        (mainLoop n (.new moduleId slots) f ⟨0, 0⟩ evs) := by
  have hcalls := calls_lossy moduleId slots f h hevs hn
  have hchain := calls_chain ( List.IsChain.prefix h.follows (Grouping.completed_prefix _ frames)) hcalls
  have hloop := mainLoop_calls n (.new moduleId slots) f (0, ⟨.zero, f.frameBuffer⟩) evs
  have hkept := Consecutive.kept_or_tail (0, ⟨.zero, f.frameBuffer⟩) hchain
  change mainLoop n (.new moduleId slots) f ⟨0, 0⟩ evs = _ at hloop
  rw [hloop]
  rcases hkept with hkept | hkept
  · left
    rw [hkept, List.forall₂_map_right_iff]
    exact hcalls
  · right
    rw [hkept, List.forall₂_map_right_iff]
    generalize closedFrames frames = closed at hcalls ⊢
    generalize calls n (.new moduleId slots) f evs = outs at hcalls ⊢
    cases hcalls with
    | nil => exact .nil
    | cons _ htail => exact htail

/-! ## Streams of three frames -/

theorem packetnum_toNat (k : Fin jfNPacketsPerFrame) : (UInt32.ofNat k).toNat = k :=
  UInt32.toNat_ofNat_of_lt' (k.2.trans (by decide))

/-- Frame `framenum` of which all packets arrive, filled with one value. -/
def fullFrame (framenum : UInt64) (bunchid : Double) (fill : UInt8) : LossyFrame where
  framenum := framenum
  pulseId := bunchid.toUInt64
  packet k := ⟨framenum, UInt32.ofNat k, bunchid, 0, fun _ => fill⟩
  arrives _ := true
  packet_framenum _ := rfl
  packet_bunchid _ := rfl
  packet_packetnum k := packetnum_toNat k
  some_arrives := ⟨finalPacket, rfl⟩

/-- Frame `framenum` of which the packets of `arriving` arrive. -/
def bareFrame (framenum : UInt64) (bunchid : Double) (arriving : List (Fin jfNPacketsPerFrame))
    (h : arriving ≠ []) : LossyFrame where
  framenum := framenum
  pulseId := bunchid.toUInt64
  packet k := bare framenum (UInt32.ofNat k) bunchid
  arrives k := decide (k ∈ arriving)
  packet_framenum _ := rfl
  packet_bunchid _ := rfl
  packet_packetnum k := packetnum_toNat k
  some_arrives := (List.exists_mem_of_ne_nil arriving h).imp fun _ hk => decide_eq_true hk

/-- Three frames: the second one comes without its last packet, and so does the third. -/
def threeFrames : List LossyFrame :=
  [bareFrame 8 .one [0, 127] (by decide), bareFrame 9 .two [3] (by decide),
    bareFrame 10 .three [5, 6] (by decide)]

def threeBatches : List RecvMany :=
  [.msgs [bare 8 0 .one], .error, .msgs [bare 8 127 .one,
    bare 9 3 .two, bare 10 5 .three], .msgs [],
    .msgs [bare 10 6 .three]]

/-- The first frame is out of step, the second is published, and the third stays open. -/
theorem mainLoop_lossy_three :
    List.Forall₂ (PublishedAs 3) (threeFrames.take 2)
        (mainLoop 3 (.new 3 []) ⟨.zero, fun _ => 0⟩ ⟨0, 0⟩ threeBatches) ∨
      List.Forall₂ (PublishedAs 3) (threeFrames.take 2).tail
        (mainLoop 3 (.new 3 []) ⟨.zero, fun _ => 0⟩ ⟨0, 0⟩ threeBatches) := by
  refine mainLoop_lossy 3 [] _ threeBatches threeFrames ⟨?_, ?_⟩ rfl 3 (Nat.le_refl 3)
  · refine .cons_cons ⟨?_, ?_, ?_⟩ (.cons_cons ⟨?_, ?_, ?_⟩ (.singleton _)) <;> decide
  · simp only [threeFrames, List.forall_mem_cons]
    decide

/-- A frame of which the first and the last packet arrive. -/
def edgeFrame (framenum : UInt64) (bunchid : Double) : LossyFrame := bareFrame framenum bunchid [0, 127] (by decide)

/-- Three frames: one with all its packets, one with the first and the last one, and one with the last one. -/
def partFrames (x y z : Double) : List LossyFrame :=
  [fullFrame 1 x 7, edgeFrame 2 y, bareFrame 3 z [127] (by decide)]

/-- Each frame in a batch of its own. -/
def frameBatches (frames : List LossyFrame) : List RecvMany := frames.map fun fr => .msgs fr.arrived

theorem received_frameBatches : ∀ frames : List LossyFrame, received (frameBatches frames) = frames.flatMap arrived
  | [] => rfl
  | fr :: frames => congrArg (fr.arrived ++ ·) (received_frameBatches frames)

theorem partFrames_inStep : InStep (partFrames .one .two .three) := by
  constructor
  · refine .cons_cons ⟨?_, ?_, ?_⟩ (.cons_cons ⟨?_, ?_, ?_⟩ (.singleton _)) <;> decide
  · simp only [partFrames, List.forall_mem_cons]
    decide

/-! ## All of what is published -/

namespace LossyFrame

/-- The `debug` field of the first packet that arrives. -/
def daqRec (fr : LossyFrame) : UInt64 := (fr.arrived.head?.map fun p => p.debug.toUInt64).getD 0

/-- The metadata of the frame that is written for it. -/
def metadata (moduleId : Int) (fr : LossyFrame) : ModuleFrame where
  pulseId := fr.pulseId
  frameIndex := fr.framenum
  daqRec := fr.daqRec
  nRecvPackets := UInt64.ofNat fr.arrived.length
  moduleId := UInt64.ofInt moduleId

theorem packet_lt (a : Fin moduleNBytes) : (a : Nat) / jungfrauDataBytesPerPacket < jfNPacketsPerFrame :=
  Nat.div_lt_of_lt_mul a.2

/-- The payloads that arrive, and zeros for the others. -/
def data (fr : LossyFrame) : ModuleData := fun a =>
  if fr.arrives ⟨a / jungfrauDataBytesPerPacket, packet_lt a⟩ then
    (fr.packet ⟨a / jungfrauDataBytesPerPacket, packet_lt a⟩).data
      ⟨a % jungfrauDataBytesPerPacket, Nat.mod_lt _ (by decide)⟩
  else 0

/-- What is written for it to the buffer files. -/
def record (moduleId : Int) (fr : LossyFrame) : BufferBinaryFormat :=
  ⟨formatMarkerValue, fr.metadata moduleId, fr.data⟩

theorem groupFrame_eq (moduleId : Int) (fr : LossyFrame) : groupFrame moduleId fr.arrived =
    ⟨fr.pulseId, fr.metadata moduleId, fun k => if fr.arrives k then (fr.packet k).data else fun _ => 0⟩ := by
  have hblocks := fr.groupBlock_arrived
  have hmem := fun p (hp : p ∈ fr.arrived) => fr.mem_arrived.1 hp
  unfold metadata daqRec
  obtain ⟨p, ps, hps⟩ := List.exists_cons_of_ne_nil fr.isGroup_arrived.ne_nil
  rw [hps] at hmem hblocks ⊢
  obtain ⟨k, -, rfl⟩ := hmem p (List.mem_cons_self ..)
  simp only [groupFrame, groupMetadata, fr.packet_bunchid k, fr.packet_framenum k, List.head?_cons, Option.map_some,
    Option.getD_some, List.length_cons, hblocks]

theorem arrived_length_eq (fr : LossyFrame) : fr.arrived.length = jfNPacketsPerFrame ↔ ∀ k, fr.arrives k = true := by
  have hall : fr.arrived.length = (List.finRange jfNPacketsPerFrame).length ↔ ∀ k, fr.arrives k = true := by
    unfold arrived
    rw [List.length_map, List.length_filter_eq_length_iff]
    simp
  rwa [List.length_finRange] at hall

theorem metadata_complete (moduleId : Int) (fr : LossyFrame) :
    (fr.metadata moduleId).nRecvPackets.toNat = jfNPacketsPerFrame ↔ ∀ k, fr.arrives k = true := by
  rw [← fr.arrived_length_eq]
  have hlt : fr.arrived.length < 2 ^ 64 := fr.arrived_length_le.trans_lt (by decide)
  rw [metadata, UInt64.toNat_ofNat_of_lt' hlt]

end LossyFrame

/-- The closed frames of a stream but the first one when the loop drops it: it remembers frame 0 of pulse 0
when it starts. -/
def publishedFrames (frames : List LossyFrame) : List LossyFrame :=
  match closedFrames frames with
  | [] => []
  | fr :: rest => if badPulseId ⟨0, 0⟩ fr.mark then rest else fr :: rest

theorem publishedFrames_sublist (frames : List LossyFrame) : (publishedFrames frames).Sublist frames := by
  have hclosed : (closedFrames frames).Sublist frames := (Grouping.completed_prefix _ frames).sublist
  unfold publishedFrames
  cases hframes : closedFrames frames with
  | nil => exact List.nil_sublist _
  | cons fr rest =>
    rw [hframes] at hclosed
    simp only
    split
    · exact (List.sublist_cons_self fr rest).trans hclosed
    · exact hclosed

/-- A frame goes out under its pulse_id, with its metadata and its data. -/
structure SentAs (moduleId : Int) (fr : LossyFrame) (out : Published) : Prop where
  announced : out.announced = fr.pulseId
  metadata : out.written.metadata = fr.metadata moduleId
  data : ∀ a : Fin moduleNBytes, out.written.frameBuffer a = fr.data a

theorem sentAs_of_view {moduleId : Int} {fr : LossyFrame} {out : UInt64 × Frame}
    (h : view out = groupFrame moduleId fr.arrived) : SentAs moduleId fr ⟨out.2, out.1⟩ := by
  rw [fr.groupFrame_eq] at h
  refine ⟨congrArg Received.pulseId h, congrArg Received.metadata h, fun a => ?_⟩
  have hblock := congrFun (congrFun (congrArg Received.blocks h) ⟨a / jungfrauDataBytesPerPacket, packet_lt a⟩)
    ⟨a % jungfrauDataBytesPerPacket, Nat.mod_lt _ (by decide)⟩
  simp only [view, frameBlock, Memory.read, Nat.div_add_mod'] at hblock
  rw [hblock]
  unfold LossyFrame.data
  split <;> rfl

/-- The calls return the closed frames. -/
theorem calls_stream (moduleId : Int) (slots : List JungfrauPacket) (f : Frame) {evs : List RecvMany}
    {frames : List LossyFrame} (h : InStep frames) (hevs : received evs = frames.flatMap arrived) {n : Nat}
    (hn : frames.length ≤ n) : List.Forall₂ (fun fr out => SentAs moduleId fr ⟨out.2, out.1⟩) (closedFrames frames)
      (calls n (.new moduleId slots) f evs) := by
  have hreg : ∀ p ∈ received evs, Regular p := by
    intro p hp
    rw [hevs] at hp
    obtain ⟨fr, hfr, hp⟩ := List.mem_flatMap.1 hp
    exact fr.regular_of_mem (h.pulse_pos fr hfr) hp
  have hviews := calls_closedGroups moduleId slots f hreg n
  have hlen : ((closedFrames frames).map arrived).length ≤ n := by
    rw [List.length_map]
    exact (Grouping.completed_prefix _ frames).length_le.trans hn
  rw [hevs, closedGroups_arrived h.follows, List.take_of_length_le hlen, List.map_map, ← List.forall₂_eq_eq_eq,
    List.forall₂_map_left_iff, List.forall₂_map_right_iff] at hviews
  exact hviews.flip.imp fun fr out hout => sentAs_of_view hout

/-- The loop publishes exactly these frames, in order. -/
theorem mainLoop_stream (moduleId : Int) (slots : List JungfrauPacket) (f : Frame) {evs : List RecvMany}
    {frames : List LossyFrame} (h : InStep frames) (hevs : received evs = frames.flatMap arrived) {n : Nat}
    (hn : frames.length ≤ n) :
    List.Forall₂ (SentAs moduleId) (publishedFrames frames) (mainLoop n (.new moduleId slots) f ⟨0, 0⟩ evs) := by
  have hcalls := calls_stream moduleId slots f h hevs hn
  have hchain : (closedFrames frames).IsChain fun a b => badPulseId a.mark b.mark = false :=
    List.IsChain.imp (fun _ _ => badPulseId_follows) ( List.IsChain.prefix h.follows (Grouping.completed_prefix _ frames))
  have hloop := mainLoop_calls n (.new moduleId slots) f (0, ⟨.zero, f.frameBuffer⟩) evs
  change mainLoop n (.new moduleId slots) f ⟨0, 0⟩ evs = _ at hloop
  rw [hloop, List.forall₂_map_right_iff]
  unfold publishedFrames
  generalize closedFrames frames = closed at hcalls hchain ⊢
  generalize calls n (.new moduleId slots) f evs = outs at hcalls ⊢
  have hmarks : outs.map callMark = closed.map LossyFrame.mark := by
    rw [← List.forall₂_eq_eq_eq, List.forall₂_map_left_iff, List.forall₂_map_right_iff]
    refine hcalls.flip.imp fun out fr hout => ?_
    exact congrArg₂ FrameMark.mk hout.announced (congrArg ModuleFrame.frameIndex hout.metadata)
  -- neighbours are in step, so only the first frame is tested against something else
  have hkept : outs.IsChain fun a b => badPulseId (callMark a) (callMark b) = false := by
    refine (List.isChain_map (R := fun a b => badPulseId a b = false) callMark).1 ?_
    rw [hmarks, List.isChain_map]
    exact hchain
  cases hcalls with
  | nil => exact .nil
  | @cons fr out closed outs hfirst hrest =>
    have hmark : callMark out = fr.mark := by simpa using (List.cons.inj hmarks).1
    have hstart : callMark (0, ⟨.zero, f.frameBuffer⟩) = ⟨0, 0⟩ := rfl
    rw [Consecutive.kept_cons, Consecutive.kept_of_chain hkept, hmark, hstart]
    simp only
    split
    · exact hrest
    · exact .cons hfirst hrest

/-- The pulse_ids of a stream increase. -/
theorem LossyFrame.InStep.pulses_increasing {frames : List LossyFrame} (h : InStep frames) :
    (frames.map (·.pulseId)).Pairwise (· < ·) := by
  have hchain : (frames.map (·.pulseId)).IsChain (· < ·) := by
    rw [List.isChain_map]
    exact h.follows.imp fun a b hab => UInt64.lt_iff_toNat_lt.2 hab.pulse_lt
  exact hchain.pairwise

end SfDaqBuffer.UdpRecv
