/-
The packet slots as bytes. `recvmmsg` stores at most a slot of each datagram and leaves the rest of the
slot as it was, and the receiver reads whole slots: of a datagram that is too short it reads the bytes of
an earlier one. With full datagrams the slots do not matter.
-/
import SfDaqBuffer.UdpRecv.GroupCalls

namespace SfDaqBuffer.UdpRecv

/-! ## Slots -/

/-- `JUNGFRAU_BYTES_PER_PACKET`, which is `sizeof(jungfrau_packet)`. -/
abbrev jungfrauBytesPerPacket : Nat := 8240

/-- The offset of `data` in `jungfrau_packet`. -/
abbrev headerBytes : Nat := 48

abbrev Datagram := List UInt8

/-- The bytes of one element of `packet_buffer_`. -/
abbrev Slot := Fin jungfrauBytesPerPacket → UInt8

/-- The little-endian word of `k` bytes at `offset`. -/
def Slot.word (s : Slot) (offset k : Nat) : Nat :=
  Bytes.ofBytes k fun j => if h : offset + j < jungfrauBytesPerPacket then s ⟨offset + j, h⟩ else 0

-- what the conversion of a `bunchid` gives outside the range of `uint64_t`
variable (undef : UInt64 → UInt64)

/-- The packet in a slot, with the fields that the receiver reads. -/
def Slot.packet (s : Slot) : JungfrauPacket where
  framenum := UInt64.ofNat (s.word 0 8)
  packetnum := UInt32.ofNat (s.word 12 4)
  bunchid := ⟨UInt64.ofNat (s.word 16 8), undef (UInt64.ofNat (s.word 16 8))⟩
  debug := UInt32.ofNat (s.word 40 4)
  data k := s ⟨headerBytes + k, Nat.add_lt_add_left k.2 headerBytes⟩

/-- `recvmmsg` stores a datagram in a slot. -/
def Slot.store (s : Slot) (d : Datagram) : Slot := fun i => d[(i : Nat)]?.getD (s i)

/-- The result of one `recvmmsg` call: -1, or the datagrams that it took from the socket. -/
inductive RecvDatagrams
  | error
  | msgs (datagrams : List Datagram)

/-- The slots after a call. -/
def storeAll (slots : Nat → Slot) (ds : List Datagram) : Nat → Slot :=
  fun i => match ds[i]? with
    | some d => (slots i).store d
    | none => slots i

/-- The packets that the receiver reads in the slots. -/
def delivered : (Nat → Slot) → List RecvDatagrams → List RecvMany
  | _, [] => []
  | slots, .error :: evs => .error :: delivered slots evs
  | slots, .msgs ds :: evs =>
    .msgs ((List.range ds.length).map fun i => (storeAll slots ds i).packet undef) :: delivered (storeAll slots ds) evs

/-- The datagrams of a run. -/
def datagrams : List RecvDatagrams → List Datagram
  | [] => []
  | .error :: evs => datagrams evs
  | .msgs ds :: evs => ds ++ datagrams evs

/-! ## Full datagrams -/

/-- The datagram fills its slot. -/
def FullLength (d : Datagram) : Prop := jungfrauBytesPerPacket ≤ d.length

/-- The packet that a full datagram carries. -/
def Datagram.packet (d : Datagram) : JungfrauPacket :=
  (Slot.store (fun _ => 0) d).packet undef

/-- The packets of the datagrams, whatever the slots held. -/
def carried : RecvDatagrams → RecvMany
  | .error => .error
  | .msgs ds => .msgs (ds.map (Datagram.packet undef))

variable {undef}

theorem Slot.store_full {d : Datagram} (h : FullLength d) (s s' : Slot) : s.store d = s'.store d := by
  funext i
  have hi : (i : Nat) < d.length := Nat.lt_of_lt_of_le i.2 h
  unfold Slot.store
  rw [List.getElem?_eq_getElem hi, Option.getD_some, Option.getD_some]

theorem storeAll_full (slots : Nat → Slot) {ds : List Datagram} (h : ∀ d ∈ ds, FullLength d) :
    ((List.range ds.length).map fun i => (storeAll slots ds i).packet undef) = ds.map (Datagram.packet undef) := by
  apply List.ext_getElem
  · simp
  · intro i hi hi'
    have hlen : i < ds.length := by simpa using hi'
    rw [List.getElem_map, List.getElem_map, List.getElem_range]
    unfold storeAll Datagram.packet
    rw [List.getElem?_eq_getElem hlen]
    exact congrArg (Slot.packet undef) (Slot.store_full (h _ (List.getElem_mem hlen)) ..)

/-- With full datagrams only, the slots do not matter. -/
theorem delivered_full : ∀ (evs : List RecvDatagrams) (slots : Nat → Slot), (∀ d ∈ datagrams evs, FullLength d) →
    delivered undef slots evs = evs.map (carried undef)
  | [], _, _ => rfl
  | .error :: evs, slots, h => by
    rw [delivered, delivered_full evs slots h]
    rfl
  | .msgs ds :: evs, slots, h => by
    rw [delivered, delivered_full evs _ fun d hd => h d (List.mem_append_right _ hd),
      storeAll_full slots fun d hd => h d (List.mem_append_left _ hd)]
    rfl

theorem received_carried : ∀ evs : List RecvDatagrams,
    received (evs.map (carried undef)) = (datagrams evs).map (Datagram.packet undef)
  | [] => rfl
  | .error :: evs => received_carried evs
  | .msgs ds :: evs => by
    rw [List.map_cons, carried, received, received_carried evs, datagrams, List.map_append]

/-! ## Frames of their own packets -/

/-- A full datagram of the run with the trigger of the frame. -/
structure OwnDatagram (undef : UInt64 → UInt64) (ds : List Datagram) (f : ModuleFrame) (d : Datagram) : Prop where
  mem : d ∈ ds
  full : FullLength d
  framenum : (d.packet undef).framenum = f.frameIndex

/-- The header of a frame is that of an own datagram, and each block is zeros or the payload of the own
datagram with its number. -/
structure OwnPackets (undef : UInt64 → UInt64) (ds : List Datagram) (out : Received) : Prop where
  header : ∃ d, OwnDatagram undef ds out.metadata d ∧ out.pulseId = (d.packet undef).bunchid.toUInt64 ∧
    out.metadata.pulseId = (d.packet undef).bunchid.toUInt64 ∧ out.metadata.daqRec = (d.packet undef).debug.toUInt64
  blocks : ∀ j : Fin jfNPacketsPerFrame, (out.blocks j = fun _ => 0) ∨
    ∃ d, OwnDatagram undef ds out.metadata d ∧ (d.packet undef).packetnum.toNat = j ∧ out.blocks j = (d.packet undef).data

/-- The runs without the three slips: all datagrams are full and have the number of a block, no packet
meets packets of another trigger in a frame without pulse_id, and none is received over. -/
structure FullRun (undef : UInt64 → UInt64) (evs : List RecvDatagrams) : Prop where
  full : ∀ d ∈ datagrams evs, FullLength d
  packetnum : ∀ d ∈ datagrams evs, (d.packet undef).packetnum.toNat < jfNPacketsPerFrame
  oneTrigger : OneTrigger [] ((datagrams evs).map (Datagram.packet undef))
  keepsBatches : KeepsBatches none (evs.map (carried undef))

/-- Two results of `recvmmsg` that differ in datagrams of other triggers than `x` only. -/
inductive SameButOther (undef : UInt64 → UInt64) (x : UInt64) : RecvDatagrams → RecvDatagrams → Prop
  | error : SameButOther undef x .error .error
  | msgs {ds ds'} : List.Forall₂ (fun d d' => d = d' ∨ (d.packet undef).framenum ≠ x ∧ (d'.packet undef).framenum ≠ x) ds ds' →
      SameButOther undef x (.msgs ds) (.msgs ds')

/-- What the first `n` calls give, from any slots. -/
def framesOf (undef : UInt64 → UInt64) (moduleId : Int) (n : Nat) (packets : List JungfrauPacket) (f : Frame) (slots : Nat → Slot)
    (evs : List RecvDatagrams) : List Received :=
  (calls n (.new moduleId packets) f (delivered undef slots evs)).map view

theorem FullRun.framesOf_eq {evs : List RecvDatagrams} (h : FullRun undef evs) (moduleId : Int) (n : Nat)
    (packets : List JungfrauPacket) (f : Frame) (slots : Nat → Slot) : framesOf undef moduleId n packets f slots evs =
      ((frameGroups [] ((datagrams evs).map (Datagram.packet undef))).take n).map (ownFrame moduleId) := by
  have hr : Counted (.new moduleId packets) := by
    intro hne; exact absurd rfl hne
  have hnum : ∀ p ∈ (datagrams evs).map (Datagram.packet undef), p.packetnum.toNat < jfNPacketsPerFrame := by
    rintro p hp
    obtain ⟨d, hd, rfl⟩ := List.mem_map.1 hp
    exact h.packetnum d hd
  have hunmixed : Unmixed [] (leftover (.new moduleId packets)) (evs.map (carried undef)) := by
    have hleft : leftover (.new moduleId packets) = [] := rfl
    rw [hleft]
    refine ⟨?_, ?_, trivial, h.keepsBatches⟩
    · rw [List.nil_append, received_carried]
      exact hnum
    · rw [List.nil_append, received_carried]
      exact h.oneTrigger
  have hcalls := calls_groups moduleId n (.new moduleId packets) f (evs.map (carried undef)) hr rfl hunmixed
  unfold framesOf
  rw [delivered_full evs slots h.full, hcalls, received_carried]
  rfl

theorem groupBlock_cases (g : List JungfrauPacket) (j : Nat) : (groupBlock g j = fun _ => 0) ∨
    ∃ p ∈ g, p.packetnum.toNat = j ∧ groupBlock g j = p.data := by
  unfold groupBlock
  cases hlast : (g.filter fun p => p.packetnum.toNat == j).getLast? with
  | none => exact .inl rfl
  | some p =>
    obtain ⟨hp, hnum⟩ := List.mem_filter.1 (List.mem_of_getLast? hlast)
    exact .inr ⟨p, hp, beq_iff_eq.1 hnum, rfl⟩

/-- The frame of a group of one trigger. -/
theorem ownFrame_own {moduleId : Int} {ds : List Datagram} {g : List JungfrauPacket} (hg : SameTrigger g)
    (hne : g ≠ []) (hmem : ∀ p ∈ g, p ∈ ds.map (Datagram.packet undef)) (hfull : ∀ d ∈ ds, FullLength d) :
    OwnPackets undef ds (ownFrame moduleId g) := by
  obtain ⟨q, hq⟩ := header_isSome hne
  have hqg := header_mem hq
  have hown : ∀ p ∈ g, ∃ d, OwnDatagram undef ds (groupMetadata moduleId q g.length) d ∧ d.packet undef = p := by
    rintro p hp
    obtain ⟨d, hd, rfl⟩ := List.mem_map.1 (hmem p hp)
    exact ⟨d, ⟨hd, hfull d hd, hg _ hp q hqg⟩, rfl⟩
  unfold ownFrame
  rw [hq]
  constructor
  · obtain ⟨d, hd, rfl⟩ := hown q hqg
    exact ⟨d, hd, rfl, rfl, rfl⟩
  · intro j
    rcases groupBlock_cases g j with hzero | ⟨p, hp, hnum, hdata⟩
    · exact .inl hzero
    · obtain ⟨d, hd, rfl⟩ := hown p hp
      exact .inr ⟨d, hd, hnum, hdata⟩

/-- The trigger of a group is the frame_index of its frame. -/
theorem ownFrame_frameIndex {moduleId : Int} {g : List JungfrauPacket} (hg : SameTrigger g) (hne : g ≠ []) (x : UInt64) :
    ((ownFrame moduleId g).metadata.frameIndex == x) = ofTrigger x g := by
  obtain ⟨q, hq⟩ := header_isSome hne
  obtain ⟨a, as, rfl⟩ := List.exists_cons_of_ne_nil hne
  have hsame : q.framenum = a.framenum := hg q (header_mem hq) a (List.mem_cons_self ..)
  unfold ownFrame ofTrigger
  rw [hq]
  simp [groupMetadata, hsame]

theorem SameButOther.packets {x : UInt64} : ∀ {evs evs' : List RecvDatagrams}, List.Forall₂ (SameButOther undef x) evs evs' →
    List.Forall₂ (SameOrOther x) ((datagrams evs).map (Datagram.packet undef)) ((datagrams evs').map (Datagram.packet undef))
  | [], _, .nil => .nil
  | _ :: _, _, .cons .error hevs => (SameButOther.packets hevs :)
  | _ :: _, _, .cons (.msgs hds) hevs => by
    rw [datagrams, datagrams, List.map_append, List.map_append]
    refine List.rel_append ?_ (SameButOther.packets hevs)
    rw [List.forall₂_map_left_iff, List.forall₂_map_right_iff]
    refine hds.imp fun d d' hd => ?_
    rcases hd with rfl | hd
    · exact .inl rfl
    · exact .inr hd

/-- The frames of a trigger, from the groups. -/
theorem FullRun.framesOf_trigger {evs : List RecvDatagrams} (h : FullRun undef evs) (moduleId : Int) {n : Nat}
    (hn : (datagrams evs).length ≤ n) (packets : List JungfrauPacket) (f : Frame) (slots : Nat → Slot) (x : UInt64) :
    (framesOf undef moduleId n packets f slots evs).filter (fun out => out.metadata.frameIndex == x) =
      ((frameGroups [] ((datagrams evs).map (Datagram.packet undef))).filter (ofTrigger x)).map (ownFrame moduleId) := by
  have hlen := frameGroups_length ((datagrams evs).map (Datagram.packet undef)) []
  rw [List.length_map, if_pos rfl] at hlen
  rw [h.framesOf_eq, List.take_of_length_le (hlen.trans hn), List.filter_map]
  congr 1
  refine List.filter_congr fun g hg => ?_
  obtain ⟨hsame, hne, -⟩ := frameGroups_own _ .nil g hg
  exact ownFrame_frameIndex hsame hne x

/-- In the runs without the three slips every returned frame is made of its own full datagrams, and the
frames of a trigger are the same in two such runs that differ in the datagrams of other triggers and in
what the slots held. -/
theorem frames_own_packets (moduleId : Int) {evs : List RecvDatagrams} (h : FullRun undef evs)
    (packets : List JungfrauPacket) (f : Frame) (slots : Nat → Slot) :
    (∀ n, ∀ out ∈ framesOf undef moduleId n packets f slots evs, OwnPackets undef (datagrams evs) out) ∧
    ∀ (x : UInt64) (evs' : List RecvDatagrams) (packets' : List JungfrauPacket) (f' : Frame) (slots' : Nat → Slot),
      FullRun undef evs' → List.Forall₂ (SameButOther undef x) evs evs' → ∀ n ≥ (datagrams evs).length,
        (framesOf undef moduleId n packets f slots evs).filter (fun out => out.metadata.frameIndex == x) =
          (framesOf undef moduleId n packets' f' slots' evs').filter (fun out => out.metadata.frameIndex == x) := by
  constructor
  · intro n out hout
    rw [h.framesOf_eq] at hout
    obtain ⟨g, hg, rfl⟩ := List.mem_map.1 hout
    obtain ⟨hsame, hne, hmem⟩ := frameGroups_own _ .nil g (List.mem_of_mem_take hg)
    exact ownFrame_own hsame hne hmem h.full
  · intro x evs' packets' f' slots' h' hevs n hn
    have hpackets := SameButOther.packets hevs
    have hlen : (datagrams evs').length ≤ n := by
      have := hpackets.length_eq
      rw [List.length_map, List.length_map] at this
      omega
    rw [h.framesOf_trigger moduleId hn, h'.framesOf_trigger moduleId hlen,
      frameGroups_ofTrigger hpackets (.inl rfl)]

/-- Header bytes with these fields: a framenum and a packetnum of one byte, and bunchid 1. -/
def headerOf (framenum packetnum : UInt8) : Datagram :=
  [framenum, 0, 0, 0, 0, 0, 0, 0] ++ [0, 0, 0, 0] ++ [packetnum, 0, 0, 0] ++ [0, 0, 0, 0, 0, 0, 0xF0, 0x3F] ++
    List.replicate 24 0

/-- A full datagram, all of whose payload is `v`. -/
def fullDatagram (framenum packetnum v : UInt8) : Datagram := headerOf framenum packetnum ++ List.replicate 8192 v

/-- The last packet of frame 8, full of `v`. -/
def lastOfEight (v : UInt8) : Datagram := fullDatagram 8 127 v

/-- What two calls give on zeroed slots. -/
def twoFrames (evs : List RecvDatagrams) : List Received :=
  framesOf id 3 2 [] ⟨.zero, fun _ => 0⟩ (fun _ _ => 0) evs

/-- The frame_index and one byte of each frame. -/
def bytesAt (j : Fin jfNPacketsPerFrame) (k : Fin jungfrauDataBytesPerPacket) (out : List Received) :
    List (UInt64 × UInt8) :=
  out.map fun out => (out.metadata.frameIndex, out.blocks j k)

/-- Two packets of frame 8, full of `v`, and then two of frame 9 in the same slots. -/
def reusedSlots (v : UInt8) : List RecvDatagrams :=
  [.msgs [fullDatagram 8 0 v, fullDatagram 8 127 v], .msgs [fullDatagram 9 0 5, fullDatagram 9 127 5]]

/-- What four calls give on slots and a frame buffer full of `b`. -/
def framesOn (b : UInt8) (evs : List RecvDatagrams) : List Received :=
  framesOf id 3 4 [] ⟨.zero, fun _ => b⟩ (fun _ _ => b) evs

theorem reusedSlots_packets : ∀ v ∈ ([6, 7] : List UInt8), ∀ d ∈ datagrams (reusedSlots v),
    jungfrauBytesPerPacket ≤ d.length ∧ (d.packet id).packetnum.toNat < jfNPacketsPerFrame ∧
      timed (d.packet id) = true := by
  decide +kernel

theorem reusedSlots_run {v : UInt8} (hv : v ∈ ([6, 7] : List UInt8)) : FullRun id (reusedSlots v) := by
  have hpackets := reusedSlots_packets v hv
  have htimed : ∀ p ∈ (datagrams (reusedSlots v)).map (Datagram.packet id), timed p = true := by
    intro p hp
    obtain ⟨d, hd, rfl⟩ := List.mem_map.1 hp
    exact (hpackets d hd).2.2
  constructor
  · exact fun d hd => (hpackets d hd).1
  · exact fun d hd => (hpackets d hd).2.1
  · exact oneTrigger_timed _ (fun p hp => by cases hp) htimed
  · refine keepsBatches_timed _ none fun p hp => ?_
    rw [received_carried] at hp
    exact timed_iff.1 (htimed p hp)

theorem reusedSlots_other : List.Forall₂ (SameButOther id 9) (reusedSlots 7) (reusedSlots 6) := by
  have height : ∀ packetnum ∈ ([0, 127] : List UInt8), ∀ v ∈ ([6, 7] : List UInt8),
      ((fullDatagram 8 packetnum v).packet id).framenum ≠ 9 := by
    decide +kernel
  have hother : ∀ packetnum ∈ ([0, 127] : List UInt8), ((fullDatagram 8 packetnum 7).packet id).framenum ≠ 9 ∧
      ((fullDatagram 8 packetnum 6).packet id).framenum ≠ 9 := fun packetnum h =>
    ⟨height packetnum h 7 (by decide), height packetnum h 6 (by decide)⟩
  refine .cons (.msgs (.cons (.inr ?_) (.cons (.inr ?_) .nil))) (.cons (.msgs ?_) .nil)
  · exact hother 0 (by decide)
  · exact hother 127 (by decide)
  · exact .cons (.inl rfl) (.cons (.inl rfl) .nil)

/-- The frames of two runs on reused slots: frame 9 is the same, whatever frame 8 and the slots held. -/
theorem frames_own_packets_reused :
    bytesAt 127 0 (framesOn 3 (reusedSlots 7)) = [(8, 7), (9, 5)] ∧
    (∀ out ∈ framesOn 3 (reusedSlots 7), OwnPackets id (datagrams (reusedSlots 7)) out) ∧
    (framesOn 3 (reusedSlots 7)).filter (fun out => out.metadata.frameIndex == 9) =
      (framesOn 0 (reusedSlots 6)).filter (fun out => out.metadata.frameIndex == 9) := by
  obtain ⟨hown, htwo⟩ :=
    frames_own_packets 3 (reusedSlots_run (v := 7) (by decide)) [] ⟨.zero, fun _ => 3⟩ fun _ _ => 3
  refine ⟨by decide +kernel, hown 4, ?_⟩
  exact htwo 9 (reusedSlots 6) [] ⟨.zero, fun _ => 0⟩ (fun _ _ => 0) (reusedSlots_run (by decide)) reusedSlots_other 4
    (by decide)

theorem lastOfEight_seven : ((lastOfEight 7).packet id).framenum = 8 := by decide +kernel

theorem lastOfEight_six : ((lastOfEight 6).packet id).framenum = 8 := by decide +kernel

/-- The last packet of frame 8, then the header alone of the last packet of frame 9. -/
def shortRun (v : UInt8) : List RecvDatagrams := [.msgs [lastOfEight v], .msgs [headerOf 9 127]]

/-- Frame 9 has the payload of frame 8, and changes with it. -/
theorem short_datagram_leaks :
    (∃ out ∈ twoFrames (shortRun 7), out.metadata.frameIndex = 9 ∧ out.blocks 127 0 = 7 ∧
      ¬ OwnPackets id (datagrams (shortRun 7)) out) ∧
    List.Forall₂ (SameButOther id 9) (shortRun 7) (shortRun 6) ∧
    (twoFrames (shortRun 7)).filter (fun out => out.metadata.frameIndex == 9) ≠
      (twoFrames (shortRun 6)).filter (fun out => out.metadata.frameIndex == 9) := by
  refine ⟨?_, ?_, fun h => ?_⟩
  · have hlast : bytesAt 127 0 (twoFrames (shortRun 7)) = [(8, 7), (9, 7)] := by decide +kernel
    have hmem : ((9, 7) : UInt64 × UInt8) ∈ bytesAt 127 0 (twoFrames (shortRun 7)) := by
      rw [hlast]
      exact .tail _ (.head _)
    obtain ⟨out, hout, hpair⟩ := List.mem_map.1 hmem
    obtain ⟨hindex, hbyte⟩ := Prod.ext_iff.1 hpair
    refine ⟨out, hout, hindex, hbyte, ?_⟩
    rintro ⟨⟨d, ⟨hd, hfull, hframe⟩, -⟩, -⟩
    -- the only full datagram is of frame 8
    rcases List.mem_pair.1 hd with rfl | rfl
    · rw [lastOfEight_seven] at hframe
      exact absurd (hframe.trans hindex) (by decide)
    · unfold FullLength at hfull
      exact absurd hfull (by decide)
  · have hother : ((lastOfEight 7).packet id).framenum ≠ 9 ∧ ((lastOfEight 6).packet id).framenum ≠ 9 := by
      rw [lastOfEight_seven, lastOfEight_six]
      decide
    exact .cons (.msgs (.cons (.inr hother) .nil)) (.cons (.msgs (.cons (.inl rfl) .nil)) .nil)
  · have hseven : bytesAt 127 0 ((twoFrames (shortRun 7)).filter fun out => out.metadata.frameIndex == 9) = [(9, 7)] := by
      decide +kernel
    have hsix : bytesAt 127 0 ((twoFrames (shortRun 6)).filter fun out => out.metadata.frameIndex == 9) = [(9, 6)] := by
      decide +kernel
    rw [h, hsix] at hseven
    exact absurd hseven (by decide)

end SfDaqBuffer.UdpRecv
