/-
`assemble_image`: the first complete frame of the slot decides whether it throws and what
`image_meta` gets, and the image is good exactly when all frames are complete and agree with it.
-/
import SfDaqBuffer.CoreBuffer.RamStore

namespace SfDaqBuffer.CoreBuffer

open RamBuffer

/-! ## The loop over the modules -/

/-- The frame has all its packets. -/
def CompleteFrame (f : ModuleFrame) : Prop := f.nRecvPackets.toNat = jfNPacketsPerFrame

instance (f : ModuleFrame) : Decidable (CompleteFrame f) := inferInstanceAs (Decidable (_ = _))

/-- The checks that keep `is_good_image` once `image_meta` is set. -/
def agrees (image : ImageMetadata) (f : ModuleFrame) : Bool :=
  f.nRecvPackets.toNat == jfNPacketsPerFrame && f.frameIndex == image.frameIndex &&
    f.daqRec == image.daqRec.toUInt64

/-- All frames are complete, and any two have the same `frame_index` and `daq_rec`. -/
def GoodFrames (frames : List ModuleFrame) : Prop :=
  ∀ f ∈ frames, f.nRecvPackets.toNat = jfNPacketsPerFrame ∧
    ∀ f' ∈ frames, f'.frameIndex = f.frameIndex ∧ f'.daqRec = f.daqRec

/-- The frame has the pulse_id of `image_meta` and passes the other checks. -/
def matchesImage (image : ImageMetadata) (f : ModuleFrame) : Bool := f.pulseId == image.pulseId && agrees image f

/-- `image_meta` after the first complete frame has set it. -/
def setImage (image : ImageMetadata) (f : ModuleFrame) : ImageMetadata :=
  { image with pulseId := f.pulseId, frameIndex := f.frameIndex, daqRec := f.daqRec.toUInt32 }

section

variable {n : Nat} {pulseId : UInt64}

theorem matchesImage_incomplete {f : ModuleFrame} (hf : ¬ CompleteFrame f) (image : ImageMetadata) :
    matchesImage image f = false := by
  have hpackets : ¬ f.nRecvPackets.toNat = jfNPacketsPerFrame := hf
  simp [matchesImage, agrees, hpackets]

/-- Once `image_meta` is set it does not change, no exception follows, and every frame is compared
with it. -/
theorem assembleLoop_started : ∀ (frames : List ModuleFrame) (good : Bool) (image : ImageMetadata),
    assembleLoop n pulseId frames true good image = (.ok (true, good && frames.all (matchesImage image)), image)
  | [], good, image => by simp [assembleLoop]
  | f :: frames, good, image => by
    have ih := fun good => assembleLoop_started frames good image
    unfold assembleLoop
    by_cases hpackets : f.nRecvPackets.toNat = jfNPacketsPerFrame
    · simp [hpackets, ih, matchesImage, agrees, Bool.and_assoc]
    · simp [hpackets, ih, matchesImage, agrees]

/-- The first complete frame decides the exception and sets `image_meta`. -/
theorem assembleLoop_first : ∀ (frames : List ModuleFrame) (good : Bool) (image : ImageMetadata) {f : ModuleFrame},
    frames.find? (fun f => CompleteFrame f) = some f →
      assembleLoop n pulseId frames false good image =
        if f.pulseId = pulseId then
          (.ok (true, good && frames.all (matchesImage (setImage image f))), setImage image f)
        else (.error (unexpectedPulseError n pulseId f.pulseId), image)
  | [], _, _, _, h => by cases h
  | q :: frames, good, image, f, h => by
    by_cases hq : CompleteFrame q
    · have hpackets : q.nRecvPackets.toNat = jfNPacketsPerFrame := hq
      rw [List.find?_cons_of_pos (by simpa using hq)] at h
      cases h
      unfold assembleLoop
      by_cases hpulse : q.pulseId = pulseId
      · simp [hpackets, hpulse, assembleLoop_started, matchesImage, agrees, setImage, Bool.and_assoc]
      · simp [hpackets, hpulse]
    · have hpackets : ¬ q.nRecvPackets.toNat = jfNPacketsPerFrame := hq
      rw [List.find?_cons_of_neg (by simpa using hq)] at h
      unfold assembleLoop
      simp only [ne_eq, hpackets, not_false_eq_true, if_true]
      rw [assembleLoop_first frames false image h, List.all_cons, matchesImage_incomplete hq]
      simp

/-- Incomplete frames only clear `is_good_image`. -/
theorem assembleLoop_incomplete : ∀ (frames : List ModuleFrame) (good : Bool) (image : ImageMetadata),
    (∀ f ∈ frames, ¬ CompleteFrame f) →
      assembleLoop n pulseId frames false good image = (.ok (false, good && frames.isEmpty), image)
  | [], good, _, _ => by simp [assembleLoop]
  | f :: frames, good, image, h => by
    have hpackets : ¬ f.nRecvPackets.toNat = jfNPacketsPerFrame := h f (List.mem_cons_self ..)
    unfold assembleLoop
    simp only [ne_eq, hpackets, not_false_eq_true, if_true]
    rw [assembleLoop_incomplete frames false image fun q hq => h q (List.mem_cons_of_mem _ hq)]
    simp

/-! ## The three outcomes -/

/-- No complete frame: `image_meta` is zeroed. -/
theorem assembleSlot_none {frames : List ModuleFrame} (hne : frames ≠ []) (h : ∀ f ∈ frames, ¬ CompleteFrame f)
    (image : ImageMetadata) : assembleSlot frames pulseId image = (.ok (), ⟨0, 0, 0, 0⟩) := by
  unfold assembleSlot
  rw [assembleLoop_incomplete frames true image h]
  cases frames with
  | nil => exact absurd rfl hne
  | cons f frames => rfl

/-- A first complete frame of another pulse: an exception. -/
theorem assembleSlot_throws {frames : List ModuleFrame} {f : ModuleFrame}
    (h : frames.find? (fun f => CompleteFrame f) = some f) (hpulse : f.pulseId ≠ pulseId) (image : ImageMetadata) :
    assembleSlot frames pulseId image = (.error (unexpectedPulseError frames.length pulseId f.pulseId), image) := by
  unfold assembleSlot
  rw [assembleLoop_first frames true image h, if_neg hpulse]

/-- A first complete frame of the pulse: its fields, and whether all frames match them. -/
theorem assembleSlot_some {frames : List ModuleFrame} {f : ModuleFrame}
    (h : frames.find? (fun f => CompleteFrame f) = some f) (hpulse : f.pulseId = pulseId) :
    ∃ out, (∀ image, assembleSlot frames pulseId image = (.ok (), out)) ∧ out.pulseId = f.pulseId ∧
      out.frameIndex = f.frameIndex ∧ out.daqRec = f.daqRec.toUInt32 ∧
      (out.isGoodImage = 1 ↔ ∀ q ∈ frames, CompleteFrame q ∧ q.pulseId = pulseId ∧ q.frameIndex = f.frameIndex ∧
        q.daqRec = f.daqRec.toUInt32.toUInt64) := by
  let good := frames.all (matchesImage (setImage ⟨0, 0, 0, 0⟩ f))
  refine ⟨⟨f.pulseId, f.frameIndex, f.daqRec.toUInt32, if good then 1 else 0⟩, fun image => ?_, rfl, rfl, rfl, ?_⟩
  · unfold assembleSlot
    rw [assembleLoop_first frames true image h, if_pos hpulse]
    rfl
  · have hgood : good = true ↔ ∀ q ∈ frames, CompleteFrame q ∧ q.pulseId = pulseId ∧ q.frameIndex = f.frameIndex ∧
        q.daqRec = f.daqRec.toUInt32.toUInt64 := by
      rw [List.all_eq_true]
      refine forall₂_congr fun q _ => ?_
      simp only [matchesImage, agrees, setImage, Bool.and_eq_true, beq_iff_eq, hpulse, CompleteFrame]
      tauto
    rw [← hgood]
    cases good <;> simp

/-! ## Good images -/

theorem assembleSlot_good (frames : List ModuleFrame) (image : ImageMetadata)
    (hp : ∀ f ∈ frames, CompleteFrame f → f.pulseId = pulseId)
    (hdaq : ∀ f ∈ frames, CompleteFrame f → f.daqRec.toUInt32.toUInt64 = f.daqRec) :
    ∃ image', assembleSlot frames pulseId image = (.ok (), image') ∧
      (image'.isGoodImage = 1 ↔ GoodFrames frames) := by
  cases hfind : frames.find? (fun f => CompleteFrame f) with
  | none =>
    have hnone : ∀ f ∈ frames, ¬ CompleteFrame f := by simpa using hfind
    cases frames with
    | nil => exact ⟨_, rfl, iff_of_true rfl nofun⟩
    | cons f frames =>
      refine ⟨_, assembleSlot_none (List.cons_ne_nil _ _) hnone image, iff_of_false (by decide) fun hall => ?_⟩
      exact hnone f (List.mem_cons_self ..) (hall f (List.mem_cons_self ..)).1
  | some f =>
    have hf := List.mem_of_find?_eq_some hfind
    have hc : CompleteFrame f := by simpa using List.find?_some hfind
    obtain ⟨out, hout, -, -, -, hgood⟩ := assembleSlot_some hfind (hp f hf hc)
    refine ⟨out, hout image, hgood.trans ?_⟩
    rw [hdaq f hf hc]
    constructor
    · intro h q hq
      obtain ⟨hq1, -, hq2, hq3⟩ := h q hq
      refine ⟨hq1, fun q' hq' => ?_⟩
      obtain ⟨-, -, hq2', hq3'⟩ := h q' hq'
      exact ⟨hq2'.trans hq2.symm, hq3'.trans hq3.symm⟩
    · intro h q hq
      obtain ⟨hframe, hdaqRec⟩ := (h f hf).2 q hq
      exact ⟨(h q hq).1, hp q hq (h q hq).1, hframe, hdaqRec⟩

end

/-! ## The metadata of a slot -/

theorem mapM_eq_some {α β : Type} {f : α → Option β} {g : α → β} : ∀ {l : List α},
    (∀ a ∈ l, f a = some (g a)) → l.mapM f = some (l.map g)
  | [], _ => rfl
  | a :: l, h => by
    rw [List.mapM_cons, h a (List.mem_cons_self ..),
      mapM_eq_some fun b hb => h b (List.mem_cons_of_mem _ hb)]
    rfl

theorem Refines.slotMetas {g : Geometry} {b : RamBuffer g} {f : Cells} (h : Refines b f) {slot : Nat}
    (hs : slot < g.nSlots) :
    b.slotMetas slot = some ((List.range g.nModules).map fun m => (f slot m).1) := by
  apply mapM_eq_some
  intro m hm
  have hm := List.mem_range.1 hm
  rw [load_meta b hs hm]
  exact congrArg some (h.frameMeta slot hs m hm)

theorem Refines.assembleImage_eq {g : Geometry} {b : RamBuffer g} {f : Cells} (h : Refines b f) (pulseId : UInt64)
    (image : ImageMetadata) : b.assembleImage pulseId image =
      some (assembleSlot ((List.range g.nModules).map fun m => (f (g.slotN pulseId) m).1) pulseId image) := by
  unfold RamBuffer.assembleImage
  rw [h.slotMetas (Geometry.slotN_lt pulseId), Option.map_some]

theorem Refines.assembleImage {g : Geometry} {b : RamBuffer g} {f : Cells} (h : Refines b f) (pulseId : UInt64)
    (image : ImageMetadata) (hp : ∀ m < g.nModules, (f (g.slotN pulseId) m).1.pulseId = pulseId)
    (hdaq : ∀ m < g.nModules, (f (g.slotN pulseId) m).1.daqRec.toUInt32.toUInt64 = (f (g.slotN pulseId) m).1.daqRec) :
    ∃ image', b.assembleImage pulseId image = some (.ok (), image') ∧
      (image'.isGoodImage = 1 ↔
        GoodFrames ((List.range g.nModules).map fun m => (f (g.slotN pulseId) m).1)) := by
  obtain ⟨image', hslot, hgood⟩ := assembleSlot_good
    ((List.range g.nModules).map fun m => (f (g.slotN pulseId) m).1) image
    (fun f hf _ => by
      obtain ⟨m, hm, rfl⟩ := List.mem_map.1 hf
      exact hp m (List.mem_range.1 hm))
    (fun f hf _ => by
      obtain ⟨m, hm, rfl⟩ := List.mem_map.1 hf
      exact hdaq m (List.mem_range.1 hm))
  exact ⟨image', by rw [h.assembleImage_eq, hslot], hgood⟩

/-- The metadata of the modules in the slot of a pulse. -/
def slotFrames {g : Geometry} (b : RamBuffer g) (pulseId : UInt64) : List ModuleFrame :=
  (List.range g.nModules).map fun m => b.cellMeta (g.slotN pulseId) m

/-- `assemble_image` looks at the metadata of the modules in the slot of its pulse. -/
theorem assembleImage_slot {g : Geometry} (b : RamBuffer g) (pulseId : UInt64) (image : ImageMetadata) :
    b.assembleImage pulseId image = some (assembleSlot (slotFrames b pulseId) pulseId image) := by
  have hself : Refines b fun slot m => (b.cellMeta slot m, b.cellData slot m) :=
    ⟨fun _ _ _ _ => rfl, fun _ _ _ _ => rfl⟩
  exact hself.assembleImage_eq pulseId image

/-! ## The pulse_id of the image -/

theorem assembleSlot_pulseId {frames : List ModuleFrame} {pulseId : UInt64} {image image' : ImageMetadata}
    (hne : frames ≠ []) (h : assembleSlot frames pulseId image = (.ok (), image')) :
    ((∃ f ∈ frames, CompleteFrame f) → image'.pulseId = pulseId) ∧
      ((∀ f ∈ frames, ¬ CompleteFrame f) → image' = ⟨0, 0, 0, 0⟩) := by
  constructor
  · rintro ⟨q, hq, hc⟩
    obtain ⟨f, hfind⟩ : ∃ f, frames.find? (fun f => CompleteFrame f) = some f :=
      Option.isSome_iff_exists.1 (List.find?_isSome.2 ⟨q, hq, decide_eq_true hc⟩)
    by_cases hpulse : f.pulseId = pulseId
    · obtain ⟨out, hout, hid, -⟩ := assembleSlot_some hfind hpulse
      rw [hout] at h
      cases h
      exact hid.trans hpulse
    · rw [assembleSlot_throws hfind hpulse] at h
      cases h
  · intro hnone
    rw [assembleSlot_none hne hnone] at h
    cases h
    rfl

theorem slotFrames_ne_nil {g : Geometry} (b : RamBuffer g) (pulseId : UInt64) : slotFrames b pulseId ≠ [] := by
  have hpos := g.nModules_pos
  unfold slotFrames
  simp only [ne_eq, List.map_eq_nil_iff, List.range_eq_nil]
  omega

theorem mem_slotFrames {g : Geometry} {b : RamBuffer g} {pulseId : UInt64} {f : ModuleFrame} :
    f ∈ slotFrames b pulseId ↔ ∃ m < g.nModules, b.cellMeta (g.slotN pulseId) m = f := by
  simp [slotFrames]

theorem assembled_pulseId {g : Geometry} {b : RamBuffer g} {pulseId : UInt64} {image image' : ImageMetadata}
    (h : b.assembleImage pulseId image = some (.ok (), image')) :
    ((∃ m < g.nModules, CompleteFrame (b.cellMeta (g.slotN pulseId) m)) → image'.pulseId = pulseId) ∧
      ((∀ m < g.nModules, ¬ CompleteFrame (b.cellMeta (g.slotN pulseId) m)) → image' = ⟨0, 0, 0, 0⟩) := by
  rw [assembleImage_slot] at h
  obtain ⟨hcomplete, hnone⟩ := assembleSlot_pulseId (slotFrames_ne_nil b pulseId) (Option.some.inj h)
  constructor
  · rintro ⟨m, hm, hf⟩
    exact hcomplete ⟨_, mem_slotFrames.2 ⟨m, hm, rfl⟩, hf⟩
  · intro hall
    apply hnone
    intro f hf
    obtain ⟨m, hm, rfl⟩ := mem_slotFrames.1 hf
    exact hall m hm

/-- The image that `assemble_image` announces has the pulse_id it was called with when a module of
the slot has a complete frame, and is all zeros when none has. -/
theorem assembleImage_pulseId {g : Geometry} (b : RamBuffer g) (pulseId : UInt64) {image image' : ImageMetadata}
    (h : b.assembleImage pulseId image = some (.ok (), image')) :
    ((∃ m < g.nModules, CompleteFrame (b.cellMeta (g.slotN pulseId) m)) →
      image'.pulseId = pulseId ∧ b.readImage image'.pulseId = b.readImage pulseId) ∧
    ((∀ m < g.nModules, ¬ CompleteFrame (b.cellMeta (g.slotN pulseId) m)) → image' = ⟨0, 0, 0, 0⟩) := by
  obtain ⟨hcomplete, hnone⟩ := assembled_pulseId h
  constructor
  · intro hex
    have hpulse := hcomplete hex
    exact ⟨hpulse, by rw [hpulse]⟩
  · exact hnone

/-- One module and two slots. -/
def oneModule : Geometry := .checked 1 2 (@rfl Bool true)

/-- A frame of pulse 5. -/
def frameOfFive (nRecvPackets : UInt64) : ModuleFrame × ModuleData := (⟨5, 1, 0, nRecvPackets, 0⟩, fun _ => 1)

theorem frameOfFive_written (nRecvPackets : UInt64) :
    ∃ b, (RamBuffer.new oneModule).writeFrame (frameOfFive nRecvPackets).1 (frameOfFive nRecvPackets).2 = some b ∧
      b.cellMeta (oneModule.slotN 5) 0 = (frameOfFive nRecvPackets).1 ∧
      ∀ image, b.assembleImage 5 image = some (assembleSlot [(frameOfFive nRecvPackets).1] 5 image) := by
  have hm : (frameOfFive nRecvPackets).1.moduleId.toNat < oneModule.nModules := Nat.zero_lt_one
  obtain ⟨b, hb⟩ : ∃ b, (RamBuffer.new oneModule).writeFrame (frameOfFive nRecvPackets).1
      (frameOfFive nRecvPackets).2 = some b := ⟨_, writeFrame_eq _ _ hm⟩
  have href := refines_new.writeFrame hm hb
  have hcell : Cells.zero.write oneModule (frameOfFive nRecvPackets) (oneModule.slotN 5) 0 =
      frameOfFive nRecvPackets := Cells.write_same _ ⟨rfl, rfl⟩
  refine ⟨b, hb, ?_, fun image => ?_⟩
  · rw [href.frameMeta _ (by decide) 0 Nat.zero_lt_one, hcell]
  · have hrange : List.range oneModule.nModules = [0] := rfl
    rw [href.assembleImage_eq, hrange, List.map_cons, hcell]
    rfl

/-- A complete frame: the image has its pulse_id. -/
theorem assembleImage_pulseId_complete :
    ∃ b image, (RamBuffer.new oneModule).writeFrame (frameOfFive 128).1 (frameOfFive 128).2 = some b ∧
      b.assembleImage 5 ⟨4, 0, 0, 1⟩ = some (.ok (), image) ∧ image.pulseId = 5 := by
  obtain ⟨b, hb, hcell, hassemble⟩ := frameOfFive_written 128
  have himage : b.assembleImage 5 ⟨4, 0, 0, 1⟩ = some (.ok (), ⟨5, 1, 0, 1⟩) := hassemble _
  refine ⟨b, _, hb, himage, ((assembleImage_pulseId b 5 himage).1 ⟨0, Nat.zero_lt_one, ?_⟩).1⟩
  rw [hcell]
  rfl

/-- A frame that lost a packet: the image has pulse_id 0 and addresses another slot. -/
theorem assembleImage_announces_zero :
    ∃ b image, (RamBuffer.new oneModule).writeFrame (frameOfFive 127).1 (frameOfFive 127).2 = some b ∧
      b.assembleImage 5 ⟨4, 0, 0, 1⟩ = some (.ok (), image) ∧ image.pulseId ≠ 5 ∧
      b.readImage image.pulseId ≠ b.readImage 5 := by
  obtain ⟨b, hb, -, hassemble⟩ := frameOfFive_written 127
  have himage : b.assembleImage 5 ⟨4, 0, 0, 1⟩ = some (.ok (), ⟨0, 0, 0, 0⟩) := hassemble _
  have hstart : ∀ p, b.readImage p = (RamBuffer.new oneModule).readImage p := fun _ => rfl
  refine ⟨b, _, hb, himage, by decide, ?_⟩
  rw [hstart, hstart]
  decide

/-! ## The specification -/

/-- The frames with all their packets, in module order. -/
def completeFrames (frames : List ModuleFrame) : List ModuleFrame := frames.filter fun f => CompleteFrame f

/-- What assembling a slot with these frames for a pulse must do to every `image_meta`. -/
structure AssembleSpec (frames : List ModuleFrame) (pulseId : UInt64)
    (assemble : ImageMetadata → Except String Unit × ImageMetadata) : Prop where
  throws : ∀ f, (completeFrames frames).head? = some f → f.pulseId ≠ pulseId →
    ∀ image, ∃ e, assemble image = (.error e, image)
  returns : (∀ f, (completeFrames frames).head? = some f → f.pulseId = pulseId) →
    ∃ out, (∀ image, assemble image = (.ok (), out)) ∧
      (out.isGoodImage = 1 ↔ (∀ f ∈ frames, f ∈ completeFrames frames) ∧ (∀ f ∈ frames, f.pulseId = pulseId) ∧
        ∀ f ∈ frames, ∀ q ∈ frames, q.frameIndex = f.frameIndex ∧ q.daqRec = f.daqRec) ∧
      ∀ f, (completeFrames frames).head? = some f →
        out.pulseId = f.pulseId ∧ out.frameIndex = f.frameIndex ∧ out.daqRec.toUInt64 = f.daqRec

/-- A daq_rec of 32 bits survives the narrowing. -/
theorem daqRec_narrowed {d : UInt64} (h : d.toNat < 2 ^ 32) : d.toUInt32.toUInt64 = d := by
  apply UInt64.toNat_inj.1
  rw [UInt32.toNat_toUInt64, UInt64.toNat_toUInt32, Nat.mod_eq_of_lt h]

theorem assembleSlot_spec {frames : List ModuleFrame} (hne : frames ≠ [])
    (hdaq : ∀ f ∈ frames, f.daqRec.toNat < 2 ^ 32) (pulseId : UInt64) :
    AssembleSpec frames pulseId (assembleSlot frames pulseId) := by
  have hhead : (completeFrames frames).head? = frames.find? fun f => CompleteFrame f := List.head?_filter ..
  have hmem : ∀ f, f ∈ completeFrames frames ↔ f ∈ frames ∧ CompleteFrame f := fun f => by simp [completeFrames]
  constructor
  · intro f hf hpulse image
    rw [hhead] at hf
    exact ⟨_, assembleSlot_throws hf hpulse image⟩
  · intro hpulse
    cases hfind : frames.find? (fun f => CompleteFrame f) with
    | none =>
      have hnone : ∀ f ∈ frames, ¬ CompleteFrame f := by simpa using hfind
      obtain ⟨f, hf⟩ := List.exists_mem_of_ne_nil frames hne
      refine ⟨⟨0, 0, 0, 0⟩, assembleSlot_none hne hnone, iff_of_false (by decide) ?_, fun q hq => ?_⟩
      · rintro ⟨hall, -⟩
        exact hnone f hf ((hmem f).1 (hall f hf)).2
      · rw [hhead, hfind] at hq
        cases hq
    | some f =>
      have hf := List.mem_of_find?_eq_some hfind
      obtain ⟨out, hout, hid, hframe, hrec, hgood⟩ := assembleSlot_some hfind (hpulse f (hhead.trans hfind))
      have hnarrow := daqRec_narrowed (hdaq f hf)
      refine ⟨out, hout, hgood.trans ?_, fun q hq => ?_⟩
      · rw [hnarrow]
        constructor
        · intro h
          refine ⟨fun q hq => (hmem q).2 ⟨hq, (h q hq).1⟩, fun q hq => (h q hq).2.1, fun q hq q' hq' => ?_⟩
          -- both frames agree with the first complete one
          obtain ⟨-, -, h1, h2⟩ := h q hq
          obtain ⟨-, -, h1', h2'⟩ := h q' hq'
          exact ⟨h1'.trans h1.symm, h2'.trans h2.symm⟩
        · rintro ⟨hall, hid, hsame⟩ q hq
          exact ⟨((hmem q).1 (hall q hq)).2, hid q hq, (hsame f hf q hq).1, (hsame f hf q hq).2⟩
      · rw [hhead, hfind] at hq
        cases hq
        exact ⟨hid, hframe, by rw [hrec, hnarrow]⟩

/-- `assemble_image` meets its specification for every number of modules and every content of the
slot of the pulse, and in every buffer that is the slot of `pulse_id` modulo the number of slots. -/
theorem assembleImage_meets_spec :
    (∀ (frames : List ModuleFrame) (pulseId : UInt64), 1 ≤ frames.length →
      (∀ f ∈ frames, f.daqRec.toNat < 2 ^ 32) → AssembleSpec frames pulseId (assembleSlot frames pulseId)) ∧
    ∀ (g : Geometry) (b : RamBuffer g) (pulseId : UInt64) (image : ImageMetadata),
      b.assembleImage pulseId image = some (assembleSlot (slotFrames b pulseId) pulseId image) := by
  constructor
  · intro frames pulseId hpos hdaq
    have hne : frames ≠ [] := List.length_pos_iff.1 hpos
    exact assembleSlot_spec hne hdaq pulseId
  · intro g b pulseId image
    exact assembleImage_slot b pulseId image

/-- A frame that lost a packet before a complete one. -/
theorem assembleImage_meets_spec_two :
    let frames := [(frameOfFive 127).1, (frameOfFive 128).1]
    AssembleSpec frames 5 (assembleSlot frames 5) ∧ assembleSlot frames 5 ⟨4, 0, 0, 1⟩ = (.ok (), ⟨5, 1, 0, 0⟩) := by
  refine ⟨assembleImage_meets_spec.1 _ 5 (by decide) ?_, rfl⟩
  rintro f hf
  rcases List.mem_pair.1 hf with rfl | rfl <;> decide

end SfDaqBuffer.CoreBuffer
