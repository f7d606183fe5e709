/-
The live path from the packets to the images. Each module's packets are those that arrive of consecutive
frames. The frames in the log of the RAM buffer are then the first of those that the stream publishes, with
increasing pulse_ids, and while no module is a whole buffer ahead the slot of a result holds the frames of
all modules for it.
-/
import SfDaqBuffer.Assembler.Waiting
import SfDaqBuffer.LivePath.Announcements
import SfDaqBuffer.UdpRecv.LossyStream

namespace SfDaqBuffer.LivePath

open UdpRecv CoreBuffer Assembler Streams LossyFrame

variable {g : Geometry}

/-- What arrives at the modules are the packets of consecutive frames. -/
structure Stream (start : State g) (frames : Nat → List LossyFrame) : Prop where
  inStep : ∀ m < g.nModules, InStep (frames m)
  received : ∀ m < g.nModules, received (start.senders m).events = (frames m).flatMap arrived

section

variable {ok : Action → State g → Prop} {start s : State g} {es : List Event} {frames : Nat → List LossyFrame}
  {m : Nat}

/-! ## What the modules write and announce -/

theorem mainLoop_start (hinit : Init start) (hstream : Stream start frames) (hm : m < g.nModules) {n : Nat}
    (hn : (frames m).length ≤ n) : List.Forall₂ (SentAs m) (publishedFrames (frames m))
      (mainLoop n (start.senders m).receiver (start.senders m).frame (start.senders m).previous
        (start.senders m).events) := by
  obtain ⟨⟨slots, hreceiver⟩, hprevious, -⟩ := hinit.senders m
  rw [hreceiver, hprevious]
  exact mainLoop_stream m slots _ (hstream.inStep m hm) (hstream.received m hm) hn

theorem TracedUnder.traced (h : TracedUnder ok start s es) : Traced start s es := h.mono fun _ _ _ => trivial

theorem traced_inv (hinit : Init start) (h : TracedUnder ok start s es) : Inv s :=
  h.invariant (I := fun s _ => Inv s) (fun _ hs => by subst hs; exact init_inv hinit)
    fun _ _ _ _ hi _ hs => step_inv hi hs

/-- What a process has published, and the frame at hand once it is written, are the first frames that its
loop publishes. -/
theorem published_prefix (hinit : Init start) (h : TracedUnder ok start s es) (m : Nat) : ∃ k, ∀ n,
    (publishedOf m es ++ if (s.senders m).phase = .send then [(s.senders m).current] else []) <+:
      mainLoop (n + k) (start.senders m).receiver (start.senders m).frame (start.senders m).previous
        (start.senders m).events := by
  obtain ⟨k, hk⟩ := published_remaining h.traced m
  refine ⟨k, fun n => ?_⟩
  have hall := hk n
  unfold Sender.remaining at hall
  rw [(hinit.senders m).phase] at hall
  simp only at hall
  rw [hall, List.prefix_append_right_inj]
  cases (s.senders m).phase with
  | receive => exact List.nil_prefix
  | writeFrame => exact List.nil_prefix
  | send => exact ⟨_, rfl⟩

theorem stored_stream {fr : LossyFrame} {out : Published} (h : SentAs m fr out) :
    stored out = (fr.metadata m, fr.data) := by
  unfold stored
  rw [h.metadata]
  congr 1
  funext a
  exact h.data a

/-- The frames of a module in the log are the first of its stream. -/
theorem framesOf_stream (hinit : Init start) (hstream : Stream start frames) (h : TracedUnder ok start s es)
    (hm : m < g.nModules) :
    framesOf m s.log <+: (publishedFrames (frames m)).map fun fr => (fr.metadata m, fr.data) := by
  obtain ⟨k, hk⟩ := published_prefix hinit h m
  have hloop := mainLoop_start hinit hstream hm (Nat.le_add_right (frames m).length k)
  have hstored : ((publishedFrames (frames m)).map fun fr => (fr.metadata m, fr.data)) =
      (mainLoop ((frames m).length + k) (start.senders m).receiver (start.senders m).frame
        (start.senders m).previous (start.senders m).events).map stored := by
    rw [← List.forall₂_eq_eq_eq, List.forall₂_map_left_iff, List.forall₂_map_right_iff]
    exact hloop.imp fun fr out hout => (stored_stream hout).symm
  have hlog : framesOf m s.log =
      (publishedOf m es ++ if (s.senders m).phase = .send then [(s.senders m).current] else []).map stored := by
    rw [framesOf_published hinit h.traced m, List.map_append]
    congr 1
    unfold Sender.unannounced
    split <;> rfl
  rw [hstored, hlog]
  exact (hk (frames m).length).map _

theorem announced_stream (hinit : Init start) (hstream : Stream start frames) (h : TracedUnder ok start s es)
    (hm : m < g.nModules) :
    (publishedOf m es).map (·.announced) <+: (publishedFrames (frames m)).map (·.pulseId) := by
  obtain ⟨k, hk⟩ := published_prefix hinit h m
  have hloop := mainLoop_start hinit hstream hm (Nat.le_add_right (frames m).length k)
  have hpulses : (publishedFrames (frames m)).map (·.pulseId) =
      (mainLoop ((frames m).length + k) (start.senders m).receiver (start.senders m).frame
        (start.senders m).previous (start.senders m).events).map (·.announced) := by
    rw [← List.forall₂_eq_eq_eq, List.forall₂_map_left_iff, List.forall₂_map_right_iff]
    exact hloop.imp fun fr out hout => hout.announced.symm
  rw [hpulses]
  exact ((List.prefix_append _ _).trans (hk (frames m).length)).map _

/-- A process that waits for packets has announced all frames that its stream publishes. -/
theorem announced_of_waits (hinit : Init start) (hstream : Stream start frames) (h : TracedUnder ok start s es)
    (hm : m < g.nModules) (hwaits : (s.senders m).Waits) :
    (publishedOf m es).map (·.announced) = (publishedFrames (frames m)).map (·.pulseId) := by
  obtain ⟨k, hk⟩ := published_of_waits h.traced (hinit.senders m).phase hwaits
  have hloop := mainLoop_start hinit hstream hm (Nat.le_add_right (frames m).length k)
  rw [← hk _ (Nat.le_add_left k _)] at hloop
  rw [← List.forall₂_eq_eq_eq, List.forall₂_map_left_iff, List.forall₂_map_right_iff]
  exact hloop.flip.imp fun out fr hout => hout.announced

theorem stream_increasing (hstream : Stream start frames) (hm : m < g.nModules) :
    ((publishedFrames (frames m)).map (·.pulseId)).Pairwise (· < ·) :=
  (hstream.inStep m hm).pulses_increasing.sublist ((publishedFrames_sublist _).map _)

theorem delivered_sublist (hinit : Init start) (hstream : Stream start frames) (h : TracedUnder ok start s es)
    (hm : m < g.nModules) : (deliveredOf m es).Sublist ((publishedFrames (frames m)).map (·.pulseId)) :=
  ((List.sublist_append_left _ _).trans (channel_order hinit h m)).trans (announced_stream hinit hstream h hm).sublist

theorem increasing_of_stream (hinit : Init start) (hstream : Stream start frames) (h : TracedUnder ok start s es) :
    Increasing g es := fun _ hm =>
  (stream_increasing hstream hm).sublist (delivered_sublist hinit hstream h hm)

/-! ## The metadata of an image -/

/-- The frames of the modules for a pulse_id make a good image: they have all packets, the same frame number
and the same daq_rec. -/
def GoodPulse (g : Geometry) (fr : Nat → LossyFrame) : Prop :=
  ∀ m < g.nModules, (∀ k, (fr m).arrives k = true) ∧
    ∀ m' < g.nModules, (fr m').framenum = (fr m).framenum ∧ (fr m').daqRec = (fr m).daqRec

instance (g : Geometry) (fr : Nat → LossyFrame) : Decidable (GoodPulse g fr) :=
  inferInstanceAs (Decidable (∀ m < g.nModules, _ ∧ ∀ m' < g.nModules, _))

/-- What is announced of an image of these frames: the first complete one counts, and without any the
metadata are zero. -/
def pulseImage (g : Geometry) (fr : Nat → LossyFrame) : ImageMetadata :=
  match (List.range g.nModules).find? fun m => decide (∀ k, (fr m).arrives k = true) with
  | none => ⟨0, 0, 0, 0⟩
  | some m => ⟨(fr m).pulseId, (fr m).framenum, (fr m).daqRec.toUInt32, if GoodPulse g fr then 1 else 0⟩

theorem daqRec_small (fr : LossyFrame) : fr.daqRec.toUInt32.toUInt64 = fr.daqRec := by
  unfold LossyFrame.daqRec
  cases fr.arrived.head? with
  | none => rfl
  | some p => simp

theorem completeFrame_metadata (m : Int) (fr : LossyFrame) :
    CompleteFrame (fr.metadata m) ↔ ∀ k, fr.arrives k = true := metadata_complete m fr

/-- The frames of a pulse all match the first complete one exactly when they make a good image. -/
theorem all_matchesImage {fr : Nat → LossyFrame} {p : UInt64} (hp : ∀ m < g.nModules, (fr m).pulseId = p) {m : Nat}
    (hm : m < g.nModules) (image : ImageMetadata) : ((List.range g.nModules).map fun m => (fr m).metadata m).all
      (matchesImage (setImage image ((fr m).metadata m))) = decide (GoodPulse g fr) := by
  rw [Bool.eq_iff_iff, List.all_eq_true, decide_eq_true_iff]
  have hmatch : ∀ q < g.nModules, matchesImage (setImage image ((fr m).metadata m)) ((fr q).metadata q) = true ↔
      (∀ k, (fr q).arrives k = true) ∧ (fr q).framenum = (fr m).framenum ∧ (fr q).daqRec = (fr m).daqRec := by
    intro q hq
    have hpulse : (fr q).pulseId = (fr m).pulseId := (hp q hq).trans (hp m hm).symm
    rw [← completeFrame_metadata q]
    simp only [matchesImage, agrees, setImage, LossyFrame.metadata, CompleteFrame, hpulse, daqRec_small,
      Bool.and_eq_true, beq_iff_eq, true_and, and_assoc]
  constructor
  · intro hall q hq
    have hall : ∀ q < g.nModules, _ := fun q hq =>
      (hmatch q hq).1 (hall _ (List.mem_map_of_mem (List.mem_range.2 hq)))
    obtain ⟨harrives, hframe, hdaq⟩ := hall q hq
    refine ⟨harrives, fun q' hq' => ?_⟩
    obtain ⟨-, hframe', hdaq'⟩ := hall q' hq'
    exact ⟨hframe'.trans hframe.symm, hdaq'.trans hdaq.symm⟩
  · intro hgood f hf
    obtain ⟨q, hq, rfl⟩ := List.mem_map.1 hf
    have hq := List.mem_range.1 hq
    exact (hmatch q hq).2 ⟨(hgood q hq).1, (hgood m hm).2 q hq⟩

/-- When all frames of the slot are of the pulse, `assemble_image` does not throw. -/
theorem assembleSlot_stream {fr : Nat → LossyFrame} {p : UInt64} (hp : ∀ m < g.nModules, (fr m).pulseId = p)
    (image : ImageMetadata) : RamBuffer.assembleSlot ((List.range g.nModules).map fun m => (fr m).metadata m) p image =
      (.ok (), pulseImage g fr) := by
  have hcomplete : ((fun f => decide (CompleteFrame f)) ∘ fun m : Nat => (fr m).metadata m) =
      fun m => decide (∀ k, (fr m).arrives k = true) := by
    funext m
    exact decide_eq_decide.2 (completeFrame_metadata m (fr m))
  have hfind : ((List.range g.nModules).map fun m => (fr m).metadata m).find? (fun f => CompleteFrame f) =
      ((List.range g.nModules).find? fun m => decide (∀ k, (fr m).arrives k = true)).map
        fun m => (fr m).metadata m := by
    rw [List.find?_map, hcomplete]
  unfold pulseImage
  cases hfirst : (List.range g.nModules).find? fun m => decide (∀ k, (fr m).arrives k = true) with
  | none =>
    refine assembleSlot_none (by simpa using modules_ne_nil g) ?_ image
    rw [hfirst, Option.map_none, List.find?_eq_none] at hfind
    simpa using hfind
  | some m =>
    have hm := List.mem_range.1 (List.mem_of_find?_eq_some hfirst)
    rw [hfirst, Option.map_some] at hfind
    have hpulse : ((fr m).metadata m).pulseId = p := hp m hm
    unfold RamBuffer.assembleSlot
    rw [assembleLoop_first _ true image hfind, if_pos hpulse, all_matchesImage hp hm]
    simp [setImage, LossyFrame.metadata]

theorem pulseImage_good (g : Geometry) (fr : Nat → LossyFrame) : (pulseImage g fr).isGoodImage = 1 ↔ GoodPulse g fr := by
  unfold pulseImage
  cases hfirst : (List.range g.nModules).find? fun m => decide (∀ k, (fr m).arrives k = true) with
  | none =>
    refine iff_of_false (fun h => nomatch h) fun hgood => ?_
    have hnone := List.find?_eq_none.1 hfirst 0 (List.mem_range.2 g.nModules_pos)
    exact hnone (decide_eq_true (hgood 0 g.nModules_pos).1)
  | some m =>
    by_cases hgood : GoodPulse g fr
    · simp [hgood]
    · simp [hgood]

theorem pulseImage_pulseId {fr : Nat → LossyFrame} {p : UInt64} (hp : ∀ m < g.nModules, (fr m).pulseId = p)
    (hne : (pulseImage g fr).pulseId ≠ 0) : (pulseImage g fr).pulseId = p := by
  unfold pulseImage at hne ⊢
  cases hfirst : (List.range g.nModules).find? fun m => decide (∀ k, (fr m).arrives k = true) with
  | none =>
    rw [hfirst] at hne
    exact absurd rfl hne
  | some m => exact hp m (List.mem_range.1 (List.mem_of_find?_eq_some hfirst))

/-! ## The slot of a result -/

/-- No module has written a frame that is a whole buffer after `p`. -/
def InTime (s : State g) (p : UInt64) : Prop :=
  ∀ m < g.nModules, ∀ w ∈ framesOf m s.log, w.1.pulseId.toNat < p.toNat + g.nSlots

/-- Images are assembled in time. -/
def assemblesInTime (a : Action) (s : State g) : Prop :=
  a = .assembler → ∀ p, s.assembler = .assembling p → InTime s p

instance (s : State g) (p : UInt64) : Decidable (InTime s p) := inferInstanceAs (Decidable (∀ m < g.nModules, _))

instance (a : Action) (s : State g) : Decidable (assemblesInTime a s) :=
  match a, hs : s.assembler with
  | .assembler, .assembling p => decidable_of_iff (InTime s p)
      ⟨fun h _ _ hq => AssemblerPhase.assembling.inj (hs.symm.trans hq) ▸ h, fun h => h rfl p hs⟩
  | .assembler, .receiving => .isTrue fun _ _ hp => nomatch hs.symm.trans hp
  | .assembler, .threw _ => .isTrue fun _ _ hp => nomatch hs.symm.trans hp
  | .sender _, _ => .isTrue nofun
  | .drop _ _, _ => .isTrue nofun

theorem log_increasing (hinit : Init start) (hstream : Stream start frames) (h : TracedUnder ok start s es)
    (hm : m < g.nModules) : (framesOf m s.log).Pairwise fun a b => a.1.pulseId < b.1.pulseId := by
  have hpulses : ((framesOf m s.log).map fun w => w.1.pulseId) <+: (publishedFrames (frames m)).map (·.pulseId) := by
    have hpulses := (framesOf_stream hinit hstream h hm).map fun w => w.1.pulseId
    rwa [List.map_map] at hpulses
  exact List.pairwise_map.1 ((stream_increasing hstream hm).sublist hpulses.sublist)

/-- The last frame that a module wrote to the slot of `p` is the one for `p`: later ones would be a whole
buffer ahead. -/
theorem lastWrite_inTime (hinit : Init start) (hstream : Stream start frames) (h : TracedUnder ok start s es)
    (hm : m < g.nModules) {p : UInt64} (hwrote : Wrote s m p)
    (htime : ∀ w ∈ framesOf m s.log, w.1.pulseId.toNat < p.toNat + g.nSlots) {w : ModuleFrame × ModuleData}
    (hlast : lastWrite g s.log p m = some w) : w ∈ framesOf m s.log ∧ w.1.pulseId = p := by
  obtain ⟨w', hw', hid', hpulse'⟩ := hwrote
  unfold lastWrite at hlast
  obtain ⟨pre, hpre⟩ := List.getLast?_eq_some_iff.1 hlast
  obtain ⟨hlog, hkey⟩ := List.mem_filter.1 (List.mem_of_getLast? hlast)
  obtain ⟨hid, hslot⟩ := of_decide_eq_true hkey
  have hframe : w ∈ framesOf m s.log := List.mem_filter.2 ⟨hlog, decide_eq_true hid⟩
  have hmem : w' ∈ pre ++ [w] := by
    rw [← hpre]
    exact List.mem_filter.2 ⟨hw', decide_eq_true ⟨hid', by rw [hpulse']⟩⟩
  have hle : p.toNat ≤ w.1.pulseId.toNat := by
    rcases List.mem_append.1 hmem with hold | hnew
    · have hinc : (pre ++ [w]).Pairwise fun a b => a.1.pulseId < b.1.pulseId := by
        rw [← hpre]
        refine (log_increasing hinit hstream h hm).sublist ?_
        refine List.monotone_filter_right _ fun w hw => ?_
        exact decide_eq_true (of_decide_eq_true hw).1
      have hlt := (List.pairwise_append.1 hinc).2.2 w' hold w (List.mem_cons_self ..)
      rw [hpulse'] at hlt
      exact (UInt64.lt_iff_toNat_lt.1 hlt).le
    · rw [← List.mem_singleton.1 hnew, hpulse']
  -- the same slot, and not a whole buffer apart
  have hbound := htime w hframe
  have hmod : p.toNat ≡ w.1.pulseId.toNat [MOD g.nSlots] := hslot.symm
  have hdvd := (Nat.modEq_iff_dvd' hle).1 hmod
  have hzero := Nat.eq_zero_of_dvd_of_lt hdvd (by omega)
  exact ⟨hframe, UInt64.toNat_inj.1 (by omega)⟩

/-- A frame that is read in time is one that the module wrote for `p`. -/
theorem readFrame_inTime (hinit : Init start) (hstream : Stream start frames) (h : TracedUnder ok start s es)
    (hm : m < g.nModules) {p : UInt64} (hwrote : Wrote s m p)
    (htime : ∀ w ∈ framesOf m s.log, w.1.pulseId.toNat < p.toNat + g.nSlots) {w : ModuleFrame × ModuleData}
    (hread : s.buffer.readFrame p (UInt64.ofInt m) = some w) : w ∈ framesOf m s.log ∧ w.1.pulseId = p := by
  obtain ⟨f, hf⟩ := (traced_inv hinit h).buffer
  obtain ⟨w', hw'⟩ := lastWrite_isSome hwrote
  have hid := moduleId_toNat hm
  rw [hf.readFrame p (by rw [hid]; exact hm), hid, foldl_write_eq, hw', Option.getD_some] at hread
  rw [← Option.some.inj hread]
  exact lastWrite_inTime hinit hstream h hm hwrote htime hw'

/-- The frame of a module in the log comes from the stream. -/
theorem stream_of_logged (hinit : Init start) (hstream : Stream start frames) (h : TracedUnder ok start s es)
    (hm : m < g.nModules) {w : ModuleFrame × ModuleData} (hw : w ∈ framesOf m s.log) :
    ∃ fr ∈ publishedFrames (frames m), w = (fr.metadata m, fr.data) := by
  obtain ⟨fr, hfr, heq⟩ := List.mem_map.1 ((framesOf_stream hinit hstream h hm).subset hw)
  exact ⟨fr, hfr, heq.symm⟩

/-! ## What the images are made of -/

/-- The frames that the modules' streams publish for a pulse_id. -/
def FramesOf (g : Geometry) (frames : Nat → List LossyFrame) (p : UInt64) (fr : Nat → LossyFrame) : Prop :=
  ∀ m < g.nModules, fr m ∈ publishedFrames (frames m) ∧ (fr m).pulseId = p

/-- A stream publishes one frame for a pulse_id. -/
theorem frame_unique (hstream : Stream start frames) (hm : m < g.nModules)
    {fr fr' : LossyFrame} (hfr : fr ∈ publishedFrames (frames m)) (hfr' : fr' ∈ publishedFrames (frames m))
    (hp : fr.pulseId = fr'.pulseId) : fr = fr' := by
  have hnodup : ((publishedFrames (frames m)).map (·.pulseId)).Nodup :=
    (stream_increasing hstream hm).imp fun hlt => hlt.ne
  exact List.inj_on_of_nodup_map hnodup hfr hfr' hp

/-- When all modules have written their frames for `p` and none is a whole buffer ahead, these are the last
ones in its slot. -/
theorem slot_stream {p : UInt64} (hinit : Init start) (hstream : Stream start frames)
    (h : TracedUnder ok start s es) (hwrote : ∀ m < g.nModules, Wrote s m p)
    (htime : InTime s p) : ∃ fr, FramesOf g frames p fr ∧
      ∀ m < g.nModules, lastWrite g s.log p m = some ((fr m).metadata m, (fr m).data) := by
  have hlast : ∀ m, m < g.nModules → ∃ fr ∈ publishedFrames (frames m), fr.pulseId = p ∧
      lastWrite g s.log p m = some (fr.metadata m, fr.data) := by
    intro m hm
    obtain ⟨w, hw⟩ := lastWrite_isSome (hwrote m hm)
    obtain ⟨hmem, hp⟩ := lastWrite_inTime hinit hstream h hm (hwrote m hm) (htime m hm) hw
    obtain ⟨fr, hfr, rfl⟩ := stream_of_logged hinit hstream h hm hmem
    exact ⟨fr, hfr, hp, hw⟩
  choose fr hfr hp hw using hlast
  have hpos := g.nModules_pos
  refine ⟨fun m => if hm : m < g.nModules then fr m hm else fr 0 hpos, fun m hm => ?_, fun m hm => ?_⟩
  · simp only [hm, dif_pos]
    exact ⟨hfr m hm, hp m hm⟩
  · simp only [hm, dif_pos]
    exact hw m hm

/-- What `assemble_image` finds in the slot. -/
theorem slotFrames_stream {p : UInt64} (hinv : Inv s) {fr : Nat → LossyFrame}
    (hlast : ∀ m < g.nModules, lastWrite g s.log p m = some ((fr m).metadata m, (fr m).data)) :
    slotFrames s.buffer p = (List.range g.nModules).map fun m => (fr m).metadata m := by
  obtain ⟨f, hf⟩ := hinv.buffer
  refine List.map_congr_left fun m hm => ?_
  have hm := List.mem_range.1 hm
  rw [hf.frameMeta _ (Geometry.slotN_lt p) m hm, foldl_write_eq, hlast m hm, Option.getD_some]

/-- The metadata of each image are those of frames that the streams publish and the modules have written. -/
theorem images_metadata (hinit : Init start) (hstream : Stream start frames)
    (h : TracedUnder assemblesInTime start s es) : ∀ x ∈ imagesOf es,
      (∀ m < g.nModules, Wrote s m x.1) ∧ ∃ fr, FramesOf g frames x.1 fr ∧ x.2 = pulseImage g fr := by
  induction h with
  | init hs => exact nofun
  | @step s es a s' hrun hok hstep ih =>
    intro x hx
    have hlog := step_log hstep
    rw [imagesOf_append] at hx
    rcases List.mem_append.1 hx with hx | hx
    · obtain ⟨hwrote, hmeta⟩ := ih x hx
      exact ⟨fun m hm => (hwrote m hm).mono hlog, hmeta⟩
    · by_cases hne : a = .assembler
      · subst hne
        change x ∈ imagesOf (observeAssembler s) at hx
        rcases assemblerStep_observe hstep with ⟨_, _, _, -, -, rfl, hobs⟩ | ⟨_, _, -, -, rfl, hobs⟩ |
          ⟨p, image, hphase, himage, rfl, hobs⟩ | ⟨_, _, rfl, hobs⟩
        · rw [hobs] at hx
          cases hx
        · rw [hobs] at hx
          cases hx
        · rw [hobs] at hx
          obtain rfl := List.mem_singleton.1 hx
          have hinv := traced_inv hinit hrun
          have hwrote := hinv.assembling p hphase
          obtain ⟨fr, hfr, hlast⟩ := slot_stream hinit hstream hrun hwrote (hok rfl p hphase)
          refine ⟨hwrote, fr, hfr, ?_⟩
          rw [assembleImage_slot, slotFrames_stream hinv hlast, assembleSlot_stream fun m hm => (hfr m hm).2] at himage
          cases himage
          rfl
        · rw [hobs] at hx
          cases hx
      · rw [(observe_other hne s).2] at hx
        cases hx

/-- The image is of the frames that the modules' streams publish for `p`. -/
def ImageOf (g : Geometry) (frames : Nat → List LossyFrame) (p : UInt64) (image : ImageMetadata) : Prop :=
  ∃ fr : Nat → LossyFrame, (∀ m < g.nModules, fr m ∈ publishedFrames (frames m) ∧ (fr m).pulseId = p) ∧
    (image.isGoodImage = 1 ↔ GoodPulse g fr)

/-- All packets have been read, all messages received, and jf_assembler waits for the next one. -/
structure Quiet (s : State g) : Prop where
  senders : ∀ m < g.nModules, (s.senders m).Waits
  channels : ∀ m < g.nModules, s.channels m = []
  assembler : s.AssemblerWaits

/-- The images are of increasing pulse_ids. -/
theorem images_increasing (hinit : Init start) (hstream : Stream start frames) (h : TracedUnder ok start s es) :
    ((imagesOf es).map Prod.fst).Pairwise (· < ·) := by
  have hinc := increasing_of_stream hinit hstream h
  obtain ⟨hfirst, -⟩ := returned_of_increasing hinit h hinc
  obtain ⟨rest, hrest, -⟩ := images_returned hinit h
  have hreturned := (common_increasing (List.forall_mem_map.2 fun m hm => hinc m (List.mem_range.1 hm))).sublist
    hfirst.sublist
  rw [hrest] at hreturned
  exact (List.pairwise_append.1 hreturned).1

/-- The pulse_ids that the stream of a module publishes. -/
def pulsesOf (frames : Nat → List LossyFrame) (m : Nat) : List UInt64 :=
  (publishedFrames (frames m)).map (·.pulseId)

/-- What has been announced has been received or is in the channel. -/
theorem delivered_channel (hinit : Init start) (h : TracedUnder ok start s es) {m : Nat} (hlost : lostOf m es = []) :
    deliveredOf m es ++ s.channels m = (publishedOf m es).map (·.announced) := by
  have horder := channel_order hinit h m
  have hcount := channel_count hinit h m
  rw [hlost] at hcount
  exact horder.eq_of_length (by rw [List.length_map, ← hcount, List.length_append]; rfl)

/-- Without losses, when the modules have sent everything and jf_assembler waits for one of them, no image is
missing. Messages of the other modules may be left. -/
theorem images_at_rest (hinit : Init start) (hstream : Stream start frames) (h : TracedUnder ok start s es)
    (hlost : ∀ m < g.nModules, lostOf m es = []) (hsenders : ∀ m < g.nModules, (s.senders m).Waits) (hwaits : s.AssemblerWaits) :
    (imagesOf es).map Prod.fst = common ((List.range g.nModules).map (pulsesOf frames)) := by
  obtain ⟨consumed, hsynced⟩ := synced_run hinit h (increasing_of_stream hinit hstream h)
  obtain ⟨rest, hrest, hhand⟩ := images_returned hinit h
  rw [hhand.receiving hwaits.1, List.append_nil] at hrest
  have hsplit : ∀ m < g.nModules, pulsesOf frames m = consumed m ++ (s.unread m ++ s.channels m) := by
    intro m hm
    rw [← List.append_assoc, ← hsynced.delivered m hm, delivered_channel hinit h (hlost m hm),
      announced_of_waits hinit hstream h hm (hsenders m hm)]
    rfl
  have hinc : ∀ m < g.nModules, (consumed m ++ (s.unread m ++ s.channels m)).Pairwise (· < ·) := by
    intro m hm
    rw [← hsplit m hm]
    exact stream_increasing hstream hm
  -- what has been consumed of one module, no other one sends again
  have hnew : ∀ i ∈ List.range g.nModules, ∀ j ∈ List.range g.nModules, ∀ c ∈ consumed i,
      c ∉ s.unread j ++ s.channels j := by
    intro i hi j hj c hc hleft
    have hi := List.mem_range.1 hi
    have hj := List.mem_range.1 hj
    rcases hsynced.last with hnil | ⟨p, hp⟩
    · rw [hnil i hi] at hc
      cases hc
    · have hlt := (List.pairwise_append.1 (hinc j hj)).2.2 p (hp j hj).1 c hleft
      exact absurd ((hp i hi).2 c hc) (not_le.2 hlt)
  obtain ⟨-, j, hblocked, hchannel⟩ := hwaits
  have hnone := common_of_blocked g.nModules_pos (fun m hm => (List.pairwise_append.1 (hinc m hm)).2.1) hblocked
    hchannel
  have hmap : (List.range g.nModules).map (pulsesOf frames) =
      (List.range g.nModules).map fun m => consumed m ++ (s.unread m ++ s.channels m) :=
    List.map_congr_left fun m hm => hsplit m (List.mem_range.1 hm)
  rw [hmap, common_map_append hnew, hnone, List.append_nil, ← hrest, hsynced.returned]

end

/-- The modules receive the packets that arrive of consecutive frames, and no module gets a whole buffer ahead
of an image that is assembled. The images are then, in increasing order and each once, of pulse_ids that all
streams publish, and an image is good exactly when all modules have all packets of the same frame. When no
message gets lost and all is quiet, there is one for each such pulse_id. -/
theorem images_of_streams {start s : State g} {es : List Event} {frames : Nat → List LossyFrame}
    (hinit : Init start) (hstream : Stream start frames) (h : TracedUnder assemblesInTime start s es) :
    ((imagesOf es).map Prod.fst).Pairwise (· < ·) ∧
    (∀ x ∈ imagesOf es, ImageOf g frames x.1 x.2) ∧
    ((∀ m < g.nModules, lostOf m es = []) → Quiet s → (imagesOf es).map Prod.fst =
      common ((List.range g.nModules).map fun m => (publishedFrames (frames m)).map (·.pulseId))) := by
  refine ⟨images_increasing hinit hstream h, fun x hx => ?_, fun hlost hquiet => ?_⟩
  · obtain ⟨-, fr, hfr, himage⟩ := images_metadata hinit hstream h x hx
    refine ⟨fr, hfr, ?_⟩
    rw [himage]
    exact pulseImage_good g fr
  · exact images_at_rest hinit hstream h hlost hquiet.senders hquiet.assembler

theorem stream_start (g : Geometry) {frames : Nat → List LossyFrame} (h : ∀ m < g.nModules, InStep (frames m)) :
    Stream (.start g fun m => frameBatches (frames m)) frames := ⟨h, fun m _ => received_frameBatches (frames m)⟩

theorem twoStreams_stream : Stream twoStreams fun _ => partFrames .one .two .three :=
  stream_start _ fun _ _ => partFrames_inStep

/-- The images of three pulses: all packets of the first one have arrived at both modules. -/
theorem images_of_streams_twoStreams : ∃ s es, TracedUnder assemblesInTime twoStreams s es ∧
    imagesOf es = [(1, ⟨1, 1, 0, 1⟩), (2, ⟨0, 0, 0, 0⟩), (3, ⟨0, 0, 0, 0⟩)] ∧
    (∀ x ∈ imagesOf es, ImageOf twoModuleRing (fun _ => partFrames .one .two .three) x.1 x.2) ∧
    (imagesOf es).map Prod.fst = common ((List.range 2).map fun _ =>
      (publishedFrames (partFrames .one .two .three)).map (·.pulseId)) := by
  have hrun : ((Runs.runObserved assemblesInTime step observe (publishAll ++ List.replicate 12 .assembler)
      twoStreams).map fun out => (imagesOf out.2, [out.1.unread 0, out.1.channels 0, out.1.channels 1, lostOf 0 out.2,
        lostOf 1 out.2], decide (out.1.assembler = .receiving ∧ (out.1.senders 0).Waits ∧ (out.1.senders 1).Waits))) =
      some ([(1, ⟨1, 1, 0, 1⟩), (2, ⟨0, 0, 0, 0⟩), (3, ⟨0, 0, 0, 0⟩)], [[], [], [], [], []], true) := by
    decide +kernel
  obtain ⟨⟨s, es⟩, hs, hobs⟩ := Option.map_eq_some_iff.1 hrun
  simp only [Prod.mk.injEq, List.cons.injEq, and_true, decide_eq_true_eq] at hobs
  obtain ⟨himages, ⟨hunread, hchannel, hchannel', hlost, hlost'⟩, hassembler, hwaits, hwaits'⟩ := hobs
  have h0 : TracedUnder assemblesInTime twoStreams twoStreams [] := .init rfl
  have htrace : TracedUnder assemblesInTime twoStreams s es := h0.run hs
  have htwo : ∀ {P : Nat → Prop}, P 0 → P 1 → ∀ m < 2, P m := by
    intro P h0 h1 m hm
    rcases (by omega : m = 0 ∨ m = 1) with rfl | rfl
    · exact h0
    · exact h1
  have hquiet : Quiet s := by
    refine ⟨htwo hwaits hwaits', htwo hchannel hchannel', hassembler, 0, ?_, hchannel⟩
    show getNextPulseId [s.unread 0, s.unread 1] = _
    rw [hunread]
    rfl
  obtain ⟨-, himageOf, hall⟩ := images_of_streams (init_start _ _) twoStreams_stream htrace
  exact ⟨s, es, htrace, himages, himageOf, hall (htwo hlost hlost') hquiet⟩

end SfDaqBuffer.LivePath
