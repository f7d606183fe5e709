/-
From the packets of all modules to the messages of sf_stream. Its images are assembled, announced and sent
in order, none of them twice; the metadata of a message are those of the frames that the modules' streams
publish for a pulse_id, and its image is made of their data. An image is in time when no module is a whole
RAM buffer ahead of it, both when it is assembled and when it is sent.
-/
import SfDaqBuffer.LivePath.Images
import SfDaqBuffer.SfStream.Pairing

namespace SfDaqBuffer.SfStream

open CoreBuffer UdpRecv LossyFrame
open LivePath (imagesOf Wrote InTime assemblesInTime Stream FramesOf pulseImage pulseImage_pulseId frame_unique
  slot_stream images_metadata pulsesOf)

variable {g : Geometry}

/-! ## Events -/

inductive Event
  | live (event : LivePath.Event)
  | lost (image : ImageMetadata)

def observe (a : Action) (s : State g) : List Event :=
  match a with
  | .live action => (LivePath.observe action s.live).map .live
  | .drop i => (s.messages[i]?.map Event.lost).toList
  | .receive => []
  | .send .. => []

/-- A run from `start` whose steps all meet `ok`. -/
abbrev TracedUnder (ok : Action → State g → Prop) (start : State g) : State g → List Event → Prop :=
  Runs.Trace ok (· = start) step observe

def Event.ofLive : Event → Option LivePath.Event
  | .live event => some event
  | .lost _ => none

def Event.lostImage : Event → Option ImageMetadata
  | .lost image => some image
  | .live _ => none

/-- What can be seen of the live path. -/
def liveOf (es : List Event) : List LivePath.Event := es.filterMap Event.ofLive

/-- The images that jf_assembler announces and sf_stream does not receive. -/
def lostImages (es : List Event) : List ImageMetadata := es.filterMap Event.lostImage

theorem liveOf_append (es es' : List Event) : liveOf (es ++ es') = liveOf es ++ liveOf es' := List.filterMap_append ..

theorem lostImages_append (es es' : List Event) : lostImages (es ++ es') = lostImages es ++ lostImages es' :=
  List.filterMap_append ..

theorem liveOf_live (es : List LivePath.Event) : liveOf (es.map .live) = es := by
  unfold liveOf
  rw [List.filterMap_map]
  exact List.filterMap_some

theorem lostImages_live (es : List LivePath.Event) : lostImages (es.map .live) = [] := by
  unfold lostImages
  rw [List.filterMap_map]
  exact List.filterMap_none ..

/-- The images that are assembled are announced. -/
theorem assembled_observe {s s' : LivePath.State g} {a : LivePath.Action} (h : LivePath.step a s = some s') :
    assembled a s s' = (imagesOf (LivePath.observe a s)).map Prod.snd := by
  by_cases hne : a = .assembler
  · subst hne
    show _ = (imagesOf (LivePath.observeAssembler s)).map Prod.snd
    rcases LivePath.assemblerStep_observe h with ⟨_, _, _, hphase, -, rfl, hobs⟩ | ⟨_, _, hphase, -, rfl, hobs⟩ |
      ⟨p, image, hphase, -, rfl, hobs⟩ | ⟨_, _, rfl, hobs⟩
    all_goals rw [hobs]
    · simp [assembled, hphase, imagesOf, LivePath.Event.image]
    · simp [assembled, hphase, imagesOf, LivePath.Event.image]
    · simp [assembled, hphase, imagesOf, LivePath.Event.image]
    · cases hphase : s.assembler <;> simp [assembled, hphase, imagesOf]
  · rw [(LivePath.observe_other hne s).2]
    cases a with
    | assembler => exact absurd rfl hne
    | sender m => rfl
    | drop m i => rfl

/-! ## What becomes of the images -/

/-- The metadata of a message. -/
def SentMessage.metadata (e : SentMessage g) : ImageMetadata := ⟨e.pulseId, e.frame, e.daqRec, e.isGoodFrame⟩

/-- The messages to streamvis: there is one for each image that is sent. -/
def State.shown (s : State g) : List (SentMessage g) := s.sent.filter (·.socket = .streamvis)

def inHand : StreamPhase → List ImageMetadata
  | .receive => []
  | .send image => [image]

/-- The images that have been sent, the one at hand and those still to be received. -/
def State.pipeline (s : State g) : List ImageMetadata := s.shown.map (·.metadata) ++ inHand s.phase ++ s.messages

theorem metadata_message (socket : Socket) (image : ImageMetadata) (data : Fin g.imageBytes → UInt8) (full : Bool) :
    (message socket image data full).metadata = image := rfl

/-- What a step can do. -/
theorem step_cases {s s' : State g} {a : Action} (h : step a s = some s') :
    (∃ action live, a = .live action ∧ LivePath.step action s.live = some live ∧
      s' = { s with live := live, messages := s.messages ++ assembled action s.live live }) ∨
    (∃ i, a = .drop i ∧ s' = { s with messages := s.messages.eraseIdx i }) ∨
    (∃ image messages, a = .receive ∧ s.phase = .receive ∧ s.messages = image :: messages ∧
      s' = { s with messages := messages, phase := .send image }) ∨
    ∃ streamvis live image data, a = .send streamvis live ∧ s.phase = .send image ∧
      s.live.buffer.load (s.live.buffer.readImage image.pulseId) g.imageBytes = some data ∧
      s' = { s with phase := .receive, sent := s.sent ++ send image data streamvis live } := by
  cases a with
  | live action =>
    obtain ⟨live, hlive, hs'⟩ := Option.bind_eq_some_iff.1 h
    cases hs'
    exact .inl ⟨action, live, rfl, hlive, rfl⟩
  | drop i =>
    cases h
    exact .inr (.inl ⟨i, rfl, rfl⟩)
  | receive =>
    unfold step at h
    simp only at h
    split at h
    · rename_i image messages hphase hmessages
      cases h
      exact .inr (.inr (.inl ⟨image, messages, rfl, hphase, hmessages, rfl⟩))
    · cases h
  | send streamvis live =>
    unfold step at h
    simp only at h
    split at h
    · cases h
    · rename_i image hphase
      obtain ⟨data, hload, hs'⟩ := Option.bind_eq_some_iff.1 h
      cases hs'
      exact .inr (.inr (.inr ⟨streamvis, live, image, data, rfl, hphase, hload, rfl⟩))

theorem shown_send (s : State g) (image : ImageMetadata) (data : Fin g.imageBytes → UInt8) (streamvis : Bool)
    (live : Option Bool) : (s.sent ++ send image data streamvis live).filter (·.socket = .streamvis) =
      s.shown ++ [message .streamvis image data streamvis] := by
  rw [List.filter_append]
  congr 1
  unfold send message
  cases live <;> simp

/-- A step announces images at the end, and loses none but those that it counts. -/
structure Hands (s s' : State g) (es : List Event) : Prop where
  order : s'.pipeline.Sublist (s.pipeline ++ (imagesOf (liveOf es)).map Prod.snd)
  count : s'.pipeline.length + (lostImages es).length = s.pipeline.length + (imagesOf (liveOf es)).length

theorem drop_hands (s : State g) (i : Nat) :
    Hands s { s with messages := s.messages.eraseIdx i } (observe (.drop i) s) := by
  have hobs : observe (.drop i) s = (s.messages[i]?.map Event.lost).toList := rfl
  have hlive : liveOf (observe (.drop i) s) = [] := by
    rw [hobs]
    cases s.messages[i]? <;> rfl
  refine ⟨?_, ?_⟩
  · rw [hlive]
    unfold State.pipeline
    simpa [State.shown, imagesOf] using (List.eraseIdx_sublist s.messages i)
  · rw [hlive, hobs]
    by_cases hi : i < s.messages.length
    · simp [State.pipeline, State.shown, imagesOf, lostImages, Event.lostImage, List.getElem?_eq_getElem hi,
        List.length_eraseIdx_of_lt hi]
      omega
    · have hnone := List.getElem?_eq_none (not_lt.1 hi)
      simp [State.pipeline, State.shown, imagesOf, lostImages, hnone, List.eraseIdx_of_length_le (not_lt.1 hi)]

theorem step_hands {s s' : State g} {a : Action} (h : step a s = some s') : Hands s s' (observe a s) := by
  rcases step_cases h with ⟨action, live, rfl, hlive, rfl⟩ | ⟨i, rfl, rfl⟩ | ⟨image, messages, rfl, hphase, hmessages, rfl⟩ |
    ⟨streamvis, live, image, data, rfl, hphase, -, rfl⟩
  · have hobs : liveOf (observe (.live action) s) = LivePath.observe action s.live := liveOf_live _
    have hlost : lostImages (observe (.live action) s) = [] := lostImages_live _
    constructor
    · rw [hobs, ← assembled_observe hlive]
      simp [State.pipeline, State.shown]
    · rw [hobs, hlost, ← List.length_map (f := Prod.snd), ← assembled_observe hlive]
      simp [State.pipeline, State.shown]
      omega
  · exact drop_hands s i
  · have hpipeline : State.pipeline { s with messages := messages, phase := .send image } = s.pipeline := by
      simp [State.pipeline, State.shown, hphase, hmessages, inHand]
    refine ⟨?_, ?_⟩
    · rw [hpipeline]
      exact List.sublist_append_left _ _
    · rw [hpipeline]
      rfl
  · have hpipeline : State.pipeline { s with phase := .receive, sent := s.sent ++ send image data streamvis live } =
        s.pipeline := by
      unfold State.pipeline
      rw [State.shown, shown_send, hphase]
      simp [inHand, metadata_message]
    refine ⟨?_, ?_⟩
    · rw [hpipeline]
      exact List.sublist_append_left _ _
    · rw [hpipeline]
      rfl

/-! ## Runs in time -/

def sendsInTime (s : State g) : StreamPhase → Prop
  | .receive => True
  | .send image => image.pulseId ≠ 0 → InTime s.live image.pulseId

/-- Images are assembled and sent in time. -/
def inTime (a : Action) (s : State g) : Prop :=
  match a with
  | .live action => assemblesInTime action s.live
  | .send .. => sendsInTime s s.phase
  | .drop _ => True
  | .receive => True

instance (s : State g) : ∀ phase, Decidable (sendsInTime s phase)
  | .receive => inferInstanceAs (Decidable True)
  | .send _ => inferInstanceAs (Decidable (_ → _))

instance (a : Action) (s : State g) : Decidable (inTime a s) :=
  match a with
  | .live action => inferInstanceAs (Decidable (assemblesInTime action s.live))
  | .send .. => inferInstanceAs (Decidable (sendsInTime s s.phase))
  | .drop _ => inferInstanceAs (Decidable True)
  | .receive => inferInstanceAs (Decidable True)

section

variable {ok : Action → State g → Prop} {start s : State g} {es : List Event} {frames : Nat → List LossyFrame}

/-- sf_stream does not touch the live path. -/
theorem live_trace (h : TracedUnder inTime start s es) :
    LivePath.TracedUnder assemblesInTime start.live s.live (liveOf es) := by
  refine Runs.Trace.project (f := State.live) (fun s hs => congrArg State.live hs) (fun a s s' hok hstep => ?_) h
  rcases step_cases hstep with ⟨action, live, rfl, hlive, rfl⟩ | ⟨i, rfl, rfl⟩ | ⟨_, _, rfl, -, -, rfl⟩ |
    ⟨_, _, _, _, rfl, -, -, rfl⟩
  · exact .inr ⟨action, hok, hlive, liveOf_live _⟩
  · refine .inl ⟨rfl, ?_⟩
    unfold observe
    simp only
    cases s.messages[i]? <;> rfl
  · exact .inl ⟨rfl, rfl⟩
  · exact .inl ⟨rfl, rfl⟩

/-- The images are sent in the order in which they were assembled, each at most once. -/
theorem pipeline_order (hinit : Init start) (h : TracedUnder ok start s es) :
    s.pipeline.Sublist ((imagesOf (liveOf es)).map Prod.snd) := by
  refine h.invariant (I := fun s es => s.pipeline.Sublist ((imagesOf (liveOf es)).map Prod.snd))
    (fun s hs => ?_) (fun s es a s' ih _ hstep => ?_)
  · subst hs
    simp [State.pipeline, State.shown, hinit.sent, hinit.phase, hinit.messages, inHand]
  · rw [liveOf_append, LivePath.imagesOf_append, List.map_append]
    exact (step_hands hstep).order.trans (ih.append_right _)

/-- None gets lost unnoticed. -/
theorem pipeline_count (hinit : Init start) (h : TracedUnder ok start s es) :
    s.pipeline.length + (lostImages es).length = (imagesOf (liveOf es)).length := by
  refine h.invariant (I := fun s es => s.pipeline.length + (lostImages es).length = (imagesOf (liveOf es)).length)
    (fun s hs => ?_) (fun s es a s' ih _ hstep => ?_)
  · subst hs
    simp [State.pipeline, State.shown, hinit.sent, hinit.phase, hinit.messages, inHand, imagesOf, lostImages, liveOf]
  · have hstep := (step_hands hstep).count
    rw [liveOf_append, LivePath.imagesOf_append, lostImages_append]
    simp only [List.length_append]
    omega

end

/-! ## What the messages show -/

/-- The image is, module by module, the data of these frames. -/
def ShowsData (g : Geometry) (fr : Nat → LossyFrame) (image : Fin g.imageBytes → UInt8) : Prop :=
  ∀ m < g.nModules, ∀ k : Fin moduleNBytes, ∃ hk : m * moduleNBytes + k < g.imageBytes,
    image ⟨m * moduleNBytes + k, hk⟩ = (fr m).data k

/-- The message is of the frames that the modules' streams publish for `p`: so are its metadata and, unless
these are zero, its image. -/
def MessageOf (frames : Nat → List LossyFrame) (p : UInt64) (e : SentMessage g) : Prop :=
  ∃ fr, FramesOf g frames p fr ∧ e.metadata = pulseImage g fr ∧
    (e.pulseId ≠ 0 → ∀ image, e.image = some image → ShowsData g fr image)

section

variable {start s : State g} {es : List Event} {frames : Nat → List LossyFrame} {p : UInt64}

theorem ShowsData.of_frames (hstream : Stream start.live frames) {fr fr' : Nat → LossyFrame}
    (hfr : FramesOf g frames p fr) (hfr' : FramesOf g frames p fr') {image : Fin g.imageBytes → UInt8}
    (h : ShowsData g fr image) : ShowsData g fr' image := by
  intro m hm k
  obtain ⟨hmem, hp⟩ := hfr m hm
  obtain ⟨hmem', hp'⟩ := hfr' m hm
  obtain ⟨hk, hdata⟩ := h m hm k
  rw [frame_unique hstream hm hmem hmem' (hp.trans hp'.symm)] at hdata
  exact ⟨hk, hdata⟩

/-- The image that is loaded in time is that of its pulse_id. -/
theorem load_stream (hinit : Init start) (hstream : Stream start.live frames) (h : TracedUnder inTime start s es)
    (hwrote : ∀ m < g.nModules, Wrote s.live m p) (htime : InTime s.live p) {data : Fin g.imageBytes → UInt8}
    (hload : s.live.buffer.load (s.live.buffer.readImage p) g.imageBytes = some data) :
    ∃ fr, FramesOf g frames p fr ∧ ShowsData g fr data := by
  have htrace := live_trace h
  obtain ⟨fr, hfr, hlast⟩ := slot_stream hinit.live hstream htrace hwrote htime
  refine ⟨fr, hfr, fun m hm => ?_⟩
  exact (load_lastWrite (LivePath.traced_inv hinit.live htrace) hload hm (hlast m hm)).2.2

/-- Each message is of a pulse_id. -/
theorem sent_stream (hinit : Init start) (hstream : Stream start.live frames) (h : TracedUnder inTime start s es) :
    ∀ e ∈ s.sent, ∃ p, MessageOf frames p e := by
  induction h with
  | init hs =>
    subst hs
    rw [hinit.sent]
    exact nofun
  | @step s es a s' hrun hok hstep ih =>
    rcases step_cases hstep with ⟨_, _, rfl, -, rfl⟩ | ⟨_, rfl, rfl⟩ | ⟨_, _, rfl, -, -, rfl⟩ |
      ⟨streamvis, live, image, data, rfl, hphase, hload, rfl⟩
    · exact ih
    · exact ih
    · exact ih
    · intro e he
      rcases List.mem_append.1 he with he | he
      · exact ih e he
      · obtain ⟨socket, full, rfl, -⟩ := mem_send he
        -- the image at hand is one that was assembled
        have hpipeline : image ∈ s.pipeline := by
          simp [State.pipeline, hphase, inHand]
        obtain ⟨x, hx, rfl⟩ := List.mem_map.1 ((pipeline_order hinit hrun).subset hpipeline)
        obtain ⟨hwrote, fr, hfr, hmeta⟩ := images_metadata hinit.live hstream (live_trace hrun) x hx
        refine ⟨x.1, fr, hfr, hmeta, fun hne image himage => ?_⟩
        change x.2.pulseId ≠ 0 at hne
        have hp : x.2.pulseId = x.1 := by
          rw [hmeta] at hne ⊢
          exact pulseImage_pulseId (fun m hm => (hfr m hm).2) hne
        change sendsInTime s s.phase at hok
        rw [hphase] at hok
        have htime := hok hne
        rw [hp] at htime hload
        obtain ⟨fr', hfr', hdata⟩ := load_stream hinit hstream hrun hwrote htime hload
        cases full with
        | false => cases himage
        | true =>
          cases himage
          exact hdata.of_frames hstream hfr' hfr

/-- A message with the metadata of an image is of the pulse_id of the image. -/
theorem messageOf_image (hinit : Init start) (hstream : Stream start.live frames) (h : TracedUnder inTime start s es)
    {e : SentMessage g} (he : e ∈ s.sent) {x : UInt64 × ImageMetadata} (hx : x ∈ imagesOf (liveOf es))
    (hmeta : e.metadata = x.2) : MessageOf frames x.1 e := by
  obtain ⟨-, fr, hfr, himage⟩ := images_metadata hinit.live hstream (live_trace h) x hx
  have hmetadata : e.metadata = pulseImage g fr := hmeta.trans himage
  refine ⟨fr, hfr, hmetadata, fun hne image hdata => ?_⟩
  obtain ⟨p, fr', hfr', hmetadata', hshows⟩ := sent_stream hinit hstream h e he
  -- both pulse_ids are the one of the metadata
  have hpulse : ∀ {p fr}, FramesOf g frames p fr → e.metadata = pulseImage g fr → e.pulseId = p := by
    intro p fr hfr hmetadata
    have heq : e.pulseId = (pulseImage g fr).pulseId := congrArg ImageMetadata.pulseId hmetadata
    rw [heq] at hne ⊢
    exact pulseImage_pulseId (fun m hm => (hfr m hm).2) hne
  have hp : p = x.1 := (hpulse hfr' hmetadata').symm.trans (hpulse hfr hmetadata)
  subst hp
  exact (hshows hne image hdata).of_frames hstream hfr' hfr

/-- The messages to streamvis are those of some of the images, in their order. -/
theorem shown_images (hinit : Init start) (h : TracedUnder inTime start s es) :
    ∃ xs, xs.Sublist (imagesOf (liveOf es)) ∧ s.shown.map (·.metadata) = xs.map Prod.snd ∧
      (lostImages es = [] → s.messages = [] → s.phase = .receive → xs = imagesOf (liveOf es)) := by
  have hshown : (s.shown.map (·.metadata)).Sublist ((imagesOf (liveOf es)).map Prod.snd) := by
    refine List.Sublist.trans ?_ (pipeline_order hinit h)
    unfold State.pipeline
    rw [List.append_assoc]
    exact List.sublist_append_left _ _
  obtain ⟨xs, hxs, heq⟩ := List.sublist_map_iff.1 hshown
  refine ⟨xs, hxs, heq, fun hlost hmessages hphase => hxs.eq_of_length ?_⟩
  have hcount := pipeline_count hinit h
  have hlength : s.shown.length = xs.length := by simpa using congrArg List.length heq
  simp only [State.pipeline, hmessages, hphase, hlost, inHand, List.append_nil, List.length_map,
    List.length_nil, Nat.add_zero] at hcount
  exact hlength.symm.trans hcount

end

/-- The modules receive the packets that arrive of consecutive frames, and no module gets a whole buffer ahead
of an image that is assembled or sent. The messages of sf_stream are then each of the frames that the modules'
streams publish for one pulse_id, and those to streamvis are of increasing pulse_ids; when no message gets
lost and all processes wait, there is one for each pulse_id that all streams publish. -/
theorem messages_of_streams {start s : State g} {es : List Event} {frames : Nat → List LossyFrame}
    (hinit : Init start) (hstream : Stream start.live frames) (h : TracedUnder inTime start s es) :
    (∀ e ∈ s.sent, ∃ p, MessageOf frames p e) ∧
    ∃ ps : List UInt64, ps.Pairwise (· < ·) ∧ List.Forall₂ (MessageOf frames) ps s.shown ∧
      ((∀ m < g.nModules, LivePath.lostOf m (liveOf es) = []) → lostImages es = [] →
        (∀ m < g.nModules, (s.live.senders m).Waits) → s.live.AssemblerWaits → s.messages = [] → s.phase = .receive →
          ps = Streams.common ((List.range g.nModules).map (pulsesOf frames))) := by
  refine ⟨sent_stream hinit hstream h, ?_⟩
  have htrace := live_trace h
  obtain ⟨xs, hxs, hmeta, hall⟩ := shown_images hinit h
  refine ⟨xs.map Prod.fst, ?_, ?_, ?_⟩
  · exact (LivePath.images_increasing hinit.live hstream htrace).sublist (hxs.map _)
  · rw [List.forall₂_map_left_iff]
    have hpairs : List.Forall₂ (fun x e => x.2 = e.metadata) xs s.shown := by
      rw [← List.forall₂_eq_eq_eq, List.forall₂_map_left_iff, List.forall₂_map_right_iff] at hmeta
      exact hmeta.flip.imp fun x e heq => heq.symm
    obtain ⟨hlength, hpair⟩ := List.forall₂_iff_zip.1 hpairs
    refine List.forall₂_iff_zip.2 ⟨hlength, fun {x e} hmem => ?_⟩
    obtain ⟨hx, he⟩ := List.of_mem_zip hmem
    exact messageOf_image hinit hstream h (List.mem_filter.1 he).1 (hxs.subset hx) (hpair hmem).symm
  · intro hlost himages hsenders hwaits hmessages hphase
    rw [hall himages hmessages hphase]
    exact LivePath.images_at_rest hinit.live hstream htrace hlost hsenders hwaits

/-- The frames of pulses 1 and 1001, which have the same slot. -/
def ringFrames : List LossyFrame := [fullFrame 1 .one 0, fullFrame 2 (.ofBits 0x408F480000000000) 7]

/-- Each image is sent before the next frame comes. -/
theorem messages_of_streams_oneSender : ∃ s es, TracedUnder inTime oneSender s es ∧
    s.shown.map (·.metadata) = [⟨1, 1, 0, 1⟩, ⟨1001, 2, 0, 1⟩] ∧ (∀ e ∈ s.sent, ∃ p, MessageOf (fun _ => ringFrames) p e) ∧
    List.Forall₂ (MessageOf fun _ => ringFrames) [1, 1001] s.shown := by
  have hstream : Stream oneSender.live fun _ => ringFrames := by
    refine ⟨fun _ _ => ⟨?_, ?_⟩, fun _ _ => rfl⟩
    · refine .cons_cons ⟨?_, ?_, ?_⟩ (.singleton _) <;> decide
    · unfold ringFrames
      simp only [List.forall_mem_cons]
      decide
  have hrun : ((Runs.runObserved inTime step observe (published ++ [.send true none] ++ published ++
      [.send true (some true)]) oneSender).map fun out => (out.1.shown.map (·.metadata),
        (lostImages out.2, out.1.messages), [out.1.live.unread 0, out.1.live.channels 0, LivePath.lostOf 0 (liveOf out.2)],
        decide (out.1.phase = .receive ∧ out.1.live.assembler = .receiving ∧ (out.1.live.senders 0).Waits))) =
      some ([⟨1, 1, 0, 1⟩, ⟨1001, 2, 0, 1⟩], ([], []), [[], [], []], true) := by
    decide +kernel
  obtain ⟨⟨s, es⟩, hs, hobs⟩ := Option.map_eq_some_iff.1 hrun
  simp only [Prod.mk.injEq, List.cons.injEq, and_true, decide_eq_true_eq] at hobs
  obtain ⟨hshown, ⟨himages, hmessages⟩, ⟨hunread, hchannel, hlost⟩, hphase, hassembler, hwaits⟩ := hobs
  have h0 : TracedUnder inTime oneSender oneSender [] := .init rfl
  have htrace : TracedUnder inTime oneSender s es := h0.run hs
  have hone : ∀ {P : Nat → Prop}, P 0 → ∀ m < 1, P m := by
    intro P h0 m hm
    obtain rfl : m = 0 := by omega
    exact h0
  have hassemblerWaits : s.live.AssemblerWaits := by
    refine ⟨hassembler, 0, ?_, hchannel⟩
    show Assembler.getNextPulseId [s.live.unread 0] = _
    rw [hunread]
    rfl
  obtain ⟨hsent, ps, -, hps, hall⟩ := messages_of_streams oneSender_init hstream htrace
  rw [hall (hone hlost) himages (hone hwaits) hassemblerWaits hmessages hphase] at hps
  exact ⟨s, es, htrace, hshown, hsent, hps⟩

end SfDaqBuffer.SfStream
