/-
From the packets of all modules to the buffer files. The buffer writer of a module writes frames of its
stream only, each at the place of its pulse_id, in order and at most once; and when no announcement gets lost
it writes all of them. A frame is in time when its module has not published one that is a whole RAM buffer
later before the buffer writer reads it.
-/
import SfDaqBuffer.Detector.System
import SfDaqBuffer.LivePath.Images

namespace SfDaqBuffer.Detector

open Posix CoreBuffer BufferUtils BufferWriter DiskBuffer UdpRecv LossyFrame
open LivePath (publishedOf framesOf)
open SfUtils (deviceName)

variable {g : Geometry}

/-! ## Events -/

def Event.ofLive : Event → Option LivePath.Event
  | .live event => some event
  | .lost .. => none

def Event.lostBy (m : Nat) : Event → Option UInt64
  | .lost m' p => if m' = m then some p else none
  | .live _ => none

/-- What can be seen of the live path. -/
def liveOf (es : List Event) : List LivePath.Event := es.filterMap Event.ofLive

/-- The announcements of module `m` that do not reach its buffer writer. -/
def lostOf (m : Nat) (es : List Event) : List UInt64 := es.filterMap (·.lostBy m)

theorem liveOf_append (es es' : List Event) : liveOf (es ++ es') = liveOf es ++ liveOf es' := List.filterMap_append ..

theorem lostOf_append (m : Nat) (es es' : List Event) : lostOf m (es ++ es') = lostOf m es ++ lostOf m es' :=
  List.filterMap_append ..

theorem liveOf_live (es : List LivePath.Event) : liveOf (es.map .live) = es := by
  unfold liveOf
  rw [List.filterMap_map]
  exact List.filterMap_some

theorem lostOf_live (m : Nat) (es : List LivePath.Event) : lostOf m (es.map .live) = [] := by
  unfold lostOf
  rw [List.filterMap_map]
  exact List.filterMap_none ..

theorem observe_drop (s : State g) (m i : Nat) :
    observe (.drop m i) s = ((s.processes m).announcements[i]?.map (Event.lost m)).toList := rfl

theorem liveOf_drop (s : State g) (m i : Nat) : liveOf (observe (.drop m i) s) = [] := by
  rw [observe_drop]
  cases (s.processes m).announcements[i]? with
  | none => rfl
  | some p => rfl

theorem announced_published (m : Nat) (s : LivePath.State g) (a : LivePath.Action) :
    announced m s a = (publishedOf m (LivePath.observe a s)).map (·.announced) := by
  by_cases ha : a = .sender m
  · subst ha
    rw [LivePath.publishedOf_send]
    unfold announced
    by_cases hphase : (s.senders m).phase = .send
    · simp [hphase, LivePath.Sender.current]
    · simp [hphase]
  · rw [LivePath.publishedOf_other ha]
    unfold announced
    cases a with
    | sender m' =>
      have hm : m' ≠ m := fun heq => ha (heq ▸ rfl)
      simp [hm]
    | drop m' i => rfl
    | assembler => rfl

section

variable {ok : Action → State g → Prop} {start s : State g} {es : List Event} {frames : Nat → List LossyFrame}
  {detectorFolder : String}

/-- The buffer writers and the readers do not touch the live path. -/
theorem live_trace (h : TracedUnder ok start s es) : LivePath.Traced start.live s.live (liveOf es) := by
  refine Runs.Trace.project (f := State.live) (fun s hs => congrArg State.live hs) (fun a s s' _ hstep => ?_) h
  cases a with
  | live action =>
    obtain ⟨live, hlive, hs'⟩ := Option.bind_eq_some_iff.1 hstep
    cases hs'
    exact .inr ⟨action, trivial, hlive, liveOf_live _⟩
  | drop m i =>
    cases hstep
    exact .inl ⟨rfl, liveOf_drop s m i⟩
  | writer m =>
    unfold step at hstep
    simp only at hstep
    split at hstep
    · obtain ⟨b, -, rfl⟩ := Option.map_eq_some_iff.1 hstep
      exact .inl ⟨rfl, rfl⟩
    · cases hstep
  | getBlock m blockId buffer =>
    cases hstep
    exact .inl ⟨rfl, rfl⟩

theorem traced_inv (hinit : Init detectorFolder start) (h : TracedUnder ok start s es) : Inv detectorFolder s :=
  h.invariant (I := fun s _ => Inv detectorFolder s) (fun _ hs => by subst hs; exact init_inv hinit)
    fun _ _ _ _ hi _ hs => step_inv hi hs

/-! ## A module -/

/-- The pulse_id that a buffer writer is busy with. -/
def inFlight : WriterPhase → List UInt64
  | .readFrame p | .write p => [p]
  | .receive | .threw _ => []

/-- The pulse_ids that have been written, the one at hand, and those still to be received. -/
def Process.pulses (process : Process) : List UInt64 :=
  process.written.map Prod.fst ++ inFlight process.phase ++ process.announcements

/-- The frame that a buffer writer reads is still there. -/
def readsInTime (a : Action) (s : State g) : Prop :=
  ∀ m, a = .writer m → ∀ p, (s.processes m).phase = .readFrame p →
    ∀ w ∈ framesOf m s.live.log, w.1.pulseId.toNat < p.toNat + g.nSlots

instance (a : Action) (s : State g) : Decidable (readsInTime a s) :=
  match a with
  | .writer m =>
    match hs : (s.processes m).phase with
    | .readFrame p =>
      decidable_of_iff (∀ w ∈ framesOf m s.live.log, w.1.pulseId.toNat < p.toNat + g.nSlots)
        ⟨fun h _ hm _ hp => by
          cases hm
          rw [hs] at hp
          cases hp
          exact h, fun h => h m rfl p hs⟩
    | .receive => .isTrue fun _ hm _ hp => by cases hm; exact nomatch hs.symm.trans hp
    | .write _ => .isTrue fun _ hm _ hp => by cases hm; exact nomatch hs.symm.trans hp
    | .threw _ => .isTrue fun _ hm _ hp => by cases hm; exact nomatch hs.symm.trans hp
  | .live _ => .isTrue nofun
  | .drop _ _ => .isTrue nofun
  | .getBlock _ _ _ => .isTrue nofun

/-- The buffer writer has lost nothing but what is counted, and has written frames of the stream. -/
structure ModuleInv (frames : List LossyFrame) (m : Nat) (process : Process) (es : List Event) : Prop where
  order : process.pulses.Sublist ((publishedOf m (liveOf es)).map (·.announced))
  count : process.pulses.length + (lostOf m es).length = (publishedOf m (liveOf es)).length
  writing : ∀ p, process.phase = .write p → ∃ fr ∈ publishedFrames frames, fr.pulseId = p ∧ process.fileBuff = fr.record m
  written : ∀ w ∈ process.written, ∃ fr ∈ publishedFrames frames, w = (fr.pulseId, fr.record m)

/-- A step that concerns neither the announcements nor the buffer writer of the module. -/
theorem ModuleInv.same {frames : List LossyFrame} {m : Nat} {process process' : Process} {es es' : List Event}
    (h : ModuleInv frames m process es) (hpulses : process'.pulses = process.pulses)
    (hphase : ∀ p, process'.phase = .write p → ∃ fr ∈ publishedFrames frames, fr.pulseId = p ∧ process'.fileBuff = fr.record m)
    (hwritten : ∀ w ∈ process'.written, w ∈ process.written ∨ ∃ fr ∈ publishedFrames frames, w = (fr.pulseId, fr.record m))
    (hpublished : publishedOf m (liveOf es') = []) (hlost : lostOf m es' = []) :
    ModuleInv frames m process' (es ++ es') where
  order := by
    rw [liveOf_append, LivePath.publishedOf_append, hpublished, List.append_nil, hpulses]
    exact h.order
  count := by
    rw [liveOf_append, LivePath.publishedOf_append, hpublished, List.append_nil, lostOf_append, hlost, List.append_nil,
      hpulses]
    exact h.count
  writing := hphase
  written w hw := (hwritten w hw).elim (h.written w) id

theorem live_module {m : Nat} {action : LivePath.Action} {frames : List LossyFrame}
    (h : ModuleInv frames m (s.processes m) es) :
    ModuleInv frames m
      { s.processes m with announcements := (s.processes m).announcements ++ announced m s.live action }
      (es ++ observe (.live action) s) := by
  have hevents : observe (.live action) s = (LivePath.observe action s.live).map .live := rfl
  have hpulses : Process.pulses { s.processes m with
      announcements := (s.processes m).announcements ++ announced m s.live action } =
      (s.processes m).pulses ++ (publishedOf m (LivePath.observe action s.live)).map (·.announced) := by
    rw [← announced_published]
    exact (List.append_assoc ..).symm
  constructor
  · rw [hpulses, liveOf_append, hevents, liveOf_live, LivePath.publishedOf_append, List.map_append]
    exact h.order.append_right _
  · have hcount := h.count
    rw [hpulses, liveOf_append, lostOf_append, hevents, liveOf_live, lostOf_live, LivePath.publishedOf_append,
      List.append_nil, List.length_append, List.length_append, List.length_map]
    omega
  · exact h.writing
  · exact h.written

theorem drop_module {m i : Nat} {frames : List LossyFrame} (h : ModuleInv frames m (s.processes m) es) :
    ModuleInv frames m { s.processes m with announcements := (s.processes m).announcements.eraseIdx i }
      (es ++ observe (.drop m i) s) := by
  refine ⟨?_, ?_, h.writing, h.written⟩
  · rw [liveOf_append, liveOf_drop, List.append_nil]
    refine List.Sublist.trans ?_ h.order
    exact (List.eraseIdx_sublist ..).append_left _
  · have hcount := h.count
    rw [liveOf_append, liveOf_drop, List.append_nil, lostOf_append, observe_drop, ← hcount]
    unfold Process.pulses
    simp only [List.length_append]
    by_cases hi : i < (s.processes m).announcements.length
    · rw [List.getElem?_eq_getElem hi, List.length_eraseIdx_of_lt hi]
      simp only [Option.map_some, Option.toList_some, lostOf, List.filterMap_cons, Event.lostBy, if_true,
        List.filterMap_nil, List.length_singleton]
      omega
    · rw [List.getElem?_eq_none (not_lt.1 hi), List.eraseIdx_of_length_le (not_lt.1 hi)]
      rfl

/-- A step of the buffer writer of a module that reads in time. -/
theorem writer_module (hinit : Init detectorFolder start) (hstream : LivePath.Stream start.live frames)
    (htrace : TracedUnder ok start s es) {m : Nat} (hm : m < g.nModules) (hok : readsInTime (.writer m) s)
    (h : ModuleInv (frames m) m (s.processes m) es) {b : BufferWriter.State g}
    (hstep : writerStep m (s.view m) = some b) :
    ModuleInv (frames m) m ⟨b.announcements, b.fileBuff, b.phase, b.written⟩ (es ++ observe (.writer m) s) := by
  have hinv := traced_inv hinit htrace
  rcases writerStep_cases hstep with ⟨p, msgs, hphase, hmsgs, rfl⟩ | ⟨p, frame, hphase, hread, rfl⟩ |
    ⟨p, hphase, hskip, rfl⟩ | ⟨p, writer, disk, hphase, hsame, -, rfl⟩ | ⟨p, what, writer, disk, -, hwrite, -⟩
  · change (s.processes m).phase = _ at hphase
    change (s.processes m).announcements = _ at hmsgs
    refine h.same ?_ (fun q hq => by cases hq) (fun w hw => .inl hw) rfl rfl
    unfold Process.pulses
    rw [hphase, hmsgs]
    simp [inFlight, State.view]
  · change (s.processes m).phase = _ at hphase
    have hwrote := (hinv.modules m hm).reading p hphase
    obtain ⟨hlogged, hpulse⟩ := LivePath.readFrame_inTime hinit.live hstream (live_trace htrace) hm hwrote
      (hok m rfl p hphase) hread
    obtain ⟨fr, hfr, rfl⟩ := LivePath.stream_of_logged hinit.live hstream (live_trace htrace) hm hlogged
    refine h.same ?_ (fun q hq => ?_) (fun w hw => .inl hw) rfl rfl
    · unfold Process.pulses
      rw [hphase]
      rfl
    · cases hq
      refine ⟨fr, hfr, hpulse, ?_⟩
      have hmarker := (hinv.modules m hm).marker
      unfold LossyFrame.record
      rw [hmarker]
  · -- the frame that was read is the one that was announced
    obtain ⟨fr, hfr, hpulse, hbuff⟩ := h.writing p hphase
    change p ≠ (s.processes m).fileBuff.metadata.pulseId at hskip
    rw [hbuff] at hskip
    exact absurd hpulse.symm hskip
  · change (s.processes m).phase = _ at hphase
    obtain ⟨fr, hfr, hpulse, hbuff⟩ := h.writing p hphase
    refine h.same ?_ (fun q hq => by cases hq) (fun w hw => ?_) rfl rfl
    · unfold Process.pulses
      rw [hphase]
      simp [inFlight, State.view]
    · rcases List.mem_append.1 hw with hw | hw
      · exact .inl hw
      · obtain rfl := List.mem_singleton.1 hw
        refine .inr ⟨fr, hfr, ?_⟩
        rw [hpulse]
        exact congrArg (Prod.mk p) hbuff
  · obtain ⟨writer', disk', hgood⟩ := write_ok hinv m p (s.processes m).fileBuff
    cases hgood.symm.trans hwrite

theorem module_run (hinit : Init detectorFolder start) (hstream : LivePath.Stream start.live frames)
    (h : TracedUnder readsInTime start s es) {m : Nat} (hm : m < g.nModules) :
    ModuleInv (frames m) m (s.processes m) es := by
  induction h with
  | @init s hs =>
    subst hs
    have hpulses : (s.processes m).pulses = [] := by
      unfold Process.pulses
      rw [hinit.written m, hinit.phase m, hinit.announcements m]
      rfl
    refine ⟨by rw [hpulses]; exact List.nil_sublist _, by rw [hpulses]; rfl, fun p hp => ?_, fun w hw => ?_⟩
    · rw [hinit.phase m] at hp
      cases hp
    · rw [hinit.written m] at hw
      cases hw
  | @step s es a s' htrace hok hstep ih =>
    have hother : ∀ {b : BufferWriter.State g} {n : Nat} (es' : List Event), m ≠ n → publishedOf m (liveOf es') = [] →
        lostOf m es' = [] → ModuleInv (frames m) m ((s.put n b).processes m) (es ++ es') := by
      intro b n es' hne hpublished hlost
      rw [processes_put_other _ _ _ hne]
      exact ih.same rfl ih.writing (fun w hw => .inl hw) hpublished hlost
    cases a with
    | live action =>
      obtain ⟨live, hlive, hs'⟩ := Option.bind_eq_some_iff.1 hstep
      cases hs'
      exact live_module ih
    | drop n i =>
      cases hstep
      by_cases hn : m = n
      · subst hn
        rw [processes_put]
        exact drop_module ih
      · apply hother _ hn (by rw [liveOf_drop]; rfl)
        rw [observe_drop]
        cases (s.processes n).announcements[i]? with
        | none => rfl
        | some p => simp [lostOf, Event.lostBy, Ne.symm hn]
    | writer n =>
      unfold step at hstep
      simp only at hstep
      split at hstep
      · obtain ⟨b, hb, rfl⟩ := Option.map_eq_some_iff.1 hstep
        by_cases hn : m = n
        · subst hn
          rw [processes_put]
          exact writer_module hinit hstream htrace hm hok ih hb
        · exact hother _ hn rfl rfl
      · cases hstep
    | getBlock n blockId buffer =>
      cases hstep
      exact ih.same rfl ih.writing (fun w hw => .inl hw) rfl rfl

/-! ## The records of a stream -/

/-- What the buffer writer of module `m` writes for a stream. -/
def streamRecords (m : Nat) (frames : List LossyFrame) : List (UInt64 × BufferBinaryFormat) :=
  (publishedFrames frames).map fun fr => (fr.pulseId, fr.record m)

theorem streamRecords_keys (m : Nat) (frames : List LossyFrame) :
    (streamRecords m frames).map Prod.fst = (publishedFrames frames).map (·.pulseId) := by
  unfold streamRecords
  rw [List.map_map]
  rfl

theorem keys_nodup (hstream : LivePath.Stream start.live frames) {m : Nat} (hm : m < g.nModules) :
    ((streamRecords m (frames m)).map Prod.fst).Nodup := by
  rw [streamRecords_keys]
  exact (LivePath.stream_increasing hstream hm).imp ne_of_lt

theorem written_sublist (hinit : Init detectorFolder start) (hstream : LivePath.Stream start.live frames)
    (h : TracedUnder readsInTime start s es) {m : Nat} (hm : m < g.nModules) :
    (s.processes m).written.Sublist (streamRecords m (frames m)) := by
  have hmodule := module_run hinit hstream h hm
  refine Streams.sublist_of_keys ?_ (keys_nodup hstream hm) fun w hw => ?_
  · rw [streamRecords_keys]
    refine List.Sublist.trans ?_ (LivePath.announced_stream hinit.live hstream (live_trace h) hm).sublist
    refine List.Sublist.trans ?_ hmodule.order
    unfold Process.pulses
    rw [List.append_assoc]
    exact List.sublist_append_left _ _
  · obtain ⟨fr, hfr, rfl⟩ := hmodule.written w hw
    exact List.mem_map.2 ⟨fr, hfr, rfl⟩

/-- The module has read all its packets, and its buffer writer waits for the next announcement. -/
structure ModuleQuiet (s : State g) (m : Nat) : Prop where
  sender : (s.live.senders m).Waits
  phase : (s.processes m).phase = .receive
  announcements : (s.processes m).announcements = []

theorem written_all (hinit : Init detectorFolder start) (hstream : LivePath.Stream start.live frames)
    (h : TracedUnder readsInTime start s es) {m : Nat} (hm : m < g.nModules) (hlost : lostOf m es = [])
    (hquiet : ModuleQuiet s m) : (s.processes m).written = streamRecords m (frames m) := by
  have hcount := (module_run hinit hstream h hm).count
  have hannounced := LivePath.announced_of_waits hinit.live hstream (live_trace h) hm hquiet.sender
  apply (written_sublist hinit hstream h hm).eq_of_length
  have hlength := congrArg List.length hannounced
  unfold Process.pulses at hcount
  rw [hlost, hquiet.phase, hquiet.announcements] at hcount
  simp only [inFlight, List.append_nil, List.length_map, List.length_nil, Nat.add_zero] at hcount hlength
  rw [hcount, hlength]
  unfold streamRecords
  rw [List.length_map]

/-! ## The buffer files -/

/-- The record of a pulse that was written once. -/
theorem lastRecord_of_mem {ws : List (UInt64 × BufferBinaryFormat)} (hnodup : (ws.map Prod.fst).Nodup) {p : UInt64}
    {r : BufferBinaryFormat} (h : (p, r) ∈ ws) : lastRecord ws p.toNat = r := by
  have hmem : (p, r) ∈ ws.filter fun w => w.1.toNat = p.toNat := List.mem_filter.2 ⟨h, by simp⟩
  unfold lastRecord
  rw [List.getLast?_eq_getLast_of_ne_nil (List.ne_nil_of_mem hmem), Option.map_some, Option.getD_some]
  obtain ⟨hlast, hkey⟩ := List.mem_filter.1 (List.getLast_mem (List.ne_nil_of_mem hmem))
  have hp : (List.getLast _ (List.ne_nil_of_mem hmem)).1 = p := UInt64.toNat_inj.1 (of_decide_eq_true hkey)
  exact congrArg Prod.snd (List.inj_on_of_nodup_map hnodup hlast h hp)

/-- What the files of a module have at the place of a pulse. -/
theorem file_record (hinv : Inv detectorFolder s) {m : Nat} {p : UInt64} {f : File}
    (hf : s.clients.disk.file (getFilename detectorFolder (moduleName m) p) = some f) :
    recordAt f (getFileFrameIndex p).toNat = lastRecord (s.processes m).written p.toNat := by
  have hholds := hinv.clientsOk.holds m
  rw [SfUtils.moduleName_eq] at hf
  have hrecord := hholds.record p f hf _ (getFileFrameIndex_lt p)
  rwa [fileBase_add_index] at hrecord

end

/-- However the processes of a detector and the readers of its buffer interleave, when the frames are read in
time: the buffer writer of a module writes frames of the module's stream, in order and each at most once, and
its files have at the place of a pulse_id the frame of the stream with this pulse_id, or nothing. A module
that has lost no announcement and waits for packets has each frame that its stream publishes in its files,
with the metadata and all payloads that arrived. -/
theorem frames_persisted {start s : State g} {es : List Event} {frames : Nat → List LossyFrame}
    {detectorFolder : String} (hinit : Init detectorFolder start) (hstream : LivePath.Stream start.live frames)
    (h : TracedUnder readsInTime start s es) {m : Nat} (hm : m < g.nModules) :
    (s.processes m).written.Sublist (streamRecords m (frames m)) ∧
    (∀ p f, s.clients.disk.file (getFilename detectorFolder (moduleName m) p) = some f →
      recordAt f (getFileFrameIndex p).toNat = .zero ∨
        ∃ fr ∈ publishedFrames (frames m), fr.pulseId = p ∧ recordAt f (getFileFrameIndex p).toNat = fr.record m) ∧
    (lostOf m es = [] → ModuleQuiet s m → ∀ fr ∈ publishedFrames (frames m),
      ∃ f, s.clients.disk.file (getFilename detectorFolder (moduleName m) fr.pulseId) = some f ∧
        recordAt f (getFileFrameIndex fr.pulseId).toNat = fr.record m) := by
  have hinv := traced_inv hinit h
  have hsub := written_sublist hinit hstream h hm
  refine ⟨hsub, fun p f hf => ?_, fun hlost hquiet fr hfr => ?_⟩
  · rw [file_record hinv hf]
    rcases BufferWriter.lastRecord_mem (s.processes m).written p with hzero | hmem
    · exact .inl hzero
    · obtain ⟨fr, hfr, heq⟩ := List.mem_map.1 (hsub.subset hmem)
      exact .inr ⟨fr, hfr, congrArg Prod.fst heq, (congrArg Prod.snd heq).symm⟩
  · have hall := written_all hinit hstream h hm hlost hquiet
    have hmem : (fr.pulseId, fr.record m) ∈ (s.processes m).written := by
      rw [hall]
      exact List.mem_map.2 ⟨fr, hfr, rfl⟩
    obtain ⟨f, hf⟩ := (hinv.clientsOk.holds m).written _ hmem
    rw [← SfUtils.moduleName_eq] at hf
    refine ⟨f, hf, ?_⟩
    rw [file_record hinv hf]
    refine lastRecord_of_mem ?_ hmem
    rw [hall]
    exact keys_nodup hstream hm

/-! ## Coming to rest -/

section

variable {start s s' : State g} {es : List Event} {frames : Nat → List LossyFrame} {detectorFolder : String} {m : Nat}

/-- The buffer writer of module `m` has made steps, and nothing else has. -/
structure OnlyWriter (m : Nat) (s s' : State g) : Prop where
  live : s'.live = s.live
  other : ∀ n, n ≠ m → s'.processes n = s.processes n

theorem OnlyWriter.refl (m : Nat) (s : State g) : OnlyWriter m s s := ⟨rfl, fun _ _ => rfl⟩

theorem OnlyWriter.trans {s'' : State g} (h : OnlyWriter m s s') (h' : OnlyWriter m s' s'') : OnlyWriter m s s'' :=
  ⟨h'.live.trans h.live, fun n hn => (h'.other n hn).trans (h.other n hn)⟩

/-- A step of a buffer writer, which shows nothing. -/
theorem writer_next (h : TracedUnder readsInTime start s es) (hm : m < g.nModules) {b : BufferWriter.State g}
    (hb : writerStep m (s.view m) = some b) (htime : ∀ p, (s.processes m).phase = .readFrame p →
      ∀ w ∈ framesOf m s.live.log, w.1.pulseId.toNat < p.toNat + g.nSlots) :
    ∃ s', TracedUnder readsInTime start s' es ∧ OnlyWriter m s s' ∧
      s'.processes m = ⟨b.announcements, b.fileBuff, b.phase, b.written⟩ := by
  have hstep : step (.writer m) s = some (s.put m b) := by
    unfold step
    simp only
    rw [if_pos hm, hb]
    rfl
  have hok : readsInTime (.writer m) s := by
    intro n hn p hp
    cases hn
    exact htime p hp
  have hnext := h.step hok hstep
  have hevents : es ++ observe (.writer m) s = es := List.append_nil _
  rw [hevents] at hnext
  exact ⟨_, hnext, ⟨rfl, fun n hn => processes_put_other _ _ _ hn⟩, processes_put ..⟩

/-- A frame that was announced and is in time gets written. -/
theorem next_written (hinit : Init detectorFolder start) (hstream : LivePath.Stream start.live frames)
    (h : TracedUnder readsInTime start s es) (hm : m < g.nModules) {p : UInt64} {msgs : List UInt64}
    (hphase : (s.processes m).phase = .receive) (hmsgs : (s.processes m).announcements = p :: msgs)
    (htime : ∀ w ∈ framesOf m s.live.log, w.1.pulseId.toNat < p.toNat + g.nSlots) :
    ∃ s', TracedUnder readsInTime start s' es ∧ OnlyWriter m s s' ∧ (s'.processes m).phase = .receive ∧
      (s'.processes m).announcements = msgs := by
  have hview : (s.view m).phase = .receive ∧ (s.view m).announcements = p :: msgs := ⟨hphase, hmsgs⟩
  have hreceive : writerStep m (s.view m) = some { s.view m with announcements := msgs, phase := .readFrame p } := by
    unfold writerStep
    simp only [hview.1, hview.2]
  obtain ⟨s₁, h₁, honly₁, hself₁⟩ := writer_next h hm hreceive fun q hq => nomatch hphase.symm.trans hq
  -- the frame is read
  have hphase₁ : (s₁.processes m).phase = .readFrame p := congrArg Process.phase hself₁
  have htime₁ : ∀ w ∈ framesOf m s₁.live.log, w.1.pulseId.toNat < p.toNat + g.nSlots := by
    rw [honly₁.live]
    exact htime
  have hwrote : LivePath.Wrote s₁.live m p := ((traced_inv hinit h₁).modules m hm).reading p hphase₁
  have hid : (UInt64.ofInt m).toNat < g.nModules := by
    rw [LivePath.moduleId_toNat hm]
    exact hm
  have hread := RamBuffer.readFrame_eq s₁.live.buffer p hid
  generalize (s₁.live.buffer.cellMeta _ _, s₁.live.buffer.cellData _ _) = frame at hread
  have hpulse := (LivePath.readFrame_inTime hinit.live hstream (live_trace h₁) hm hwrote htime₁ hread).2
  have hframe : writerStep m (s₁.view m) = some { s₁.view m with
      fileBuff := ⟨(s₁.view m).fileBuff.formatMarker, frame.1, frame.2⟩, phase := .write p } := by
    have hview₁ : (s₁.view m).phase = .readFrame p := hphase₁
    have hread₁ : (s₁.view m).live.buffer.readFrame p (UInt64.ofInt m) = some frame := hread
    unfold writerStep
    simp only [hview₁, hread₁]
    rfl
  obtain ⟨s₂, h₂, honly₂, hself₂⟩ := writer_next h₁ hm hframe fun q hq => by
    cases hphase₁.symm.trans hq
    exact htime₁
  -- it is the one that was announced
  have hphase₂ : (s₂.view m).phase = .write p := congrArg Process.phase hself₂
  have hsame : (s₂.view m).fileBuff.metadata.pulseId = p := by
    rw [← hpulse]
    exact congrArg (fun process => process.fileBuff.metadata.pulseId) hself₂
  obtain ⟨writer, disk, hwrite, -⟩ :=
    BufferWriter.writerStep_write ((traced_inv hinit h₂).modules m hm) hphase₂ hsame
  obtain ⟨s₃, h₃, honly₃, hself₃⟩ := writer_next h₂ hm hwrite fun q hq => nomatch hphase₂.symm.trans hq
  have hmsgs₂ : (s₂.processes m).announcements = msgs :=
    (congrArg Process.announcements hself₂).trans (congrArg Process.announcements hself₁)
  exact ⟨s₃, h₃, (honly₁.trans honly₂).trans honly₃, congrArg Process.phase hself₃,
    (congrArg Process.announcements hself₃).trans hmsgs₂⟩

/-- A buffer writer gets through its announcements. -/
theorem module_rests (hinit : Init detectorFolder start) (hstream : LivePath.Stream start.live frames)
    (hm : m < g.nModules) : ∀ (msgs : List UInt64) {s : State g}, TracedUnder readsInTime start s es →
      (s.processes m).phase = .receive → (s.processes m).announcements = msgs →
      (∀ p ∈ msgs, ∀ w ∈ framesOf m s.live.log, w.1.pulseId.toNat < p.toNat + g.nSlots) →
      ∃ s', TracedUnder readsInTime start s' es ∧ OnlyWriter m s s' ∧ (s'.processes m).phase = .receive ∧
        (s'.processes m).announcements = []
  | [], s, h, hphase, hmsgs, _ => ⟨s, h, .refl m s, hphase, hmsgs⟩
  | p :: msgs, s, h, hphase, hmsgs, htime => by
    obtain ⟨s₁, h₁, honly₁, hphase₁, hmsgs₁⟩ :=
      next_written hinit hstream h hm hphase hmsgs (htime p (List.mem_cons_self ..))
    have htime₁ : ∀ q ∈ msgs, ∀ w ∈ framesOf m s₁.live.log, w.1.pulseId.toNat < q.toNat + g.nSlots := by
      rw [honly₁.live]
      exact fun q hq => htime q (List.mem_cons_of_mem _ hq)
    obtain ⟨s', h', honly', hrest⟩ := module_rests hinit hstream hm msgs h₁ hphase₁ hmsgs₁ htime₁
    exact ⟨s', h', honly₁.trans honly', hrest⟩

/-- When the modules have read all their packets, the buffer writers get through the announcements that are in
time. -/
theorem detector_rests (hinit : Init detectorFolder start) (hstream : LivePath.Stream start.live frames)
    (h : TracedUnder readsInTime start s es) (hsenders : ∀ m < g.nModules, (s.live.senders m).Waits)
    (hphase : ∀ m < g.nModules, (s.processes m).phase = .receive)
    (htime : ∀ m < g.nModules, ∀ p ∈ (s.processes m).announcements,
      ∀ w ∈ framesOf m s.live.log, w.1.pulseId.toNat < p.toNat + g.nSlots) :
    ∃ s', TracedUnder readsInTime start s' es ∧ ∀ m < g.nModules, ModuleQuiet s' m := by
  have hall : ∀ k ≤ g.nModules, ∃ s', TracedUnder readsInTime start s' es ∧ s'.live = s.live ∧
      (∀ m, k ≤ m → s'.processes m = s.processes m) ∧
      ∀ m < k, (s'.processes m).phase = .receive ∧ (s'.processes m).announcements = [] := by
    intro k
    induction k with
    | zero => exact fun _ => ⟨s, h, rfl, fun _ _ => rfl, nofun⟩
    | succ k ih =>
      intro hk
      obtain ⟨s₁, h₁, hlive, hleft, hdone⟩ := ih (Nat.le_of_succ_le hk)
      have hself := hleft k le_rfl
      obtain ⟨s₂, h₂, honly, hrest⟩ := module_rests hinit hstream hk (s.processes k).announcements h₁
        (by rw [hself]; exact hphase k hk) (by rw [hself]) (by rw [hlive]; exact htime k hk)
      refine ⟨s₂, h₂, honly.live.trans hlive, fun m hm => ?_, fun m hm => ?_⟩
      · rw [honly.other m (Nat.ne_of_gt hm)]
        exact hleft m (Nat.le_of_succ_le hm)
      · rcases Nat.lt_succ_iff_lt_or_eq.1 hm with hlt | rfl
        · rw [honly.other m (Nat.ne_of_lt hlt)]
          exact hdone m hlt
        · exact hrest
  obtain ⟨s', h', hlive, -, hdone⟩ := hall g.nModules le_rfl
  refine ⟨s', h', fun m hm => ⟨?_, (hdone m hm).1, (hdone m hm).2⟩⟩
  rw [hlive]
  exact hsenders m hm

end

/-- Frames of pulses 198, 200 and 201, of which only the first is complete. -/
def exportFrames : List LossyFrame :=
  partFrames (.ofBits 0x4068C00000000000) (.ofBits 0x4069000000000000) (.ofBits 0x4069200000000000)

/-- Two modules that receive these frames, and their buffer writers. -/
def twoWriters : State LivePath.twoModuleRing where
  live := .start _ fun _ => frameBatches exportFrames
  processes _ := ⟨[], ⟨formatMarkerValue, .zero, fun _ => 0⟩, .receive, []⟩
  clients := .start "/buffer/JF02" emptyDisk

theorem twoWriters_init : Init "/buffer/JF02" twoWriters :=
  ⟨LivePath.init_start _ _, fun _ => rfl, fun _ => rfl, fun _ => rfl, fun _ => rfl, emptyDisk, fun _ _ => rfl, rfl⟩

theorem twoWriters_stream : LivePath.Stream twoWriters.live fun _ => exportFrames := by
  refine LivePath.stream_start _ fun _ _ => ⟨?_, ?_⟩
  · refine .cons_cons ⟨?_, ?_, ?_⟩ (.cons_cons ⟨?_, ?_, ?_⟩ (.singleton _)) <;> decide
  · simp only [exportFrames, partFrames, List.forall_mem_cons]
    decide

/-- The modules publish their frames, and then the buffer writers get through them. -/
theorem twoWriters_quiet : ∃ s es, TracedUnder readsInTime twoWriters s es ∧
    ∀ m < 2, lostOf m es = [] ∧ ModuleQuiet s m := by
  have hrun : ((Runs.runObserved readsInTime step observe (LivePath.publishAll.map .live) twoWriters).map fun out =>
      (List.range 2).all fun m => decide (lostOf m out.2 = [] ∧ (out.1.live.senders m).Waits ∧
        (out.1.processes m).phase = .receive) && (out.1.processes m).announcements.all fun p =>
          decide (∀ w ∈ framesOf m out.1.live.log, w.1.pulseId.toNat < p.toNat + 1000)) = some true := by
    decide +kernel
  obtain ⟨⟨s, es⟩, hs, hobs⟩ := Option.map_eq_some_iff.1 hrun
  have h0 : TracedUnder readsInTime twoWriters twoWriters [] := .init rfl
  have hall : ∀ m < 2, (lostOf m es = [] ∧ (s.live.senders m).Waits ∧ (s.processes m).phase = .receive) ∧
      ∀ p ∈ (s.processes m).announcements, ∀ w ∈ framesOf m s.live.log, w.1.pulseId.toNat < p.toNat + 1000 := by
    intro m hm
    obtain ⟨hmodule, hpulses⟩ := Bool.and_eq_true_iff.1 (List.all_eq_true.1 hobs m (List.mem_range.2 hm))
    exact ⟨of_decide_eq_true hmodule, fun p hp => of_decide_eq_true (List.all_eq_true.1 hpulses p hp)⟩
  obtain ⟨s', htrace, hquiet⟩ := detector_rests twoWriters_init twoWriters_stream (h0.run hs)
    (fun m hm => (hall m hm).1.2.1) (fun m hm => (hall m hm).1.2.2) fun m hm => (hall m hm).2
  exact ⟨s', es, htrace, fun m hm => ⟨(hall m hm).1.1, hquiet m hm⟩⟩

/-- The three frames of each module are in its files, with the metadata and the data of what arrived. -/
theorem frames_persisted_twoWriters : ∃ s es, TracedUnder readsInTime twoWriters s es ∧ ∀ m : Nat, m < 2 →
    ∀ fr ∈ exportFrames, ∃ f, s.clients.disk.file (getFilename "/buffer/JF02" (moduleName m) fr.pulseId) = some f ∧
      recordAt f (getFileFrameIndex fr.pulseId).toNat = fr.record m := by
  obtain ⟨s, es, htrace, hquiet⟩ := twoWriters_quiet
  refine ⟨s, es, htrace, fun m hm => ?_⟩
  obtain ⟨hlost, hmodule⟩ := hquiet m hm
  obtain ⟨-, -, hall⟩ := frames_persisted twoWriters_init twoWriters_stream htrace hm
  exact hall hlost hmodule

end SfDaqBuffer.Detector
