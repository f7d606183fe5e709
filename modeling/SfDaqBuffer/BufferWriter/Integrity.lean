/-
Integrity of the disk buffer: whatever jf_buffer_writer reads and however late it reads it, a record
at the position of a pulse is one frame that jf_udp_recv wrote for that pulse.
-/
import SfDaqBuffer.BufferWriter.Main
import SfDaqBuffer.DiskBuffer.RoundTrip
import SfDaqBuffer.LivePath.AnnounceAfterWrite

namespace SfDaqBuffer.BufferWriter

open Posix CoreBuffer LivePath DiskBuffer BufferUtils

variable {g : Geometry} {m : Nat} {bufferFolder : String} {earlier : List (UInt64 × BufferBinaryFormat)}
  {s s' : State g}

/-! ## The invariant -/

/-- The record is a frame that module `m` wrote to the RAM buffer. -/
def FromModule (m : Nat) (log : List (ModuleFrame × ModuleData)) (r : BufferBinaryFormat) : Prop :=
  ∃ w ∈ log, w.1.moduleId.toNat = m ∧ r = ⟨formatMarkerValue, w.1, w.2⟩

theorem FromModule.mono {log log' : List (ModuleFrame × ModuleData)} {r : BufferBinaryFormat}
    (h : FromModule m log r) (hlog : log ⊆ log') : FromModule m log' r := by
  obtain ⟨w, hw, hfrom⟩ := h
  exact ⟨w, hlog hw, hfrom⟩

structure Inv (m : Nat) (bufferFolder : String) (earlier : List (UInt64 × BufferBinaryFormat)) (s : State g) :
    Prop where
  live : LivePath.Inv s.live
  announcements : ∀ p ∈ s.announcements, Wrote s.live m p
  reading : ∀ p, s.phase = .readFrame p → Wrote s.live m p
  writing : ∀ p, s.phase = .write p → FromModule m s.live.log s.fileBuff
  written : ∀ e ∈ s.written, FromModule m s.live.log e.2 ∧ e.2.metadata.pulseId = e.1
  folder : s.writer.detectorFolder = bufferFolder
  name : s.writer.moduleName = moduleName m
  holds : DiskHolds bufferFolder (moduleName m) (earlier ++ s.written) s.disk
  attached : Attached s.writer s.disk
  marker : s.fileBuff.formatMarker = formatMarkerValue

theorem init_inv (h : Init m bufferFolder earlier s) : Inv m bufferFolder earlier s where
  live := LivePath.init_inv h.live
  announcements p hp := by
    rw [h.announcements] at hp
    cases hp
  reading p hp := by
    rw [h.phase] at hp
    cases hp
  writing p hp := by
    rw [h.phase] at hp
    cases hp
  written e he := by
    rw [h.written] at he
    cases he
  folder := by rw [h.writer]; rfl
  name := by rw [h.writer]; rfl
  holds := by
    rw [h.written, List.append_nil]
    exact h.files
  attached := by
    rw [h.writer]
    exact ⟨rfl, .inl ⟨rfl, rfl⟩⟩
  marker := h.marker

/-! ## Steps -/

/-- What jf_udp_recv announces it has written. -/
theorem announced_wrote (h : LivePath.Inv s.live) (hm : m < g.nModules) (a : LivePath.Action) {p : UInt64}
    (hp : p ∈ announced m s.live a) : Wrote s.live m p := by
  unfold announced at hp
  cases a with
  | sender m' =>
    simp only at hp
    split at hp
    · rename_i hsend
      obtain rfl := List.mem_singleton.1 hp
      exact (h.senders m hm).announced hsend.2
    · cases hp
  | drop m' i => cases hp
  | assembler => cases hp

theorem live_inv (h : Inv m bufferFolder earlier s) (hm : m < g.nModules) {a : LivePath.Action} {live : LivePath.State g}
    (hstep : LivePath.step a s.live = some live) :
    Inv m bufferFolder earlier { s with live := live, announcements := s.announcements ++ announced m s.live a } := by
  have hlog := step_log hstep
  refine ⟨step_inv h.live hstep, ?_, ?_, ?_, ?_, h.folder, h.name, h.holds, h.attached, h.marker⟩
  · intro p hp
    rcases List.mem_append.1 hp with hp | hp
    · exact (h.announcements p hp).mono hlog
    · exact (announced_wrote h.live hm a hp).mono hlog
  · exact fun p hp => (h.reading p hp).mono hlog
  · exact fun p hp => (h.writing p hp).mono hlog
  · exact fun e he => ⟨(h.written e he).1.mono hlog, (h.written e he).2⟩

/-- The cell that is read holds the last frame that module `m` wrote to the slot. -/
theorem readFrame_fromLog (h : LivePath.Inv s.live) (hm : m < g.nModules) {p : UInt64} (hwrote : Wrote s.live m p)
    {frame : ModuleFrame × ModuleData} (hread : s.live.buffer.readFrame p (UInt64.ofInt m) = some frame) :
    frame ∈ s.live.log ∧ frame.1.moduleId.toNat = m := by
  obtain ⟨f, hf⟩ := h.buffer
  obtain ⟨w, hw⟩ := lastWrite_isSome hwrote
  have hid := moduleId_toNat hm
  rw [hf.readFrame p (by rw [hid]; exact hm), hid, foldl_write_eq, hw, Option.getD_some] at hread
  obtain rfl := Option.some.inj hread
  have hmem := List.mem_filter.1 (List.mem_of_getLast? hw)
  exact ⟨hmem.1, (of_decide_eq_true hmem.2).1⟩

/-- A frame of the pulse that was announced is written. -/
theorem writerStep_write (h : Inv m bufferFolder earlier s) {p : UInt64} (hphase : s.phase = .write p)
    (hsame : s.fileBuff.metadata.pulseId = p) :
    ∃ writer disk, writerStep m s = some { s with
        writer := writer, disk := disk, written := s.written ++ [(p, s.fileBuff)], phase := .receive } ∧
      writer.detectorFolder = bufferFolder ∧ writer.moduleName = moduleName m ∧
      DiskHolds bufferFolder (moduleName m) (earlier ++ (s.written ++ [(p, s.fileBuff)])) disk ∧
      Attached writer disk := by
  have hholds := h.holds
  rw [← h.folder, ← h.name] at hholds
  obtain ⟨fd, d', hwrite, hholds', hattached', -⟩ := hholds.write h.attached p s.fileBuff
  rw [h.folder, h.name, List.append_assoc] at hholds'
  unfold writerStep
  simp only [hphase]
  rw [if_neg (not_not.2 hsame.symm), hwrite]
  exact ⟨_, _, rfl, h.folder, h.name, hholds', hattached'⟩

theorem writerStep_inv (h : Inv m bufferFolder earlier s) (hm : m < g.nModules) (hstep : writerStep m s = some s') :
    Inv m bufferFolder earlier s' := by
  unfold writerStep at hstep
  cases hphase : s.phase with
  | receive =>
    simp only [hphase] at hstep
    cases hmsgs : s.announcements with
    | nil =>
      rw [hmsgs] at hstep
      cases hstep
    | cons p msgs =>
      simp only [hmsgs] at hstep
      cases hstep
      refine ⟨h.live, ?_, ?_, nofun, h.written, h.folder, h.name, h.holds, h.attached, h.marker⟩
      · exact fun q hq => h.announcements q (hmsgs ▸ List.mem_cons_of_mem _ hq)
      · intro q hq
        cases hq
        exact h.announcements p (hmsgs ▸ List.mem_cons_self ..)
  | readFrame p =>
    simp only [hphase] at hstep
    obtain ⟨frame, hread, hs'⟩ := Option.bind_eq_some_iff.1 hstep
    cases hs'
    obtain ⟨hmem, hid⟩ := readFrame_fromLog h.live hm (h.reading p hphase) hread
    refine ⟨h.live, h.announcements, nofun, ?_, h.written, h.folder, h.name, h.holds, h.attached, h.marker⟩
    intro _ _
    exact ⟨frame, hmem, hid, by rw [h.marker]⟩
  | write p =>
    simp only [hphase] at hstep
    have hfrom := h.writing p hphase
    by_cases hsame : p = s.fileBuff.metadata.pulseId
    · obtain ⟨writer, disk, hwrite, hfolder, hname, hholds, hattached⟩ := writerStep_write h hphase hsame.symm
      unfold writerStep at hwrite
      simp only [hphase] at hwrite
      cases hstep.symm.trans hwrite
      refine ⟨h.live, h.announcements, nofun, nofun, ?_, hfolder, hname, hholds, hattached, h.marker⟩
      intro e he
      rcases List.mem_append.1 he with he | he
      · exact h.written e he
      · obtain rfl := List.mem_singleton.1 he
        exact ⟨hfrom, hsame.symm⟩
    · rw [if_pos hsame] at hstep
      cases hstep
      exact ⟨h.live, h.announcements, nofun, nofun, h.written, h.folder, h.name, h.holds, h.attached, h.marker⟩
  | threw what =>
    simp only [hphase] at hstep
    cases hstep

theorem step_inv (h : Inv m bufferFolder earlier s) (hm : m < g.nModules) {a : Action} (hstep : step m a s = some s') :
    Inv m bufferFolder earlier s' := by
  cases a with
  | live action =>
    obtain ⟨live, hlive, hs'⟩ := Option.bind_eq_some_iff.1 hstep
    cases hs'
    exact live_inv h hm hlive
  | drop i =>
    cases hstep
    refine ⟨h.live, ?_, h.reading, h.writing, h.written, h.folder, h.name, h.holds, h.attached, h.marker⟩
    exact fun p hp => h.announcements p ((List.eraseIdx_sublist _ _).subset hp)
  | writer => exact writerStep_inv h hm hstep

theorem reachable_inv (hm : m < g.nModules) (h : Reachable m bufferFolder earlier s) : Inv m bufferFolder earlier s :=
  h.invariant (fun _ => init_inv) fun _ _ _ hi hstep => step_inv hi hm hstep

/-! ## Integrity -/

/-- The record holds the metadata and the data of one frame that module `m` wrote for `p`. -/
def FrameOf (m : Nat) (log : List (ModuleFrame × ModuleData)) (p : UInt64) (r : BufferBinaryFormat) : Prop :=
  ∃ w ∈ log, w.1.moduleId.toNat = m ∧ w.1.pulseId = p ∧ r = ⟨formatMarkerValue, w.1, w.2⟩

theorem FromModule.frameOf {log : List (ModuleFrame × ModuleData)} {p : UInt64} {r : BufferBinaryFormat}
    (h : FromModule m log r) (hp : r.metadata.pulseId = p) : FrameOf m log p r := by
  obtain ⟨w, hw, hid, rfl⟩ := h
  exact ⟨w, hw, hid, hp, rfl⟩

theorem lastRecord_mem (ws : List (UInt64 × BufferBinaryFormat)) (p : UInt64) :
    lastRecord ws p.toNat = .zero ∨ (p, lastRecord ws p.toNat) ∈ ws := by
  unfold lastRecord
  cases hlast : (ws.filter fun w => w.1.toNat = p.toNat).getLast? with
  | none => exact .inl rfl
  | some w =>
    obtain ⟨hmem, hp⟩ := List.mem_filter.1 (List.mem_of_getLast? hlast)
    have hpulse : w.1 = p := UInt64.toNat_inj.1 (of_decide_eq_true hp)
    exact .inr (hpulse ▸ hmem)

/-- Every record that jf_buffer_writer has written for `p` is a frame that jf_udp_recv wrote for `p`, and so is
every record that a file of the module holds at the position of `p`, unless it is from an earlier run. -/
theorem disk_buffer_integrity (hm : m < g.nModules) (h : Reachable m bufferFolder earlier s) :
    (∀ e ∈ s.written, FrameOf m s.live.log e.1 e.2) ∧
    ∀ p f, s.disk.file (getFilename bufferFolder (moduleName m) p) = some f →
      recordAt f (getFileFrameIndex p).toNat = .zero ∨ (p, recordAt f (getFileFrameIndex p).toNat) ∈ earlier ∨
        FrameOf m s.live.log p (recordAt f (getFileFrameIndex p).toNat) := by
  have hinv := reachable_inv hm h
  have hwritten : ∀ e ∈ s.written, FrameOf m s.live.log e.1 e.2 := by
    intro e he
    obtain ⟨hfrom, hpulse⟩ := hinv.written e he
    exact hfrom.frameOf hpulse
  refine ⟨hwritten, ?_⟩
  intro p f hf
  have hrecord := hinv.holds.record p f hf _ (getFileFrameIndex_lt p)
  rw [fileBase_add_index] at hrecord
  rw [hrecord]
  rcases lastRecord_mem (earlier ++ s.written) p with hzero | hmem
  · exact .inl hzero
  · exact .inr ((List.mem_append.1 hmem).imp_right (hwritten _))

/-- One module with two slots that receives the last packets of the frames 1, 2 and 3, and its buffer writer. -/
def oneSender : State oneModule where
  live :=
    { buffer := .new _
      senders m := ⟨.new m [], ⟨.zero, fun _ => 0⟩, 0, ⟨0, 0⟩,
        [.msgs [UdpRecv.bare 1 127 .one], .msgs [UdpRecv.bare 2 127 .two], .msgs [UdpRecv.bare 3 127 .three]], .receive⟩
      channels _ := []
      assembler := .receiving
      unread _ := []
      imageMeta := ⟨0, 0, 0, 0⟩
      log := [] }
  announcements := []
  writer := .new "/buffer/JF01" (moduleName 0)
  disk := emptyDisk
  fileBuff := ⟨formatMarkerValue, .zero, fun _ => 0⟩
  phase := .receive
  written := []

theorem oneSender_reachable : Reachable 0 "/buffer/JF01" [] oneSender :=
  .init ⟨⟨fun _ => ⟨⟨_, rfl⟩, rfl, rfl⟩, fun _ => rfl, fun _ => rfl, rfl, rfl⟩, rfl, rfl, diskHolds_nil fun _ => rfl,
    rfl, rfl, rfl⟩

/-- The module publishes a frame. -/
def publishes : List Action := List.replicate 3 (.live (.sender 0))

/-- The writer has the announcement of pulse 1 while frame 3 comes into its slot, and finds the frame of
another pulse there. The announcement of pulse 2 gets lost, and frame 3 is written to disk. -/
theorem disk_buffer_integrity_lagging :
    ∃ s : State oneModule, Reachable 0 "/buffer/JF01" [] s ∧ s.live.log.map (·.1.pulseId) = [1, 2, 3] ∧
      ∃ r, s.written = [(3, r)] ∧ FrameOf 0 s.live.log 3 r := by
  have hrun : ((Runs.run (step 0) (publishes ++ [.writer] ++ publishes ++ publishes ++ [.writer, .writer] ++
      [.drop 0] ++ [.writer, .writer]) oneSender).map fun s =>
        (s.phase, s.fileBuff.metadata.pulseId, s.written.length, s.live.log.map (·.1.pulseId))) =
      some (.write 3, 3, 0, [1, 2, 3]) := by
    decide +kernel
  obtain ⟨s, hs, hobs⟩ := Option.map_eq_some_iff.1 hrun
  simp only [Prod.mk.injEq, List.length_eq_zero_iff] at hobs
  obtain ⟨hphase, hpulse, hwritten, hlog⟩ := hobs
  have hreach := oneSender_reachable.run hs
  obtain ⟨writer, disk, hstep, -⟩ := writerStep_write (reachable_inv Nat.one_pos hreach) hphase hpulse
  have hstep' : step 0 .writer s = some _ := hstep
  have hreach' := hreach.step hstep'
  have hintegrity := (disk_buffer_integrity Nat.one_pos hreach').1
  rw [hwritten] at hintegrity
  refine ⟨_, hreach', hlog, s.fileBuff, ?_, hintegrity _ (List.mem_singleton.2 rfl)⟩
  rw [hwritten]
  rfl

end SfDaqBuffer.BufferWriter
