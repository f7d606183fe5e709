/-
A whole detector: the live path, a jf_buffer_writer for each module, and the disk that they share with
the readers of the buffer. A buffer writer is the one of a single module, on the shared disk.
-/
import SfDaqBuffer.BufferWriter.Integrity
import SfDaqBuffer.DiskBuffer.Clients
import SfDaqBuffer.LivePath.Senders

namespace SfDaqBuffer.Detector

open Posix CoreBuffer BufferUtils BufferWriter DiskBuffer SfWriter
open SfUtils (deviceName moduleName_eq)

/-! ## State -/

/-- A jf_buffer_writer but for its file: the announcements that it has not received yet, its local variables
and the frames of all `write` so far. -/
structure Process where
  announcements : List UInt64
  fileBuff : BufferBinaryFormat
  phase : WriterPhase
  written : List (UInt64 × BufferBinaryFormat)

structure State (g : Geometry) where
  live : LivePath.State g
  processes : Nat → Process
  clients : Clients

/-- `drop m i` loses announcement `i` of module `m` on its way to the buffer writer, and `getBlock` is a
reader of the buffer. -/
inductive Action
  | live (action : LivePath.Action)
  | drop (m i : Nat)
  | writer (m : Nat)
  | getBlock (m : Nat) (blockId : UInt64) (buffer : BufferBinaryBlock)

inductive Event
  | live (event : LivePath.Event)
  | lost (m : Nat) (pulseId : UInt64)

variable {g : Geometry}

/-- What the buffer writer of module `m` has to do with. -/
def State.view (s : State g) (m : Nat) : BufferWriter.State g where
  live := s.live
  announcements := (s.processes m).announcements
  writer := s.clients.writers m
  disk := s.clients.disk
  fileBuff := (s.processes m).fileBuff
  phase := (s.processes m).phase
  written := (s.processes m).written

/-- The state after a step of the buffer writer of module `m`. -/
def State.put (s : State g) (m : Nat) (b : BufferWriter.State g) : State g where
  live := s.live
  processes := Function.update s.processes m ⟨b.announcements, b.fileBuff, b.phase, b.written⟩
  clients := s.clients.setWriter m b.writer b.disk

/-! ## Steps -/

def step (a : Action) (s : State g) : Option (State g) :=
  match a with
  | .live action => do
    let live ← LivePath.step action s.live
    return { s with
      live := live
      processes := fun m =>
        { s.processes m with announcements := (s.processes m).announcements ++ announced m s.live action } }
  | .drop m i => some (s.put m { s.view m with announcements := (s.processes m).announcements.eraseIdx i })
  | .writer m => if m < g.nModules then (writerStep m (s.view m)).map (s.put m) else none
  | .getBlock m blockId buffer => some { s with clients := (s.clients.getBlock m blockId buffer).2.2 }

def observe (a : Action) (s : State g) : List Event :=
  match a with
  | .live action => (LivePath.observe action s.live).map .live
  | .drop m i => ((s.processes m).announcements[i]?.map (Event.lost m)).toList
  | .writer _ => []
  | .getBlock .. => []

/-- The modules start without buffer files of earlier runs. -/
structure Init (detectorFolder : String) (s : State g) : Prop where
  live : LivePath.Init s.live
  announcements : ∀ m, (s.processes m).announcements = []
  phase : ∀ m, (s.processes m).phase = .receive
  written : ∀ m, (s.processes m).written = []
  marker : ∀ m, (s.processes m).fileBuff.formatMarker = formatMarkerValue
  clients : ∃ disk : Disk, (∀ m p, disk.file (getFilename detectorFolder (deviceName m) p) = none) ∧
    s.clients = .start detectorFolder disk

/-- A run from `start` whose steps all meet `ok`. -/
abbrev TracedUnder (ok : Action → State g → Prop) (start : State g) : State g → List Event → Prop :=
  Runs.Trace ok (· = start) step observe

/-! ## What a step of a buffer writer can do -/

theorem writerStep_cases {m : Nat} {b b' : BufferWriter.State g} (h : writerStep m b = some b') :
    (∃ p msgs, b.phase = .receive ∧ b.announcements = p :: msgs ∧
      b' = { b with announcements := msgs, phase := .readFrame p }) ∨
    (∃ p frame, b.phase = .readFrame p ∧ b.live.buffer.readFrame p (UInt64.ofInt m) = some frame ∧
      b' = { b with fileBuff := ⟨b.fileBuff.formatMarker, frame.1, frame.2⟩, phase := .write p }) ∨
    (∃ p, b.phase = .write p ∧ p ≠ b.fileBuff.metadata.pulseId ∧ b' = { b with phase := .receive }) ∨
    (∃ p writer disk, b.phase = .write p ∧ p = b.fileBuff.metadata.pulseId ∧
      b.writer.write Disk.os p b.fileBuff b.disk = (.ok (), writer, disk) ∧
      b' = { b with
        writer := writer
        disk := disk
        written := b.written ++ [(p, b.fileBuff)]
        phase := .receive }) ∨
    ∃ p what writer disk, b.phase = .write p ∧ b.writer.write Disk.os p b.fileBuff b.disk = (.error what, writer, disk) ∧
      b' = { b with
        writer := writer
        disk := disk
        phase := .threw what } := by
  unfold writerStep at h
  cases hphase : b.phase with
  | receive =>
    simp only [hphase] at h
    cases hmsgs : b.announcements with
    | nil =>
      rw [hmsgs] at h
      cases h
    | cons p msgs =>
      simp only [hmsgs] at h
      cases h
      exact .inl ⟨p, msgs, rfl, rfl, rfl⟩
  | readFrame p =>
    simp only [hphase] at h
    obtain ⟨frame, hread, hb'⟩ := Option.bind_eq_some_iff.1 h
    cases hb'
    exact .inr (.inl ⟨p, frame, rfl, hread, rfl⟩)
  | write p =>
    simp only [hphase] at h
    by_cases hp : p = b.fileBuff.metadata.pulseId
    · rw [if_neg (not_not.2 hp)] at h
      split at h
      · rename_i what writer disk hwrite
        cases h
        exact .inr (.inr (.inr (.inr ⟨p, what, writer, disk, rfl, hwrite, rfl⟩)))
      · rename_i writer disk hwrite
        cases h
        exact .inr (.inr (.inr (.inl ⟨p, writer, disk, rfl, hp, hwrite, rfl⟩)))
    · rw [if_pos hp] at h
      cases h
      exact .inr (.inr (.inl ⟨p, rfl, hp, rfl⟩))
  | threw what =>
    simp only [hphase] at h
    cases h

/-! ## Views -/

section

variable (s : State g) (m : Nat) (b : BufferWriter.State g)

theorem processes_put : ((s.put m b).processes m) = ⟨b.announcements, b.fileBuff, b.phase, b.written⟩ :=
  Function.update_self ..

theorem processes_put_other {n : Nat} (h : n ≠ m) : (s.put m b).processes n = s.processes n :=
  Function.update_of_ne h ..

/-- The buffer writer sees what it left. -/
theorem view_put (hlive : b.live = s.live) : (s.put m b).view m = b := by
  have hwriter : (s.put m b).clients.writers m = b.writer := Clients.setWriter_self ..
  unfold State.view
  rw [processes_put, hwriter]
  show BufferWriter.State.mk s.live b.announcements b.writer b.disk b.fileBuff b.phase b.written = b
  rw [← hlive]

theorem view_put_other {n : Nat} (h : n ≠ m) :
    (s.put m b).view n = { s.view n with disk := b.disk } := by
  have hwriter : (s.put m b).clients.writers n = s.clients.writers n := Clients.setWriter_other _ _ _ _ h
  unfold State.view
  rw [processes_put_other _ _ _ h, hwriter]
  rfl

end

/-! ## The invariant -/

/-- The clients of the disk are as their calls left them, the buffer writers have written their frames, and each
module is as if it had the disk for itself. -/
structure Inv (detectorFolder : String) (s : State g) : Prop where
  clients : ∃ disk calls, (∀ m p, disk.file (getFilename detectorFolder (deviceName m) p) = none) ∧
    s.clients = calls.foldl Clients.perform (.start detectorFolder disk) ∧
    (fun m => (s.processes m).written) = fun m => moduleWrites m calls
  modules : ∀ m < g.nModules, BufferWriter.Inv m detectorFolder [] (s.view m)

section

variable {detectorFolder : String} {s s' : State g}

theorem Inv.clientsOk (h : Inv detectorFolder s) :
    ClientsOk detectorFolder (fun m => (s.processes m).written) s.clients := by
  obtain ⟨disk, calls, hnew, hclients, hwritten⟩ := h.clients
  rw [hclients, hwritten]
  exact ClientsOk.after hnew calls

theorem init_inv (h : Init detectorFolder s) : Inv detectorFolder s := by
  obtain ⟨disk, hnew, hclients⟩ := h.clients
  refine ⟨⟨disk, [], hnew, hclients, funext h.written⟩, fun m _ => BufferWriter.init_inv ?_⟩
  refine ⟨h.live, h.announcements m, ?_, ?_, h.phase m, h.written m, h.marker m⟩
  · show s.clients.writers m = _
    rw [hclients, moduleName_eq]
    rfl
  · show DiskHolds detectorFolder (BufferWriter.moduleName m) [] s.clients.disk
    rw [hclients, moduleName_eq]
    exact diskHolds_nil (hnew m)

/-- Another user of the disk leaves what the buffer writer of a module has on it. -/
theorem other_disk {m : Nat} {b : BufferWriter.State g} (h : BufferWriter.Inv m detectorFolder [] b) {disk : Disk}
    (hholds : DiskHolds detectorFolder (deviceName m) b.written disk) (hattached : Attached b.writer disk) :
    BufferWriter.Inv m detectorFolder [] { b with disk := disk } where
  live := h.live
  announcements := h.announcements
  reading := h.reading
  writing := h.writing
  written := h.written
  folder := h.folder
  name := h.name
  holds := by rw [moduleName_eq]; exact hholds
  attached := hattached
  marker := h.marker

/-- A call that adds `calls` to those of the clients. -/
theorem calls_more {ws : Nat → List (UInt64 × BufferBinaryFormat)} {clients : Clients} (call : ClientCall)
    (h : ∃ disk calls, (∀ m p, disk.file (getFilename detectorFolder (deviceName m) p) = none) ∧
      clients = calls.foldl Clients.perform (.start detectorFolder disk) ∧ ws = fun m => moduleWrites m calls) :
    ∃ disk calls, (∀ m p, disk.file (getFilename detectorFolder (deviceName m) p) = none) ∧
      clients.perform call = calls.foldl Clients.perform (.start detectorFolder disk) ∧
      (fun m => ws m ++ moduleWrites m [call]) = fun m => moduleWrites m calls := by
  obtain ⟨disk, calls, hnew, rfl, rfl⟩ := h
  refine ⟨disk, calls ++ [call], hnew, ?_, ?_⟩
  · rw [List.foldl_append]
    rfl
  · funext m
    unfold moduleWrites
    rw [List.filterMap_append]

/-! ## Steps of the invariant -/

theorem live_inv (h : Inv detectorFolder s) {a : LivePath.Action} (hstep : step (.live a) s = some s') :
    Inv detectorFolder s' := by
  obtain ⟨live, hlive, hs'⟩ := Option.bind_eq_some_iff.1 hstep
  cases hs'
  exact ⟨h.clients, fun m hm => BufferWriter.live_inv (h.modules m hm) hm hlive⟩

/-- A step of the buffer writer of module `m`, with what it does to the clients of the disk. -/
theorem put_inv (h : Inv detectorFolder s) {m : Nat} {b : BufferWriter.State g} (hlive : b.live = s.live)
    (hself : m < g.nModules → BufferWriter.Inv m detectorFolder [] b)
    (hclients : ∃ disk calls, (∀ n p, disk.file (getFilename detectorFolder (deviceName n) p) = none) ∧
      (s.put m b).clients = calls.foldl Clients.perform (.start detectorFolder disk) ∧
      (fun n => ((s.put m b).processes n).written) = fun n => moduleWrites n calls) :
    Inv detectorFolder (s.put m b) := by
  refine ⟨hclients, fun n hn => ?_⟩
  by_cases hnm : n = m
  · subst hnm
    rw [view_put _ _ _ hlive]
    exact hself hn
  · have hok : ClientsOk detectorFolder (fun n => ((s.put m b).processes n).written) (s.put m b).clients := by
      obtain ⟨disk, calls, hnew, hcalls, hwritten⟩ := hclients
      rw [hcalls, hwritten]
      exact ClientsOk.after hnew calls
    rw [view_put_other _ _ _ hnm]
    have hholds := hok.holds n
    have hattached := hok.writer n
    rw [processes_put_other _ _ _ hnm] at hholds
    have hwriter : (s.put m b).clients.writers n = s.clients.writers n := Clients.setWriter_other _ _ _ _ hnm
    rw [hwriter] at hattached
    exact other_disk (h.modules n hn) hholds hattached

/-- No call is made and nothing is written. -/
theorem quiet_calls (h : Inv detectorFolder s) {m : Nat} {b : BufferWriter.State g}
    (hwriter : b.writer = s.clients.writers m) (hdisk : b.disk = s.clients.disk)
    (hwritten : b.written = (s.processes m).written) :
    ∃ disk calls, (∀ n p, disk.file (getFilename detectorFolder (deviceName n) p) = none) ∧
      (s.put m b).clients = calls.foldl Clients.perform (.start detectorFolder disk) ∧
      (fun n => ((s.put m b).processes n).written) = fun n => moduleWrites n calls := by
  obtain ⟨disk, calls, hnew, hclients, hcalls⟩ := h.clients
  refine ⟨disk, calls, hnew, ?_, ?_⟩
  · rw [← hclients]
    show s.clients.setWriter m b.writer b.disk = s.clients
    rw [hwriter, hdisk]
    unfold Clients.setWriter
    rw [Function.update_eq_self]
  · rw [← hcalls]
    funext n
    by_cases hn : n = m
    · subst hn
      rw [processes_put]
      exact hwritten
    · rw [processes_put_other _ _ _ hn]

theorem drop_inv (h : Inv detectorFolder s) (m i : Nat) :
    Inv detectorFolder (s.put m { s.view m with announcements := (s.processes m).announcements.eraseIdx i }) := by
  refine put_inv h rfl (fun hm => ?_) (quiet_calls h rfl rfl rfl)
  exact BufferWriter.step_inv (h.modules m hm) hm (a := .drop i) rfl

theorem getBlock_inv (h : Inv detectorFolder s) (m : Nat) (blockId : UInt64) (buffer : BufferBinaryBlock) :
    Inv detectorFolder { s with clients := (s.clients.getBlock m blockId buffer).2.2 } := by
  have hclients := calls_more (.getBlock m blockId buffer) h.clients
  have hsame : (fun n => (s.processes n).written ++ moduleWrites n [.getBlock m blockId buffer]) =
      fun n => (s.processes n).written := by
    funext n
    exact List.append_nil _
  rw [hsame] at hclients
  have hok := h.clientsOk.perform (.getBlock m blockId buffer)
  rw [hsame] at hok
  refine ⟨hclients, fun n hn => ?_⟩
  obtain ⟨result, block, clients, hget, -⟩ := h.clientsOk.getBlock m blockId buffer
  have hwriters : (s.clients.getBlock m blockId buffer).2.2.writers = s.clients.writers := rfl
  apply other_disk (h.modules n hn) (hok.holds n)
  have hattached := hok.writer n
  unfold Clients.perform at hattached
  simp only at hattached
  rw [hwriters] at hattached
  exact hattached

/-- A buffer writer does not throw. -/
theorem write_ok (h : Inv detectorFolder s) (m : Nat) (p : UInt64) (record : BufferBinaryFormat) :
    ∃ writer disk, (s.clients.writers m).write Disk.os p record s.clients.disk = (.ok (), writer, disk) := by
  have hc := h.clientsOk
  have hm := hc.holds m
  rw [← hc.writerFolder m, ← hc.writerModule m] at hm
  obtain ⟨fd, d', hwrite, -⟩ := hm.write (hc.writer m) p record
  exact ⟨_, _, hwrite⟩

theorem writer_inv (h : Inv detectorFolder s) {m : Nat} (hm : m < g.nModules) {b : BufferWriter.State g}
    (hstep : writerStep m (s.view m) = some b) : Inv detectorFolder (s.put m b) := by
  have hself : m < g.nModules → BufferWriter.Inv m detectorFolder [] b := fun _ =>
    BufferWriter.writerStep_inv (h.modules m hm) hm hstep
  rcases writerStep_cases hstep with ⟨_, _, -, -, rfl⟩ | ⟨_, _, -, -, rfl⟩ | ⟨_, -, -, rfl⟩ |
    ⟨p, writer, disk, -, -, hwrite, rfl⟩ | ⟨p, what, writer, disk, -, hwrite, -⟩
  · exact put_inv h rfl hself (quiet_calls h rfl rfl rfl)
  · exact put_inv h rfl hself (quiet_calls h rfl rfl rfl)
  · exact put_inv h rfl hself (quiet_calls h rfl rfl rfl)
  · apply put_inv h rfl hself
    obtain ⟨disk', calls, hnew, hclients, hcalls⟩ := calls_more (.write m p (s.processes m).fileBuff) h.clients
    refine ⟨disk', calls, hnew, ?_, ?_⟩
    · rw [← hclients]
      show s.clients.setWriter m writer disk = s.clients.write m p (s.processes m).fileBuff
      unfold Clients.write
      change (s.clients.writers m).write Disk.os p (s.processes m).fileBuff s.clients.disk = _ at hwrite
      rw [hwrite]
    · rw [← hcalls]
      funext n
      by_cases hn : n = m
      · subst hn
        rw [processes_put]
        simp [moduleWrites, State.view]
      · rw [processes_put_other _ _ _ hn]
        simp [moduleWrites, Ne.symm hn]
  · obtain ⟨writer', disk', hok⟩ := write_ok h m p (s.processes m).fileBuff
    exact absurd (hok.symm.trans hwrite) nofun

theorem step_inv (h : Inv detectorFolder s) {a : Action} (hstep : step a s = some s') : Inv detectorFolder s' := by
  cases a with
  | live action => exact live_inv h hstep
  | drop m i =>
    cases hstep
    exact drop_inv h m i
  | writer m =>
    unfold step at hstep
    simp only at hstep
    split at hstep
    · rename_i hm
      obtain ⟨b, hb, rfl⟩ := Option.map_eq_some_iff.1 hstep
      exact writer_inv h hm hb
    · cases hstep
  | getBlock m blockId buffer =>
    cases hstep
    exact getBlock_inv h m blockId buffer

end

end SfDaqBuffer.Detector
