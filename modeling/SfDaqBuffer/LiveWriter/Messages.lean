/-
What a rank of jf_live_writer does with the messages of the store stream. `main` assigns the number
of writers to `i_writer`, so no rank is selected for data or metadata: a message opens a run, closes
it, or changes nothing.
-/
import SfDaqBuffer.CoreBuffer.Assemble
import SfDaqBuffer.Lib.Runs
import SfDaqBuffer.LiveWriter.Main

namespace SfDaqBuffer.LiveWriter

open SfDaqBuffer.Action CoreBuffer

/-! ## Ranks -/

theorem World.commSize_toNat (world : World) : world.commSize.toUInt32.toNat = world.size := by
  have hlt := world.size_lt
  unfold commSize
  rw [Int32.toUInt32_ofNat', UInt32.toNat_ofNat']
  omega

/-- No remainder is the number of writers. -/
theorem World.not_selected (world : World) (i : UInt32) :
    ¬ i % world.ranks.nWriters.toUInt32 = world.ranks.iWriter.toUInt32 := by
  intro h
  have hmod : (i % world.ranks.nWriters.toUInt32).toNat = i.toNat % world.commSize.toUInt32.toNat := UInt32.toNat_mod ..
  have hlt := Nat.mod_lt i.toNat world.size_pos
  rw [h, world.commSize_toNat] at hmod
  have hsize : world.ranks.iWriter.toUInt32.toNat = world.size := world.commSize_toNat
  omega

theorem World.iWriter_ne_zero (world : World) : ¬ world.ranks.iWriter = 0 := by
  intro h
  have hsize : world.ranks.iWriter.toUInt32.toNat = world.size := world.commSize_toNat
  have hpos := world.size_pos
  rw [h] at hsize
  have hzero : (0 : Int32).toUInt32.toNat = 0 := rfl
  omega

namespace Process

variable {σ : Type} {g : Geometry} (env : Environment σ) (world : World) (ramBuffer : RamBuffer g)

/-- The message loop of a rank that `main` starts. -/
theorem onMessage_ranks (m : StoreStream) :
    onMessage env world.ranks ramBuffer m = (do
      onlyIf (m.iImage = 0) (openFirst env m)
      onlyIf (m.iImage + 1 = m.nImages) (closeLast env)) := by
  unfold onMessage
  rw [onlyIf_false (world.not_selected m.iImage), onlyIf_false world.iWriter_ne_zero]
  rfl

/-! ## The partition of the work -/

section

variable {d : List Done}

theorem keeps_withWriter {α : Type} (x : Action Fault (Session σ) α) :
    Keeps (fun p : Process σ => p.done = d) (withWriter x) := fun _ h => h

theorem keeps_updateStats (f : WriterStats → Nat → WriterStats) :
    Keeps (fun p : Process σ => p.done = d) (updateStats f env) := fun _ h => h

theorem keeps_endRun : Keeps (fun p : Process σ => p.done = d) endRun := by
  intro p h
  cases hprint : p.stats.printStats with
  | error e =>
    rw [endRun_error hprint]
    exact h
  | ok report =>
    rw [endRun_ok hprint]
    exact h

theorem keeps_onMessage (m : StoreStream) :
    Keeps (fun p : Process σ => p.done = d) (onMessage env world.ranks ramBuffer m) := by
  rw [onMessage_ranks]
  refine Keeps.bind (Keeps.onlyIf fun _ => ?_) fun _ => Keeps.onlyIf fun _ => ?_
  · exact .bind (keeps_withWriter _) fun _ => keeps_updateStats env _
  · exact .bind (keeps_withWriter _) fun _ => keeps_endRun

theorem keeps_loop : ∀ ms : List StoreStream,
    Keeps (fun p : Process σ => p.done = d) (loop env world.ranks ramBuffer ms)
  | [] => .pure ()
  | m :: ms => .bind (keeps_onMessage env world ramBuffer m) fun _ => keeps_loop ms

end

end Process

/-- The messages of a whole run. -/
structure CompleteRun (runId : Int64) (ms : List StoreStream) : Prop where
  nonempty : 1 ≤ ms.length
  sameRun : ∀ m ∈ ms, m.runId = runId
  nImages : ∀ m ∈ ms, m.nImages.toNat = ms.length
  iImage : ∀ i (hi : i < ms.length), ms[i].iImage.toNat = i
  bitsPerPixel : ∀ m ∈ ms, m.bitsPerPixel ∈ [8, 16, 32]

/-- The data of every image are written by one rank. -/
def DataPartitioned (world : World) (runId : Int64) (ms : List StoreStream) (done : Nat → List Done) : Prop :=
  ∀ m ∈ ms, ∃! rank, rank < world.size ∧ .data runId m.iImage ∈ done rank

/-- The metadata of every image are written by rank 0 alone. -/
def MetadataByRankZero (world : World) (runId : Int64) (ms : List StoreStream) (done : Nat → List Done) : Prop :=
  ∀ m ∈ ms, ∀ rank < world.size, .metadata runId m.iImage ∈ done rank ↔ rank = 0

section

variable {σ : Type} {g : Geometry}

/-- What a rank has written when its process has received the messages or has ended before. -/
def doneBy (env : Environment σ) (world : World) (ramBuffer : RamBuffer g) (rootFolder detectorName : String)
    (library : σ) (ms : List StoreStream) : List Done :=
  ((Process.loop env world.ranks ramBuffer ms).run (.start rootFolder detectorName library)).2.done

theorem doneBy_eq (env : Environment σ) (world : World) (ramBuffer : RamBuffer g) (rootFolder detectorName : String)
    (library : σ) (ms : List StoreStream) :
    doneBy env world ramBuffer rootFolder detectorName library ms = [] :=
  Process.keeps_loop env world ramBuffer ms _ rfl

/-- No rank writes data or metadata in any complete run. -/
theorem work_not_partitioned (world : World) (env : Nat → Environment σ) (library : Nat → σ) (ramBuffer : RamBuffer g)
    (rootFolder detectorName : String) {runId : Int64} {ms : List StoreStream} (h : CompleteRun runId ms) :
    let done rank := doneBy (env rank) world ramBuffer rootFolder detectorName (library rank) ms
    ¬ DataPartitioned world runId ms done ∧ ¬ MetadataByRankZero world runId ms done := by
  intro done
  have hdone : ∀ rank, done rank = [] := fun rank => doneBy_eq ..
  obtain ⟨m, hm⟩ := List.exists_mem_of_length_pos h.nonempty
  constructor
  · intro hdata
    obtain ⟨rank, ⟨-, hmem⟩, -⟩ := hdata m hm
    rw [hdone] at hmem
    cases hmem
  · intro hmeta
    have hmem := (hmeta m hm 0 world.size_pos).2 rfl
    rw [hdone] at hmem
    cases hmem

end

/-- One process. -/
def oneRank : World := .checked 1 (@rfl Bool true)

/-- Two processes. -/
def twoRanks : World := .checked 2 (@rfl Bool true)

/-- Every call succeeds and gives the next handle. -/
def succeeding : Environment Nat := ⟨fun _ n => ((n : Int), n + 1), fun n => n⟩

def messageOf (runId : Int64) (iImage nImages : UInt32) : StoreStream :=
  ⟨⟨5, 1, 0, 1⟩, runId, iImage, nImages, 512, 1024, 16⟩

/-- The messages of a run of `n` images. -/
def runOf (runId : Int64) (n : Nat) : List StoreStream :=
  (List.range n).map fun i => messageOf runId (.ofNat i) (.ofNat n)

theorem completeRun_runOf (runId : Int64) {n : Nat} (hpos : 1 ≤ n) (hn : n < 2 ^ 32) : CompleteRun runId (runOf runId n) := by
  have hlen : (runOf runId n).length = n := by simp [runOf]
  have hmem : ∀ m ∈ runOf runId n, ∃ i < n, m = messageOf runId (.ofNat i) (.ofNat n) := by
    intro m hm
    obtain ⟨i, hi, rfl⟩ := List.mem_map.1 hm
    exact ⟨i, List.mem_range.1 hi, rfl⟩
  constructor
  · rwa [hlen]
  · intro m hm
    obtain ⟨i, -, rfl⟩ := hmem m hm
    rfl
  · intro m hm
    obtain ⟨i, -, rfl⟩ := hmem m hm
    rw [hlen]
    exact UInt32.toNat_ofNat_of_lt hn
  · intro i hi
    have hlt : i < n := hlen ▸ hi
    have himage : (runOf runId n)[i].iImage = .ofNat i := by simp [runOf, messageOf]
    rw [himage]
    exact UInt32.toNat_ofNat_of_lt (hlt.trans hn)
  · intro m hm
    obtain ⟨i, -, rfl⟩ := hmem m hm
    show (16 : UInt32) ∈ [8, 16, 32]
    decide

/-- A run of three images with two processes. -/
theorem work_not_partitioned_twoRanks :
    let done (_ : Nat) := doneBy succeeding twoRanks (RamBuffer.new oneModule) "" "JF" 1 (runOf 1 3)
    ¬ DataPartitioned twoRanks 1 (runOf 1 3) done ∧ ¬ MetadataByRankZero twoRanks 1 (runOf 1 3) done :=
  work_not_partitioned twoRanks (fun _ => succeeding) (fun _ => 1) (RamBuffer.new oneModule) "" "JF"
    (completeRun_runOf 1 (by decide) (by decide))

theorem completeRun_one : CompleteRun 1 [messageOf 1 0 1] := completeRun_runOf 1 (n := 1) (by decide) (by decide)

/-- A run of one image with one process: the only rank opens the file and writes nothing. -/
theorem one_rank_writes_nothing :
    CompleteRun 1 [messageOf 1 0 1] ∧
      doneBy succeeding oneRank (RamBuffer.new oneModule) "" "JF" 1 [messageOf 1 0 1] = [] ∧
      ¬ DataPartitioned oneRank 1 [messageOf 1 0 1]
        (fun _ => doneBy succeeding oneRank (RamBuffer.new oneModule) "" "JF" 1 [messageOf 1 0 1]) := by
  have hdone : doneBy succeeding oneRank (RamBuffer.new oneModule) "" "JF" 1 [messageOf 1 0 1] = [] := doneBy_eq ..
  refine ⟨completeRun_one, hdone, ?_⟩
  intro hdata
  obtain ⟨rank, ⟨-, hmem⟩, -⟩ := hdata _ (List.mem_singleton.2 rfl)
  rw [hdone] at hmem
  cases hmem

/-! ## Messages of another run -/

/-- A file is open for the run. -/
structure Process.RunOpen {σ : Type} (p : Process σ) (runId : Int64) : Prop where
  currentRunId : p.session.writer.currentRunId = runId
  file : 0 ≤ p.session.writer.fileId

/-- No exception, no call to the library, and no change of the writer. -/
def Process.Undisturbed {σ : Type} (x : Action Fault (Process σ) Unit) (p : Process σ) : Prop :=
  ∃ p', x.run p = (.ok (), p') ∧ p'.session = p.session

section

variable {σ : Type} {g : Geometry}

/-- `close_run` leaves no file open. -/
theorem closeRun_fileId (h5 : Hdf5 σ) {s : Session σ} (h : 0 ≤ s.writer.fileId) :
    ((JFH5Writer.closeRun h5).run s).2.writer.fileId = -1 := by
  have hopen : ¬ s.writer.fileId < 0 := by omega
  unfold JFH5Writer.closeRun JFH5Writer.closeFile JFH5Writer.this JFH5Writer.call JFH5Writer.update
  simp only [run_bind, run_act, run_modify, onlyIf_true hopen]

namespace Process

variable (env : Environment σ) (world : World) (ramBuffer : RamBuffer g)

/-- A message of the middle of a run is without effect. -/
theorem onMessage_middle {m : StoreStream} (hfirst : m.iImage ≠ 0) (hlast : m.iImage + 1 ≠ m.nImages) (p : Process σ) :
    (onMessage env world.ranks ramBuffer m).run p = (.ok (), p) := by
  rw [onMessage_ranks, onlyIf_false hfirst, onlyIf_false hlast]
  rfl

theorem onMessage_last {m : StoreStream} (hfirst : m.iImage ≠ 0) (hlast : m.iImage + 1 = m.nImages) (p : Process σ) :
    (onMessage env world.ranks ramBuffer m).run p = (closeLast env).run p := by
  rw [onMessage_ranks, onlyIf_false hfirst, onlyIf_true hlast]
  rfl

theorem run_withWriter {α : Type} {x : Action Fault (Session σ) α} {p : Process σ} {r : Except Fault α}
    {session : Session σ} (h : x.run p.session = (r, session)) :
    (withWriter x).run p = (r, { p with session := session }) := by
  unfold withWriter
  rw [run_onPart, h]

theorem endRun_session (p : Process σ) : (endRun.run p).2.session = p.session := by
  cases hprint : p.stats.printStats with
  | error e => rw [endRun_error hprint]
  | ok report => rw [endRun_ok hprint]

/-- The last message of a run closes the file, of whatever run it is. -/
theorem onMessage_last_fileId {m : StoreStream} (hfirst : m.iImage ≠ 0) (hlast : m.iImage + 1 = m.nImages)
    {p : Process σ} {runId : Int64} (hopen : p.RunOpen runId) :
    ((onMessage env world.ranks ramBuffer m).run p).2.session.writer.fileId = -1 := by
  rw [onMessage_last env world ramBuffer hfirst hlast]
  have hclose := closeRun_fileId env.hdf5 hopen.file
  rcases hrun : (JFH5Writer.closeRun env.hdf5).run p.session with ⟨e | ⟨⟩, session⟩
  · rw [hrun] at hclose
    rw [closeLast, run_bind_error (run_withWriter hrun)]
    exact hclose
  · rw [hrun] at hclose
    rw [closeLast, run_bind_ok (run_withWriter hrun), endRun_session]
    exact hclose

/-- Messages of the middle of any run are without effect. -/
theorem loop_middle : ∀ (ms : List StoreStream) (p : Process σ), (∀ m ∈ ms, m.iImage ≠ 0 ∧ m.iImage + 1 ≠ m.nImages) →
    (loop env world.ranks ramBuffer ms).run p = (.ok (), p)
  | [], _, _ => rfl
  | m :: ms, p, h => by
    obtain ⟨hfirst, hlast⟩ := h m (List.mem_cons_self ..)
    unfold loop
    rw [run_bind_ok (onMessage_middle env world ramBuffer hfirst hlast p)]
    exact loop_middle ms p fun m hm => h m (List.mem_cons_of_mem _ hm)

end Process

/-- In any state with an open run: a message that is not the first of a run leaves the run alone
exactly when it is not the last of a run either, and so does any number of such messages. The
run_id of the message makes no difference. -/
theorem stray_message (env : Environment σ) (world : World) (ramBuffer : RamBuffer g) {p : Process σ} {runId : Int64}
    (hopen : p.RunOpen runId) :
    (∀ m : StoreStream, m.iImage ≠ 0 →
      (Process.Undisturbed (Process.onMessage env world.ranks ramBuffer m) p ↔ m.iImage + 1 ≠ m.nImages)) ∧
    ∀ ms : List StoreStream, (∀ m ∈ ms, m.iImage ≠ 0 ∧ m.iImage + 1 ≠ m.nImages) →
      Process.Undisturbed (Process.loop env world.ranks ramBuffer ms) p := by
  refine ⟨fun m hfirst => ⟨?_, fun hlast => ?_⟩, fun ms hms => ?_⟩
  · rintro ⟨p', hrun, hsession⟩ hlast
    have hfile := Process.onMessage_last_fileId env world ramBuffer hfirst hlast hopen
    rw [hrun, hsession] at hfile
    have hpos := hopen.file
    omega
  · exact ⟨p, Process.onMessage_middle env world ramBuffer hfirst hlast p, rfl⟩
  · exact ⟨p, Process.loop_middle env world ramBuffer ms p hms, rfl⟩

end

/-- Run 1 with ten images was opened. -/
theorem open_run_one : ∃ p, (Process.loop succeeding oneRank.ranks (RamBuffer.new oneModule) [messageOf 1 0 10]).run
      (.start "" "JF" 1) = (.ok (), p) ∧ p.RunOpen 1 := by
  refine ⟨_, rfl, ⟨?_, ?_⟩⟩
  · rfl
  · decide

theorem stray_message_one : ∃ p, (Process.loop succeeding oneRank.ranks (RamBuffer.new oneModule) [messageOf 1 0 10]).run
      (.start "" "JF" 1) = (.ok (), p) ∧ p.RunOpen 1 ∧
    (∀ m : StoreStream, m.iImage ≠ 0 →
      (Process.Undisturbed (Process.onMessage succeeding oneRank.ranks (RamBuffer.new oneModule) m) p ↔
        m.iImage + 1 ≠ m.nImages)) ∧
    ∀ ms : List StoreStream, (∀ m ∈ ms, m.iImage ≠ 0 ∧ m.iImage + 1 ≠ m.nImages) →
      Process.Undisturbed (Process.loop succeeding oneRank.ranks (RamBuffer.new oneModule) ms) p := by
  obtain ⟨p, hrun, hopen⟩ := open_run_one
  exact ⟨p, hrun, hopen, stray_message succeeding oneRank (RamBuffer.new oneModule) hopen⟩

/-- The last message of run 2 closes the file of run 1. -/
theorem stray_message_closes_run : ∃ p p' r, (Process.loop succeeding oneRank.ranks (RamBuffer.new oneModule)
      [messageOf 1 0 10]).run (.start "" "JF" 1) = (.ok (), p) ∧ p.RunOpen 1 ∧
    (Process.onMessage succeeding oneRank.ranks (RamBuffer.new oneModule) (messageOf 2 3 4)).run p = (r, p') ∧
    p'.session.writer.currentRunId = noRunId ∧ p'.session.writer.fileId = -1 ∧
    ¬ Process.Undisturbed (Process.onMessage succeeding oneRank.ranks (RamBuffer.new oneModule) (messageOf 2 3 4)) p := by
  obtain ⟨p, hrun, hopen⟩ := open_run_one
  refine ⟨p, _, _, hrun, hopen, rfl, ?_, ?_, ?_⟩
  · cases hrun
    rfl
  · cases hrun
    rfl
  · rintro ⟨p', hp', hsession⟩
    have hfile := Process.onMessage_last_fileId succeeding oneRank (RamBuffer.new oneModule)
      (m := messageOf 2 3 4) (by decide) (by decide) hopen
    rw [hp', hsession] at hfile
    have hpos := hopen.file
    omega

end SfDaqBuffer.LiveWriter
