/-
Isolation of runs. After any calls of the live writer, and any failures of the library in them, the
datasets that the writer has handles of are in the file of the latest `open_run`, so what a later
`write_data` or `write_meta` writes goes to that file and belongs to its run.
-/
import SfDaqBuffer.LiveWriter.JFH5Writer
import SfDaqBuffer.Lib.Runs

namespace SfDaqBuffer.LiveWriter

open SfDaqBuffer.Action

variable {σ : Type}

/-! ## Recorded calls -/

/-- The library with a record of the calls and their results. -/
def Hdf5.logged (h5 : Hdf5 σ) : Hdf5 (σ × List (Call × Int)) := fun c s =>
  ((h5 c s.1).1, (h5 c s.1).2, s.2 ++ [(c, (h5 c s.1).1)])

/-- Calls with a negative handle fail. -/
structure RejectsNegative (h5 : Hdf5 σ) : Prop where
  dGetSpace : ∀ {dataset : Int}, dataset < 0 → ∀ s, (h5 (.dGetSpace dataset) s).1 < 0
  dWrite : ∀ {dataset : Int}, dataset < 0 → ∀ type ramSpace fileSpace source s,
    (h5 (.dWrite dataset type ramSpace fileSpace source) s).1 < 0

/-- The file `name` has been created as `file` and not closed. -/
def FileOpen (calls : List (Call × Int)) (name : String) (file : Int) : Prop :=
  ∃ before after fapl, calls = before ++ (.fCreate name fapl, file) :: after ∧ 0 ≤ file ∧
    ∀ r, (.fClose file, r) ∉ after

/-- The group `name` of the open file `fileName` has been created as `group` and not closed. -/
def GroupOpen (calls : List (Call × Int)) (fileName name : String) (file group : Int) : Prop :=
  ∃ before after, calls = before ++ (.gCreate file name, group) :: after ∧ 0 ≤ group ∧
    FileOpen before fileName file ∧ ∀ r, (.fClose file, r) ∉ after ∧ (.gClose group, r) ∉ after

/-- The dataset `name` has been created in the group of the file, and neither of them closed. -/
def DatasetOf (calls : List (Call × Int)) (fileName groupName name : String) (dataset : Int) : Prop :=
  ∃ before after file group type space dcpl,
    calls = before ++ (.dCreate group name type space dcpl, dataset) :: after ∧
      GroupOpen before fileName groupName file group ∧ ∀ r, (.fClose file, r) ∉ after ∧ (.dClose dataset, r) ∉ after

/-- The call closes no file, group or dataset. -/
def Call.Quiet : Call → Prop
  | .fClose _ | .gClose _ | .dClose _ => False
  | _ => True

/-- The call is on a dataspace only. -/
def Call.OnSpace : Call → Prop
  | .sCreateSimple _ | .sSelectHyperslab _ _ _ _ _ | .sClose _ => True
  | _ => False

section

variable {calls : List (Call × Int)} {fileName groupName name : String} {file group dataset r : Int} {c : Call}

theorem notMem_concat {e e' : Call × Int} {l : List (Call × Int)} (h : e ∉ l) (hne : e ≠ e') : e ∉ l ++ [e'] := by
  intro hmem
  rcases List.mem_append.1 hmem with hmem | hmem
  · exact h hmem
  · exact hne (List.mem_singleton.1 hmem)

theorem FileOpen.append (h : FileOpen calls name file) (hc : c ≠ .fClose file) :
    FileOpen (calls ++ [(c, r)]) name file := by
  obtain ⟨before, after, fapl, rfl, hfile, hopen⟩ := h
  refine ⟨before, after ++ [(c, r)], fapl, by simp, hfile, fun r' => notMem_concat (hopen r') fun heq => ?_⟩
  exact hc (congrArg Prod.fst heq).symm

theorem GroupOpen.append (h : GroupOpen calls fileName name file group) (hc : c ≠ .fClose file)
    (hc' : c ≠ .gClose group) : GroupOpen (calls ++ [(c, r)]) fileName name file group := by
  obtain ⟨before, after, rfl, hgroup, hfile, hopen⟩ := h
  refine ⟨before, after ++ [(c, r)], by simp, hgroup, hfile, fun r' => ⟨?_, ?_⟩⟩
  · exact notMem_concat (hopen r').1 fun heq => hc (congrArg Prod.fst heq).symm
  · exact notMem_concat (hopen r').2 fun heq => hc' (congrArg Prod.fst heq).symm

theorem DatasetOf.append (h : DatasetOf calls fileName groupName name dataset) (hc : ∀ file, c ≠ .fClose file)
    (hc' : ∀ dataset, c ≠ .dClose dataset) : DatasetOf (calls ++ [(c, r)]) fileName groupName name dataset := by
  obtain ⟨before, after, file, group, type, space, dcpl, rfl, hgroup, hopen⟩ := h
  refine ⟨before, after ++ [(c, r)], file, group, type, space, dcpl, by simp, hgroup, fun r' => ⟨?_, ?_⟩⟩
  · exact notMem_concat (hopen r').1 fun heq => hc file (congrArg Prod.fst heq).symm
  · exact notMem_concat (hopen r').2 fun heq => hc' dataset (congrArg Prod.fst heq).symm

/-- Calls that close nothing leave it open. -/
theorem DatasetOf.appendQuiet : ∀ {made calls : List (Call × Int)}, DatasetOf calls fileName groupName name dataset →
    (∀ e ∈ made, e.1.Quiet) → DatasetOf (calls ++ made) fileName groupName name dataset
  | [], _, h, _ => by rwa [List.append_nil]
  | (c, r) :: made, calls, h, hquiet => by
    have hc : c.Quiet := hquiet (c, r) (List.mem_cons_self ..)
    rw [List.append_cons]
    refine DatasetOf.appendQuiet (h.append ?_ ?_) fun e he => hquiet e (List.mem_cons_of_mem _ he)
    · rintro file rfl
      exact hc
    · rintro dataset rfl
      exact hc

theorem fileOpen_created (calls : List (Call × Int)) (name : String) (fapl : Int) (hfile : 0 ≤ file) :
    FileOpen (calls ++ [(.fCreate name fapl, file)]) name file :=
  ⟨calls, [], fapl, rfl, hfile, fun _ => List.not_mem_nil⟩

theorem FileOpen.createGroup (h : FileOpen calls fileName file) (name : String) (hgroup : 0 ≤ group) :
    GroupOpen (calls ++ [(.gCreate file name, group)]) fileName name file group :=
  ⟨calls, [], rfl, hgroup, h, fun _ => ⟨List.not_mem_nil, List.not_mem_nil⟩⟩

theorem GroupOpen.createDataset (h : GroupOpen calls fileName groupName file group) (name : String) (type : Datatype)
    (space dcpl : Int) : DatasetOf (calls ++ [(.dCreate group name type space dcpl, dataset)]) fileName groupName
      name dataset :=
  ⟨calls, [], file, group, type, space, dcpl, rfl, h, fun _ => ⟨List.not_mem_nil, List.not_mem_nil⟩⟩

end

/-! ## The handles of the writer -/

/-- A run of a writer, which decides the name of its file. -/
structure RunFile where
  rootFolder : String
  detectorName : String
  runId : Int64

def RunFile.outputFile (run : RunFile) : String :=
  run.rootFolder ++ "/" ++ outputFolderSymlink ++ toString run.runId.toInt ++ ".h5"

namespace JFH5Writer

def runFile (w : JFH5Writer) : RunFile := ⟨w.rootFolder, w.detectorName, w.currentRunId⟩

/-- The handles of the datasets. -/
def datasets (w : JFH5Writer) : List (String × Int) :=
  [("data", w.imageDatasetId), ("pulse_id", w.pulseDatasetId), ("frame_index", w.frameDatasetId),
    ("daq_rec", w.daqRecDatasetId), ("is_good_frame", w.isGoodDatasetId)]

theorem mem_datasets {w : JFH5Writer} {p : String × Int} : p ∈ w.datasets ↔
    p = ("data", w.imageDatasetId) ∨ p = ("pulse_id", w.pulseDatasetId) ∨ p = ("frame_index", w.frameDatasetId) ∨
      p = ("daq_rec", w.daqRecDatasetId) ∨ p = ("is_good_frame", w.isGoodDatasetId) := by
  simp [datasets]

def NoDatasets (w : JFH5Writer) : Prop := ∀ p ∈ w.datasets, p.2 < 0

/-- The datasets are in the file of the run. -/
structure Isolated (run : RunFile) (w : JFH5Writer) (calls : List (Call × Int)) : Prop where
  ofRun : w.runFile = run
  closed : w.fileId < 0 → w.NoDatasets
  owned : ∀ p ∈ w.datasets, 0 ≤ p.2 → DatasetOf calls run.outputFile run.detectorName p.1 p.2

/-- The run starts: no file is open. -/
def Started (run : RunFile) (w : JFH5Writer) (_calls : List (Call × Int)) : Prop :=
  w.runFile = run ∧ w.NoDatasets ∧ w.fileId < 0

/-- The file of the run is open, and nothing in it. -/
def InFile (run : RunFile) (file : Int) (w : JFH5Writer) (calls : List (Call × Int)) : Prop :=
  w.runFile = run ∧ w.NoDatasets ∧ w.fileId = file ∧ FileOpen calls run.outputFile file

/-- The group of the file of the run is open. -/
def InGroup (run : RunFile) (file group : Int) (w : JFH5Writer) (calls : List (Call × Int)) : Prop :=
  w.Isolated run calls ∧ 0 ≤ w.fileId ∧ GroupOpen calls run.outputFile run.detectorName file group

/-- A property of the writer and of the calls that were made. -/
def Holds (P : JFH5Writer → List (Call × Int) → Prop) (s : Session (σ × List (Call × Int))) : Prop :=
  P s.writer s.library.2

/-- The property does not depend on calls that close nothing. -/
def Stable (P : JFH5Writer → List (Call × Int) → Prop) : Prop :=
  ∀ w calls c r, Call.Quiet c → P w calls → P w (calls ++ [(c, r)])

section

variable {run : RunFile} {file group : Int} {w : JFH5Writer} {calls : List (Call × Int)}

theorem NoDatasets.isolated (h : w.NoDatasets) (hrun : w.runFile = run) : w.Isolated run calls :=
  ⟨hrun, fun _ => h, fun p hp hnonneg => absurd (h p hp) (Int.not_lt.2 hnonneg)⟩

theorem Isolated.append (h : w.Isolated run calls) {c : Call} {r : Int} (hc : ∀ file, c ≠ .fClose file)
    (hc' : ∀ dataset, c ≠ .dClose dataset) : w.Isolated run (calls ++ [(c, r)]) :=
  ⟨h.ofRun, h.closed, fun p hp hnonneg => (h.owned p hp hnonneg).append hc hc'⟩

theorem stable_isolated (run : RunFile) : Stable (Isolated run) := by
  rintro w calls c r hc h
  refine h.append ?_ ?_
  · rintro file rfl
    exact hc
  · rintro dataset rfl
    exact hc

theorem stable_started (run : RunFile) : Stable (Started run) := fun _ _ _ _ _ h => h

theorem stable_inFile (run : RunFile) (file : Int) : Stable (InFile run file) := by
  rintro w calls c r hc ⟨hrun, hnone, hfile, hopen⟩
  refine ⟨hrun, hnone, hfile, hopen.append ?_⟩
  rintro rfl
  exact hc

theorem stable_inGroup (run : RunFile) (file group : Int) : Stable (InGroup run file group) := by
  rintro w calls c r hc ⟨hisolated, hfile, hopen⟩
  refine ⟨stable_isolated run w calls c r hc hisolated, hfile, hopen.append ?_ ?_⟩
  · rintro rfl
    exact hc
  · rintro rfl
    exact hc

/-! ## Rules for the steps of the writer -/

variable {α : Type} {h5 : Hdf5 σ} {P Q : JFH5Writer → List (Call × Int) → Prop}
  {post : α → Session (σ × List (Call × Int)) → Prop} {fail : Session (σ × List (Call × Int)) → Prop}

theorem call_then {R : Int → JFH5Writer → List (Call × Int) → Prop} {c : Call}
    {f : Int → Action Fault (Session (σ × List (Call × Int))) α}
    (hcall : ∀ w calls r, P w calls → (∃ s, (h5 c s).1 = r) → R r w (calls ++ [(c, r)]))
    (hf : ∀ r, Triple (Holds (R r)) (f r) post fail) : Triple (Holds P) (call h5.logged c >>= f) post fail :=
  .bind (R := fun r => Holds (R r)) (.act fun s h => hcall s.writer s.library.2 _ h ⟨s.library.1, rfl⟩) hf

theorem quiet_then (hP : Stable P) {c : Call} (hc : c.Quiet)
    {f : Int → Action Fault (Session (σ × List (Call × Int))) α} (hf : ∀ r, Triple (Holds P) (f r) post fail) :
    Triple (Holds P) (call h5.logged c >>= f) post fail :=
  call_then (fun w calls r h _ => hP w calls c r hc h) hf

theorem update_then {g : JFH5Writer → JFH5Writer} {f : Unit → Action Fault (Session (σ × List (Call × Int))) α}
    (hupdate : ∀ w calls, P w calls → Q (g w) calls) (hf : Triple (Holds Q) (f ()) post fail) :
    Triple (Holds P) (update g >>= f) post fail :=
  .bind (R := fun _ => Holds Q) (.modify fun s h => hupdate s.writer s.library.2 h) fun _ => hf

theorem throwIf_then {c : Prop} [Decidable c] {text : String}
    {f : Unit → Action Fault (Session (σ × List (Call × Int))) α} (hfail : ∀ s, Holds P s → fail s)
    (hf : ¬ c → Triple (Holds P) (f ()) post fail) : Triple (Holds P) (throwIf c text >>= f) post fail := by
  refine .bind (R := fun _ s => ¬ c ∧ Holds P s) ?_ fun _ => ?_
  · exact .onlyIf (fun _ => .throw hfail) fun hc s h => ⟨hc, h⟩
  · intro s h
    exact hf h.1 s h.2

/-! ## Opening a run -/

/-- A dataset that was just created in the group of the run. -/
def Create (run : RunFile) (file group : Int) (name : String) (dataset : Int) (w : JFH5Writer)
    (calls : List (Call × Int)) : Prop :=
  InGroup run file group w calls ∧ DatasetOf calls run.outputFile run.detectorName name dataset

theorem createDataset_then {name : String} {type : Datatype} {space dcpl : Int}
    {f : Int → Action Fault (Session (σ × List (Call × Int))) α}
    (hf : ∀ dataset, Triple (Holds (Create run file group name dataset)) (f dataset) post fail) :
    Triple (Holds (InGroup run file group)) (call h5.logged (.dCreate group name type space dcpl) >>= f) post fail :=
  call_then (fun w calls r h _ =>
    ⟨stable_inGroup run file group w calls (.dCreate group name type space dcpl) r trivial h,
      h.2.2.createDataset name type space dcpl⟩) hf

/-- A handle of a dataset of the run may be stored. -/
theorem Create.store {name : String} {dataset : Int} {w w' : JFH5Writer} {calls : List (Call × Int)}
    (h : Create run file group name dataset w calls) (k : Nat) (hrun : w'.runFile = w.runFile)
    (hfile : w'.fileId = w.fileId) (hdatasets : w'.datasets = w.datasets.set k (name, dataset)) :
    InGroup run file group w' calls := by
  obtain ⟨⟨hisolated, hnonneg, hopen⟩, hdataset⟩ := h
  refine ⟨⟨hrun.trans hisolated.ofRun, fun hneg => ?_, fun p hp hpos => ?_⟩, hfile ▸ hnonneg, hopen⟩
  · rw [hfile] at hneg
    exact absurd hneg (Int.not_lt.2 hnonneg)
  · rw [hdatasets] at hp
    rcases List.mem_or_eq_of_mem_set hp with hold | rfl
    · exact hisolated.owned p hold hpos
    · exact hdataset

theorem getDatatype_triple (hP : ∀ s, Holds P s → fail s) (bitsPerPixel : UInt32) :
    Triple (Holds P) (getDatatype bitsPerPixel) (fun _ => Holds P) fail := by
  unfold getDatatype
  split
  · exact .pure fun _ h => h
  · split
    · exact .pure fun _ h => h
    · split
      · exact .pure fun _ h => h
      · exact .throw hP

theorem createMetaDataset_triple {name : String} {space : Int} {type : Datatype} :
    Triple (Holds (InGroup run file group)) (createMetaDataset h5.logged group space name type)
      (fun dataset => Holds (Create run file group name dataset)) (Holds (Isolated run)) := by
  unfold createMetaDataset
  refine createDataset_then fun dataset => ?_
  exact throwIf_then (fun _ h => h.1.1) fun _ => .pure fun _ h => h

/-- `open_file` in a writer without an open file: whatever fails, the writer has datasets of the run
only. -/
theorem openFile_triple (nImages : UInt32) :
    Triple (Holds (Started run)) (openFile h5.logged run.outputFile nImages) (fun _ => Holds (Isolated run))
      (Holds (Isolated run)) := by
  have hstarted : ∀ s : Session (σ × List (Call × Int)), Holds (Started run) s → Holds (Isolated run) s :=
    fun s h => NoDatasets.isolated h.2.1 h.1
  unfold openFile
  refine .bind (R := fun w s => w.runFile = run ∧ Holds (Started run) s) (.act fun s h => ⟨h.1, h⟩) fun w => ?_
  rintro s ⟨hw, hs⟩
  have hdetector : w.detectorName = run.detectorName := congrArg RunFile.detectorName hw
  refine (?_ : Triple (Holds (Started run)) _ _ _) s hs
  refine quiet_then (stable_started run) (by trivial) fun fcpl => throwIf_then hstarted fun _ => ?_
  refine quiet_then (stable_started run) (by trivial) fun _ => throwIf_then hstarted fun _ => ?_
  -- the file is open if its handle is not negative
  refine call_then (R := fun file w calls => Started run w calls ∧ (0 ≤ file → FileOpen calls run.outputFile file))
    (fun w calls file h _ => ⟨h, fun hfile => fileOpen_created calls run.outputFile fcpl hfile⟩) fun file => ?_
  refine update_then (Q := fun w calls => (w.runFile = run ∧ w.NoDatasets ∧ w.fileId = file) ∧
    (0 ≤ file → FileOpen calls run.outputFile file)) (fun w calls h => ⟨⟨h.1.1, h.1.2.1, rfl⟩, h.2⟩) ?_
  refine throwIf_then (fun _ h => NoDatasets.isolated h.1.2.1 h.1.1) fun hfile => ?_
  refine fun s hs => (?_ : Triple (Holds (InFile run file)) _ _ _) s
    ⟨hs.1.1, hs.1.2.1, hs.1.2.2, hs.2 (Int.not_lt.1 hfile)⟩
  refine quiet_then (stable_inFile run file) (by trivial) fun _ => ?_
  rw [hdetector]
  refine call_then (R := fun group w calls => (w.runFile = run ∧ w.NoDatasets ∧ w.fileId = file) ∧
    (0 ≤ group → GroupOpen calls run.outputFile run.detectorName file group)) (fun w calls group h _ =>
      ⟨⟨h.1, h.2.1, h.2.2.1⟩, fun hgroup => h.2.2.2.createGroup run.detectorName hgroup⟩) fun group => ?_
  refine throwIf_then (fun _ h => NoDatasets.isolated h.1.2.1 h.1.1) fun hgroup => ?_
  refine fun s hs => (?_ : Triple (Holds (InGroup run file group)) _ _ _) s
    ⟨NoDatasets.isolated hs.1.2.1 hs.1.1, by rw [hs.1.2.2]; exact Int.not_lt.1 hfile, hs.2 (Int.not_lt.1 hgroup)⟩
  have hstable := stable_inGroup run file group
  have hgroup' : ∀ s : Session (σ × List (Call × Int)), Holds (InGroup run file group) s → Holds (Isolated run) s :=
    fun s h => h.1
  refine quiet_then hstable (by trivial) fun dcpl => throwIf_then hgroup' fun _ => ?_
  refine quiet_then hstable (by trivial) fun _ => throwIf_then hgroup' fun _ => ?_
  refine quiet_then hstable (by trivial) fun _ => throwIf_then hgroup' fun _ => ?_
  refine quiet_then hstable (by trivial) fun _ => throwIf_then hgroup' fun _ => ?_
  refine quiet_then hstable (by trivial) fun imageSpace => throwIf_then hgroup' fun _ => ?_
  refine .bind (getDatatype_triple hgroup' w.bitsPerPixel) fun datatype => ?_
  refine createDataset_then fun image => update_then (fun w calls h => h.store 0 rfl rfl rfl)
    (throwIf_then hgroup' fun _ => ?_)
  refine quiet_then hstable (by trivial) fun metaSpace => throwIf_then hgroup' fun _ => ?_
  refine .bind createMetaDataset_triple fun pulse => update_then (fun w calls h => h.store 1 rfl rfl rfl) ?_
  refine .bind createMetaDataset_triple fun frame => update_then (fun w calls h => h.store 2 rfl rfl rfl) ?_
  refine .bind createMetaDataset_triple fun daqRec => update_then (fun w calls h => h.store 3 rfl rfl rfl) ?_
  refine .bind createMetaDataset_triple fun isGood => update_then (fun w calls h => h.store 4 rfl rfl rfl) ?_
  refine quiet_then hstable (by trivial) fun _ => quiet_then hstable (by trivial) fun _ => ?_
  refine quiet_then hstable (by trivial) fun _ => ?_
  -- the group is closed, its datasets stay open
  refine call_then (R := fun _ => Isolated run) (fun w calls r h _ => h.1.append (fun _ => nofun) fun _ => nofun)
    fun _ => ?_
  exact .pure fun _ h => h

/-- `close_run` leaves no file and no dataset. -/
theorem closeRun_writer (h5 : Hdf5 σ) {s : Session σ} (h : s.writer.fileId < 0 → s.writer.NoDatasets) :
    ∃ w library, (closeRun h5).run s = (.ok (), ⟨w, library⟩) ∧ w.rootFolder = s.writer.rootFolder ∧
      w.detectorName = s.writer.detectorName ∧ w.NoDatasets ∧ w.fileId < 0 := by
  unfold closeRun closeFile this call update
  by_cases hopen : ¬ s.writer.fileId < 0
  · simp only [run_bind, run_act, run_modify, onlyIf_true hopen]
    exact ⟨_, _, rfl, rfl, rfl, by simp [NoDatasets, datasets], by simp⟩
  · simp only [run_bind, run_act, run_modify, onlyIf_false hopen, run_pure]
    exact ⟨_, _, rfl, rfl, rfl, h (not_not.1 hopen), not_not.1 hopen⟩

/-- `open_run` leaves datasets of its own run only, whatever fails in it. -/
theorem openRun_isolated (h5 : Hdf5 σ) (runId : Int64) (nImages imageYSize imageXSize bitsPerPixel : UInt32)
    {s : Session (σ × List (Call × Int))} (h : s.writer.fileId < 0 → s.writer.NoDatasets) :
    Holds (Isolated ⟨s.writer.rootFolder, s.writer.detectorName, runId⟩)
      ((openRun h5.logged runId nImages imageYSize imageXSize bitsPerPixel).run s).2 := by
  obtain ⟨w, library, hclose, hroot, hdetector, hnone, hfile⟩ := closeRun_writer h5.logged h
  unfold openRun
  rw [run_bind_ok hclose, ← hroot, ← hdetector]
  exact (openFile_triple nImages).keeps ⟨rfl, hnone, hfile⟩

/-! ## Writing -/

/-- The writer is as it was, and the calls since then all meet `ok`. -/
def Since (w₀ : JFH5Writer) (calls₀ : List (Call × Int)) (ok : Call → Prop) (w : JFH5Writer)
    (calls : List (Call × Int)) : Prop :=
  w = w₀ ∧ ∃ made, calls = calls₀ ++ made ∧ ∀ e ∈ made, ok e.1

/-- The call closes nothing, and writes to a dataset of the writer if it writes. -/
def WritesOwn (w : JFH5Writer) (c : Call) : Prop :=
  c.Quiet ∧ ∀ dataset type ramSpace fileSpace source, c = .dWrite dataset type ramSpace fileSpace source →
    0 ≤ dataset ∧ ∃ name, (name, dataset) ∈ w.datasets

section

variable {w₀ : JFH5Writer} {calls₀ : List (Call × Int)} {ok ok' : Call → Prop}

theorem Since.append {c : Call} {r : Int} (h : Since w₀ calls₀ ok w calls) (hc : ok c) :
    Since w₀ calls₀ ok w (calls ++ [(c, r)]) := by
  obtain ⟨hw, made, rfl, hmade⟩ := h
  refine ⟨hw, made ++ [(c, r)], by simp, fun e he => ?_⟩
  rcases List.mem_append.1 he with he | he
  · exact hmade e he
  · rw [List.mem_singleton.1 he]
    exact hc

theorem Since.imp (h : Since w₀ calls₀ ok w calls) (himp : ∀ c, ok c → ok' c) : Since w₀ calls₀ ok' w calls := by
  obtain ⟨hw, made, hcalls, hmade⟩ := h
  exact ⟨hw, made, hcalls, fun e he => himp _ (hmade e he)⟩

theorem writesOwn_of_onSpace {c : Call} (hc : c.OnSpace) : WritesOwn w₀ c := by
  cases c with
  | sCreateSimple | sSelectHyperslab | sClose => exact ⟨trivial, fun _ _ _ _ _ => nofun⟩
  | _ => exact hc.elim

theorem space_then {c : Call} (hc : c.OnSpace) {f : Int → Action Fault (Session (σ × List (Call × Int))) α}
    (hf : ∀ r, Triple (Holds (Since w₀ calls₀ (WritesOwn w₀))) (f r) post fail) :
    Triple (Holds (Since w₀ calls₀ (WritesOwn w₀))) (call h5.logged c >>= f) post fail :=
  call_then (fun _ _ _ h _ => h.append (writesOwn_of_onSpace hc)) hf

/-- A write that succeeds was to an open dataset. -/
theorem write_then (hneg : RejectsNegative h5) {name : String} {dataset : Int}
    (hdataset : (name, dataset) ∈ w₀.datasets) {type : Datatype} {ramSpace fileSpace : Int} {source : Source}
    {text : String} {f : Unit → Action Fault (Session (σ × List (Call × Int))) α}
    (hf : Triple (Holds (Since w₀ calls₀ (WritesOwn w₀))) (f ()) post (Holds (Since w₀ calls₀ Call.Quiet))) :
    Triple (Holds (Since w₀ calls₀ (WritesOwn w₀)))
      (call h5.logged (.dWrite dataset type ramSpace fileSpace source) >>= fun result =>
        throwIf (result < 0) text >>= f) post (Holds (Since w₀ calls₀ Call.Quiet)) := by
  refine call_then (R := fun r w calls => Since w₀ calls₀ Call.Quiet w calls ∧
    (0 ≤ r → Since w₀ calls₀ (WritesOwn w₀) w calls)) (fun w calls r h hr => ?_) fun r => ?_
  · refine ⟨(h.imp fun _ hown => hown.1).append trivial, fun hpos => h.append ⟨trivial, ?_⟩⟩
    rintro _ _ _ _ _ ⟨⟩
    obtain ⟨s, rfl⟩ := hr
    refine ⟨?_, name, hdataset⟩
    by_contra hlt
    exact absurd (hneg.dWrite (Int.not_le.1 hlt) type ramSpace fileSpace source s) (Int.not_lt.2 hpos)
  · refine throwIf_then (fun _ h => h.1) fun hr => ?_
    exact fun s h => hf s (h.2 (Int.not_lt.1 hr))

/-- A write call with run_id `runId` that returns: the run is the current one, some dataset is open,
and the calls wrote to datasets of the writer. -/
def Wrote (runId : Int64) (w₀ : JFH5Writer) (calls₀ : List (Call × Int)) (s : Session (σ × List (Call × Int))) : Prop :=
  runId = w₀.currentRunId ∧ (∃ p ∈ w₀.datasets, 0 ≤ p.2) ∧ Holds (Since w₀ calls₀ (WritesOwn w₀)) s

theorem quiet_since : ∀ s : Session (σ × List (Call × Int)), Holds (Since w₀ calls₀ (WritesOwn w₀)) s →
    Holds (Since w₀ calls₀ Call.Quiet) s :=
  fun _ h => h.imp fun _ hown => hown.1

/-- The first step of a write call: the run_id is that of the writer. -/
theorem checkRun_then {runId : Int64} {f : JFH5Writer → Unit → Action Fault (Session (σ × List (Call × Int))) α}
    (hf : runId = w₀.currentRunId → Triple (Holds (Since w₀ calls₀ (WritesOwn w₀))) (f w₀ ()) post
      (Holds (Since w₀ calls₀ Call.Quiet))) :
    Triple (fun s => s.writer = w₀ ∧ s.library.2 = calls₀)
      (this >>= fun w => throwIf (runId ≠ w.currentRunId) "Invalid run_id." >>= f w) post
      (Holds (Since w₀ calls₀ Call.Quiet)) := by
  refine .bind (R := fun w s => w = w₀ ∧ Holds (Since w₀ calls₀ (WritesOwn w₀)) s) (.act fun s h => ?_) fun w => ?_
  · exact ⟨h.1, h.1, [], by rw [h.2, List.append_nil], fun _ he => nomatch he⟩
  · rintro s ⟨rfl, hs⟩
    exact throwIf_then quiet_since (fun hrun => hf (not_not.1 hrun)) s hs

/-- The space of a dataset can only be had from an open one. -/
theorem getSpace_then (hneg : RejectsNegative h5) {dataset : Int} {text : String}
    {f : Int → Unit → Action Fault (Session (σ × List (Call × Int))) α}
    (hf : 0 ≤ dataset → ∀ fileSpace, Triple (Holds (Since w₀ calls₀ (WritesOwn w₀))) (f fileSpace ()) post
      (Holds (Since w₀ calls₀ Call.Quiet))) :
    Triple (Holds (Since w₀ calls₀ (WritesOwn w₀)))
      (call h5.logged (.dGetSpace dataset) >>= fun fileSpace => throwIf (fileSpace < 0) text >>= f fileSpace) post
      (Holds (Since w₀ calls₀ Call.Quiet)) := by
  refine call_then (R := fun r w calls => (0 ≤ r → 0 ≤ dataset) ∧ Since w₀ calls₀ (WritesOwn w₀) w calls)
    (fun w calls r h hr => ⟨fun hpos => ?_, h.append ⟨trivial, fun _ _ _ _ _ => nofun⟩⟩) fun r => ?_
  · obtain ⟨s, rfl⟩ := hr
    by_contra hlt
    exact absurd (hneg.dGetSpace (Int.not_le.1 hlt) s) (Int.not_lt.2 hpos)
  · refine throwIf_then (fun s h => quiet_since s h.2) fun hr => ?_
    exact fun s h => hf (h.1 (Int.not_lt.1 hr)) r s h.2

theorem writeData_triple (hneg : RejectsNegative h5) (runId : Int64) (index : UInt32) (data : Source) :
    Triple (fun s => s.writer = w₀ ∧ s.library.2 = calls₀) (writeData h5.logged runId index data)
      (fun _ => Wrote runId w₀ calls₀) (Holds (Since w₀ calls₀ Call.Quiet)) := by
  unfold writeData
  refine checkRun_then fun hrun => ?_
  refine space_then (by trivial) fun ramSpace => throwIf_then quiet_since fun _ => ?_
  refine getSpace_then hneg fun hopen fileSpace => ?_
  have himage : ("data", w₀.imageDatasetId) ∈ w₀.datasets := mem_datasets.2 (.inl rfl)
  refine space_then (by trivial) fun _ => throwIf_then quiet_since fun _ => ?_
  refine .bind (getDatatype_triple quiet_since w₀.bitsPerPixel) fun datatype => ?_
  apply write_then hneg himage
  refine space_then (by trivial) fun _ => ?_
  refine space_then (by trivial) fun _ => ?_
  exact .pure fun s h => ⟨hrun, ⟨_, himage, hopen⟩, h⟩

theorem writeMeta_triple (hneg : RejectsNegative h5) (runId : Int64) (index : UInt32) (image : ImageMetadata) :
    Triple (fun s => s.writer = w₀ ∧ s.library.2 = calls₀) (writeMeta h5.logged runId index image)
      (fun _ => Wrote runId w₀ calls₀) (Holds (Since w₀ calls₀ Call.Quiet)) := by
  unfold writeMeta
  refine checkRun_then fun hrun => ?_
  refine space_then (by trivial) fun ramSpace => throwIf_then quiet_since fun _ => ?_
  refine getSpace_then hneg fun hopen fileSpace => ?_
  have hpulse : ("pulse_id", w₀.pulseDatasetId) ∈ w₀.datasets := mem_datasets.2 (.inr (.inl rfl))
  have hframe : ("frame_index", w₀.frameDatasetId) ∈ w₀.datasets := mem_datasets.2 (.inr (.inr (.inl rfl)))
  have hdaqRec : ("daq_rec", w₀.daqRecDatasetId) ∈ w₀.datasets := mem_datasets.2 (.inr (.inr (.inr (.inl rfl))))
  have hisGood : ("is_good_frame", w₀.isGoodDatasetId) ∈ w₀.datasets :=
    mem_datasets.2 (.inr (.inr (.inr (.inr rfl))))
  refine space_then (by trivial) fun _ => throwIf_then quiet_since fun _ => ?_
  refine write_then hneg hpulse (write_then hneg hframe (write_then hneg hdaqRec (write_then hneg hisGood ?_)))
  refine space_then (by trivial) fun _ => ?_
  refine space_then (by trivial) fun _ => ?_
  exact .pure fun s h => ⟨hrun, ⟨_, hpulse, hopen⟩, h⟩

end

end

end JFH5Writer

/-! ## Sequences of calls of the writer -/

inductive Operation
  | openRun (runId : Int64) (nImages imageYSize imageXSize bitsPerPixel : UInt32)
  | closeRun
  | writeData (runId : Int64) (index : UInt32) (data : Source)
  | writeMeta (runId : Int64) (index : UInt32) (image : ImageMetadata)

namespace Operation

def action (h5 : Hdf5 σ) : Operation → Action Fault (Session σ) Unit
  | openRun runId nImages imageYSize imageXSize bitsPerPixel =>
    JFH5Writer.openRun h5 runId nImages imageYSize imageXSize bitsPerPixel
  | closeRun => JFH5Writer.closeRun h5
  | writeData runId index data => JFH5Writer.writeData h5 runId index data
  | writeMeta runId index image => JFH5Writer.writeMeta h5 runId index image

/-- The run_id that a write is called with. -/
def writes : Operation → Option Int64
  | writeData runId _ _ | writeMeta runId _ _ => some runId
  | _ => none

end Operation

/-- A writer in use: the library has the record of its calls since the latest `open_run` began. -/
structure RunState (σ : Type) where
  session : Session (σ × List (Call × Int))
  /-- The run_id of the latest `open_run`. -/
  latest : Option Int64

namespace RunState

def writer (st : RunState σ) : JFH5Writer := st.session.writer

def calls (st : RunState σ) : List (Call × Int) := st.session.library.2

/-- An `open_run` begins its own record of calls. -/
def begin (st : RunState σ) : Operation → RunState σ
  | .openRun runId _ _ _ _ => ⟨{ st.session with library := (st.session.library.1, []) }, some runId⟩
  | _ => st

/-- An operation; the caller goes on also when it throws. -/
def perform (h5 : Hdf5 σ) (st : RunState σ) (op : Operation) : Except Fault Unit × RunState σ :=
  let result := (op.action h5.logged).run (st.begin op).session
  (result.1, { st.begin op with session := result.2 })

def Init (rootFolder detectorName : String) (st : RunState σ) : Prop :=
  ∃ library, st = ⟨⟨.new rootFolder detectorName, (library, [])⟩, none⟩

abbrev Reachable (h5 : Hdf5 σ) (rootFolder detectorName : String) (st : RunState σ) : Prop :=
  Runs.Reachable (Init rootFolder detectorName) (fun op st => some (st.perform h5 op).2) st

/-- The dataset is in the file that the latest `open_run` created, with the run_id of that run. -/
def InLatest (rootFolder detectorName : String) (st : RunState σ) (runId : Int64) (name : String)
    (dataset : Int) : Prop :=
  st.latest = some runId ∧
    DatasetOf st.calls (RunFile.outputFile ⟨rootFolder, detectorName, runId⟩) detectorName name dataset

/-- The writer keeps its folders, and has datasets only of an open file, that of the latest run. -/
structure Invariant (rootFolder detectorName : String) (st : RunState σ) : Prop where
  root : st.writer.rootFolder = rootFolder
  detector : st.writer.detectorName = detectorName
  closed : st.writer.fileId < 0 → st.writer.NoDatasets
  owned : ∀ p ∈ st.writer.datasets, 0 ≤ p.2 →
    InLatest rootFolder detectorName st st.writer.currentRunId p.1 p.2

section

variable {h5 : Hdf5 σ} {rootFolder detectorName : String} {st : RunState σ}

theorem Init.invariant (h : Init rootFolder detectorName st) : Invariant rootFolder detectorName st := by
  obtain ⟨library, rfl⟩ := h
  have hnone : JFH5Writer.NoDatasets (.new rootFolder detectorName) := by
    simp [JFH5Writer.NoDatasets, JFH5Writer.datasets, JFH5Writer.new]
  exact ⟨rfl, rfl, fun _ => hnone, fun p hp hpos => absurd (hnone p hp) (Int.not_lt.2 hpos)⟩

/-- Calls that close nothing keep the invariant, if the writer is as it was. -/
theorem Invariant.since (h : Invariant rootFolder detectorName st) {s : Session (σ × List (Call × Int))}
    (hs : JFH5Writer.Holds (JFH5Writer.Since st.writer st.calls Call.Quiet) s) :
    Invariant rootFolder detectorName ⟨s, st.latest⟩ := by
  obtain ⟨hw, made, hcalls, hquiet⟩ := hs
  have hw' : RunState.writer ⟨s, st.latest⟩ = st.writer := hw
  refine ⟨hw' ▸ h.root, hw' ▸ h.detector, hw' ▸ h.closed, fun p hp hpos => ?_⟩
  rw [hw'] at hp ⊢
  obtain ⟨hlatest, howned⟩ := h.owned p hp hpos
  exact ⟨hlatest, by unfold calls; rw [hcalls]; exact howned.appendQuiet hquiet⟩

theorem Invariant.openRun (h : Invariant rootFolder detectorName st) (runId : Int64)
    (nImages imageYSize imageXSize bitsPerPixel : UInt32) :
    Invariant rootFolder detectorName
      (st.perform h5 (.openRun runId nImages imageYSize imageXSize bitsPerPixel)).2 := by
  have hisolated := JFH5Writer.openRun_isolated h5 runId nImages imageYSize imageXSize bitsPerPixel
    (s := ⟨st.writer, st.session.library.1, []⟩) h.closed
  simp only [h.root, h.detector] at hisolated
  obtain ⟨hrun, hclosed, howned⟩ := hisolated
  have hid : (st.perform h5 (.openRun runId nImages imageYSize imageXSize bitsPerPixel)).2.writer.currentRunId = runId :=
    congrArg RunFile.runId hrun
  refine ⟨congrArg RunFile.rootFolder hrun, congrArg RunFile.detectorName hrun, hclosed, fun p hp hpos => ?_⟩
  rw [hid]
  exact ⟨rfl, howned p hp hpos⟩

theorem Invariant.closeRun (h : Invariant rootFolder detectorName st) :
    Invariant rootFolder detectorName (st.perform h5 .closeRun).2 := by
  obtain ⟨w, library, hrun, hroot, hdetector, hnone, hfile⟩ := JFH5Writer.closeRun_writer h5.logged h.closed
  have hw : (st.perform h5 .closeRun).2.writer = w := congrArg (fun result => result.2.writer) hrun
  refine ⟨?_, ?_, fun _ => ?_, fun p hp hpos => ?_⟩
  · rw [hw, hroot]
    exact h.root
  · rw [hw, hdetector]
    exact h.detector
  · rw [hw]
    exact hnone
  · rw [hw] at hp
    exact absurd (hnone p hp) (Int.not_lt.2 hpos)

/-- What a write does, whether it returns or throws. -/
theorem write_triple (hneg : RejectsNegative h5) {op : Operation} {runId : Int64} (hop : op.writes = some runId)
    (w : JFH5Writer) (calls : List (Call × Int)) :
    Triple (fun s => s.writer = w ∧ s.library.2 = calls) (op.action h5.logged)
      (fun _ => JFH5Writer.Wrote runId w calls) (JFH5Writer.Holds (JFH5Writer.Since w calls Call.Quiet)) := by
  cases op with
  | openRun _ _ _ _ _ => cases hop
  | closeRun => cases hop
  | writeData _ index data =>
    cases hop
    exact JFH5Writer.writeData_triple hneg runId index data
  | writeMeta _ index image =>
    cases hop
    exact JFH5Writer.writeMeta_triple hneg runId index image

theorem begin_write {op : Operation} {runId : Int64} (hop : op.writes = some runId) : st.begin op = st := by
  cases op with
  | openRun _ _ _ _ _ => cases hop
  | closeRun => cases hop
  | writeData _ _ _ => rfl
  | writeMeta _ _ _ => rfl

theorem Invariant.write (hneg : RejectsNegative h5) (h : Invariant rootFolder detectorName st) {op : Operation}
    {runId : Int64} (hop : op.writes = some runId) : Invariant rootFolder detectorName (st.perform h5 op).2 := by
  have htriple := write_triple hneg hop st.writer st.calls
  unfold perform
  rw [begin_write hop]
  exact h.since ((htriple.imp fun _ s hwrote => JFH5Writer.quiet_since s hwrote.2.2).keeps ⟨rfl, rfl⟩)

theorem Reachable.invariant (hneg : RejectsNegative h5) (hr : Reachable h5 rootFolder detectorName st) :
    Invariant rootFolder detectorName st := by
  refine Runs.Reachable.invariant (fun _ h => h.invariant) (fun st op st' h hstep => ?_) hr
  cases hstep
  cases op with
  | openRun runId nImages imageYSize imageXSize bitsPerPixel => exact h.openRun ..
  | closeRun => exact h.closeRun
  | writeData _ _ _ => exact h.write hneg rfl
  | writeMeta _ _ _ => exact h.write hneg rfl

/-- A write that returns has written to datasets of the latest run, which is the run it is called for. -/
theorem Invariant.wrote (hneg : RejectsNegative h5) (h : Invariant rootFolder detectorName st) {op : Operation}
    {runId : Int64} (hop : op.writes = some runId) (hok : (st.perform h5 op).1 = .ok ()) :
    st.latest = some runId ∧ ∃ made, (st.perform h5 op).2.calls = st.calls ++ made ∧
      ∀ dataset type ramSpace fileSpace source r, (.dWrite dataset type ramSpace fileSpace source, r) ∈ made →
        0 ≤ dataset ∧ ∃ name, InLatest rootFolder detectorName st runId name dataset := by
  have htriple := write_triple hneg hop st.writer st.calls
  unfold perform at hok ⊢
  rw [begin_write hop] at hok ⊢
  obtain ⟨hid, ⟨p, hp, hpos⟩, -, made, hcalls, hmade⟩ := htriple.ok ⟨rfl, rfl⟩ (Prod.ext hok rfl)
  refine ⟨hid ▸ (h.owned p hp hpos).1, made, hcalls, fun dataset type ramSpace fileSpace source r hmem => ?_⟩
  obtain ⟨hdataset, name, hname⟩ := (hmade _ hmem).2 dataset type ramSpace fileSpace source rfl
  exact ⟨hdataset, name, hid ▸ h.owned (name, dataset) hname hdataset⟩

end

/-- Runs are isolated: the datasets of the writer are in the file of the latest `open_run` and its
run is the current one, and a write that returns was for that run and wrote to that file only. -/
theorem runs_isolated {h5 : Hdf5 σ} (hneg : RejectsNegative h5) {rootFolder detectorName : String} {st : RunState σ}
    (hr : Reachable h5 rootFolder detectorName st) :
    (∀ p ∈ st.writer.datasets, 0 ≤ p.2 → InLatest rootFolder detectorName st st.writer.currentRunId p.1 p.2) ∧
    ∀ op runId, op.writes = some runId → (st.perform h5 op).1 = .ok () →
      st.latest = some runId ∧ ∃ made, (st.perform h5 op).2.calls = st.calls ++ made ∧
        ∀ dataset type ramSpace fileSpace source r, (.dWrite dataset type ramSpace fileSpace source, r) ∈ made →
          0 ≤ dataset ∧ ∃ name, InLatest rootFolder detectorName st runId name dataset := by
  have h := hr.invariant hneg
  exact ⟨h.owned, fun op runId hop hok => h.wrote hneg hop hok⟩

/-- A library that numbers its results, and fails where it is given a dataset that is negative. -/
def numbered : Hdf5 Int := fun c next =>
  match c with
  | .dGetSpace dataset | .dWrite dataset _ _ _ _ => if dataset < 0 then (-1, next) else (next, next + 1)
  | _ => (next, next + 1)

theorem numbered_rejectsNegative : RejectsNegative numbered where
  dGetSpace h s := by simp [numbered, h]
  dWrite h _ _ _ _ s := by simp [numbered, h]

/-- Run 7 is opened, and then run 8 without closing it. -/
def reopened : RunState Int :=
  let opened := (perform numbered ⟨⟨.new "/sf" "JF01", (1, [])⟩, none⟩ (.openRun 7 10 512 1024 16)).2
  (opened.perform numbered (.openRun 8 10 512 1024 16)).2

theorem runs_isolated_reopened : (reopened.perform numbered (.writeData 8 3 (.image 0))).1 = .ok () ∧
    0 ≤ reopened.writer.imageDatasetId ∧
    InLatest "/sf" "JF01" reopened 8 "data" reopened.writer.imageDatasetId ∧
    ∃ made, (reopened.perform numbered (.writeData 8 3 (.image 0))).2.calls = reopened.calls ++ made ∧
      ∀ dataset type ramSpace fileSpace source r, (.dWrite dataset type ramSpace fileSpace source, r) ∈ made →
        0 ≤ dataset ∧ ∃ name, InLatest "/sf" "JF01" reopened 8 name dataset := by
  have hok : (reopened.perform numbered (.writeData 8 3 (.image 0))).1 = .ok () := rfl
  have hpos : 0 ≤ reopened.writer.imageDatasetId := by decide
  have hid : reopened.writer.currentRunId = 8 := rfl
  obtain ⟨howned, hwrites⟩ := runs_isolated numbered_rejectsNegative (((Runs.Reachable.init ⟨1, rfl⟩).step rfl).step rfl :
    Reachable numbered "/sf" "JF01" reopened)
  refine ⟨hok, hpos, ?_, (hwrites (.writeData 8 3 (.image 0)) 8 rfl hok).2⟩
  rw [← hid]
  exact howned ("data", reopened.writer.imageDatasetId) (JFH5Writer.mem_datasets.2 (.inl rfl)) hpos

end RunState

end SfDaqBuffer.LiveWriter
