/-
The file state of `BufferBinaryWriter` over a run of `write` calls whose exceptions the caller
catches, and the destructor. The descriptor is set as soon as a file is open, its name after the end
of the file is marked: a failure in between leaves an open file without a name, and LATEST loses its
contents when that file is closed.
-/
import SfDaqBuffer.BufferWriter.Reports

namespace SfDaqBuffer.BufferWriter

open Posix CoreBuffer BufferUtils

namespace BufferBinaryWriter

variable {σ : Type}

/-! ## Runs -/

/-- A call of `write` whose exception is caught. -/
def attempt (os : Os σ) (state : BufferBinaryWriter × σ) (op : UInt64 × BufferBinaryFormat) : BufferBinaryWriter × σ :=
  (state.1.write os op.1 op.2 state.2).2

/-- Calls of `write`, one after the other. -/
def attempts (os : Os σ) (state : BufferBinaryWriter × σ) (ops : List (UInt64 × BufferBinaryFormat)) :
    BufferBinaryWriter × σ :=
  ops.foldl (attempt os) state

/-- The destructor. -/
def destroy (os : Os σ) (state : BufferBinaryWriter × σ) : BufferBinaryWriter × σ :=
  (state.1.closeCurrentFile os state.2).2

/-! ## Consistent states -/

/-- `output_file_fd_` is `-1` exactly when `current_output_filename_` is empty. -/
def Consistent (w : BufferBinaryWriter) : Prop := w.outputFileFd = -1 ↔ w.currentOutputFilename = ""

/-- The last file that was opened is `name`, as `fd`; no close has succeeded since. -/
def LastOpened (log : List Event) (name : String) (fd : Int) : Prop :=
  ∃ earlier later, log = earlier ++ .opened name fd :: later ∧
    (∀ name' fd', .opened name' fd' ∉ later) ∧ ∀ fd' result, .closed fd' result ∈ later → result < 0

/-- The last call closed the file `name`. -/
def JustClosed (log : List Event) (name : String) : Prop :=
  ∃ earlier fd result, log = earlier ++ [.closed fd result] ∧ 0 ≤ fd ∧ 0 ≤ result ∧ LastOpened earlier name fd

/-- Every update of LATEST gets the name of the file that was just closed. -/
def LatestNamed (log : List Event) : Prop :=
  ∀ before line file, before ++ [.ran (.echo line file)] <+: log → line ≠ "" ∧ JustClosed before line

/-- The file is opened, but its end is not marked. -/
def MarkFails (os : Os σ) (filename : String) (s : σ) : Prop :=
  let (fd, s) := os.openFile filename true (createDestinationFolder os filename s)
  0 ≤ fd ∧ ((os.lseek fd maxFileBytes s).1 < 0 ∨
    (os.write fd (fun _ : Fin 1 => 255) (os.lseek fd maxFileBytes s).2).1 ≠ 1)

/-- A `write` that needs another file, closes the one it has, and fails to mark the end of the file
it opens. -/
def LeavesUnnamed (os : Os σ) (w : BufferBinaryWriter) (pulseId : UInt64) (s : σ) : Prop :=
  w.filename pulseId ≠ w.currentOutputFilename ∧
    ∃ s₁, w.released os s = .ok s₁ ∧ MarkFails os (w.filename pulseId) s₁

/-! ## The log -/

section

variable {log : List Event} {name : String} {fd : Int} {e : Event}

theorem LatestNamed.append (h : LatestNamed log) (he : ∀ line file, e ≠ .ran (.echo line file)) :
    LatestNamed (log ++ [e]) := by
  rintro before line file hpre
  rcases List.prefix_concat_iff.1 hpre with heq | hpre
  · obtain ⟨-, hlast⟩ := List.append_inj' heq rfl
    exact absurd (List.singleton_inj.1 hlast).symm (he line file)
  · exact h before line file hpre

theorem LatestNamed.echo (h : LatestNamed log) (hname : name ≠ "") (hclosed : JustClosed log name) (file : String) :
    LatestNamed (log ++ [.ran (.echo name file)]) := by
  rintro before line file' hpre
  rcases List.prefix_concat_iff.1 hpre with heq | hpre
  · obtain ⟨rfl, hlast⟩ := List.append_inj' heq rfl
    injection List.singleton_inj.1 hlast with hcommand
    injection hcommand with hline _
    subst hline
    exact ⟨hname, hclosed⟩
  · exact h before line file' hpre

theorem lastOpened_opened (log : List Event) (name : String) (fd : Int) :
    LastOpened (log ++ [.opened name fd]) name fd :=
  ⟨log, [], rfl, fun _ _ => List.not_mem_nil, fun _ _ h => nomatch h⟩

theorem LastOpened.append (h : LastOpened log name fd) (hopened : ∀ name' fd', e ≠ .opened name' fd')
    (hclosed : ∀ fd' result, e = .closed fd' result → result < 0) : LastOpened (log ++ [e]) name fd := by
  obtain ⟨earlier, later, rfl, hno, hfailed⟩ := h
  refine ⟨earlier, later ++ [e], by simp, ?_, ?_⟩
  · rintro name' fd' hmem
    rcases List.mem_append.1 hmem with hmem | hmem
    · exact hno name' fd' hmem
    · exact hopened name' fd' (List.mem_singleton.1 hmem).symm
  · rintro fd' result hmem
    rcases List.mem_append.1 hmem with hmem | hmem
    · exact hfailed fd' result hmem
    · exact hclosed fd' result (List.mem_singleton.1 hmem).symm

end

/-! ## One call -/

/-- The writer has no file, or the one that was opened last, under its name. -/
structure FileInv (w : BufferBinaryWriter) (log : List Event) : Prop where
  file : (w.outputFileFd = -1 ∧ w.currentOutputFilename = "") ∨
    (0 ≤ w.outputFileFd ∧ w.currentOutputFilename ≠ "" ∧ LastOpened log w.currentOutputFilename w.outputFileFd)
  latest : LatestNamed log

theorem FileInv.consistent {w : BufferBinaryWriter} {log : List Event} (h : FileInv w log) : w.Consistent := by
  unfold Consistent
  rcases h.file with ⟨hfd, hname⟩ | ⟨hfd, hname, -⟩
  · exact iff_of_true hfd hname
  · exact iff_of_false (by omega) hname

/-- Other calls leave the files alone. -/
theorem FileInv.append {w : BufferBinaryWriter} {log : List Event} (h : FileInv w log) {e : Event}
    (hopened : ∀ name fd, e ≠ .opened name fd) (hclosed : ∀ fd result, e = .closed fd result → result < 0)
    (hecho : ∀ line file, e ≠ .ran (.echo line file)) : FileInv w (log ++ [e]) :=
  ⟨h.file.imp_right fun ⟨hfd, hname, hlast⟩ => ⟨hfd, hname, hlast.append hopened hclosed⟩, h.latest.append hecho⟩

section

variable {os : Os σ} {w : BufferBinaryWriter} {s : σ} {log : List Event}

theorem createDestinationFolder_latest (filename : String) (hlatest : LatestNamed log) :
    LatestNamed (createDestinationFolder os.logged filename (s, log)).2 := by
  unfold createDestinationFolder
  split
  · exact hlatest
  · exact hlatest.append fun _ _ => nofun

theorem closeCurrentFile_inv (h : FileInv w log) :
    let out := w.closeCurrentFile os.logged (s, log)
    FileInv out.2.1 out.2.2.2 ∧
      (out.1 = .ok () → out.2.1.outputFileFd = -1 ∧ out.2.1.currentOutputFilename = "") := by
  intro out
  rcases h.file with ⟨hfd, hname⟩ | ⟨hfd, hname, hlast⟩
  · have hout : out = (.ok (), w, s, log) := if_neg (not_not.2 hfd)
    rw [hout]
    exact ⟨h, fun _ => ⟨hfd, hname⟩⟩
  · have hopen : w.outputFileFd ≠ -1 := by omega
    rcases hclose : os.closeFile w.outputFileFd s with ⟨result, s₁⟩
    have hlogged := Os.logged_closeFile hclose log
    by_cases hresult : result < 0
    · have hout : ∃ e, out = (.error e, w, s₁, log ++ [.closed w.outputFileFd result]) := by
        show ∃ e, w.closeCurrentFile os.logged (s, log) = _
        unfold closeCurrentFile
        simp only [if_pos hopen, hlogged, if_pos hresult]
        exact ⟨_, rfl⟩
      obtain ⟨e, hout⟩ := hout
      rw [hout]
      refine ⟨h.append (fun _ _ => nofun) (fun _ _ heq => ?_) fun _ _ => nofun, nofun⟩
      injection heq with _ hr
      rwa [← hr]
    · have hout : out = (.ok (), { w with outputFileFd := -1, currentOutputFilename := "" }, os.system
          (.echo w.currentOutputFilename w.latestFilename) s₁, log ++ [.closed w.outputFileFd result] ++
            [.ran (.echo w.currentOutputFilename w.latestFilename)]) := by
        show w.closeCurrentFile os.logged (s, log) = _
        unfold closeCurrentFile
        simp only [if_pos hopen, hlogged, if_neg hresult]
        rfl
      rw [hout]
      have hclosed : JustClosed (log ++ [.closed w.outputFileFd result]) w.currentOutputFilename :=
        ⟨log, w.outputFileFd, result, rfl, hfd, Int.not_lt.1 hresult, hlast⟩
      have hlatest : LatestNamed (log ++ [.closed w.outputFileFd result]) := h.latest.append fun _ _ => nofun
      exact ⟨⟨.inl ⟨rfl, rfl⟩, hlatest.echo hname hclosed _⟩, fun _ => ⟨rfl, rfl⟩⟩

/-- What `open_file` does after the file is closed: the file cannot be opened, or its end cannot be
marked, and then the descriptor is set without the name, or both are set. -/
theorem openFile_cases {filename : String} {w₁ : BufferBinaryWriter} {s s₁ s₂ s₃ s₄ : σ} {fd sought written : Int}
    (hclose : w.closeCurrentFile os s = (.ok (), w₁, s₁))
    (hfd : os.openFile filename true (createDestinationFolder os filename s₁) = (fd, s₂))
    (hlseek : os.lseek fd maxFileBytes s₂ = (sought, s₃))
    (hwrite : os.write fd (fun _ : Fin 1 => 255) s₃ = (written, s₄)) :
    (fd < 0 ∧ ∃ e, w.openFile os filename s = (.error e, { w₁ with outputFileFd := fd }, s₂)) ∨
    ((0 ≤ fd ∧ (sought < 0 ∨ written ≠ 1)) ∧
      ∃ e s', w.openFile os filename s = (.error e, { w₁ with outputFileFd := fd }, s')) ∨
    ((0 ≤ fd ∧ 0 ≤ sought ∧ written = 1) ∧
      w.openFile os filename s = (.ok (), { w₁ with outputFileFd := fd, currentOutputFilename := filename }, s₄)) := by
  have hsize : toSizeT written = 1 ↔ written = 1 := mark_written os hwrite
  unfold openFile
  rw [hclose]
  simp only [hfd, hlseek, hwrite]
  by_cases hneg : fd < 0
  · rw [if_pos hneg]
    exact .inl ⟨hneg, _, rfl⟩
  rw [if_neg hneg]
  have hpos : 0 ≤ fd := Int.not_lt.1 hneg
  by_cases hsought : sought < 0
  · rw [if_pos hsought]
    exact .inr (.inl ⟨⟨hpos, .inl hsought⟩, _, _, rfl⟩)
  rw [if_neg hsought]
  by_cases hwritten : written = 1
  · rw [if_neg (not_not.2 (hsize.2 hwritten))]
    exact .inr (.inr ⟨⟨hpos, Int.not_lt.1 hsought, hwritten⟩, rfl⟩)
  · rw [if_pos fun h => hwritten (hsize.1 h)]
    exact .inr (.inl ⟨⟨hpos, .inr hwritten⟩, _, _, rfl⟩)

/-- After the file is closed, opening one gives a writer that has it under its name, or has no file;
if its end is not marked, the writer has it without a name. -/
theorem openFile_inv (hopen : ∀ name create s, -1 ≤ (os.openFile name create s).1) {filename : String}
    (hfilename : filename ≠ "") {w₁ : BufferBinaryWriter} {s₁ : σ × List Event}
    (hclose : w.closeCurrentFile os.logged (s, log) = (.ok (), w₁, s₁)) (hname : w₁.currentOutputFilename = "")
    (hlatest : LatestNamed s₁.2) :
    let out := w.openFile os.logged filename (s, log)
    (MarkFails os.logged filename s₁ →
      ∃ e, out.1 = .error e ∧ 0 ≤ out.2.1.outputFileFd ∧ out.2.1.currentOutputFilename = "") ∧
      (¬ MarkFails os.logged filename s₁ → FileInv out.2.1 out.2.2.2) := by
  intro out
  have hfolder : LatestNamed (createDestinationFolder os.logged filename s₁).2 :=
    createDestinationFolder_latest filename hlatest
  rcases hs₂ : createDestinationFolder os.logged filename s₁ with ⟨s₂, log₂⟩
  rw [hs₂] at hfolder
  rcases hfd : os.openFile filename true s₂ with ⟨fd, s₃⟩
  have hrange := hopen filename true s₂
  rw [hfd] at hrange
  rcases hlseek : os.lseek fd maxFileBytes s₃ with ⟨sought, s₄⟩
  rcases hwrite : os.write fd (fun _ : Fin 1 => 255) s₄ with ⟨written, s₅⟩
  have hfd' := Os.logged_openFile hfd log₂
  have hlseek' := Os.logged_lseek hlseek (log₂ ++ [.opened filename fd])
  have hwrite' := Os.logged_write hwrite (log₂ ++ [.opened filename fd] ++ [.sought fd maxFileBytes sought])
  have hmark : MarkFails os.logged filename s₁ ↔ 0 ≤ fd ∧ (sought < 0 ∨ written ≠ 1) := by
    unfold MarkFails
    rw [hs₂]
    simp only [hfd', hlseek', hwrite']
  have hopened : LatestNamed (log₂ ++ [.opened filename fd]) := hfolder.append fun _ _ => nofun
  have hout : out = w.openFile os.logged filename (s, log) := rfl
  rw [← hs₂] at hfd'
  rw [hmark]
  rcases openFile_cases hclose hfd' hlseek' hwrite' with ⟨hneg, e, heq⟩ | ⟨hfails, e, s', heq⟩ |
    ⟨⟨hpos, hsought, hwritten⟩, heq⟩
  · -- what `open` returns is a descriptor or `-1`
    have hnone : fd = -1 := by
      simp only at hrange
      omega
    rw [hout, heq]
    exact ⟨fun h => absurd h.1 (Int.not_le.2 hneg), fun _ => ⟨.inl ⟨hnone, hname⟩, hopened⟩⟩
  · rw [hout, heq]
    exact ⟨fun _ => ⟨e, rfl, hfails.1, hname⟩, fun h => absurd hfails h⟩
  · have hfile : FileInv { w₁ with outputFileFd := fd, currentOutputFilename := filename }
        (log₂ ++ [.opened filename fd]) := ⟨.inr ⟨hpos, hfilename, lastOpened_opened ..⟩, hopened⟩
    have hsoughtLog := hfile.append (e := .sought fd maxFileBytes sought) (fun _ _ => nofun) (fun _ _ => nofun)
      fun _ _ => nofun
    rw [hout, heq]
    constructor
    · rintro ⟨-, h | h⟩
      · exact absurd hsought (Int.not_le.2 h)
      · exact absurd hwritten h
    · exact fun _ => hsoughtLog.append (fun _ _ => nofun) (fun _ _ => nofun) fun _ _ => nofun

theorem writeRecord_inv (pulseId : UInt64) (buffer : BufferBinaryFormat) (h : FileInv w log) :
    let out := w.writeRecord os.logged pulseId buffer (s, log)
    FileInv out.2.1 out.2.2.2 := by
  intro out
  rcases hlseek : os.lseek w.outputFileFd (recordOffset pulseId) s with ⟨sought, s₁⟩
  rcases hwrite : os.write w.outputFileFd buffer.toBytes s₁ with ⟨nBytes, s₂⟩
  have hsought : FileInv w (log ++ [.sought w.outputFileFd (recordOffset pulseId) sought]) :=
    h.append (fun _ _ => nofun) (fun _ _ => nofun) fun _ _ => nofun
  have hout : out = w.writeRecord os.logged pulseId buffer (s, log) := rfl
  unfold writeRecord at hout
  simp only [Os.logged_lseek hlseek, Os.logged_write hwrite] at hout
  by_cases hneg : sought < 0
  · rw [if_pos hneg] at hout
    rw [hout]
    exact hsought
  · rw [if_neg hneg] at hout
    have hwrote : FileInv w (log ++ [.sought w.outputFileFd (recordOffset pulseId) sought] ++
        [.wrote w.outputFileFd buffer.toBytes nBytes]) :=
      hsought.append (fun _ _ => nofun) (fun _ _ => nofun) fun _ _ => nofun
    split at hout
    · rw [hout]
      exact hwrote
    · rw [hout]
      exact hwrote

/-- What `closeCurrentFile` returns is what the calls on its file returned. -/
theorem released_of_ok {w₁ : BufferBinaryWriter} {s s₁ : σ} (hclose : w.closeCurrentFile os s = (.ok (), w₁, s₁)) :
    w.released os s = .ok s₁ := by
  have heq := w.closeCurrentFile_eq os s
  cases hreleased : w.released os s with
  | error s' =>
    rw [hreleased] at heq
    obtain ⟨e, w', heq⟩ := heq
    rw [heq] at hclose
    cases hclose
  | ok s' =>
    rw [hreleased] at heq
    obtain ⟨current, heq⟩ := heq
    rw [heq] at hclose
    cases hclose
    rfl

theorem not_released_of_error {e : String} {w₁ : BufferBinaryWriter} {s s₁ : σ}
    (hclose : w.closeCurrentFile os s = (.error e, w₁, s₁)) (s₂ : σ) : w.released os s ≠ .ok s₂ := by
  intro hreleased
  have heq := w.closeCurrentFile_eq os s
  rw [hreleased] at heq
  obtain ⟨current, heq⟩ := heq
  rw [heq] at hclose
  cases hclose

/-- After the file was closed, a `write` leaves a file without a name if marking the new one fails. -/
theorem leavesUnnamed_iff {pulseId : UInt64} {w₁ : BufferBinaryWriter} {s s₁ : σ}
    (hother : w.filename pulseId ≠ w.currentOutputFilename) (hclose : w.closeCurrentFile os s = (.ok (), w₁, s₁)) :
    LeavesUnnamed os w pulseId s ↔ MarkFails os (w.filename pulseId) s₁ := by
  constructor
  · rintro ⟨-, s₂, hreleased, hmark⟩
    rw [released_of_ok hclose] at hreleased
    cases hreleased
    exact hmark
  · intro hmark
    exact ⟨hother, s₁, released_of_ok hclose, hmark⟩

/-- A `write` keeps the file state, unless it leaves a file without a name. -/
theorem write_inv (hopen : ∀ name create s, -1 ≤ (os.openFile name create s).1) (pulseId : UInt64)
    (buffer : BufferBinaryFormat) (h : FileInv w log) :
    let out := w.write os.logged pulseId buffer (s, log)
    (LeavesUnnamed os.logged w pulseId (s, log) → 0 ≤ out.2.1.outputFileFd ∧ out.2.1.currentOutputFilename = "") ∧
      (¬ LeavesUnnamed os.logged w pulseId (s, log) → FileInv out.2.1 out.2.2.2) := by
  intro out
  have hout : out = w.write os.logged pulseId buffer (s, log) := rfl
  unfold write at hout
  by_cases hsame : w.filename pulseId = w.currentOutputFilename
  · rw [if_neg (not_not.2 hsame)] at hout
    rw [hout]
    exact ⟨fun hleaves => absurd hsame hleaves.1, fun _ => writeRecord_inv pulseId buffer h⟩
  rw [if_pos hsame] at hout
  have hclosed : FileInv (w.closeCurrentFile os.logged (s, log)).2.1 (w.closeCurrentFile os.logged (s, log)).2.2.2 ∧
      ((w.closeCurrentFile os.logged (s, log)).1 = .ok () → _) := closeCurrentFile_inv h
  rcases hclose : w.closeCurrentFile os.logged (s, log) with ⟨e | _, w₁, s₁⟩
  · rw [hclose] at hclosed
    have herror : w.openFile os.logged (w.filename pulseId) (s, log) = (.error e, w₁, s₁) := by
      unfold openFile
      rw [hclose]
    rw [herror] at hout
    rw [hout]
    refine ⟨?_, fun _ => hclosed.1⟩
    rintro ⟨-, s₂, hreleased, -⟩
    exact absurd hreleased (not_released_of_error hclose s₂)
  · rw [hclose] at hclosed
    have hname : w.filename pulseId ≠ "" := getFilename_ne_empty _ _ _
    obtain ⟨hfails, hkeeps⟩ := openFile_inv hopen hname hclose (hclosed.2 rfl).2 hclosed.1.latest
    rw [leavesUnnamed_iff hsame hclose]
    rcases hopened : w.openFile os.logged (w.filename pulseId) (s, log) with ⟨e | _, w₂, s₂⟩
    · rw [hopened] at hfails hkeeps hout
      rw [hout]
      exact ⟨fun hmark => (hfails hmark).choose_spec.2, hkeeps⟩
    · rw [hopened] at hfails hkeeps hout
      rw [hout]
      refine ⟨fun hmark => ?_, fun hmark => writeRecord_inv pulseId buffer (hkeeps hmark)⟩
      obtain ⟨e, herror, -⟩ := hfails hmark
      cases herror

end

/-! ## Runs from the constructor -/

theorem fileInv_new (detectorFolder moduleName : String) : FileInv (new detectorFolder moduleName) [] where
  file := .inl ⟨rfl, rfl⟩
  latest before line file hpre := by
    have hnil := List.prefix_nil.1 hpre
    simp at hnil

section

variable {os : Os σ} {detectorFolder moduleName : String} {s : σ}

theorem attempts_append (state : BufferBinaryWriter × σ) (ops : List (UInt64 × BufferBinaryFormat))
    (op : UInt64 × BufferBinaryFormat) : attempts os state (ops ++ [op]) = attempt os (attempts os state ops) op :=
  List.foldl_concat ..

/-- As long as no `write` leaves a file without a name, the file state is kept. -/
theorem attempts_inv (hopen : ∀ name create s, -1 ≤ (os.openFile name create s).1)
    {state : BufferBinaryWriter × σ × List Event} (h : FileInv state.1 state.2.2)
    (ops : List (UInt64 × BufferBinaryFormat)) (hleaves : ∀ done op, done ++ [op] <+: ops →
      ¬ LeavesUnnamed os.logged (attempts os.logged state done).1 op.1 (attempts os.logged state done).2) :
    FileInv (attempts os.logged state ops).1 (attempts os.logged state ops).2.2 := by
  induction ops using List.reverseRecOn with
  | nil => exact h
  | append_singleton ops op ih =>
    have hops := ih fun done op' hpre => hleaves done op' (hpre.trans (List.prefix_append ops [op]))
    rw [attempts_append]
    exact (write_inv hopen op.1 op.2 hops).2 (hleaves ops op (List.prefix_refl _))

theorem destroy_inv {state : BufferBinaryWriter × σ × List Event} (h : FileInv state.1 state.2.2) :
    FileInv (destroy os.logged state).1 (destroy os.logged state).2.2 :=
  (closeCurrentFile_inv h).1

/-- In a run of `write` calls from the constructor, and in the destructor after it, the descriptor is
`-1` exactly when the name is empty and LATEST gets the names of the files just closed, if and only if
no call fails between opening a file and the end of marking it. -/
theorem fileState_iff (hopen : ∀ name create s, -1 ≤ (os.openFile name create s).1)
    (ops : List (UInt64 × BufferBinaryFormat)) :
    let after := attempts os.logged (new detectorFolder moduleName, s, [])
    ((∀ done, done <+: ops → (after done).1.Consistent) ∧ (destroy os.logged (after ops)).1.Consistent ∧
      LatestNamed (destroy os.logged (after ops)).2.2) ↔
    ∀ done op, done ++ [op] <+: ops → ¬ LeavesUnnamed os.logged (after done).1 op.1 (after done).2 := by
  intro after
  have hnew : FileInv (new detectorFolder moduleName) [] := fileInv_new detectorFolder moduleName
  constructor
  · rintro ⟨hconsistent, -, -⟩
    have hearlier : ∀ ops', ops' <+: ops → ∀ done op, done ++ [op] <+: ops' →
        ¬ LeavesUnnamed os.logged (after done).1 op.1 (after done).2 := by
      intro ops'
      induction ops' using List.reverseRecOn with
      | nil =>
        intro _ done op hpre
        have hnil := List.prefix_nil.1 hpre
        simp at hnil
      | append_singleton ops' op' ih =>
        intro hops' done op hpre
        have hbefore := ih ((List.prefix_append ops' [op']).trans hops')
        rcases List.prefix_concat_iff.1 hpre with heq | hpre
        · obtain ⟨rfl, hop⟩ := List.append_inj' heq rfl
          obtain rfl := List.singleton_inj.1 hop
          intro hleaves
          -- the first such call leaves an open file without a name
          obtain ⟨hfd, hname⟩ := (write_inv hopen op.1 op.2 (attempts_inv hopen hnew done hbefore)).1 hleaves
          have hafter : (after (done ++ [op])).1.Consistent := hconsistent _ hops'
          have hattempt : after (done ++ [op]) = attempt os.logged (after done) op := attempts_append ..
          rw [hattempt] at hafter
          have hclosed : (attempt os.logged (after done) op).1.outputFileFd = -1 := hafter.2 hname
          have hopened : 0 ≤ (attempt os.logged (after done) op).1.outputFileFd := hfd
          omega
        · exact hbefore done op hpre
    exact hearlier ops (List.prefix_refl _)
  · intro hleaves
    have hinv : ∀ done, done <+: ops → FileInv (after done).1 (after done).2.2 := fun done hdone =>
      attempts_inv hopen hnew done fun d op hpre => hleaves d op (hpre.trans hdone)
    have hlast : FileInv (destroy os.logged (after ops)).1 (destroy os.logged (after ops)).2.2 :=
      destroy_inv (hinv ops (List.prefix_refl _))
    exact ⟨fun done hdone => (hinv done hdone).consistent, hlast.consistent, hlast.latest⟩

/-- Two files on a disk whose marks can be written. -/
theorem fileState_iff_two :
    let after := attempts fullDisk.logged (new "/buffer/JF01" "M00", (), [])
    (after [(5, .zero), (1500, .zero)]).1.Consistent ∧
      LatestNamed (destroy fullDisk.logged (after [(5, .zero), (1500, .zero)])).2.2 := by
  intro after
  have hopen : ∀ name create s, -1 ≤ (fullDisk.openFile name create s).1 := fun _ _ _ => by
    show (-1 : Int) ≤ 3
    decide
  have hmarked : ∀ filename s, ¬ MarkFails fullDisk.logged filename s := by
    rintro filename s ⟨-, h | h⟩
    · exact absurd h (by show ¬ (maxFileBytes : Int) < 0; omega)
    · exact h rfl
  have hleaves : ∀ done op, done ++ [op] <+: [(5, .zero), (1500, .zero)] →
      ¬ LeavesUnnamed fullDisk.logged (after done).1 op.1 (after done).2 := by
    rintro done op - ⟨-, s₁, -, hmark⟩
    exact hmarked _ _ hmark
  obtain ⟨hconsistent, -, hlatest⟩ := (fileState_iff hopen [(5, .zero), (1500, .zero)]).2 hleaves
  exact ⟨hconsistent _ (List.prefix_refl _), hlatest⟩

theorem failed_range (n : Nat) : -1 ≤ (-1 : Int) ∧ (-1 : Int) ≤ n := by
  omega

/-- A system in which files are opened, but nothing can be written to them. -/
def noSpace : Os Unit :=
  { fullDisk with
    write := fun _ _ _ s => (-1, s)
    write_range := fun _ n _ _ => failed_range n }

theorem noSpace_attempt : ∃ log, attempts noSpace.logged (new "/buffer/JF01" "M00", (), []) [(5, .zero)] =
    ({ new "/buffer/JF01" "M00" with outputFileFd := 3 }, (), log) := by
  have hname : (new "/buffer/JF01" "M00").filename 5 ≠ (new "/buffer/JF01" "M00").currentOutputFilename :=
    getFilename_ne_empty _ _ _
  have hclose : (new "/buffer/JF01" "M00").closeCurrentFile noSpace.logged ((), []) =
      (.ok (), new "/buffer/JF01" "M00", (), []) := rfl
  rcases hfolder : createDestinationFolder noSpace.logged ((new "/buffer/JF01" "M00").filename 5) ((), []) with
    ⟨⟨⟩, log⟩
  refine ⟨log ++ [.opened ((new "/buffer/JF01" "M00").filename 5) 3] ++ [.sought 3 maxFileBytes maxFileBytes] ++
    [.wrote 3 (fun _ : Fin 1 => 255) (-1)], ?_⟩
  show ((new "/buffer/JF01" "M00").write noSpace.logged 5 .zero ((), [])).2 = _
  unfold write openFile
  rw [if_pos hname, hclose]
  simp only [hfolder]
  rfl

/-- Without space for the mark the file is open under no name, and closing it empties LATEST. -/
theorem latest_emptied :
    let after := attempts noSpace.logged (new "/buffer/JF01" "M00", (), []) [(5, .zero)]
    ¬ after.1.Consistent ∧ ¬ LatestNamed (destroy noSpace.logged after).2.2 ∧
      .ran (.echo "" "/buffer/JF01/M00/LATEST") ∈ (destroy noSpace.logged after).2.2 := by
  intro after
  obtain ⟨log, hlog⟩ := noSpace_attempt
  have hafter : after = ({ new "/buffer/JF01" "M00" with outputFileFd := 3 }, (), log) := hlog
  have hdestroy : (destroy noSpace.logged after).2.2 =
      log ++ [.closed 3 0] ++ [.ran (.echo "" (new "/buffer/JF01" "M00").latestFilename)] := by
    rw [hafter]
    rfl
  have hlatest : (new "/buffer/JF01" "M00").latestFilename = "/buffer/JF01/M00/LATEST" := by decide
  rw [hdestroy, hlatest]
  refine ⟨fun h => ?_, fun h => ?_, by simp⟩
  · rw [hafter] at h
    have hfd : (3 : Int) = -1 := h.2 rfl
    omega
  · exact (h _ _ _ (List.prefix_refl _)).1 rfl

end

end BufferBinaryWriter

end SfDaqBuffer.BufferWriter
