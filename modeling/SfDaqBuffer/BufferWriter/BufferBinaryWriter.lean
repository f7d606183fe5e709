/-
`BufferBinaryWriter` of jf-buffer-writer against any system, and its `write` in terms of the system
calls it makes: those that select the file of a pulse, and the one that writes the record.
-/
import SfDaqBuffer.CoreBuffer.BufferUtils

namespace SfDaqBuffer.BufferWriter

open Posix CoreBuffer BufferUtils

/-! ## The class -/

/-- `MAX_FILE_BYTES`. -/
def maxFileBytes : Nat := fileMod * sizeofBufferBinaryFormat

structure BufferBinaryWriter where
  detectorFolder : String
  moduleName : String
  latestFilename : String
  currentOutputFilename : String
  outputFileFd : Int

namespace BufferBinaryWriter

def new (detectorFolder moduleName : String) : BufferBinaryWriter :=
  ⟨detectorFolder, moduleName, detectorFolder ++ "/" ++ moduleName ++ "/LATEST", "", -1⟩

/-- The name of the file of a pulse. -/
def filename (w : BufferBinaryWriter) (pulseId : UInt64) : String :=
  getFilename w.detectorFolder w.moduleName pulseId

/-- The `n_bytes_offset` of a pulse; it is below `MAX_FILE_BYTES`, so the product does not wrap. -/
def recordOffset (pulseId : UInt64) : Nat := (getFileFrameIndex pulseId).toNat * sizeofBufferBinaryFormat

section

variable {σ : Type} (os : Os σ)

/-- The text of a `runtime_error`. -/
def failure (s : σ) (text : String) : String := "[" ++ os.now s ++ "]" ++ text ++ ": " ++ os.strerror s ++ "\n"

def closeCurrentFile (w : BufferBinaryWriter) (s : σ) : Except String Unit × BufferBinaryWriter × σ :=
  if w.outputFileFd ≠ -1 then
    let (result, s) := os.closeFile w.outputFileFd s
    if result < 0 then
      (.error (failure os s ("[BufferBinaryWriter::close_current_file] Error while closing file " ++
        w.currentOutputFilename)), w, s)
    else
      let s := updateLatestFile os w.latestFilename w.currentOutputFilename s
      (.ok (), { w with outputFileFd := -1, currentOutputFilename := "" }, s)
  else (.ok (), w, s)

def openFile (w : BufferBinaryWriter) (filename : String) (s : σ) : Except String Unit × BufferBinaryWriter × σ :=
  match w.closeCurrentFile os s with
  | (.error e, w, s) => (.error e, w, s)
  | (.ok (), w, s) =>
    let s := createDestinationFolder os filename s
    let (fd, s) := os.openFile filename true s
    let w := { w with outputFileFd := fd }
    if fd < 0 then
      (.error (failure os s ("[BinaryWriter::open_file] Cannot create file " ++ filename)), w, s)
    else
      let (sought, s) := os.lseek fd maxFileBytes s
      if sought < 0 then
        (.error (failure os s ("[BufferBinaryWriter::open_file] Error while lseek on end of file " ++
          w.currentOutputFilename ++ " for MAX_FILE_BYTES " ++ toString maxFileBytes)), w, s)
      else
        let (written, s) := os.write fd (fun _ : Fin 1 => 255) s
        if toSizeT written ≠ 1 then
          (.error (failure os s ("[BufferBinaryWriter::open_file] Error while writing to file " ++
            w.currentOutputFilename)), w, s)
        else (.ok (), { w with currentOutputFilename := filename }, s)

/-- What follows in `write` once the file of the pulse is open. -/
def writeRecord (w : BufferBinaryWriter) (pulseId : UInt64) (buffer : BufferBinaryFormat) (s : σ) :
    Except String Unit × BufferBinaryWriter × σ :=
  let (sought, s) := os.lseek w.outputFileFd (recordOffset pulseId) s
  if sought < 0 then
    (.error (failure os s ("[BufferBinaryWriter::write] Error while lseek on file " ++ w.currentOutputFilename ++
      " for n_bytes_offset " ++ toString (recordOffset pulseId))), w, s)
  else
    let (nBytes, s) := os.write w.outputFileFd buffer.toBytes s
    -- the comparison is one of `size_t`
    if toSizeT nBytes < sizeofBufferBinaryFormat then
      (.error (failure os s ("[BufferBinaryWriter::write] Error while writing to file " ++ w.currentOutputFilename)),
        w, s)
    else (.ok (), w, s)

def write (w : BufferBinaryWriter) (pulseId : UInt64) (buffer : BufferBinaryFormat) (s : σ) :
    Except String Unit × BufferBinaryWriter × σ :=
  let currentFrameFile := w.filename pulseId
  if currentFrameFile ≠ w.currentOutputFilename then
    match w.openFile os currentFrameFile s with
    | (.error e, w, s) => (.error e, w, s)
    | (.ok (), w, s) => w.writeRecord os pulseId buffer s
  else w.writeRecord os pulseId buffer s

end

section

variable {σ : Type}

/-! ## The calls in front of the record -/

variable (os : Os σ)

/-- The calls that leave no file open, up to the first that fails. -/
def released (w : BufferBinaryWriter) (s : σ) : Except σ σ :=
  if w.outputFileFd = -1 then .ok s
  else
    let (result, s) := os.closeFile w.outputFileFd s
    if result < 0 then .error s else .ok (updateLatestFile os w.latestFilename w.currentOutputFilename s)

/-- The calls that open a file and mark its end: the descriptor, or the first failure. -/
def preallocated (filename : String) (s : σ) : Except σ (Int × σ) :=
  let (fd, s) := os.openFile filename true (createDestinationFolder os filename s)
  if fd < 0 then .error s
  else
    let (sought, s) := os.lseek fd maxFileBytes s
    if sought < 0 then .error s
    else
      let (written, s) := os.write fd (fun _ : Fin 1 => 255) s
      if written = 1 then .ok (fd, s) else .error s

/-- The descriptor of the file of a pulse. -/
def selected (w : BufferBinaryWriter) (pulseId : UInt64) (s : σ) : Except σ (Int × σ) :=
  if w.filename pulseId = w.currentOutputFilename then .ok (w.outputFileFd, s)
  else
    match w.released os s with
    | .error s => .error s
    | .ok s => preallocated os (w.filename pulseId) s

/-- All calls of `write` in front of the one that writes the record. -/
def target (w : BufferBinaryWriter) (pulseId : UInt64) (s : σ) : Except σ (Int × σ) :=
  match w.selected os pulseId s with
  | .error s => .error s
  | .ok (fd, s) =>
    let (sought, s) := os.lseek fd (recordOffset pulseId) s
    if sought < 0 then .error s else .ok (fd, s)

/-- The call that writes the record is made and returns `-1`. -/
def LosesRecord (w : BufferBinaryWriter) (pulseId : UInt64) (buffer : BufferBinaryFormat) (s : σ) : Prop :=
  ∃ fd s', w.target os pulseId s = .ok (fd, s') ∧ (os.write fd buffer.toBytes s').1 = -1

theorem not_losesRecord {w : BufferBinaryWriter} {pulseId : UInt64} {s s' : σ}
    (htarget : w.target os pulseId s = .error s') (buffer : BufferBinaryFormat) : ¬ w.LosesRecord os pulseId buffer s := by
  rintro ⟨fd, s₁, hok, -⟩
  rw [htarget] at hok
  cases hok

theorem losesRecord_iff {w : BufferBinaryWriter} {pulseId : UInt64} {s s' : σ} {fd : Int}
    (htarget : w.target os pulseId s = .ok (fd, s')) (buffer : BufferBinaryFormat) :
    w.LosesRecord os pulseId buffer s ↔ (os.write fd buffer.toBytes s').1 = -1 := by
  unfold LosesRecord
  rw [htarget]
  constructor
  · rintro ⟨_, _, hok, hlost⟩
    obtain ⟨rfl, rfl⟩ := Prod.mk.inj (Except.ok.inj hok)
    exact hlost
  · intro hlost
    exact ⟨fd, s', rfl, hlost⟩

/-! ## What `write` does with them -/

theorem closeCurrentFile_eq (w : BufferBinaryWriter) (s : σ) :
    match w.released os s with
    | .error s' => ∃ e w', w.closeCurrentFile os s = (.error e, w', s')
    | .ok s' => ∃ current, w.closeCurrentFile os s =
        (.ok (), { w with outputFileFd := -1, currentOutputFilename := current }, s') := by
  unfold released closeCurrentFile
  by_cases hopen : w.outputFileFd = -1
  · simp only [hopen, if_true, ne_eq, not_true_eq_false, if_false]
    exact ⟨w.currentOutputFilename, by rw [← hopen]⟩
  · simp only [hopen, if_false, ne_eq, not_false_eq_true, if_true]
    by_cases hclose : (os.closeFile w.outputFileFd s).1 < 0
    · simp only [hclose, if_true]
      exact ⟨_, _, rfl⟩
    · simp only [hclose, if_false]
      exact ⟨_, rfl⟩

/-- The mark is written when the call returns 1. -/
theorem mark_written {fd written : Int} {s s' : σ}
    (h : os.write fd (fun _ : Fin 1 => 255) s = (written, s')) : toSizeT written = 1 ↔ written = 1 := by
  have hrange := os.write_range fd (fun _ : Fin 1 => 255) s
  rw [h] at hrange
  unfold toSizeT
  omega

theorem openFile_eq (w : BufferBinaryWriter) (filename : String) (s : σ) :
    match w.released os s with
    | .error s' => ∃ e w', w.openFile os filename s = (.error e, w', s')
    | .ok s₁ => match preallocated os filename s₁ with
      | .error s' => ∃ e w', w.openFile os filename s = (.error e, w', s')
      | .ok (fd, s') => w.openFile os filename s =
          (.ok (), { w with outputFileFd := fd, currentOutputFilename := filename }, s') := by
  have hclose := w.closeCurrentFile_eq os s
  unfold openFile
  cases hreleased : w.released os s with
  | error s' =>
    rw [hreleased] at hclose
    obtain ⟨e, w', hclose⟩ := hclose
    rw [hclose]
    exact ⟨_, _, rfl⟩
  | ok s₁ =>
    rw [hreleased] at hclose
    obtain ⟨current, hclose⟩ := hclose
    rw [hclose]
    rcases hopen : os.openFile filename true (createDestinationFolder os filename s₁) with ⟨fd, s₂⟩
    rcases hlseek : os.lseek fd maxFileBytes s₂ with ⟨sought, s₃⟩
    rcases hwrite : os.write fd (fun _ : Fin 1 => 255) s₃ with ⟨written, s₄⟩
    unfold preallocated
    simp only [hopen, hlseek, hwrite, ne_eq, mark_written os hwrite]
    by_cases hfd : fd < 0
    · simp only [hfd, if_true]
      exact ⟨_, _, rfl⟩
    by_cases hsought : sought < 0
    · simp only [hfd, hsought, if_true, if_false]
      exact ⟨_, _, rfl⟩
    by_cases hmark : written = 1
    · simp only [hfd, hsought, hmark, not_true_eq_false, if_true, if_false]
    · simp only [hfd, hsought, hmark, not_false_eq_true, if_true, if_false]
      exact ⟨_, _, rfl⟩

theorem writeRecord_eq (w : BufferBinaryWriter) (pulseId : UInt64) (buffer : BufferBinaryFormat) (s : σ) :
    ∃ e, w.writeRecord os pulseId buffer s =
      if (os.lseek w.outputFileFd (recordOffset pulseId) s).1 < 0 then
        (.error e, w, (os.lseek w.outputFileFd (recordOffset pulseId) s).2)
      else
        let (nBytes, s') := os.write w.outputFileFd buffer.toBytes (os.lseek w.outputFileFd (recordOffset pulseId) s).2
        (if toSizeT nBytes < sizeofBufferBinaryFormat then .error e else .ok (), w, s') := by
  rcases hlseek : os.lseek w.outputFileFd (recordOffset pulseId) s with ⟨sought, s₁⟩
  rcases hwrite : os.write w.outputFileFd buffer.toBytes s₁ with ⟨nBytes, s₂⟩
  unfold writeRecord
  simp only [hlseek, hwrite]
  by_cases hsought : sought < 0
  · simp only [hsought, if_true]
    exact ⟨_, rfl⟩
  · simp only [hsought, if_false]
    by_cases hn : toSizeT nBytes < sizeofBufferBinaryFormat
    · simp only [hn, if_true]
      exact ⟨_, rfl⟩
    · simp only [hn, if_false, exists_const]

/-- The writer with the file of a pulse open as `fd`. -/
def withFile (w : BufferBinaryWriter) (fd : Int) (pulseId : UInt64) : BufferBinaryWriter :=
  { w with outputFileFd := fd, currentOutputFilename := w.filename pulseId }

/-- `write` selects a file and writes the record to it. -/
theorem write_eq (w : BufferBinaryWriter) (pulseId : UInt64) (buffer : BufferBinaryFormat) (s : σ) :
    match w.selected os pulseId s with
    | .error s' => ∃ e w', w.write os pulseId buffer s = (.error e, w', s')
    | .ok (fd, s') => w.write os pulseId buffer s = (w.withFile fd pulseId).writeRecord os pulseId buffer s' := by
  unfold selected write
  by_cases hsame : w.filename pulseId = w.currentOutputFilename
  · simp only [hsame, if_true, ne_eq, not_true_eq_false, if_false]
    have hself : w.withFile w.outputFileFd pulseId = w := by
      unfold withFile
      rw [hsame]
    rw [hself]
  · simp only [hsame, if_false, ne_eq, not_false_eq_true, if_true]
    have hopen := w.openFile_eq os (w.filename pulseId) s
    cases hreleased : w.released os s with
    | error s' =>
      rw [hreleased] at hopen
      obtain ⟨e, w', hopen⟩ := hopen
      rw [hopen]
      exact ⟨e, w', rfl⟩
    | ok s₁ =>
      simp only [hreleased] at hopen ⊢
      cases hpre : preallocated os (w.filename pulseId) s₁ with
      | error s' =>
        rw [hpre] at hopen
        obtain ⟨e, w', hopen⟩ := hopen
        rw [hopen]
        exact ⟨e, w', rfl⟩
      | ok r =>
        simp only [hpre] at hopen
        rw [hopen]
        rfl

variable {os}

/-- `write` when one of the calls in front of the record fails. -/
theorem write_error {w : BufferBinaryWriter} {pulseId : UInt64} {s s' : σ}
    (h : w.target os pulseId s = .error s') (buffer : BufferBinaryFormat) :
    ∃ e w', w.write os pulseId buffer s = (.error e, w', s') := by
  have hwrite := w.write_eq os pulseId buffer s
  unfold target at h
  cases hselected : w.selected os pulseId s with
  | error s₁ =>
    rw [hselected] at h hwrite
    cases h
    exact hwrite
  | ok r =>
    simp only [hselected] at h hwrite
    obtain ⟨e, hrecord⟩ := (w.withFile r.1 pulseId).writeRecord_eq os pulseId buffer r.2
    have hfd : (w.withFile r.1 pulseId).outputFileFd = r.1 := rfl
    rw [hwrite, hrecord, hfd]
    by_cases hsought : (os.lseek r.1 (recordOffset pulseId) r.2).1 < 0
    · rw [if_pos hsought] at h ⊢
      cases h
      exact ⟨e, _, rfl⟩
    · rw [if_neg hsought] at h
      cases h

/-- `write` when the record is written. -/
theorem write_target {w : BufferBinaryWriter} {pulseId : UInt64} {s s' : σ} {fd : Int}
    (h : w.target os pulseId s = .ok (fd, s')) (buffer : BufferBinaryFormat) :
    ∃ e, w.write os pulseId buffer s =
      (if toSizeT (os.write fd buffer.toBytes s').1 < sizeofBufferBinaryFormat then .error e else .ok (),
        w.withFile fd pulseId, (os.write fd buffer.toBytes s').2) := by
  have hwrite := w.write_eq os pulseId buffer s
  unfold target at h
  cases hselected : w.selected os pulseId s with
  | error s₁ =>
    rw [hselected] at h
    cases h
  | ok r =>
    simp only [hselected] at h hwrite
    obtain ⟨e, hrecord⟩ := (w.withFile r.1 pulseId).writeRecord_eq os pulseId buffer r.2
    have hfd : (w.withFile r.1 pulseId).outputFileFd = r.1 := rfl
    rw [hwrite, hrecord, hfd]
    by_cases hsought : (os.lseek r.1 (recordOffset pulseId) r.2).1 < 0
    · rw [if_pos hsought] at h
      cases h
    · rw [if_neg hsought] at h ⊢
      cases h
      exact ⟨e, rfl⟩

end

end BufferBinaryWriter

end SfDaqBuffer.BufferWriter
