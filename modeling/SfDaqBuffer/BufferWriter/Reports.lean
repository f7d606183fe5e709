/-
When `BufferBinaryWriter::write` returns without an exception: for every result of every system call
the frame is in its file then, unless the call that writes it returned `-1`. That result is compared
as an unsigned number.
-/
import SfDaqBuffer.BufferWriter.BufferBinaryWriter

namespace SfDaqBuffer.BufferWriter

open Posix CoreBuffer BufferUtils

namespace BufferBinaryWriter

variable {σ : Type}

/-! ## What the log says -/

/-- `fd` is the descriptor of the file when the calls in `earlier` have been made. -/
def OpenedAs (w : BufferBinaryWriter) (filename : String) (fd : Int) (earlier : List Event) : Prop :=
  (filename = w.currentOutputFilename ∧ fd = w.outputFileFd ∧ ∀ result, .closed fd result ∉ earlier) ∨
  ∃ before after, earlier = before ++ .opened filename fd :: after ∧ ∀ result, .closed fd result ∉ after

/-- The calls end with a write of all bytes of the record at its offset, to the open file of the
pulse. -/
def Persisted (w : BufferBinaryWriter) (pulseId : UInt64) (buffer : BufferBinaryFormat) (log : List Event) : Prop :=
  ∃ earlier fd sought, 0 ≤ fd ∧ 0 ≤ sought ∧ w.OpenedAs (w.filename pulseId) fd earlier ∧
    log = earlier ++ [.sought fd (recordOffset pulseId) sought, .wrote fd buffer.toBytes sizeofBufferBinaryFormat]

/-- The last call did not write a record. -/
def EndsWithoutRecord (log : List Event) : Prop :=
  ∀ earlier fd result, ∀ bytes : Fin sizeofBufferBinaryFormat → UInt8, log ≠ earlier ++ [.wrote fd bytes result]

theorem EndsWithoutRecord.not_persisted {w : BufferBinaryWriter} {pulseId : UInt64} {buffer : BufferBinaryFormat}
    {log : List Event} (h : EndsWithoutRecord log) : ¬ w.Persisted pulseId buffer log := by
  rintro ⟨earlier, fd, sought, -, -, -, hlog⟩
  apply h (earlier ++ [.sought fd (recordOffset pulseId) sought]) fd sizeofBufferBinaryFormat buffer.toBytes
  rw [hlog, List.append_assoc]
  rfl

theorem endsWithoutRecord_append {log : List Event} {e : Event}
    (he : ∀ fd result, ∀ bytes : Fin sizeofBufferBinaryFormat → UInt8, e ≠ .wrote fd bytes result) :
    EndsWithoutRecord (log ++ [e]) := by
  intro earlier fd result bytes h
  obtain ⟨-, hlast⟩ := List.append_inj' h rfl
  exact he fd result bytes (List.singleton_inj.1 hlast)

section

variable (os : Os σ) (w : BufferBinaryWriter)

theorem released_log {s s' : σ × List Event} (h : w.released os.logged s = .error s') : EndsWithoutRecord s'.2 := by
  unfold released at h
  split at h
  · cases h
  · rcases hclose : os.closeFile w.outputFileFd s.1 with ⟨result, s₁⟩
    simp only [Os.logged, hclose] at h
    split at h
    · cases h
      exact endsWithoutRecord_append fun _ _ _ => by nofun
    · cases h

theorem preallocated_log (filename : String) (s : σ × List Event) :
    match preallocated os.logged filename s with
    | .error s' => EndsWithoutRecord s'.2
    | .ok (fd, s') => ∃ before after, s'.2 = before ++ .opened filename fd :: after ∧
        ∀ result, .closed fd result ∉ after := by
  rcases hfolder : createDestinationFolder os.logged filename s with ⟨s₁, log₁⟩
  rcases hopen : os.openFile filename true s₁ with ⟨fd, s₂⟩
  rcases hlseek : os.lseek fd maxFileBytes s₂ with ⟨sought, s₃⟩
  rcases hwrite : os.write fd (fun _ : Fin 1 => 255) s₃ with ⟨written, s₄⟩
  unfold preallocated
  rw [hfolder]
  simp only [Os.logged, hopen, hlseek, hwrite]
  by_cases hfd : fd < 0
  · simp only [hfd, if_true]
    exact endsWithoutRecord_append fun _ _ _ => by nofun
  by_cases hsought : sought < 0
  · simp only [hfd, hsought, if_true, if_false]
    exact endsWithoutRecord_append fun _ _ _ => by nofun
  by_cases hmark : written = 1
  · simp only [hfd, hsought, hmark, if_true, if_false]
    refine ⟨log₁, [.sought fd maxFileBytes sought, .wrote fd (fun _ : Fin 1 => 255) 1], ?_, ?_⟩
    · simp only [List.append_assoc, List.cons_append, List.nil_append]
    · intro result hmem
      simp at hmem
  · simp only [hfd, hsought, hmark, if_false]
    refine endsWithoutRecord_append fun _ _ _ heq => ?_
    -- the mark is one byte long
    injection heq with _ hn
    exact absurd hn (by decide)

theorem selected_log (pulseId : UInt64) (s : σ) :
    match w.selected os.logged pulseId (s, []) with
    | .error s' => EndsWithoutRecord s'.2
    | .ok (fd, s') => w.OpenedAs (w.filename pulseId) fd s'.2 := by
  unfold selected
  by_cases hsame : w.filename pulseId = w.currentOutputFilename
  · simp only [hsame, if_true]
    exact .inl ⟨rfl, rfl, fun _ => List.not_mem_nil⟩
  · simp only [hsame, if_false]
    cases hreleased : w.released os.logged (s, []) with
    | error s' => exact released_log os w hreleased
    | ok s₁ =>
      have hpre := preallocated_log os (w.filename pulseId) s₁
      show match preallocated os.logged (w.filename pulseId) s₁ with
        | .error s' => EndsWithoutRecord s'.2
        | .ok (fd, s') => w.OpenedAs (w.filename pulseId) fd s'.2
      cases h : preallocated os.logged (w.filename pulseId) s₁ with
      | error s' =>
        rw [h] at hpre
        exact hpre
      | ok r =>
        rw [h] at hpre
        exact .inr hpre

/-- Either the calls in front of the record fail, or they end with the seek to its offset. -/
theorem target_log (pulseId : UInt64) (s : σ) :
    match w.target os.logged pulseId (s, []) with
    | .error s' => EndsWithoutRecord s'.2
    | .ok (fd, s') => ∃ earlier sought, 0 ≤ fd ∧ 0 ≤ sought ∧ w.OpenedAs (w.filename pulseId) fd earlier ∧
        s'.2 = earlier ++ [.sought fd (recordOffset pulseId) sought] := by
  have hselected := selected_log os w pulseId s
  unfold target
  cases h : w.selected os.logged pulseId (s, []) with
  | error s' =>
    rw [h] at hselected
    exact hselected
  | ok r =>
    obtain ⟨fd, s₁, log₁⟩ := r
    rw [h] at hselected
    rcases hlseek : os.lseek fd (recordOffset pulseId) s₁ with ⟨sought, s₂⟩
    simp only [Os.logged, hlseek]
    by_cases hsought : sought < 0
    · simp only [hsought, if_true]
      exact endsWithoutRecord_append fun _ _ _ => by nofun
    · simp only [hsought, if_false]
      -- no seek succeeds on a negative descriptor
      have hfd : 0 ≤ fd := by
        by_contra hneg
        have hbad := os.lseek_bad (Int.not_le.1 hneg) (recordOffset pulseId) s₁
        rw [hlseek] at hbad
        exact hsought hbad
      exact ⟨log₁, sought, hfd, Int.not_lt.1 hsought, hselected, rfl⟩

end

/-! ## The result -/

/-- After a seek to its offset the record is in the file when all its bytes are written. -/
theorem persisted_iff {w : BufferBinaryWriter} {pulseId : UInt64} {buffer : BufferBinaryFormat} {earlier : List Event}
    {fd sought result : Int} (hfd : 0 ≤ fd) (hsought : 0 ≤ sought)
    (hopened : w.OpenedAs (w.filename pulseId) fd earlier) :
    w.Persisted pulseId buffer
        (earlier ++ [.sought fd (recordOffset pulseId) sought, .wrote fd buffer.toBytes result]) ↔
      result = sizeofBufferBinaryFormat := by
  constructor
  · rintro ⟨_, _, _, -, -, -, hsame⟩
    obtain ⟨-, hends⟩ := List.append_inj' hsame rfl
    injection hends with _ hends
    injection hends with hwrote _
    injection hwrote
  · rintro rfl
    exact ⟨earlier, fd, sought, hfd, hsought, hopened, rfl⟩

/-- `write` returns without an exception if and only if the frame is in the file of its pulse, for
any state and any results of the calls, provided that the call that writes the frame does not return
`-1`. -/
theorem write_reports (os : Os σ) (w : BufferBinaryWriter) (pulseId : UInt64) (buffer : BufferBinaryFormat) (s : σ) :
    let done := w.write os.logged pulseId buffer (s, [])
    (done.1 = .ok () ↔ w.Persisted pulseId buffer done.2.2.2) ↔ ¬ w.LosesRecord os.logged pulseId buffer (s, []) := by
  intro done
  have hlog := target_log os w pulseId s
  cases htarget : w.target os.logged pulseId (s, []) with
  | error s' =>
    rw [htarget] at hlog
    obtain ⟨e, w', hdone⟩ : ∃ e w', done = (.error e, w', s') := write_error htarget buffer
    rw [hdone]
    exact iff_of_true (iff_of_false nofun hlog.not_persisted) (not_losesRecord _ htarget buffer)
  | ok r =>
    obtain ⟨fd, s₁, log₁⟩ := r
    rw [htarget] at hlog
    obtain ⟨earlier, sought, hfd, hsought, hopened, rfl⟩ := hlog
    rcases hwrite : os.write fd buffer.toBytes s₁ with ⟨result, s₂⟩
    have hrange := os.write_range fd buffer.toBytes s₁
    rw [hwrite] at hrange
    have hlogged := Os.logged_write hwrite (earlier ++ [.sought fd (recordOffset pulseId) sought])
    obtain ⟨e, hdone⟩ : ∃ e, done = (if toSizeT result < sizeofBufferBinaryFormat then .error e else .ok (),
        w.withFile fd pulseId, s₂, earlier ++ [.sought fd (recordOffset pulseId) sought] ++ [.wrote fd buffer.toBytes result]) := by
      obtain ⟨e, hdone⟩ := write_target htarget buffer
      rw [hlogged] at hdone
      exact ⟨e, hdone⟩
    have hloses : w.LosesRecord os.logged pulseId buffer (s, []) ↔ result = -1 := by
      rw [losesRecord_iff _ htarget buffer, hlogged]
    have hpersisted : w.Persisted pulseId buffer done.2.2.2 ↔ result = sizeofBufferBinaryFormat := by
      have hlast : done.2.2.2 = earlier ++ [.sought fd (recordOffset pulseId) sought, .wrote fd buffer.toBytes result] := by
        rw [hdone, List.append_assoc]
        rfl
      rw [hlast]
      exact persisted_iff hfd hsought hopened
    have hok : done.1 = .ok () ↔ result = -1 ∨ result = sizeofBufferBinaryFormat := by
      have hshort := toSizeT_lt_iff (by decide) hrange.1 hrange.2
      rw [hdone]
      by_cases h : toSizeT result < sizeofBufferBinaryFormat
      · rw [if_pos h]
        exact iff_of_false nofun (by rw [hshort] at h; tauto)
      · rw [if_neg h]
        exact iff_of_true rfl (by rw [hshort] at h; tauto)
    rw [hok, hpersisted, hloses]
    have hne : (-1 : Int) ≠ sizeofBufferBinaryFormat := by decide
    constructor
    · rintro h rfl
      exact hne (h.1 (.inl rfl))
    · intro h
      tauto

/-- A system in which every call works, but the disk is full when a frame is written. -/
def fullDisk : Os Unit where
  openFile _ _ s := (3, s)
  closeFile _ s := (0, s)
  lseek fd offset s := (if fd < 0 then -1 else offset, s)
  write _ n _ s := (if n ≤ 1 then n else -1, s)
  read _ n s := (0, fun _ => 0, s)
  system _ s := s
  strerror _ := "No space left on device"
  now _ := "2020-07-01 12:00:00"
  lseek_bad h offset s := by
    rw [if_pos h]
    show (-1 : Int) < 0
    decide
  write_range _ n _ s := by
    show -1 ≤ (if n ≤ 1 then (n : Int) else -1) ∧ (if n ≤ 1 then (n : Int) else -1) ≤ n
    split <;> omega
  read_range _ n s := ⟨by show (-1 : Int) ≤ 0; decide, Int.natCast_nonneg n⟩

theorem fullDisk_target : ∃ log, (new "/buffer/JF01" "M00").target fullDisk.logged 5 ((), []) = .ok (3, ((), log)) := by
  have hname : (new "/buffer/JF01" "M00").filename 5 ≠ (new "/buffer/JF01" "M00").currentOutputFilename :=
    getFilename_ne_empty _ _ _
  have hreleased : (new "/buffer/JF01" "M00").released fullDisk.logged ((), []) = .ok ((), []) := rfl
  rcases hfolder : createDestinationFolder fullDisk.logged ((new "/buffer/JF01" "M00").filename 5) ((), []) with ⟨⟨⟩, log⟩
  unfold target selected
  rw [if_neg hname, hreleased]
  unfold preallocated
  simp only [hfolder]
  exact ⟨_, rfl⟩

/-- On a full disk `write` loses the frame and returns as if it had been written. -/
theorem write_hides_failure :
    let w := new "/buffer/JF01" "M00"
    let done := w.write fullDisk.logged 5 .zero ((), [])
    done.1 = .ok () ∧ ¬ w.Persisted 5 .zero done.2.2.2 := by
  intro w done
  obtain ⟨log, htarget⟩ := fullDisk_target
  have hwrite : fullDisk.write 3 BufferBinaryFormat.zero.toBytes () = (-1, ()) :=
    congrArg (·, ()) (if_neg (by decide))
  obtain ⟨e, hdone⟩ := write_target htarget .zero
  have hshort : ¬ toSizeT (-1) < sizeofBufferBinaryFormat := by decide
  rw [Os.logged_write hwrite, if_neg hshort] at hdone
  have hdone' : done = (.ok (), w.withFile 3 5, (), log ++ [.wrote 3 BufferBinaryFormat.zero.toBytes (-1)]) := hdone
  rw [hdone']
  refine ⟨rfl, ?_⟩
  rintro ⟨earlier, fd, sought, -, -, -, hlog⟩
  have hlast := congrArg List.getLast? hlog
  simp only [List.getLast?_append, List.getLast?_singleton, List.getLast?_cons_cons, Option.some_or,
    Option.some.injEq] at hlast
  injection hlast with _ _ _ hresult
  exact absurd hresult (by decide)

end BufferBinaryWriter

end SfDaqBuffer.BufferWriter
