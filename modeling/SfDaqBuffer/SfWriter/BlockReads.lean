/-
When `BufferBinaryReader::get_block` returns without an exception: for every result of every system
call the frames of the block were read then, unless the call that reads them returned `-1`, or fewer
bytes than the block has but as many as one frame.
-/
import SfDaqBuffer.SfWriter.BufferBinaryReader

namespace SfDaqBuffer.SfWriter

open Posix CoreBuffer BufferUtils

namespace BufferBinaryReader

variable {σ : Type}

/-! ## The calls in front of the read -/

section

variable (os : Os σ)

/-- The call that releases the open file: the state after it, and whether it failed. -/
def released (r : BufferBinaryReader) (s : σ) : Except σ σ :=
  if r.inputFileFd = -1 then .ok s
  else
    let (result, s) := os.closeFile r.inputFileFd s
    if result < 0 then .error s else .ok s

/-- The descriptor of the file of a block, or the first failure. -/
def selected (r : BufferBinaryReader) (blockId : UInt64) (s : σ) : Except σ (Int × σ) :=
  if r.blockFile blockId = r.currentInputFile then .ok (r.inputFileFd, s)
  else
    match r.released os s with
    | .error s => .error s
    | .ok s =>
      let (fd, s) := os.openFile (r.blockFile blockId) false s
      if fd < 0 then .error s else .ok (fd, s)

/-- All calls of `get_block` in front of the one that reads. -/
def positioned (r : BufferBinaryReader) (blockId : UInt64) (s : σ) : Except σ (Int × σ) :=
  match r.selected os blockId s with
  | .error s => .error s
  | .ok (fd, s) =>
    let (sought, s) := os.lseek fd (blockOffset blockId) s
    if sought < 0 then .error s else .ok (fd, s)

/-- The call that reads is made and returns `-1`, or a part of the block that is not shorter than a
frame. -/
def AcceptsShort (r : BufferBinaryReader) (blockId : UInt64) (s : σ) : Prop :=
  ∃ fd s', r.positioned os blockId s = .ok (fd, s') ∧
    ((os.read fd sizeofBlockFrames s').1 = -1 ∨
      (sizeofBufferBinaryFormat : Int) ≤ (os.read fd sizeofBlockFrames s').1 ∧
        (os.read fd sizeofBlockFrames s').1 < sizeofBlockFrames)

theorem not_acceptsShort {r : BufferBinaryReader} {blockId : UInt64} {s s' : σ}
    (hpos : r.positioned os blockId s = .error s') : ¬ r.AcceptsShort os blockId s := by
  rintro ⟨fd, s₁, hok, -⟩
  rw [hpos] at hok
  cases hok

theorem acceptsShort_iff {r : BufferBinaryReader} {blockId : UInt64} {s s' : σ} {fd : Int}
    (hpos : r.positioned os blockId s = .ok (fd, s')) :
    r.AcceptsShort os blockId s ↔ (os.read fd sizeofBlockFrames s').1 = -1 ∨
      (sizeofBufferBinaryFormat : Int) ≤ (os.read fd sizeofBlockFrames s').1 ∧
        (os.read fd sizeofBlockFrames s').1 < sizeofBlockFrames := by
  unfold AcceptsShort
  rw [hpos]
  constructor
  · rintro ⟨_, _, hok, hshort⟩
    obtain ⟨rfl, rfl⟩ := Prod.mk.inj (Except.ok.inj hok)
    exact hshort
  · intro hshort
    exact ⟨fd, s', rfl, hshort⟩

/-! ## What `get_block` does with them -/

theorem openFile_eq (r : BufferBinaryReader) (filename : String) (s : σ) :
    match r.released os s with
    | .error s' => ∃ e r', r.openFile os filename s = (.error e, r', s')
    | .ok s₁ =>
      if (os.openFile filename false s₁).1 < 0 then
        ∃ e r', r.openFile os filename s = (.error e, r', (os.openFile filename false s₁).2)
      else r.openFile os filename s = (.ok (), { r with
        inputFileFd := (os.openFile filename false s₁).1, currentInputFile := filename }, (os.openFile filename false s₁).2) := by
  unfold openFile released closeCurrentFile
  by_cases hfd : r.inputFileFd = -1
  · simp only [hfd, if_true, ne_eq, not_true_eq_false, if_false]
    by_cases hopen : (os.openFile filename false s).1 < 0
    · simp only [hopen, if_true]
      exact ⟨_, _, rfl⟩
    · simp only [hopen, if_false]
  · simp only [hfd, if_false, ne_eq, not_false_eq_true, if_true]
    by_cases hclose : (os.closeFile r.inputFileFd s).1 < 0
    · simp only [hclose, if_true]
      exact ⟨_, _, rfl⟩
    · simp only [hclose, if_false]
      by_cases hopen : (os.openFile filename false (os.closeFile r.inputFileFd s).2).1 < 0
      · simp only [hopen, if_true]
        exact ⟨_, _, rfl⟩
      · simp only [hopen, if_false]

/-- The reader with the file of a block open as `fd`. -/
def withFile (r : BufferBinaryReader) (fd : Int) (blockId : UInt64) : BufferBinaryReader :=
  { r with inputFileFd := fd, currentInputFile := r.blockFile blockId }

/-- `get_block` selects a file and reads from it. -/
theorem getBlock_selected (r : BufferBinaryReader) (blockId : UInt64) (buffer : BufferBinaryBlock) (s : σ) :
    match r.selected os blockId s with
    | .error s' => ∃ e r', r.getBlock os blockId buffer s = (.error e, r', buffer, s')
    | .ok (fd, s') => r.getBlock os blockId buffer s =
        (r.withFile fd blockId).readBlock os (blockOffset blockId) buffer s' := by
  have hopen := r.openFile_eq os (r.blockFile blockId) s
  rw [getBlock_eq]
  unfold selected
  by_cases hsame : r.blockFile blockId = r.currentInputFile
  · have hself : r.withFile r.inputFileFd blockId = r := by
      unfold withFile
      rw [hsame]
    simp only [hsame, if_true, ne_eq, not_true_eq_false, if_false]
    rw [hself]
  · simp only [hsame, if_false, ne_eq, not_false_eq_true, if_true]
    cases hreleased : r.released os s with
    | error s' =>
      rw [hreleased] at hopen
      obtain ⟨e, r', hopen⟩ := hopen
      rw [hopen]
      exact ⟨e, r', rfl⟩
    | ok s₁ =>
      simp only [hreleased] at hopen ⊢
      by_cases hfd : (os.openFile (r.blockFile blockId) false s₁).1 < 0
      · simp only [hfd, if_true] at hopen ⊢
        obtain ⟨e, r', hopen⟩ := hopen
        rw [hopen]
        exact ⟨e, r', rfl⟩
      · simp only [hfd, if_false] at hopen ⊢
        rw [hopen]
        rfl

theorem readBlock_eq (r : BufferBinaryReader) (offset : Nat) (buffer : BufferBinaryBlock) (s : σ) :
    ∃ e, r.readBlock os offset buffer s =
      if (os.lseek r.inputFileFd offset s).1 < 0 then (.error e, r, buffer, (os.lseek r.inputFileFd offset s).2)
      else
        let (nBytes, bytes, s') := os.read r.inputFileFd sizeofBlockFrames (os.lseek r.inputFileFd offset s).2
        (if toSizeT nBytes < sizeofBufferBinaryFormat then .error e else .ok (), r, fillBlock buffer nBytes.toNat bytes, s') := by
  rcases hlseek : os.lseek r.inputFileFd offset s with ⟨sought, s₁⟩
  rcases hread : os.read r.inputFileFd sizeofBlockFrames s₁ with ⟨nBytes, bytes, s₂⟩
  unfold readBlock
  simp only [hlseek, hread]
  by_cases hsought : sought < 0
  · simp only [hsought, if_true]
    exact ⟨_, rfl⟩
  · simp only [hsought, if_false]
    by_cases hn : toSizeT nBytes < sizeofBufferBinaryFormat
    · simp only [hn, if_true]
      exact ⟨_, rfl⟩
    · simp only [hn, if_false, exists_const]

variable {os}

/-- `get_block` when one of the calls in front of the read fails. -/
theorem getBlock_error {r : BufferBinaryReader} {blockId : UInt64} {s s' : σ}
    (h : r.positioned os blockId s = .error s') (buffer : BufferBinaryBlock) :
    ∃ e r', r.getBlock os blockId buffer s = (.error e, r', buffer, s') := by
  have hget := r.getBlock_selected os blockId buffer s
  unfold positioned at h
  cases hselected : r.selected os blockId s with
  | error s₁ =>
    rw [hselected] at h hget
    cases h
    exact hget
  | ok out =>
    simp only [hselected] at h hget
    obtain ⟨e, hread⟩ := (r.withFile out.1 blockId).readBlock_eq os (blockOffset blockId) buffer out.2
    have hfd : (r.withFile out.1 blockId).inputFileFd = out.1 := rfl
    rw [hget, hread, hfd]
    by_cases hsought : (os.lseek out.1 (blockOffset blockId) out.2).1 < 0
    · rw [if_pos hsought] at h ⊢
      cases h
      exact ⟨e, _, rfl⟩
    · rw [if_neg hsought] at h
      cases h

/-- `get_block` when the block is read. -/
theorem getBlock_positioned {r : BufferBinaryReader} {blockId : UInt64} {s s₁ s₂ : σ} {fd nBytes : Int}
    {bytes : Fin sizeofBlockFrames → UInt8} (h : r.positioned os blockId s = .ok (fd, s₁))
    (hread : os.read fd sizeofBlockFrames s₁ = (nBytes, bytes, s₂)) (buffer : BufferBinaryBlock) :
    ∃ e, r.getBlock os blockId buffer s =
      (if toSizeT nBytes < sizeofBufferBinaryFormat then .error e else .ok (), r.withFile fd blockId,
        fillBlock buffer nBytes.toNat bytes, s₂) := by
  have hget := r.getBlock_selected os blockId buffer s
  unfold positioned at h
  cases hselected : r.selected os blockId s with
  | error s' =>
    rw [hselected] at h
    cases h
  | ok out =>
    simp only [hselected] at h hget
    obtain ⟨e, hblock⟩ := (r.withFile out.1 blockId).readBlock_eq os (blockOffset blockId) buffer out.2
    have hfd : (r.withFile out.1 blockId).inputFileFd = out.1 := rfl
    rw [hget, hblock, hfd]
    by_cases hsought : (os.lseek out.1 (blockOffset blockId) out.2).1 < 0
    · rw [if_pos hsought] at h
      cases h
    · rw [if_neg hsought] at h ⊢
      cases h
      rw [hread]
      exact ⟨e, rfl⟩

end

/-! ## What the log says -/

/-- `fd` is the descriptor of the file when the calls in `earlier` have been made. -/
def OpenedAs (r : BufferBinaryReader) (filename : String) (fd : Int) (earlier : List Event) : Prop :=
  (filename = r.currentInputFile ∧ fd = r.inputFileFd ∧ earlier = []) ∨
    ∃ before, earlier = before ++ [.opened filename fd]

/-- The calls end with a read of all bytes of the block at its offset, from the open file of the block,
and its frames are those bytes. -/
def FullyRead (os : Os σ) (r : BufferBinaryReader) (blockId : UInt64) (block : BufferBinaryBlock)
    (final : σ × List Event) : Prop :=
  ∃ (earlier : List Event) (fd sought : Int) (s : σ) (bytes : Fin sizeofBlockFrames → UInt8),
    0 ≤ fd ∧ 0 ≤ sought ∧ r.OpenedAs (r.blockFile blockId) fd earlier ∧
    final.2 = earlier ++ [.sought fd (blockOffset blockId) sought, .gave fd sizeofBlockFrames sizeofBlockFrames] ∧
    os.read fd sizeofBlockFrames s = ((sizeofBlockFrames : Int), bytes, final.1) ∧
    ∀ i, block.frame i = .ofBytes fun j => bytes ⟨_, blockByte_lt i j⟩

/-- No call has read. -/
def EndsWithoutRead (log : List Event) : Prop := ∀ earlier fd n result, log ≠ earlier ++ [.gave fd n result]

theorem endsWithoutRead_append {log : List Event} {e : Event} (he : ∀ fd n result, e ≠ .gave fd n result) :
    EndsWithoutRead (log ++ [e]) := by
  intro earlier fd n result h
  obtain ⟨-, hlast⟩ := List.append_inj' h rfl
  exact he fd n result (List.singleton_inj.1 hlast)

theorem EndsWithoutRead.not_fullyRead {os : Os σ} {r : BufferBinaryReader} {blockId : UInt64} {block : BufferBinaryBlock}
    {final : σ × List Event} (h : EndsWithoutRead final.2) : ¬ FullyRead os r blockId block final := by
  rintro ⟨earlier, fd, sought, s, bytes, -, -, -, hlog, -⟩
  apply h (earlier ++ [.sought fd (blockOffset blockId) sought]) fd sizeofBlockFrames sizeofBlockFrames
  rw [hlog, List.append_assoc]
  rfl

section

variable (os : Os σ) (r : BufferBinaryReader)

theorem selected_log (blockId : UInt64) (s : σ) :
    match r.selected os.logged blockId (s, []) with
    | .error s' => EndsWithoutRead s'.2
    | .ok (fd, s') => r.OpenedAs (r.blockFile blockId) fd s'.2 := by
  unfold selected
  by_cases hsame : r.blockFile blockId = r.currentInputFile
  · simp only [hsame, if_true]
    exact .inl ⟨rfl, rfl, rfl⟩
  · simp only [hsame, if_false]
    unfold released
    by_cases hfd : r.inputFileFd = -1
    · rcases hopen : os.openFile (r.blockFile blockId) false s with ⟨fd, s₁⟩
      simp only [hfd, if_true, Os.logged, hopen]
      by_cases hneg : fd < 0
      · simp only [hneg, if_true]
        exact endsWithoutRead_append fun _ _ _ => by nofun
      · simp only [hneg, if_false]
        exact .inr ⟨_, rfl⟩
    · rcases hclose : os.closeFile r.inputFileFd s with ⟨result, s₁⟩
      rcases hopen : os.openFile (r.blockFile blockId) false s₁ with ⟨fd, s₂⟩
      simp only [hfd, if_false, Os.logged, hclose]
      by_cases hresult : result < 0
      · simp only [hresult, if_true]
        exact endsWithoutRead_append fun _ _ _ => by nofun
      · simp only [hresult, if_false, hopen]
        by_cases hneg : fd < 0
        · simp only [hneg, if_true]
          exact endsWithoutRead_append fun _ _ _ => by nofun
        · simp only [hneg, if_false]
          exact .inr ⟨_, rfl⟩

/-- Either the calls in front of the read fail, or they end with the seek to the block. -/
theorem positioned_log (blockId : UInt64) (s : σ) :
    match r.positioned os.logged blockId (s, []) with
    | .error s' => EndsWithoutRead s'.2
    | .ok (fd, s') => ∃ earlier sought, 0 ≤ fd ∧ 0 ≤ sought ∧ r.OpenedAs (r.blockFile blockId) fd earlier ∧
        s'.2 = earlier ++ [.sought fd (blockOffset blockId) sought] := by
  have hselected := selected_log os r blockId s
  unfold positioned
  cases h : r.selected os.logged blockId (s, []) with
  | error s' =>
    rw [h] at hselected
    exact hselected
  | ok out =>
    obtain ⟨fd, s₁, log₁⟩ := out
    rw [h] at hselected
    rcases hlseek : os.lseek fd (blockOffset blockId) s₁ with ⟨sought, s₂⟩
    simp only [Os.logged, hlseek]
    by_cases hsought : sought < 0
    · simp only [hsought, if_true]
      exact endsWithoutRead_append fun _ _ _ => by nofun
    · simp only [hsought, if_false]
      -- no seek succeeds on a negative descriptor
      have hfd : 0 ≤ fd := by
        by_contra hneg
        have hbad := os.lseek_bad (Int.not_le.1 hneg) (blockOffset blockId) s₁
        rw [hlseek] at hbad
        exact hsought hbad
      exact ⟨log₁, sought, hfd, Int.not_lt.1 hsought, hselected, rfl⟩

end

/-! ## The result -/

/-- A block that received all its bytes. -/
theorem fillBlock_full (buffer : BufferBinaryBlock) (bytes : Fin sizeofBlockFrames → UInt8) (i : Fin bufferBlockSize) :
    (fillBlock buffer sizeofBlockFrames bytes).frame i = .ofBytes fun j => bytes ⟨_, blockByte_lt i j⟩ := by
  rw [frame_fillBlock]
  exact congrArg BufferBinaryFormat.ofBytes (funext fun j => if_pos (blockByte_lt i j))

/-- After a seek to the block the frames are read in full when the read returns all bytes. -/
theorem fullyRead_iff {os : Os σ} {r : BufferBinaryReader} {blockId : UInt64} {earlier : List Event} {fd sought : Int}
    (hfd : 0 ≤ fd) (hsought : 0 ≤ sought) (hopened : r.OpenedAs (r.blockFile blockId) fd earlier) {s s' : σ}
    {nBytes : Int} {bytes : Fin sizeofBlockFrames → UInt8} (hread : os.read fd sizeofBlockFrames s = (nBytes, bytes, s'))
    (buffer : BufferBinaryBlock) :
    FullyRead os r blockId (fillBlock buffer nBytes.toNat bytes) (s',
      earlier ++ [.sought fd (blockOffset blockId) sought] ++ [.gave fd sizeofBlockFrames nBytes]) ↔
        nBytes = sizeofBlockFrames := by
  constructor
  · rintro ⟨_, _, _, _, _, -, -, -, hsame, -, -⟩
    have hlast := congrArg List.getLast? hsame
    simp only [List.getLast?_append, List.getLast?_singleton, List.getLast?_cons_cons, Option.some_or,
      Option.some.injEq] at hlast
    injection hlast
  · rintro rfl
    refine ⟨earlier, fd, sought, s, bytes, hfd, hsought, hopened, ?_, hread, fun i => ?_⟩
    · rw [List.append_assoc]
      rfl
    · exact fillBlock_full buffer bytes i

/-- The test of `get_block` fails for the counts that are neither `-1` nor as long as a frame. -/
theorem accepts_iff {nBytes : Int} (hlo : -1 ≤ nBytes) (hhi : nBytes ≤ sizeofBlockFrames) :
    toSizeT nBytes < sizeofBufferBinaryFormat ↔ nBytes ≠ -1 ∧ nBytes < sizeofBufferBinaryFormat := by
  have hsize : (sizeofBlockFrames : Int) < 2 ^ 64 := by decide
  have hframe : (sizeofBufferBinaryFormat : Int) < 2 ^ 64 := by decide
  unfold toSizeT
  constructor
  · intro h
    omega
  · intro h
    omega

/-- `get_block` returns without an exception if and only if the frames of the block were read, for any
reader, any buffer and any results of the calls, unless the call that reads returns `-1` or a part of the
block that is not shorter than a frame. -/
theorem getBlock_reports (os : Os σ) (r : BufferBinaryReader) (blockId : UInt64) (buffer : BufferBinaryBlock) (s : σ) :
    let done := r.getBlock os.logged blockId buffer (s, [])
    (done.1 = .ok () ↔ FullyRead os r blockId done.2.2.1 done.2.2.2) ↔ ¬ r.AcceptsShort os.logged blockId (s, []) := by
  intro done
  have hlog := positioned_log os r blockId s
  cases hpos : r.positioned os.logged blockId (s, []) with
  | error s' =>
    rw [hpos] at hlog
    obtain ⟨e, r', hdone⟩ : ∃ e r', done = (.error e, r', buffer, s') := getBlock_error hpos buffer
    rw [hdone]
    exact iff_of_true (iff_of_false nofun hlog.not_fullyRead) (not_acceptsShort _ hpos)
  | ok out =>
    obtain ⟨fd, s₁, log₁⟩ := out
    rw [hpos] at hlog
    obtain ⟨earlier, sought, hfd, hsought, hopened, rfl⟩ := hlog
    rcases hread : os.read fd sizeofBlockFrames s₁ with ⟨nBytes, bytes, s₂⟩
    have hrange := os.read_range fd sizeofBlockFrames s₁
    rw [hread] at hrange
    have hlogged : os.logged.read fd sizeofBlockFrames (s₁, earlier ++ [.sought fd (blockOffset blockId) sought]) =
        (nBytes, bytes, s₂, earlier ++ [.sought fd (blockOffset blockId) sought] ++ [.gave fd sizeofBlockFrames nBytes]) := by
      unfold Os.logged
      simp only [hread]
    obtain ⟨e, hdone⟩ : ∃ e, done = (if toSizeT nBytes < sizeofBufferBinaryFormat then .error e else .ok (),
        r.withFile fd blockId, fillBlock buffer nBytes.toNat bytes, s₂,
        earlier ++ [.sought fd (blockOffset blockId) sought] ++ [.gave fd sizeofBlockFrames nBytes]) :=
      getBlock_positioned hpos hlogged buffer
    have haccepts : r.AcceptsShort os.logged blockId (s, []) ↔
        nBytes = -1 ∨ (sizeofBufferBinaryFormat : Int) ≤ nBytes ∧ nBytes < sizeofBlockFrames := by
      rw [acceptsShort_iff _ hpos, hlogged]
    have hfully : FullyRead os r blockId done.2.2.1 done.2.2.2 ↔ nBytes = sizeofBlockFrames := by
      rw [hdone]
      exact fullyRead_iff hfd hsought hopened hread buffer
    have hok : done.1 = .ok () ↔ nBytes = -1 ∨ (sizeofBufferBinaryFormat : Int) ≤ nBytes := by
      have htest := accepts_iff hrange.1 hrange.2
      rw [hdone]
      by_cases h : toSizeT nBytes < sizeofBufferBinaryFormat
      · rw [if_pos h]
        rw [htest] at h
        exact iff_of_false nofun (by omega)
      · rw [if_neg h]
        rw [htest] at h
        exact iff_of_true rfl (by omega)
    have hblock : (sizeofBufferBinaryFormat : Int) < sizeofBlockFrames := by decide
    rw [hok, hfully, haccepts]
    have hhi := hrange.2
    simp only at hhi
    constructor
    · intro h
      omega
    · intro h
      omega

/-- A system in which every call works, but the read fails or ends after the first frame. -/
def brokenDisk (fails : Bool) : Os Unit where
  openFile _ _ s := (3, s)
  closeFile _ s := (0, s)
  lseek fd offset s := (if 0 ≤ fd then offset else -1, s)
  write _ n _ s := (n, s)
  read _ n s := (if fails then -1 else (min n sizeofBufferBinaryFormat : Nat), fun _ => 0, s)
  system _ s := s
  strerror _ := "Input/output error"
  now _ := "2020-07-01 12:00:00"
  lseek_bad h offset s := by
    rw [if_neg (Int.not_le.2 h)]
    show (-1 : Int) < 0
    decide
  write_range _ n _ s := by
    show -1 ≤ (n : Int) ∧ (n : Int) ≤ n
    omega
  read_range _ n s := by
    show -1 ≤ (if fails then -1 else ((min n sizeofBufferBinaryFormat : Nat) : Int)) ∧
      (if fails then -1 else ((min n sizeofBufferBinaryFormat : Nat) : Int)) ≤ n
    split <;> omega

theorem brokenDisk_positioned (fails : Bool) : ∃ log,
    (new "/buffer/JF01" "M00").positioned (brokenDisk fails).logged 7 ((), []) = .ok (3, ((), log)) := by
  have hname : (new "/buffer/JF01" "M00").blockFile 7 ≠ (new "/buffer/JF01" "M00").currentInputFile :=
    getFilename_ne_empty _ _ _
  have hreleased : (new "/buffer/JF01" "M00").released (brokenDisk fails).logged ((), []) = .ok ((), []) := rfl
  have hopen : ∀ name, (brokenDisk fails).logged.openFile name false ((), []) = (3, ((), [.opened name 3])) :=
    fun _ => rfl
  have hlseek : ∀ (offset : Nat) (log : List Event), (brokenDisk fails).logged.lseek 3 offset ((), log) =
      ((offset : Int), ((), log ++ [.sought 3 offset offset])) := fun _ _ => rfl
  have hoffset : ¬ ((blockOffset 7 : Nat) : Int) < 0 := Int.not_lt.2 (Int.natCast_nonneg _)
  unfold positioned selected
  rw [if_neg hname, hreleased]
  simp only [hopen, show ¬ (3 : Int) < 0 by decide, if_false, hlseek, hoffset]
  exact ⟨_, rfl⟩

theorem getBlock_brokenDisk (fails : Bool) :
    let r := new "/buffer/JF01" "M00"
    let done := r.getBlock (brokenDisk fails).logged 7 ⟨fun _ => .zero, 0⟩ ((), [])
    done.1 = .ok () ∧ ¬ FullyRead (brokenDisk fails) r 7 done.2.2.1 done.2.2.2 := by
  intro r done
  obtain ⟨log, hpos⟩ := brokenDisk_positioned fails
  obtain ⟨e, hdone⟩ := getBlock_positioned hpos rfl ⟨fun _ => .zero, 0⟩
  have hdone' : done = _ := hdone
  have hpass : ¬ toSizeT (if fails then -1 else ((min sizeofBlockFrames sizeofBufferBinaryFormat : Nat) : Int)) <
      sizeofBufferBinaryFormat := by
    cases fails <;> decide
  have hshort : (if fails then -1 else ((min sizeofBlockFrames sizeofBufferBinaryFormat : Nat) : Int)) ≠ sizeofBlockFrames := by
    cases fails <;> decide
  rw [hdone', if_neg hpass]
  refine ⟨rfl, ?_⟩
  rintro ⟨_, _, _, _, _, -, -, -, hlog, -, -⟩
  have hlast := congrArg List.getLast? hlog
  simp only [List.getLast?_append, List.getLast?_singleton, List.getLast?_cons_cons, Option.some_or,
    Option.some.injEq] at hlast
  injection hlast with _ _ hresult
  exact hshort hresult

/-- A read that fails and a read of one frame both pass for the read of a block. -/
theorem getBlock_hides_failure :
    let r := new "/buffer/JF01" "M00"
    let failed := r.getBlock (brokenDisk true).logged 7 ⟨fun _ => .zero, 0⟩ ((), [])
    let partly := r.getBlock (brokenDisk false).logged 7 ⟨fun _ => .zero, 0⟩ ((), [])
    (failed.1 = .ok () ∧ ¬ FullyRead (brokenDisk true) r 7 failed.2.2.1 failed.2.2.2) ∧
      (partly.1 = .ok () ∧ ¬ FullyRead (brokenDisk false) r 7 partly.2.2.1 partly.2.2.2) :=
  ⟨getBlock_brokenDisk true, getBlock_brokenDisk false⟩

end BufferBinaryReader

end SfDaqBuffer.SfWriter
