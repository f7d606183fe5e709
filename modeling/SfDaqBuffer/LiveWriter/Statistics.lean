/-
The statistics of jf-live-writer at the end of a run. `print_stats` divides by the number of images
that the rank has written, and no rank writes any, so the first run that was opened ends the process.
-/
import SfDaqBuffer.LiveWriter.Messages

namespace SfDaqBuffer.LiveWriter

open SfDaqBuffer.Action CoreBuffer

/-! ## What the writer throws -/

/-- A `runtime_error`. -/
def IsThrow (e : Fault) : Prop := ∃ what, e = .threw what

section

variable {σ : Type} (h5 : Hdf5 σ)

namespace JFH5Writer

theorem throws_throwIf (c : Prop) [Decidable c] (text : String) :
    Throws IsThrow (throwIf c text : Action Fault (Session σ) Unit) := .onlyIf fun _ => .throw ⟨text, rfl⟩

theorem throws_getDatatype (bitsPerPixel : UInt32) :
    Throws IsThrow (getDatatype bitsPerPixel : Action Fault (Session σ) Datatype) := by
  unfold getDatatype
  split
  · exact .pure _
  split
  · exact .pure _
  split
  · exact .pure _
  · exact .throw ⟨_, rfl⟩

theorem throws_call {P : Fault → Prop} (c : Call) : Throws P (call h5 c) := .act _

theorem throws_update {P : Fault → Prop} (f : JFH5Writer → JFH5Writer) :
    Throws P (update f : Action Fault (Session σ) Unit) := .modify _

/-- `close_run` throws nothing at all. -/
theorem throws_closeRun {P : Fault → Prop} : Throws P (closeRun h5) := by
  unfold closeRun closeFile
  refine .bind (.bind (.act _) fun w => .onlyIf fun _ => ?_) fun _ => throws_update _
  repeat' first
    | refine .bind (throws_call h5 _) fun _ => ?_
    | refine .bind (throws_update _) fun _ => ?_
    | exact throws_update _

theorem throws_openFile (outputFile : String) (nImages : UInt32) : Throws IsThrow (openFile h5 outputFile nImages) := by
  unfold openFile createMetaDataset
  refine .bind (.act _) fun w => ?_
  repeat' first
    | refine .bind (throws_call h5 _) fun _ => ?_
    | refine .bind (throws_throwIf _ _) fun _ => ?_
    | refine .bind (throws_update _) fun _ => ?_
    | refine .bind ?_ fun _ => ?_
    | exact throws_getDatatype _
    | exact .pure _

theorem throws_openRun (runId : Int64) (nImages imageYSize imageXSize bitsPerPixel : UInt32) :
    Throws IsThrow (openRun h5 runId nImages imageYSize imageXSize bitsPerPixel) :=
  .bind (throws_closeRun h5) fun _ => .bind (.act _) fun _ => .bind (throws_update _) fun _ => throws_openFile h5 _ _

end JFH5Writer

end

/-! ## The divisor -/

section

variable {σ : Type} {g : Geometry}

namespace Process

variable (env : Environment σ) (world : World) (ramBuffer : RamBuffer g)

/-- No image is counted. -/
def Uncounted (p : Process σ) : Prop := p.stats.imageCounter = 0

/-- `open_run` of a message. -/
def openRunOf (m : StoreStream) : Action Fault (Session σ) Unit :=
  JFH5Writer.openRun env.hdf5 m.runId m.nImages m.imageYSize m.imageXSize m.bitsPerPixel

/-- A message that opens a run. -/
theorem openFirst_ok {m : StoreStream} {p : Process σ} {session : Session σ} (hp : p.Uncounted)
    (hopen : (openRunOf env m).run p.session = (.ok (), session)) :
    ∃ p', (openFirst env m).run p = (.ok (), p') ∧ p'.Uncounted := by
  unfold openRunOf at hopen
  rw [openFirst, run_bind_ok (run_withWriter hopen)]
  exact ⟨_, rfl, hp⟩

theorem openFirst_error {m : StoreStream} {p : Process σ} {e : Fault} {session : Session σ}
    (hopen : (openRunOf env m).run p.session = (.error e, session)) :
    ((openFirst env m).run p) = (.error e, { p with session := session }) := by
  unfold openRunOf at hopen
  rw [openFirst, run_bind_error (run_withWriter hopen)]

/-- The end of a run divides by zero. -/
theorem closeLast_divides {p : Process σ} (h : p.Uncounted) :
    ((closeLast env).run p).1 = .error .divisionByZero := by
  have hprint : p.stats.printStats = .error .divisionByZero := if_pos h
  rcases hrun : (JFH5Writer.closeRun env.hdf5).run p.session with ⟨e | ⟨⟩, session⟩
  · have hnever := JFH5Writer.throws_closeRun env.hdf5 (P := fun _ => False) p.session e (by rw [hrun])
    exact hnever.elim
  · rw [closeLast, run_bind_ok (run_withWriter hrun), @endRun_error _ { p with session := session } _ hprint]

/-- Messages of a run that was opened, up to its last one. -/
theorem loop_divides (rest : List StoreStream) : ∀ (ms : List StoreStream) (p : Process σ), p.Uncounted →
    (∀ m ∈ ms, m.iImage ≠ 0) → (∃ m ∈ ms, m.iImage + 1 = m.nImages) →
      ((loop env world.ranks ramBuffer (ms ++ rest)).run p).1 = .error .divisionByZero
  | [], _, _, _, hlast => by
    obtain ⟨m, hm, -⟩ := hlast
    cases hm
  | m :: ms, p, hp, hfirst, hlast => by
    have hm := hfirst m (List.mem_cons_self ..)
    rw [List.cons_append, loop]
    by_cases hend : m.iImage + 1 = m.nImages
    · have hclose := closeLast_divides env hp
      rw [← onMessage_last env world ramBuffer hm hend] at hclose
      rcases hrun : (onMessage env world.ranks ramBuffer m).run p with ⟨r, p'⟩
      rw [hrun] at hclose
      subst hclose
      rw [run_bind_error hrun]
    · rw [run_bind_ok (onMessage_middle env world ramBuffer hm hend p)]
      refine loop_divides rest ms p hp (fun m' hm' => hfirst m' (List.mem_cons_of_mem _ hm')) ?_
      obtain ⟨m', hm', hend'⟩ := hlast
      rcases List.mem_cons.1 hm' with rfl | hm'
      · exact absurd hend' hend
      · exact ⟨m', hm', hend'⟩

/-- A run that is opened, from its first message on. -/
theorem loop_opened_divides {m : StoreStream} {ms : List StoreStream} (rest : List StoreStream) {p : Process σ}
    {session : Session σ} (hp : p.Uncounted) (hopen : (openRunOf env m).run p.session = (.ok (), session))
    (hfirst : m.iImage = 0) (hmiddle : ∀ m' ∈ ms, m'.iImage ≠ 0) (hlast : ∃ m' ∈ m :: ms, m'.iImage + 1 = m'.nImages) :
    ((loop env world.ranks ramBuffer (m :: ms ++ rest)).run p).1 = .error .divisionByZero := by
  obtain ⟨p', hok, hp'⟩ := openFirst_ok env hp hopen
  have honMessage := onMessage_ranks env world ramBuffer m
  rw [onlyIf_true hfirst] at honMessage
  rw [List.cons_append, loop, honMessage]
  by_cases hone : m.iImage + 1 = m.nImages
  · rw [onlyIf_true hone]
    have hclose := closeLast_divides env hp'
    rcases hrun : (closeLast env).run p' with ⟨r, p''⟩
    rw [hrun] at hclose
    subst hclose
    rw [run_bind_error ((run_bind_ok hok).trans hrun)]
  · rw [onlyIf_false hone, run_bind_ok ((run_bind_ok hok).trans (run_pure () p'))]
    apply loop_divides env world ramBuffer rest ms p' hp' hmiddle
    obtain ⟨last, hlast, hend⟩ := hlast
    rcases List.mem_cons.1 hlast with rfl | hlast
    · exact absurd hend hone
    · exact ⟨last, hlast, hend⟩

end Process

/-- The first message of a complete run, and the ones after it. -/
theorem CompleteRun.split {runId : Int64} {ms : List StoreStream} (h : CompleteRun runId ms) :
    ∃ m ms', ms = m :: ms' ∧ m.iImage = 0 ∧ (∀ m' ∈ ms', m'.iImage ≠ 0) ∧ ∃ last ∈ ms, last.iImage + 1 = last.nImages := by
  have hpos := h.nonempty
  obtain ⟨m, ms', rfl⟩ := List.exists_cons_of_length_pos hpos
  refine ⟨m, ms', rfl, ?_, ?_, ?_⟩
  · apply UInt32.toNat_inj.1
    exact h.iImage 0 hpos
  · intro m' hm' h0
    obtain ⟨i, hi, rfl⟩ := List.getElem_of_mem hm'
    have hiImage := h.iImage (i + 1) (Nat.succ_lt_succ hi)
    rw [List.getElem_cons_succ, h0] at hiImage
    cases hiImage
  · have hlt : ms'.length < (m :: ms').length := Nat.lt_succ_self _
    refine ⟨(m :: ms')[ms'.length], List.getElem_mem hlt, ?_⟩
    have hi := h.iImage ms'.length hlt
    have hn := h.nImages _ (List.getElem_mem hlt)
    have hbound := UInt32.toNat_lt (m :: ms')[ms'.length].nImages
    apply UInt32.toNat_inj.1
    rw [UInt32.toNat_add, hi, hn]
    rw [hn] at hbound
    exact Nat.mod_eq_of_lt hbound

/-- A rank that processes any sequence of complete runs divides by zero unless there is no run, or
`open_run` of the first one throws. -/
theorem print_stats_divides (env : Environment σ) (world : World) (ramBuffer : RamBuffer g)
    (rootFolder detectorName : String) (library : σ) {runs : List (Int64 × List StoreStream)}
    (h : ∀ run ∈ runs, CompleteRun run.1 run.2) :
    ((Process.loop env world.ranks ramBuffer (runs.flatMap (·.2))).run (.start rootFolder detectorName library)).1 ≠
        .error .divisionByZero ↔
      ∀ m ∈ (runs.flatMap (·.2)).head?, ∃ e session,
        (Process.openRunOf env m).run ⟨.new rootFolder detectorName, library⟩ = (.error e, session) := by
  cases runs with
  | nil =>
    constructor
    · rintro - m hm
      cases hm
    · rintro - hdiv
      cases hdiv
  | cons run runs =>
    obtain ⟨m, ms, hms, hfirst, hmiddle, hlast⟩ := (h run (List.mem_cons_self ..)).split
    have hp : (Process.start rootFolder detectorName library).Uncounted := rfl
    rw [List.flatMap_cons, hms, List.cons_append, List.head?_cons]
    rcases hopen : (Process.openRunOf env m).run ⟨.new rootFolder detectorName, library⟩ with ⟨e | ⟨⟩, session⟩
    · -- the process ends with the exception of `open_run`
      have herror := Process.openFirst_error env (p := .start rootFolder detectorName library) hopen
      obtain ⟨what, rfl⟩ := JFH5Writer.throws_openRun env.hdf5 _ _ _ _ _ _ _ (congrArg Prod.fst hopen)
      have honMessage := Process.onMessage_ranks env world ramBuffer m
      rw [onlyIf_true hfirst] at honMessage
      rw [Process.loop, honMessage, run_bind_error (run_bind_error herror)]
      simp [hopen]
    · rw [hms] at hlast
      have hdiv := Process.loop_opened_divides env world ramBuffer (runs.flatMap (·.2)) hp hopen hfirst hmiddle hlast
      constructor
      · intro hne
        exact absurd hdiv hne
      · intro hthrows
        obtain ⟨e, session', hthrows⟩ := hthrows m rfl
        rw [hopen] at hthrows
        cases hthrows

end

/-- A library in which every call fails. -/
def failing : Environment Nat := ⟨fun _ n => (-1, n + 1), fun n => n⟩

/-- A rank of two that receives a run of three images and one of two, with a library that works and with one
that does not. -/
theorem print_stats_divides_twoRanks :
    (((Process.loop succeeding twoRanks.ranks (RamBuffer.new oneModule) (runOf 1 3 ++ runOf 2 2)).run
      (.start "" "JF" 1)).1 = .error .divisionByZero) ∧
    (((Process.loop failing twoRanks.ranks (RamBuffer.new oneModule) (runOf 1 3 ++ runOf 2 2)).run
      (.start "" "JF" 1)).1 ≠ .error .divisionByZero) := by
  have hruns : ∀ run ∈ [((1 : Int64), runOf 1 3), (2, runOf 2 2)], CompleteRun run.1 run.2 := by
    intro run hrun
    rcases List.mem_pair.1 hrun with rfl | rfl
    · exact completeRun_runOf 1 (by decide) (by decide)
    · exact completeRun_runOf 2 (by decide) (by decide)
  constructor
  · by_contra hne
    obtain ⟨e, session, hthrows⟩ :=
      (print_stats_divides succeeding twoRanks (RamBuffer.new oneModule) "" "JF" 1 hruns).1 hne _ rfl
    cases hthrows
  · refine (print_stats_divides failing twoRanks (RamBuffer.new oneModule) "" "JF" 1 hruns).2 fun m hm => ?_
    cases hm
    exact ⟨_, _, rfl⟩

/-- The end of the run of one image divides by zero. -/
theorem one_image_divides :
    CompleteRun 1 [messageOf 1 0 1] ∧
      ((Process.loop succeeding oneRank.ranks (RamBuffer.new oneModule) [messageOf 1 0 1]).run
        (.start "" "JF" 1)).1 = .error .divisionByZero :=
  ⟨completeRun_one, rfl⟩

end SfDaqBuffer.LiveWriter
