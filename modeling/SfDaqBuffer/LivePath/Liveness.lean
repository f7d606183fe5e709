/-
The live path comes to rest. Each step of a process copies packets, writes a frame, passes a message on or
uses it up, so under every fair schedule all packets are read and jf_assembler waits, or it has thrown. When
no message gets lost there is then an image for each pulse_id that all streams publish; and it does not throw
when the streams are recoverable.
-/
import SfDaqBuffer.Assembler.Recovery
import SfDaqBuffer.Lib.Fairness
import SfDaqBuffer.LivePath.Images

namespace SfDaqBuffer.LivePath

open UdpRecv CoreBuffer Assembler Streams Fairness LossyFrame

variable {g : Geometry}

/-! ## Work -/

/-- The packets that a process has not copied. -/
def Sender.packets (sender : Sender) : Nat := (leftover sender.receiver ++ received sender.events).length

def SenderPhase.work : SenderPhase → Nat
  | .receive => 0
  | .writeFrame => 5
  | .send => 4

def AssemblerPhase.work : AssemblerPhase → Nat
  | .receiving => 1
  | .assembling _ => 2
  | .threw _ => 0

/-- The steps that are left for the packets of module `m` and its messages. -/
def State.moduleWork (s : State g) (m : Nat) : Nat :=
  6 * (s.senders m).packets + (s.senders m).phase.work + 3 * (s.channels m).length + 2 * (s.unread m).length

def State.work (s : State g) : Nat := (Finset.range g.nModules).sum s.moduleWork + s.assembler.work

/-- A call that returns has copied a packet. -/
theorem getFrameFromUdp_reads {r r' : FrameUdpReceiver} {f f' : Frame} {evs rest : List RecvMany} {pulseId : UInt64}
    (h : getFrameFromUdp r f evs = .returned pulseId r' f' rest) :
    (leftover r' ++ received rest).length < (leftover r ++ received evs).length := by
  -- a frame without packets has no pulse_id
  have hkept : KeptByCopy r.moduleId (fun _ => True) fun copied f => copied = [] → f.metadata.pulseId = 0 :=
    ⟨fun _ _ => rfl, fun _ _ _ hnil => absurd hnil (by simp)⟩
  have hkeeps := getFrameFromUdpLog_keeps hkept f evs fun _ _ => trivial
  have hfst := getFrameFromUdpLog_fst r f evs
  rw [h] at hfst
  generalize getFrameFromUdpLog r f evs = out at hkeeps hfst
  cases hkeeps with
  | returned read _ hpulse h0 hps hsub =>
    cases hfst
    rw [hps]
    have hlength : (read ++ (leftover r' ++ received rest)).length = read.length + (leftover r' ++ received rest).length :=
      List.length_append
    have hread : read ≠ [] := by
      rintro rfl
      exact h0 (hpulse (List.sublist_nil.1 hsub))
    have hpos := List.length_pos_iff.2 hread
    omega
  | receiving => cases hfst

/-! ## Steps lower the work -/

section

variable {s s' : State g}

/-- Nothing is sent for modules that do not exist. -/
def NoOthers (s : State g) : Prop := ∀ m, g.nModules ≤ m → s.channels m = []

theorem work_lt_of_module {m : Nat} (hm : m < g.nModules) (hothers : ∀ q, q ≠ m → s'.moduleWork q = s.moduleWork q)
    (hlt : s'.moduleWork m < s.moduleWork m) (hassembler : s'.assembler = s.assembler) : s'.work < s.work := by
  unfold State.work
  rw [hassembler]
  refine Nat.add_lt_add_right (Finset.sum_lt_sum (fun q _ => ?_) ⟨m, Finset.mem_range.2 hm, hlt⟩) _
  by_cases hq : q = m
  · subst hq
    exact hlt.le
  · exact (hothers q hq).le

theorem moduleWork_setSender_other {m q : Nat} (hq : q ≠ m) (sender : Sender) :
    (s.setSender m sender).moduleWork q = s.moduleWork q := by
  have hsender : (s.setSender m sender).senders q = s.senders q := Function.update_of_ne hq ..
  unfold State.moduleWork
  rw [hsender]
  rfl

theorem senderStep_work {m : Nat} (hm : m < g.nModules) (h : senderStep s m = some s') : s'.work < s.work := by
  rcases senderStep_cases h with ⟨pulseId, r, f, rest, previous, phase, hphase, hout, rfl, hreceive⟩ |
    ⟨buffer, hwrite, -, rfl⟩ | ⟨mark, hsend, rfl⟩
  · refine work_lt_of_module hm (fun q hq => moduleWork_setSender_other hq _) ?_ rfl
    have hreads := getFrameFromUdp_reads hout
    have hwork : phase.work ≤ 5 := by cases phase <;> decide
    have hzero : SenderPhase.work .receive = 0 := rfl
    unfold State.moduleWork
    rw [sender_setSender, hreceive, hzero]
    simp only [Sender.packets, State.setSender]
    omega
  · refine work_lt_of_module hm (fun q hq => ?_) ?_ rfl
    · exact moduleWork_setSender_other (s := { s with buffer := buffer, log := _ }) hq _
    · unfold State.moduleWork
      rw [sender_setSender, hwrite]
      simp only [Sender.packets, SenderPhase.work, State.setSender]
      omega
  · refine work_lt_of_module hm (fun q hq => ?_) ?_ rfl
    · rw [moduleWork_setSender_other hq]
      have hchannel : (s.setChannel m (s.channels m ++ [(s.senders m).pulseId])).channels q = s.channels q :=
        Function.update_of_ne hq ..
      unfold State.moduleWork
      rw [hchannel]
      rfl
    · unfold State.moduleWork
      rw [sender_setSender, hsend]
      have hchannel : ((s.setChannel m (s.channels m ++ [(s.senders m).pulseId])).setSender m
          { s.senders m with previous := mark, phase := .receive }).channels m =
            s.channels m ++ [(s.senders m).pulseId] := Function.update_self ..
      rw [hchannel]
      simp only [Sender.packets, SenderPhase.work, State.setSender, State.setChannel, List.length_append,
        List.length_singleton]
      omega

theorem setChannel_moduleWork {m : Nat} {msgs : List UInt64} :
    (s.setChannel m msgs).moduleWork m + 3 * (s.channels m).length = s.moduleWork m + 3 * msgs.length := by
  have hchannel : (s.setChannel m msgs).channels m = msgs := Function.update_self ..
  unfold State.moduleWork
  rw [hchannel]
  simp only [State.setChannel]
  omega

theorem setChannel_moduleWork_other {m q : Nat} (hq : q ≠ m) (msgs : List UInt64) :
    (s.setChannel m msgs).moduleWork q = s.moduleWork q := by
  have hchannel : (s.setChannel m msgs).channels q = s.channels q := Function.update_of_ne hq ..
  unfold State.moduleWork
  rw [hchannel]
  rfl

theorem setUnread_moduleWork {m : Nat} {msgs : List UInt64} :
    (s.setUnread m msgs).moduleWork m + 2 * (s.unread m).length = s.moduleWork m + 2 * msgs.length := by
  have hunread : (s.setUnread m msgs).unread m = msgs := Function.update_self ..
  unfold State.moduleWork
  rw [hunread]
  simp only [State.setUnread]
  omega

theorem setUnread_moduleWork_other {m q : Nat} (hq : q ≠ m) (msgs : List UInt64) :
    (s.setUnread m msgs).moduleWork q = s.moduleWork q := by
  have hunread : (s.setUnread m msgs).unread q = s.unread q := Function.update_of_ne hq ..
  unfold State.moduleWork
  rw [hunread]
  rfl

/-- A result uses up a message of each module. -/
theorem returned_work {res : PulseAndSync} {rest : List (List UInt64)} (hphase : s.assembler = .receiving)
    (hout : getNextPulseId ((List.range g.nModules).map s.unread) = .ok (res, rest)) :
    State.work { s with assembler := .assembling res.pulseId, unread := fun m => rest.getD m [] } < s.work := by
  have hread := List.forall₂_iff_get.1 (getNextPulseId_read hout)
  have hmodule : ∀ m ∈ Finset.range g.nModules, State.moduleWork
      { s with assembler := .assembling res.pulseId, unread := fun m => rest.getD m [] } m + 2 ≤ s.moduleWork m := by
    intro m hm
    have hlen : m < ((List.range g.nModules).map s.unread).length := by simpa using hm
    have hlen' : m < rest.length := hread.1 ▸ hlen
    have hm' : ReadTo (s.unread m) res.pulseId (rest.getD m []) := by
      have hm' := hread.2 m hlen hlen'
      simpa [List.getD_eq_getElem?_getD, List.getElem?_eq_getElem hlen'] using hm'
    have hlength := hm'.length_before
    unfold State.moduleWork
    simp only
    omega
  have hsum : (Finset.range g.nModules).sum (State.moduleWork
      { s with assembler := .assembling res.pulseId, unread := fun m => rest.getD m [] }) + g.nModules * 2 ≤
        (Finset.range g.nModules).sum s.moduleWork := by
    have hsum := Finset.sum_le_sum hmodule
    rwa [Finset.sum_add_distrib, Finset.sum_const, Finset.card_range, smul_eq_mul] at hsum
  have hpos := g.nModules_pos
  unfold State.work
  rw [hphase]
  simp only [AssemblerPhase.work]
  omega

theorem assemblerStep_work (hnone : NoOthers s) (h : assemblerStep s = some s') : s'.work < s.work := by
  rcases assemblerStep_observe h with ⟨m, p, msgs, hphase, hchannel, rfl, -⟩ | ⟨res, rest, hphase, hout, rfl, -⟩ |
    ⟨p, image, hphase, -, rfl, -⟩ | ⟨what, image, rfl, -⟩
  · have hm : m < g.nModules := by
      by_contra hm
      rw [hnone m (not_lt.1 hm)] at hchannel
      cases hchannel
    refine work_lt_of_module hm (fun q hq => ?_) ?_ rfl
    · rw [setUnread_moduleWork_other hq, setChannel_moduleWork_other hq]
    · have hmsgs : (s.setChannel m msgs).moduleWork m + 3 * (s.channels m).length = _ := setChannel_moduleWork
      have hunread : ((s.setChannel m msgs).setUnread m (s.unread m ++ [p])).moduleWork m + 2 * (s.unread m).length = _ :=
        setUnread_moduleWork
      rw [hchannel] at hmsgs
      simp only [List.length_append, List.length_cons, List.length_nil] at hmsgs hunread
      omega
  · exact returned_work hphase hout
  · unfold State.work
    rw [hphase]
    exact Nat.add_lt_add_left (Nat.lt_succ_self 1) _
  · have hmoves : 0 < s.assembler.work := by
      unfold assemblerStep at h
      cases hphase : s.assembler with
      | receiving => exact Nat.zero_lt_one
      | assembling p => exact Nat.two_pos
      | threw what =>
        rw [hphase] at h
        cases h
    exact Nat.add_lt_add_left hmoves _

/-! ## Rest -/

/-- The steps of the modules' processes and of jf_assembler. -/
def threads (g : Geometry) : Set Action := {a | a = .assembler ∨ ∃ m < g.nModules, a = .sender m}

theorem step_noOthers (h : NoOthers s) {a : Action} (hstep : step a s = some s') : NoOthers s' := by
  intro q hq
  cases a with
  | sender m =>
    obtain ⟨hm, hstep⟩ := step_sender hstep
    have hne : q ≠ m := by omega
    rcases senderStep_cases hstep with ⟨_, _, _, _, _, _, -, -, rfl, -⟩ | ⟨_, -, -, rfl⟩ | ⟨_, -, rfl⟩
    · exact h q hq
    · exact h q hq
    · exact (Function.update_of_ne hne ..).trans (h q hq)
  | drop m i =>
    cases hstep
    by_cases hm : q = m
    · subst hm
      have hchannel : (s.setChannel q ((s.channels q).eraseIdx i)).channels q = (s.channels q).eraseIdx i :=
        Function.update_self ..
      rw [hchannel, h q hq]
      rfl
    · exact (Function.update_of_ne hm ..).trans (h q hq)
  | assembler =>
    rcases assemblerStep_cases hstep with ⟨m, p, msgs, hchannel, rfl⟩ | ⟨_, _, -, rfl⟩ | ⟨_, _, -, -, rfl⟩ | ⟨_, _, rfl⟩
    · by_cases hm : q = m
      · subst hm
        rw [h q hq] at hchannel
        cases hchannel
      · exact (Function.update_of_ne hm ..).trans (h q hq)
    all_goals exact h q hq

/-- Losing a message takes work away. -/
theorem drop_work (hnone : NoOthers s) (m i : Nat) :
    s.setChannel m ((s.channels m).eraseIdx i) = s ∨ (s.setChannel m ((s.channels m).eraseIdx i)).work < s.work := by
  by_cases hi : i < (s.channels m).length
  · right
    have hm : m < g.nModules := by
      by_contra hm
      rw [hnone m (not_lt.1 hm)] at hi
      exact absurd hi (Nat.not_lt_zero i)
    refine work_lt_of_module hm (fun q hq => setChannel_moduleWork_other hq _) ?_ rfl
    have hmsgs : (s.setChannel m ((s.channels m).eraseIdx i)).moduleWork m + 3 * (s.channels m).length = _ :=
      setChannel_moduleWork
    rw [List.length_eraseIdx_of_lt hi] at hmsgs
    omega
  · left
    rw [List.eraseIdx_of_length_le (not_lt.1 hi)]
    unfold State.setChannel
    rw [Function.update_eq_self]

theorem consumes (g : Geometry) :
    Consumes (step (g := g)) (threads g) (fun s => Inv s ∧ NoOthers s) State.work where
  keep s a s' h hstep := ⟨step_inv h.1 hstep, step_noOthers h.2 hstep⟩
  lower := by
    rintro t (rfl | ⟨m, hm, rfl⟩) s s' h hstep
    · exact assemblerStep_work h.2 hstep
    · exact senderStep_work hm (step_sender hstep).2
  others a s s' h hstep := by
    cases a with
    | sender m =>
      obtain ⟨hm, hstep⟩ := step_sender hstep
      exact .inr (senderStep_work hm hstep)
    | drop m i =>
      cases hstep
      exact drop_work h.2 m i
    | assembler => exact .inr (assemblerStep_work h.2 hstep)

/-- All packets have been read, and jf_assembler waits for a message that has not been sent, or has thrown. -/
structure AtRest (s : State g) : Prop where
  senders : ∀ m < g.nModules, (s.senders m).Waits
  assembler : s.AssemblerWaits ∨ ∃ what, s.assembler = .threw what

theorem sender_waits (h : Inv s) {m : Nat} (hm : m < g.nModules) (hstep : senderStep s m = none) :
    (s.senders m).Waits := by
  unfold senderStep at hstep
  simp only at hstep
  cases hphase : (s.senders m).phase with
  | receive =>
    simp only [hphase] at hstep
    cases hout : getFrameFromUdp (s.senders m).receiver (s.senders m).frame (s.senders m).events with
    | receiving r f => exact ⟨hphase, r, f, hout⟩
    | returned pulseId r f rest =>
      simp only [hout] at hstep
      split at hstep <;> cases hstep
  | writeFrame =>
    -- `write_frame` does not leave the buffer
    have hid : (s.senders m).frame.metadata.moduleId.toNat < g.nModules := by
      rw [((h.senders m hm).frame hphase).moduleId, moduleId_toNat hm]
      exact hm
    have hwrite := s.buffer.writeFrame_eq (moduleData (s.senders m).frame) hid
    simp only [hphase, hwrite] at hstep
    cases hstep
  | send =>
    simp only [hphase] at hstep
    cases hstep

theorem assembler_waits (hstep : assemblerStep s = none) : s.AssemblerWaits ∨ ∃ what, s.assembler = .threw what := by
  unfold assemblerStep at hstep
  cases hphase : s.assembler with
  | receiving =>
    simp only [hphase] at hstep
    cases hout : getNextPulseId ((List.range g.nModules).map s.unread) with
    | ok out =>
      simp only [hout] at hstep
      cases hstep
    | error e =>
      cases e with
      | threw what =>
        simp only [hout] at hstep
        cases hstep
      | blocked m =>
        simp only [hout] at hstep
        cases hchannel : s.channels m with
        | nil => exact .inl ⟨hphase, m, hout, hchannel⟩
        | cons p msgs =>
          rw [hchannel] at hstep
          cases hstep
  | assembling p =>
    simp only [hphase, assembleImage_slot] at hstep
    split at hstep
    · rename_i hslot
      cases hslot
    all_goals cases hstep
  | threw what => exact .inr ⟨what, rfl⟩

theorem stuck_atRest (h : Inv s) (hstuck : Stuck step (threads g) s) : AtRest s where
  senders m hm := by
    have hstep : (if m < g.nModules then senderStep s m else none) = none := hstuck (.sender m) (.inr ⟨m, hm, rfl⟩)
    rw [if_pos hm] at hstep
    exact sender_waits h hm hstep
  assembler := assembler_waits (hstuck .assembler (.inl rfl))

end

section

variable {ok : Action → State g → Prop} {start s : State g} {es : List Event} {frames : Nat → List LossyFrame}

/-! ## Schedules that lose no message -/

/-- Images are assembled in time, and no message gets lost. -/
def delivers (a : Action) (s : State g) : Prop := assemblesInTime a s ∧ ∀ m i, a ≠ .drop m i

theorem lost_nil (h : TracedUnder delivers start s es) (m : Nat) : lostOf m es = [] := by
  refine h.invariant (I := fun _ es => lostOf m es = []) (fun _ _ => rfl) (fun s es a s' ih hok _ => ?_)
  rw [lostOf_append, ih, List.nil_append]
  cases a with
  | sender q =>
    unfold observe
    simp only
    split
    all_goals rfl
  | drop q i => exact absurd rfl (hok.2 q i)
  | assembler =>
    show lostOf m (observeAssembler s) = []
    unfold observeAssembler
    split
    · split
      · rename_i q _
        cases (s.channels q).head? with
        | none => rfl
        | some p => rfl
      all_goals rfl
    · split
      all_goals rfl
    · rfl

/-! ## What jf_assembler survives -/

/-- While the streams are recoverable, a call does not throw, whatever has been received of them. -/
theorem getNextPulseId_unread (hinit : Init start) (hstream : Stream start frames) (h : TracedUnder ok start s es)
    (hlost : ∀ m < g.nModules, lostOf m es = [])
    (hrec : Recoverable ((List.range g.nModules).map (pulsesOf frames))) (what : String) :
    getNextPulseId ((List.range g.nModules).map s.unread) ≠ .error (.threw what) := by
  obtain ⟨consumed, hsynced⟩ := synced_run hinit h (increasing_of_stream hinit hstream h)
  have hleft : ∀ m, ∃ left, m < g.nModules → pulsesOf frames m = consumed m ++ left ∧ s.unread m <+: left := by
    intro m
    by_cases hm : m < g.nModules
    · have hread : consumed m ++ s.unread m <+: pulsesOf frames m := by
        rw [← hsynced.delivered m hm]
        apply (List.prefix_append _ (s.channels m)).trans
        rw [delivered_channel hinit h (hlost m hm)]
        exact announced_stream hinit hstream h hm
      obtain ⟨more, hmore⟩ := hread
      rw [List.append_assoc] at hmore
      exact ⟨s.unread m ++ more, fun _ => ⟨hmore.symm, List.prefix_append ..⟩⟩
    · exact ⟨[], fun h => absurd h hm⟩
  choose left hleft using hleft
  have hinc : ∀ m < g.nModules, (consumed m ++ left m).Pairwise (· < ·) := by
    intro m hm
    rw [← (hleft m hm).1]
    exact stream_increasing hstream hm
  have hne : ∀ f : Nat → List UInt64, (List.range g.nModules).map f ≠ [] := fun f => by simpa using modules_ne_nil g
  refine getNextPulseId_prefix_recovers g.nModules_pos (fun m hm => (hleft m hm).2)
    (fun m hm => (List.pairwise_append.1 (hinc m hm)).2.1) (hrec.rest (fun a ha => ?_) fun a ha d hd had => ?_) what
  · obtain ⟨_, hs, ha⟩ := List.mem_flatten.1 ha
    obtain ⟨m, hm, rfl⟩ := List.mem_map.1 hs
    refine List.mem_flatten.2 ⟨pulsesOf frames m, List.mem_map_of_mem hm, ?_⟩
    rw [(hleft m (List.mem_range.1 hm)).1]
    exact List.mem_append_right _ ha
  · obtain ⟨_, hs, ha⟩ := List.mem_flatten.1 ha
    obtain ⟨i, hi, rfl⟩ := List.mem_map.1 hs
    have hi := List.mem_range.1 hi
    refine (mem_common (hne _)).2 (List.forall_mem_map.2 fun m hm => ?_)
    have hm := List.mem_range.1 hm
    have hd : d ∈ consumed m ++ left m := by
      rw [← (hleft m hm).1]
      exact (mem_common (hne _)).1 hd _ (List.mem_map_of_mem (List.mem_range.2 hm))
    refine (List.mem_append.1 hd).resolve_left fun hconsumed => ?_
    -- what is consumed is not above the last result, and what is left is
    rcases hsynced.last with hnil | ⟨p, hp⟩
    · rw [hnil m hm] at hconsumed
      cases hconsumed
    · have hlt := (List.pairwise_append.1 (hinc i hi)).2.2 p (hp i hi).1 a ha
      exact absurd ((hp m hm).2 d hconsumed) (not_le.2 (lt_of_lt_of_le hlt had))

/-- Why jf_assembler throws. -/
theorem assemblerStep_throws {s s' : State g} {what : String} (h : assemblerStep s = some s')
    (hthrew : s'.assembler = .threw what) :
    (s.assembler = .receiving ∧ getNextPulseId ((List.range g.nModules).map s.unread) = .error (.threw what)) ∨
      ∃ p image, s.assembler = .assembling p ∧ s.buffer.assembleImage p s.imageMeta = some (.error what, image) := by
  unfold assemblerStep at h
  cases hphase : s.assembler with
  | receiving =>
    simp only [hphase] at h
    cases hout : getNextPulseId ((List.range g.nModules).map s.unread) with
    | ok out =>
      simp only [hout] at h
      cases h
      cases hthrew
    | error e =>
      cases e with
      | blocked m =>
        simp only [hout] at h
        split at h
        · cases h
        · cases h
          rw [show s.assembler = .threw what from hthrew] at hphase
          cases hphase
      | threw what' =>
        simp only [hout] at h
        cases h
        cases hthrew
        exact .inl ⟨rfl, rfl⟩
  | assembling p =>
    simp only [hphase] at h
    split at h
    · cases h
    · cases h
      cases hthrew
    · rename_i what' image himage
      cases h
      cases hthrew
      exact .inr ⟨p, image, rfl, himage⟩
  | threw what =>
    simp only [hphase] at h
    cases h

/-- `assemble_image` does not throw in time, and `get_next_pulse_id` does not when the streams are
recoverable. -/
theorem no_throw (hinit : Init start) (hstream : Stream start frames)
    (hrec : Recoverable ((List.range g.nModules).map (pulsesOf frames))) (h : TracedUnder delivers start s es) :
    ∀ what, s.assembler ≠ .threw what := by
  induction h with
  | init hs =>
    subst hs
    intro what hthrew
    rw [hinit.assembler] at hthrew
    cases hthrew
  | @step s es a s' hrun hok hstep ih =>
    intro what hthrew
    by_cases hne : a = .assembler
    · subst hne
      rcases assemblerStep_throws hstep hthrew with ⟨-, hout⟩ | ⟨p, image, hphase, himage⟩
      · exact getNextPulseId_unread hinit hstream hrun (fun m _ => lost_nil hrun m) hrec what hout
      · have hinv := traced_inv hinit hrun
        obtain ⟨fr, hfr, hlast⟩ := slot_stream hinit hstream hrun (hinv.assembling p hphase) (hok.1 rfl p hphase)
        rw [assembleImage_slot, slotFrames_stream hinv hlast, assembleSlot_stream fun m hm => (hfr m hm).2] at himage
        cases himage
    · rw [step_assembler hne hstep] at hthrew
      exact ih what hthrew

/-- When the frames of all streams fit into the buffer, each image is assembled in time. -/
theorem assemblesInTime_of_fits (hinit : Init start) (hstream : Stream start frames) (h : TracedUnder ok start s es)
    (hfits : ∀ m < g.nModules, ∀ fr ∈ publishedFrames (frames m), ∀ m' < g.nModules,
      ∀ fr' ∈ publishedFrames (frames m'), fr'.pulseId.toNat < fr.pulseId.toNat + g.nSlots) (a : Action) :
    assemblesInTime a s := by
  intro _ p hphase m hm w hw
  obtain ⟨w', hw', hid', rfl⟩ := (traced_inv hinit h).assembling p hphase m hm
  obtain ⟨fr', hfr', rfl⟩ := stream_of_logged hinit hstream h hm (List.mem_filter.2 ⟨hw', decide_eq_true hid'⟩)
  obtain ⟨fr, hfr, rfl⟩ := stream_of_logged hinit hstream h hm hw
  exact hfits m hm fr' hfr' m hm fr hfr

end

/-- Under every fair schedule that assembles in time and loses no message, all packets are read from some step
on, and there is an image for each pulse_id that all streams publish, of the frames that they publish for it,
or jf_assembler has thrown. It never throws when the streams are recoverable. -/
theorem images_eventually {start : State g} {frames : Nat → List LossyFrame} {schedule : Nat → Action}
    (hinit : Init start) (hstream : Stream start frames) (hfair : Fair (threads g) schedule)
    (hok : ∀ n, delivers (schedule n) (states step schedule start n)) :
    (Recoverable ((List.range g.nModules).map (pulsesOf frames)) →
      ∀ k what, (states step schedule start k).assembler ≠ .threw what) ∧
    ∃ n, ∀ k, n ≤ k →
      (∀ m < g.nModules, ((states step schedule start k).senders m).Waits) ∧
      ((imagesOf (observed step observe schedule start k)).map Prod.fst =
          common ((List.range g.nModules).map (pulsesOf frames)) ∨
        ∃ what, (states step schedule start k).assembler = .threw what) ∧
      ∀ x ∈ imagesOf (observed step observe schedule start k),
        ∃ fr, FramesOf g frames x.1 fr ∧ x.2 = pulseImage g fr := by
  refine ⟨fun hrec k => no_throw hinit hstream hrec (trace_states observe hok k), ?_⟩
  have hinv : Inv start ∧ NoOthers start := ⟨init_inv hinit, fun m _ => hinit.channels m⟩
  obtain ⟨n, hstuck⟩ := (consumes g).rests hfair hinv
  have hrest := stuck_atRest (states_invariant (consumes g).keep hinv n).1 hstuck
  have htrace := trace_states observe hok n
  have hstays : ∀ k, step (schedule (n + k)) (states step schedule start n) = none := by
    intro k
    cases hturn : schedule (n + k) with
    | sender m =>
      by_cases hm : m < g.nModules
      · exact hstuck _ (.inr ⟨m, hm, rfl⟩)
      · exact if_neg hm
    | drop m i => exact absurd hturn ((hok (n + k)).2 m i)
    | assembler => exact hstuck _ (.inl rfl)
  refine ⟨n, fun k hk => ?_⟩
  obtain ⟨k, rfl⟩ := Nat.exists_eq_add_of_le hk
  obtain ⟨hsame, hevents⟩ := states_stays observe hstays k
  rw [hsame, hevents]
  refine ⟨hrest.senders, ?_, fun x hx => ?_⟩
  · rcases hrest.assembler with hwaits | hthrew
    · exact .inl (images_at_rest hinit hstream htrace (fun m _ => lost_nil htrace m) hrest.senders hwaits)
    · exact .inr hthrew
  · exact (images_metadata hinit hstream (htrace.mono fun _ _ h => h.1) x hx).2

/-- The processes of two modules and jf_assembler take turns. -/
def turns : Nat → Action := roundRobin [.sender 0, .sender 1, .assembler] .assembler

/-- Three frames of each module: in the end there is an image of each. -/
theorem images_eventually_twoStreams : ∃ n, ∀ k, n ≤ k →
    (imagesOf (observed step observe turns twoStreams k)).map Prod.fst = [1, 2, 3] ∧
    ∀ x ∈ imagesOf (observed step observe turns twoStreams k),
      ∃ fr, FramesOf twoModuleRing (fun _ => partFrames .one .two .three) x.1 fr ∧
        x.2 = pulseImage twoModuleRing fr := by
  have hfair : Fair (threads twoModuleRing) turns := by
    rintro t (rfl | ⟨m, hm, rfl⟩)
    · exact fair_roundRobin _ _ _ (by simp)
    · change m < 2 at hm
      rcases (by omega : m = 0 ∨ m = 1) with rfl | rfl
      · exact fair_roundRobin _ _ _ (by simp)
      · exact fair_roundRobin _ _ _ (by simp)
  have hpulses : (publishedFrames (partFrames .one .two .three)).map (·.pulseId) = [1, 2, 3] := by decide +kernel
  have hpublished : ∀ fr ∈ publishedFrames (partFrames .one .two .three), fr.pulseId ∈ [1, 2, 3] := by
    intro fr hfr
    rw [← hpulses]
    exact List.mem_map_of_mem hfr
  have hnear : ∀ p ∈ ([1, 2, 3] : List UInt64), ∀ q ∈ ([1, 2, 3] : List UInt64), q.toNat < p.toNat + 1000 := by
    simp
  have hok : ∀ n, delivers (turns n) (states step turns twoStreams n) := by
    intro n
    have htrace : TracedUnder (fun _ _ => True) twoStreams (states step turns twoStreams n)
      (observed step observe turns twoStreams n) := trace_states observe (fun _ => trivial) n
    refine ⟨assemblesInTime_of_fits (init_start _ _) twoStreams_stream htrace (fun m _ fr hfr m' _ fr' hfr' => ?_) _,
      fun m i hdrop => ?_⟩
    · exact hnear _ (hpublished fr hfr) _ (hpublished fr' hfr')
    · have hmem : turns n ∈ [Action.sender 0, .sender 1, .assembler] := roundRobin_mem (List.cons_ne_nil _ _) _ n
      rw [hdrop] at hmem
      simp at hmem
  have hstreams : (List.range 2).map (pulsesOf fun _ => partFrames .one .two .three) = [[1, 2, 3], [1, 2, 3]] :=
    congrArg (fun ps => [ps, ps]) hpulses
  have hrec : Recoverable ((List.range 2).map (pulsesOf fun _ => partFrames .one .two .three)) := by
    rw [hstreams]
    decide
  obtain ⟨hthrows, n, hall⟩ := images_eventually (init_start _ _) twoStreams_stream hfair hok
  refine ⟨n, fun k hk => ?_⟩
  obtain ⟨-, himages | ⟨what, hthrew⟩, hmetadata⟩ := hall k hk
  · refine ⟨himages.trans ?_, hmetadata⟩
    show common ((List.range 2).map (pulsesOf fun _ => partFrames .one .two .three)) = _
    rw [hstreams]
    decide
  · exact absurd hthrew (hthrows hrec k what)

end SfDaqBuffer.LivePath
