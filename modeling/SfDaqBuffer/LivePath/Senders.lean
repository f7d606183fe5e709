/-
What the jf_udp_recv processes do in a run of the live path. Each publishes what its loop publishes on its
own, whatever the other processes do in between, and writes to the RAM buffer exactly the frames that it
publishes.
-/
import SfDaqBuffer.Lib.Traces
import SfDaqBuffer.LivePath.AnnounceAfterWrite

namespace SfDaqBuffer.LivePath

open UdpRecv CoreBuffer Assembler

variable {g : Geometry}

/-! ## Events -/

/-- What can be seen of the live path: a frame that is written and announced, a message that gets lost or
arrives, a result of `get_next_pulse_id`, and the metadata that `assemble_image` gives for it. -/
inductive Event
  | published (m : Nat) (out : Published)
  | lost (m : Nat) (pulseId : UInt64)
  | delivered (m : Nat) (pulseId : UInt64)
  | returned (pulseId : UInt64)
  | assembled (pulseId : UInt64) (image : ImageMetadata)

/-- The frame that a process has at hand. -/
def Sender.current (sender : Sender) : Published := ⟨sender.frame, sender.pulseId⟩

/-- The message that jf_assembler receives next, the pulse_id that it finds, or the image of it. -/
def observeAssembler (s : State g) : List Event :=
  match s.assembler with
  | .receiving =>
    match getNextPulseId ((List.range g.nModules).map s.unread) with
    | .error (.blocked m) => ((s.channels m).head?.map (Event.delivered m)).toList
    | .error (.threw _) => []
    | .ok (res, _) => [.returned res.pulseId]
  | .assembling pulseId =>
    match s.buffer.assembleImage pulseId s.imageMeta with
    | some (.ok (), image) => [.assembled pulseId image]
    | _ => []
  | .threw _ => []

def observe (a : Action) (s : State g) : List Event :=
  match a with
  | .sender m => if (s.senders m).phase = .send then [.published m (s.senders m).current] else []
  | .drop m i => ((s.channels m)[i]?.map (Event.lost m)).toList
  | .assembler => observeAssembler s

/-- A run from `start`. -/
abbrev Traced (start : State g) : State g → List Event → Prop :=
  Runs.Trace (fun _ _ => True) (· = start) step observe

def Event.publishedBy (m : Nat) : Event → Option Published
  | .published m' out => if m' = m then some out else none
  | _ => none

/-- What module `m` has published. -/
def publishedOf (m : Nat) (es : List Event) : List Published := es.filterMap (·.publishedBy m)

theorem publishedOf_append (m : Nat) (es es' : List Event) :
    publishedOf m (es ++ es') = publishedOf m es ++ publishedOf m es' := List.filterMap_append ..

theorem publishedOf_send (m : Nat) (s : State g) : publishedOf m (observe (.sender m) s) =
    if (s.senders m).phase = .send then [(s.senders m).current] else [] := by
  unfold observe
  by_cases hphase : (s.senders m).phase = .send
  · simp [hphase, publishedOf, Event.publishedBy]
  · simp [hphase, publishedOf]

/-- What jf_assembler does, event by event. -/
theorem observeAssembler_cases (s : State g) : observeAssembler s = [] ∨
    (∃ m p, observeAssembler s = [.delivered m p]) ∨ (∃ p, observeAssembler s = [.returned p]) ∨
    ∃ p image, observeAssembler s = [.assembled p image] := by
  unfold observeAssembler
  split
  · split
    · rename_i m _
      cases (s.channels m).head? with
      | none => exact .inl rfl
      | some p => exact .inr (.inl ⟨m, p, rfl⟩)
    · exact .inl rfl
    · exact .inr (.inr (.inl ⟨_, rfl⟩))
  · split
    · exact .inr (.inr (.inr ⟨_, _, rfl⟩))
    · exact .inl rfl
  · exact .inl rfl

/-- Only a `send` of module `m` publishes for it. -/
theorem publishedOf_other {m : Nat} {a : Action} (h : a ≠ .sender m) (s : State g) : publishedOf m (observe a s) = [] := by
  cases a with
  | sender m' =>
    have hm : m' ≠ m := fun heq => h (heq ▸ rfl)
    unfold observe
    simp only
    split
    · simp [publishedOf, Event.publishedBy, hm]
    · rfl
  | drop m' i =>
    unfold observe
    simp only
    cases (s.channels m')[i]? with
    | none => rfl
    | some p => rfl
  | assembler =>
    unfold observe
    rcases observeAssembler_cases s with h | ⟨_, _, h⟩ | ⟨_, h⟩ | ⟨_, _, h⟩
    all_goals
      simp only [h]
      rfl

/-! ## The loop of a process -/

/-- What the loop of a process publishes from where it is, in at most `n` rounds. -/
def Sender.remaining (n : Nat) (sender : Sender) : List Published :=
  match sender.phase with
  | .receive => mainLoop n sender.receiver sender.frame sender.previous sender.events
  | .writeFrame | .send =>
    sender.current :: mainLoop n sender.receiver sender.frame
      ⟨sender.pulseId, sender.frame.metadata.frameIndex⟩ sender.events

/-- The process waits for packets. -/
def Sender.Waits (sender : Sender) : Prop :=
  sender.phase = .receive ∧ ∃ r f, getFrameFromUdp sender.receiver sender.frame sender.events = .receiving r f

def isReceiving : Outcome → Bool
  | .receiving .. => true
  | .returned .. => false

theorem Sender.waits_iff (sender : Sender) : sender.phase = .receive ∧
    isReceiving (getFrameFromUdp sender.receiver sender.frame sender.events) = true ↔ sender.Waits := by
  unfold Sender.Waits
  refine and_congr_right fun _ => ?_
  cases getFrameFromUdp sender.receiver sender.frame sender.events with
  | receiving r f => exact iff_of_true rfl ⟨r, f, rfl⟩
  | returned pulseId r f rest => exact iff_of_false Bool.false_ne_true fun ⟨_, _, h⟩ => Outcome.noConfusion h

instance (sender : Sender) : Decidable sender.Waits := decidable_of_iff _ sender.waits_iff

theorem Sender.remaining_of_waits {sender : Sender} (h : sender.Waits) (n : Nat) : sender.remaining n = [] := by
  obtain ⟨hphase, r, f, hout⟩ := h
  unfold Sender.remaining
  rw [hphase]
  cases n with
  | zero => rfl
  | succ n =>
    simp only
    unfold mainLoop
    rw [hout]

/-- What a step of a process publishes is what its loop has next. -/
theorem senderStep_remaining {s s' : State g} {m : Nat} (h : senderStep s m = some s') :
    ∃ k, ∀ n, (s.senders m).remaining (n + k) =
      publishedOf m (observe (.sender m) s) ++ (s'.senders m).remaining n := by
  rw [publishedOf_send]
  unfold senderStep at h
  simp only at h
  cases hphase : (s.senders m).phase with
  | receive =>
    simp only [hphase] at h
    rw [if_neg (by decide)]
    have hloop : ∀ n, (s.senders m).remaining (n + 1) = mainLoop (n + 1) (s.senders m).receiver (s.senders m).frame
        (s.senders m).previous (s.senders m).events := by
      intro n
      unfold Sender.remaining
      rw [hphase]
    refine ⟨1, fun n => (hloop n).trans ?_⟩
    rw [List.nil_append, mainLoop]
    cases hout : getFrameFromUdp (s.senders m).receiver (s.senders m).frame (s.senders m).events with
    | receiving r f =>
      rw [hout] at h
      cases h
    | returned pulseId r f rest =>
      simp only [hout] at h ⊢
      split at h
      · rename_i hbad
        cases h
        rw [if_pos hbad, sender_setSender]
        rfl
      · rename_i hgood
        cases h
        rw [if_neg hgood, sender_setSender]
        rfl
  | writeFrame =>
    simp only [hphase] at h
    obtain ⟨buffer, -, hs'⟩ := Option.bind_eq_some_iff.1 h
    cases hs'
    refine ⟨0, fun n => ?_⟩
    rw [if_neg (by decide), sender_setSender]
    unfold Sender.remaining
    rw [hphase]
    rfl
  | send =>
    simp only [hphase] at h
    cases h
    refine ⟨0, fun n => ?_⟩
    rw [if_pos rfl, sender_setSender]
    unfold Sender.remaining
    rw [hphase]
    rfl

/-- The other processes and jf_assembler leave a process alone. -/
theorem step_senders {s s' : State g} {a : Action} {m : Nat} (h : step a s = some s') (hne : a ≠ .sender m) :
    s'.senders m = s.senders m := by
  cases a with
  | sender m' =>
    have hm : m ≠ m' := fun heq => hne (heq ▸ rfl)
    unfold step at h
    simp only at h
    split at h
    · rcases senderStep_cases h with ⟨_, _, _, _, _, _, -, -, rfl, -⟩ | ⟨_, -, -, rfl⟩ | ⟨_, -, rfl⟩
      all_goals exact Function.update_of_ne hm _ _
    · cases h
  | drop m' i =>
    cases h
    rfl
  | assembler =>
    rcases assemblerStep_cases h with ⟨_, _, _, -, rfl⟩ | ⟨_, _, -, rfl⟩ | ⟨_, _, -, -, rfl⟩ | ⟨_, _, rfl⟩
    all_goals rfl

theorem step_sender {s s' : State g} {m : Nat} (h : step (.sender m) s = some s') :
    m < g.nModules ∧ senderStep s m = some s' := by
  unfold step at h
  simp only at h
  split at h
  · rename_i hm
    exact ⟨hm, h⟩
  · cases h

section

variable {start s : State g} {es : List Event}

/-- What a process has published and what its loop has left are what its loop does on its own. -/
theorem published_remaining (h : Traced start s es) (m : Nat) :
    ∃ k, ∀ n, (start.senders m).remaining (n + k) = publishedOf m es ++ (s.senders m).remaining n := by
  refine h.invariant (I := fun s es => ∃ k, ∀ n, (start.senders m).remaining (n + k) =
    publishedOf m es ++ (s.senders m).remaining n) (fun s hs => ?_) (fun s es a s' ih _ hstep => ?_)
  · subst hs
    exact ⟨0, fun n => rfl⟩
  · obtain ⟨k, hk⟩ := ih
    by_cases ha : a = .sender m
    · subst ha
      obtain ⟨k', hk'⟩ := senderStep_remaining (step_sender hstep).2
      refine ⟨k' + k, fun n => ?_⟩
      rw [← Nat.add_assoc, hk, hk', publishedOf_append, List.append_assoc]
    · refine ⟨k, fun n => ?_⟩
      rw [hk, publishedOf_append, publishedOf_other ha, List.append_nil, step_senders hstep ha]

/-- When a process waits for packets it has published what its loop publishes of all packets so far. -/
theorem published_of_waits (h : Traced start s es) {m : Nat} (hstart : (start.senders m).phase = .receive)
    (hwaits : (s.senders m).Waits) : ∃ k, ∀ n, k ≤ n → publishedOf m es = mainLoop n (start.senders m).receiver
      (start.senders m).frame (start.senders m).previous (start.senders m).events := by
  obtain ⟨k, hk⟩ := published_remaining h m
  refine ⟨k, fun n hn => ?_⟩
  have hall := hk (n - k)
  rw [Sender.remaining_of_waits hwaits, List.append_nil, Nat.sub_add_cancel hn] at hall
  rw [← hall]
  unfold Sender.remaining
  rw [hstart]

/-! ## The RAM buffer -/

/-- The arguments of `write_frame`. -/
def stored (out : Published) : ModuleFrame × ModuleData := (out.written.metadata, moduleData out.written)

/-- The frames that module `m` wrote. -/
def framesOf (m : Nat) (log : List (ModuleFrame × ModuleData)) : List (ModuleFrame × ModuleData) :=
  log.filter fun w => w.1.moduleId.toNat = m

/-- The frame that is written but not announced yet. -/
def Sender.unannounced (sender : Sender) : List (ModuleFrame × ModuleData) :=
  if sender.phase = .send then [stored sender.current] else []

theorem framesOf_sender {s s' : State g} (h : Inv s) {m : Nat} (hstep : step (.sender m) s = some s') (q : Nat) :
    framesOf q s'.log = framesOf q s.log ++
      if q = m ∧ (s.senders m).phase = .writeFrame then [stored (s.senders m).current] else [] := by
  obtain ⟨hm, hsender⟩ := step_sender hstep
  rcases senderStep_cases hsender with ⟨_, _, _, _, _, _, -, -, rfl, hphase⟩ | ⟨_, hphase, -, rfl⟩ | ⟨_, hphase, rfl⟩
  · rw [if_neg (by rw [hphase]; rintro ⟨-, h⟩; cases h), List.append_nil]
    rfl
  · have hid : (s.senders m).frame.metadata.moduleId.toNat = m := by
      rw [((h.senders m hm).frame hphase).moduleId, moduleId_toNat hm]
    show framesOf q (s.log ++ [stored (s.senders m).current]) = _
    unfold framesOf
    rw [List.filter_append]
    congr 1
    by_cases hq : q = m
    · subst hq
      rw [if_pos ⟨rfl, hphase⟩]
      exact List.filter_cons_of_pos (decide_eq_true hid)
    · rw [if_neg fun h => hq h.1]
      exact List.filter_cons_of_neg (by simpa using fun h => hq (h.symm.trans hid))
  · rw [if_neg (by rw [hphase]; rintro ⟨-, h⟩; cases h), List.append_nil]
    rfl

/-- Only a `write_frame` of module `m` writes a frame of it. -/
theorem framesOf_other {s s' : State g} (h : Inv s) {m : Nat} {a : Action} (hstep : step a s = some s')
    (hne : a ≠ .sender m) : framesOf m s'.log = framesOf m s.log := by
  cases a with
  | sender q =>
    have hq : ¬ (m = q ∧ (s.senders q).phase = .writeFrame) := fun hq => hne (hq.1 ▸ rfl)
    rw [framesOf_sender h hstep, if_neg hq, List.append_nil]
  | drop q i =>
    cases hstep
    rfl
  | assembler =>
    rcases assemblerStep_cases hstep with ⟨_, _, _, -, rfl⟩ | ⟨_, _, -, rfl⟩ | ⟨_, _, -, -, rfl⟩ | ⟨_, _, rfl⟩
    all_goals rfl

/-- A step of a process moves a frame from its loop to the buffer, or from there to its announcements. -/
theorem unannounced_step {s s' : State g} {m : Nat} (hstep : step (.sender m) s = some s') :
    (s.senders m).unannounced ++ (if m = m ∧ (s.senders m).phase = .writeFrame then [stored (s.senders m).current] else []) =
      (publishedOf m (observe (.sender m) s)).map stored ++ (s'.senders m).unannounced := by
  rw [publishedOf_send]
  unfold Sender.unannounced
  rcases senderStep_cases (step_sender hstep).2 with ⟨_, _, _, _, _, phase, hne, -, rfl, hphase⟩ | ⟨_, hphase, -, rfl⟩ |
    ⟨_, hphase, rfl⟩
  · rw [sender_setSender, hphase]
    simp [hne]
  · rw [sender_setSender, hphase]
    simp [Sender.current]
  · rw [sender_setSender, hphase]
    simp

/-- The frames that a module wrote are those that it published, and the one it announces next. -/
theorem framesOf_published (hinit : Init start) (h : Traced start s es) (m : Nat) :
    framesOf m s.log = (publishedOf m es).map stored ++ (s.senders m).unannounced := by
  refine (h.invariant (I := fun s es => Inv s ∧ framesOf m s.log = (publishedOf m es).map stored ++
    (s.senders m).unannounced) (fun s hs => ?_) (fun s es a s' ih _ hstep => ?_)).2
  · subst hs
    refine ⟨init_inv hinit, ?_⟩
    unfold Sender.unannounced
    rw [hinit.log, (hinit.senders m).phase]
    rfl
  · obtain ⟨hinv, hframes⟩ := ih
    refine ⟨step_inv hinv hstep, ?_⟩
    rw [publishedOf_append, List.map_append, List.append_assoc]
    by_cases ha : a = .sender m
    · subst ha
      rw [framesOf_sender hinv hstep, hframes, List.append_assoc, unannounced_step hstep]
    · rw [framesOf_other hinv hstep ha, hframes, publishedOf_other ha, step_senders hstep ha]
      rfl

end

end SfDaqBuffer.LivePath
