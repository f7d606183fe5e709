/-
The messages between the processes of the live path. Each pulse_id that a module announces is in its
channel, has got lost or has been received, once and in the order of the announcements. What
`get_next_pulse_id` returns in a whole run are the pulse_ids that all modules' received messages have
in common: the invariant is that what it has consumed of the modules has exactly those in common.
-/
import SfDaqBuffer.Assembler.Intersection
import SfDaqBuffer.LivePath.Senders
import SfDaqBuffer.UdpRecv.LossyStream

namespace SfDaqBuffer.LivePath

open UdpRecv CoreBuffer Assembler Streams

variable {g : Geometry}

/-! ## Messages -/

def Event.deliveredTo (m : Nat) : Event → Option UInt64
  | .delivered m' p => if m' = m then some p else none
  | _ => none

def Event.lostBy (m : Nat) : Event → Option UInt64
  | .lost m' p => if m' = m then some p else none
  | _ => none

def Event.result : Event → Option UInt64
  | .returned p => some p
  | _ => none

def Event.image : Event → Option (UInt64 × ImageMetadata)
  | .assembled p image => some (p, image)
  | _ => none

/-- The messages of module `m` that jf_assembler has received. -/
def deliveredOf (m : Nat) (es : List Event) : List UInt64 := es.filterMap (·.deliveredTo m)

/-- The messages of module `m` that got lost. -/
def lostOf (m : Nat) (es : List Event) : List UInt64 := es.filterMap (·.lostBy m)

/-- The results of `get_next_pulse_id`. -/
def returnedOf (es : List Event) : List UInt64 := es.filterMap Event.result

/-- The pulse_ids and the results of `assemble_image`. -/
def imagesOf (es : List Event) : List (UInt64 × ImageMetadata) := es.filterMap Event.image

section

variable (m : Nat) (es es' : List Event)

theorem deliveredOf_append : deliveredOf m (es ++ es') = deliveredOf m es ++ deliveredOf m es' :=
  List.filterMap_append ..

theorem lostOf_append : lostOf m (es ++ es') = lostOf m es ++ lostOf m es' := List.filterMap_append ..

theorem returnedOf_append : returnedOf (es ++ es') = returnedOf es ++ returnedOf es' := List.filterMap_append ..

theorem imagesOf_append : imagesOf (es ++ es') = imagesOf es ++ imagesOf es' := List.filterMap_append ..

end

/-- What a step of jf_assembler does, and what can be seen of it. -/
theorem assemblerStep_observe {s s' : State g} (h : assemblerStep s = some s') :
    (∃ m p msgs, s.assembler = .receiving ∧ s.channels m = p :: msgs ∧
      s' = (s.setChannel m msgs).setUnread m (s.unread m ++ [p]) ∧ observeAssembler s = [.delivered m p]) ∨
    (∃ res rest, s.assembler = .receiving ∧ getNextPulseId ((List.range g.nModules).map s.unread) = .ok (res, rest) ∧
      s' = { s with assembler := .assembling res.pulseId, unread := fun m => rest.getD m [] } ∧
      observeAssembler s = [.returned res.pulseId]) ∨
    (∃ p image, s.assembler = .assembling p ∧ s.buffer.assembleImage p s.imageMeta = some (.ok (), image) ∧
      s' = { s with assembler := .receiving, imageMeta := image } ∧ observeAssembler s = [.assembled p image]) ∨
    (∃ what image, s' = { s with assembler := .threw what, imageMeta := image } ∧ observeAssembler s = []) := by
  unfold assemblerStep at h
  cases hphase : s.assembler with
  | receiving =>
    simp only [hphase] at h
    cases hout : getNextPulseId ((List.range g.nModules).map s.unread) with
    | ok out =>
      simp only [hout] at h
      cases h
      exact .inr (.inl ⟨out.1, out.2, rfl, rfl, rfl, by simp [observeAssembler, hphase, hout]⟩)
    | error e =>
      cases e with
      | blocked m =>
        simp only [hout] at h
        cases hchannel : s.channels m with
        | nil =>
          rw [hchannel] at h
          cases h
        | cons p msgs =>
          simp only [hchannel] at h
          cases h
          exact .inl ⟨m, p, msgs, rfl, hchannel, rfl, by simp [observeAssembler, hphase, hout, hchannel]⟩
      | threw what =>
        simp only [hout] at h
        cases h
        exact .inr (.inr (.inr ⟨what, s.imageMeta, rfl, by simp [observeAssembler, hphase, hout]⟩))
  | assembling pulseId =>
    simp only [hphase] at h
    split at h
    · cases h
    · rename_i image himage
      cases h
      exact .inr (.inr (.inl ⟨pulseId, image, rfl, himage, rfl, by simp [observeAssembler, hphase, himage]⟩))
    · rename_i what image himage
      cases h
      exact .inr (.inr (.inr ⟨what, image, rfl, by simp [observeAssembler, hphase, himage]⟩))
  | threw what =>
    simp only [hphase] at h
    cases h

/-! ## The channels -/

/-- What a step may do to the messages of a module: they arrive in order from the front of the channel, new
ones go to its end, and the others are counted as lost. -/
structure Carries (s s' : State g) (es : List Event) (m : Nat) : Prop where
  order : (deliveredOf m es ++ s'.channels m).Sublist (s.channels m ++ (publishedOf m es).map (·.announced))
  count : (deliveredOf m es).length + (s'.channels m).length + (lostOf m es).length =
    (s.channels m).length + (publishedOf m es).length

/-- A step that does not touch the channel of a module. -/
theorem carries_same {s s' : State g} {es : List Event} {m : Nat} (hchannel : s'.channels m = s.channels m)
    (hpublished : publishedOf m es = []) (hdelivered : deliveredOf m es = []) (hlost : lostOf m es = []) :
    Carries s s' es m := by
  constructor
  · rw [hdelivered, hpublished, hchannel]
    simp
  · rw [hdelivered, hpublished, hlost, hchannel]
    simp

theorem sender_carries {s s' : State g} {q : Nat} (h : step (.sender q) s = some s') (m : Nat) :
    Carries s s' (observe (.sender q) s) m := by
  rcases senderStep_cases (step_sender h).2 with ⟨_, _, _, _, _, _, -, -, rfl, hphase⟩ | ⟨_, hphase, -, rfl⟩ |
    ⟨_, hphase, rfl⟩
  · exact carries_same rfl (by simp [observe, hphase, publishedOf]) (by simp [observe, hphase, deliveredOf])
      (by simp [observe, hphase, lostOf])
  · exact carries_same rfl (by simp [observe, hphase, publishedOf]) (by simp [observe, hphase, deliveredOf])
      (by simp [observe, hphase, lostOf])
  · have hobs : observe (.sender q) s = [.published q (s.senders q).current] := by
      unfold observe
      simp [hphase]
    rw [hobs]
    by_cases hm : q = m
    · subst hm
      constructor
      · simp [deliveredOf, publishedOf, Event.deliveredTo, Event.publishedBy, State.setChannel, State.setSender,
          Sender.current]
      · simp [deliveredOf, publishedOf, lostOf, Event.deliveredTo, Event.publishedBy, Event.lostBy,
          State.setChannel, State.setSender]
    · refine carries_same ?_ ?_ rfl rfl
      · exact Function.update_of_ne (Ne.symm hm) _ _
      · simp [publishedOf, Event.publishedBy, hm]

theorem observe_drop (s : State g) (q i : Nat) :
    observe (.drop q i) s = ((s.channels q)[i]?.map (Event.lost q)).toList := rfl

theorem drop_carries (s : State g) (q i m : Nat) :
    Carries s (s.setChannel q ((s.channels q).eraseIdx i)) (observe (.drop q i) s) m := by
  have hpublished : publishedOf m (observe (.drop q i) s) = [] :=
    publishedOf_other (a := .drop q i) (fun h => nomatch h) s
  have hdelivered : deliveredOf m (observe (.drop q i) s) = [] := by
    rw [observe_drop]
    cases (s.channels q)[i]? <;> rfl
  by_cases hm : q = m
  · subst hm
    constructor
    · rw [hpublished, hdelivered]
      simpa [State.setChannel] using List.eraseIdx_sublist (s.channels q) i
    · rw [hpublished, hdelivered]
      rw [observe_drop]
      by_cases hi : i < (s.channels q).length
      · simp [State.setChannel, lostOf, Event.lostBy, List.getElem?_eq_getElem hi, List.length_eraseIdx_of_lt hi]
        omega
      · have hnone := List.getElem?_eq_none (not_lt.1 hi)
        simp [State.setChannel, lostOf, hnone, List.eraseIdx_of_length_le (not_lt.1 hi)]
  · apply carries_same (Function.update_of_ne (Ne.symm hm) _ _) hpublished hdelivered
    rw [observe_drop]
    cases (s.channels q)[i]? with
    | none => rfl
    | some p => simp [lostOf, Event.lostBy, hm]

theorem assembler_carries {s s' : State g} (h : assemblerStep s = some s') (m : Nat) :
    Carries s s' (observeAssembler s) m := by
  rcases assemblerStep_observe h with ⟨q, p, msgs, -, hchannel, rfl, hobs⟩ | ⟨_, _, -, -, rfl, hobs⟩ |
    ⟨_, _, -, -, rfl, hobs⟩ | ⟨_, _, rfl, hobs⟩
  · rw [hobs]
    by_cases hm : q = m
    · subst hm
      constructor
      · simp [deliveredOf, publishedOf, Event.deliveredTo, Event.publishedBy, State.setChannel, State.setUnread,
          hchannel]
      · simp [deliveredOf, publishedOf, lostOf, Event.deliveredTo, Event.publishedBy, Event.lostBy,
          State.setChannel, State.setUnread, hchannel, Nat.add_comm]
    · refine carries_same (Function.update_of_ne (Ne.symm hm) _ _) rfl ?_ rfl
      simp [deliveredOf, Event.deliveredTo, hm]
  all_goals
    rw [hobs]
    exact carries_same rfl rfl rfl rfl

theorem step_carries {s s' : State g} {a : Action} (h : step a s = some s') (m : Nat) :
    Carries s s' (observe a s) m := by
  cases a with
  | sender q => exact sender_carries h m
  | drop q i =>
    cases h
    exact drop_carries s q i m
  | assembler => exact assembler_carries h m

section

variable {ok : Action → State g → Prop} {start s : State g} {es : List Event}

/-- A run from `start` whose steps all meet `ok`. -/
abbrev TracedUnder (ok : Action → State g → Prop) (start : State g) : State g → List Event → Prop :=
  Runs.Trace ok (· = start) step observe

/-- Over a run the channels deliver what was announced, in order and each message at most once. -/
theorem channel_order (hinit : Init start) (h : TracedUnder ok start s es) (m : Nat) :
    (deliveredOf m es ++ s.channels m).Sublist ((publishedOf m es).map (·.announced)) := by
  refine h.invariant (I := fun s es => (deliveredOf m es ++ s.channels m).Sublist
    ((publishedOf m es).map (·.announced))) (fun s hs => ?_) (fun s es a s' ih _ hstep => ?_)
  · subst hs
    rw [hinit.channels m]
    exact List.Sublist.refl _
  · rw [deliveredOf_append, publishedOf_append, List.map_append, List.append_assoc]
    have hstep := ((step_carries hstep m).order).append_left (deliveredOf m es)
    rw [← List.append_assoc _ (s.channels m)] at hstep
    exact hstep.trans (ih.append_right _)

/-- No message is counted twice, and none gets lost unnoticed. -/
theorem channel_count (hinit : Init start) (h : TracedUnder ok start s es) (m : Nat) :
    (deliveredOf m es).length + (s.channels m).length + (lostOf m es).length = (publishedOf m es).length := by
  refine h.invariant (I := fun s es => (deliveredOf m es).length + (s.channels m).length + (lostOf m es).length =
    (publishedOf m es).length) (fun s hs => ?_) (fun s es a s' ih _ hstep => ?_)
  · subst hs
    rw [hinit.channels m]
    rfl
  · have hstep := (step_carries hstep m).count
    rw [deliveredOf_append, publishedOf_append, lostOf_append]
    simp only [List.length_append]
    omega

/-! ## The synchronization -/

/-- `get_next_pulse_id` has consumed `consumed` of the messages of each module, and returned what they have
in common. -/
structure Synced (s : State g) (es : List Event) (consumed : Nat → List UInt64) : Prop where
  delivered : ∀ m < g.nModules, deliveredOf m es = consumed m ++ s.unread m
  returned : returnedOf es = common ((List.range g.nModules).map consumed)
  last : (∀ m < g.nModules, consumed m = []) ∨ ∃ p, ∀ m < g.nModules, p ∈ consumed m ∧ ∀ c ∈ consumed m, c ≤ p

/-- The messages of each module come in increasing order. -/
def Increasing (g : Geometry) (es : List Event) : Prop :=
  ∀ m < g.nModules, (deliveredOf m es).Pairwise (· < ·)

theorem Increasing.left {es es' : List Event} (h : Increasing g (es ++ es')) : Increasing g es := by
  intro m hm
  have hm := h m hm
  rw [deliveredOf_append] at hm
  exact (List.pairwise_append.1 hm).1

/-- No module will still deliver what another one's consumed messages have. -/
theorem Synced.unread_new {consumed : Nat → List UInt64} (h : Synced s es consumed) (hinc : Increasing g es) :
    ∀ i ∈ List.range g.nModules, ∀ j ∈ List.range g.nModules, ∀ c ∈ consumed i, c ∉ s.unread j := by
  intro i hi j hj c hc hu
  have hi := List.mem_range.1 hi
  have hj := List.mem_range.1 hj
  rcases h.last with hnil | ⟨p, hp⟩
  · rw [hnil i hi] at hc
    cases hc
  · have hj' := hinc j hj
    rw [h.delivered j hj] at hj'
    have hlt := (List.pairwise_append.1 hj').2.2 p (hp j hj).1 c hu
    exact absurd ((hp i hi).2 c hc) (not_le.2 hlt)

theorem Synced.common_delivered {consumed : Nat → List UInt64} (h : Synced s es consumed) (hinc : Increasing g es) :
    common ((List.range g.nModules).map fun m => deliveredOf m es) =
      returnedOf es ++ common ((List.range g.nModules).map s.unread) := by
  rw [h.returned, ← common_map_append (h.unread_new hinc)]
  congr 1
  refine List.map_congr_left fun m hm => ?_
  exact h.delivered m (List.mem_range.1 hm)

theorem unread_increasing {consumed : Nat → List UInt64} (h : Synced s es consumed) (hinc : Increasing g es) :
    ∀ u ∈ (List.range g.nModules).map s.unread, u.Pairwise (· < ·) := by
  refine List.forall_mem_map.2 fun m hm => ?_
  have hm' := hinc m (List.mem_range.1 hm)
  rw [h.delivered m (List.mem_range.1 hm)] at hm'
  exact (List.pairwise_append.1 hm').2.1

theorem modules_ne_nil (g : Geometry) : List.range g.nModules ≠ [] := by
  have hpos := g.nModules_pos
  rw [Ne, List.range_eq_nil]
  omega

/-- A call that returns consumes all messages up to its result. -/
theorem Synced.returns {consumed : Nat → List UInt64} (h : Synced s es consumed) (hinc : Increasing g es)
    {res : PulseAndSync} {rest : List (List UInt64)}
    (hout : getNextPulseId ((List.range g.nModules).map s.unread) = .ok (res, rest)) :
    Synced { s with assembler := .assembling res.pulseId, unread := fun m => rest.getD m [] }
      (es ++ [.returned res.pulseId])
      fun m => consumed m ++ (before (s.unread m) (rest.getD m []) ++ [res.pulseId]) := by
  have hs := unread_increasing h hinc
  have hspec := getNextPulseId_spec (by simpa using modules_ne_nil g) hs
  rw [hout] at hspec
  cases hspec with
  | synced hleast hread =>
    -- the unread messages of a module, split at the result
    have hsplit : ∀ m < g.nModules, ReadTo (s.unread m) res.pulseId (rest.getD m []) := by
      intro m hm
      have hread := List.forall₂_iff_get.1 hread
      have hlen : m < ((List.range g.nModules).map s.unread).length := by simpa using hm
      have hlen' : m < rest.length := hread.1 ▸ hlen
      have hm' := hread.2 m hlen hlen'
      simpa [List.getD_eq_getElem?_getD, List.getElem?_eq_getElem hlen'] using hm'
    have heq : ∀ m < g.nModules, s.unread m =
        (before (s.unread m) (rest.getD m []) ++ [res.pulseId]) ++ rest.getD m [] := by
      intro m hm
      rw [List.append_assoc]
      exact (hsplit m hm).split
    have hmem : ∀ m < g.nModules, ∀ c ∈ before (s.unread m) (rest.getD m []) ++ [res.pulseId], c ∈ s.unread m := by
      intro m hm c hc
      rw [heq m hm]
      exact List.mem_append_left _ hc
    have hle : ∀ m < g.nModules, ∀ c ∈ before (s.unread m) (rest.getD m []) ++ [res.pulseId], c ≤ res.pulseId := by
      intro m hm c hc
      rcases List.mem_append.1 hc with hc | hc
      · exact le_of_lt (((hsplit m hm).mem_before (List.forall_mem_map.1 hs m (List.mem_range.2 hm))).1 hc).2
      · exact le_of_eq (List.mem_singleton.1 hc)
    refine ⟨fun m hm => ?_, ?_, .inr ⟨res.pulseId, fun m hm => ⟨by simp, fun c hc => ?_⟩⟩⟩
    · rw [deliveredOf_append, h.delivered m hm, List.append_assoc]
      conv_lhs => rw [heq m hm]
      show consumed m ++ ((before (s.unread m) (rest.getD m []) ++ [res.pulseId] ++ rest.getD m []) ++ []) = _
      rw [List.append_nil, ← List.append_assoc]
    · have hnew := common_eq_singleton (f := fun m => before (s.unread m) (rest.getD m []) ++ [res.pulseId])
        (p := res.pulseId) (modules_ne_nil g)
        (fun m hm => by
          have hu := List.forall_mem_map.1 hs m hm
          rw [heq m (List.mem_range.1 hm)] at hu
          exact (List.pairwise_append.1 hu).1)
        (fun m hm => ⟨by simp, hle m (List.mem_range.1 hm)⟩)
        (fun c hc => hleast.2 (List.forall_mem_map.2 fun m hm => hmem m (List.mem_range.1 hm) c (hc m hm)))
      rw [returnedOf_append, h.returned, common_map_append, hnew]
      · rfl
      · intro i hi j hj c hc hc'
        exact h.unread_new hinc i hi j hj c hc (hmem j (List.mem_range.1 hj) c hc')
    · rcases List.mem_append.1 hc with hc | hc
      · -- an older result is below the new one
        rcases h.last with hnil | ⟨p, hp⟩
        · rw [hnil m hm] at hc
          cases hc
        · have hu := hinc m hm
          rw [h.delivered m hm] at hu
          exact ((List.pairwise_append.1 hu).2.2 c hc _ (hsplit m hm).mem).le
      · exact hle m hm c hc

/-- A step that does not concern the messages that jf_assembler has. -/
theorem Synced.other {s' : State g} {es' : List Event} {consumed : Nat → List UInt64} (h : Synced s es consumed)
    (hunread : s'.unread = s.unread) (hdelivered : ∀ m, deliveredOf m es' = []) (hreturned : returnedOf es' = []) :
    Synced s' (es ++ es') consumed where
  delivered m hm := by rw [deliveredOf_append, hdelivered, List.append_nil, hunread, h.delivered m hm]
  returned := by rw [returnedOf_append, hreturned, List.append_nil, h.returned]
  last := h.last

/-- A message is received. -/
theorem Synced.receives {consumed : Nat → List UInt64} (h : Synced s es consumed) (q : Nat) (p : UInt64)
    (msgs : List UInt64) :
    Synced ((s.setChannel q msgs).setUnread q (s.unread q ++ [p])) (es ++ [.delivered q p]) consumed where
  delivered m hm := by
    rw [deliveredOf_append, h.delivered m hm]
    show _ = consumed m ++ Function.update s.unread q _ m
    by_cases heq : m = q
    · subst heq
      rw [Function.update_self]
      simp [deliveredOf, Event.deliveredTo]
    · rw [Function.update_of_ne heq]
      simp [deliveredOf, Event.deliveredTo, Ne.symm heq]
  returned := by
    rw [returnedOf_append, h.returned]
    exact List.append_nil _
  last := h.last

theorem synced_step {s' : State g} {a : Action} {consumed : Nat → List UInt64} (h : Synced s es consumed)
    (hinc : Increasing g es) (hstep : step a s = some s') : ∃ consumed', Synced s' (es ++ observe a s) consumed' := by
  cases a with
  | sender q =>
    refine ⟨consumed, h.other ?_ (fun m => ?_) ?_⟩
    · rcases senderStep_cases (step_sender hstep).2 with ⟨_, _, _, _, _, _, -, -, rfl, -⟩ | ⟨_, -, -, rfl⟩ | ⟨_, -, rfl⟩
      all_goals rfl
    · unfold observe
      simp only
      split <;> rfl
    · unfold observe
      simp only
      split <;> rfl
  | drop q i =>
    cases hstep
    refine ⟨consumed, h.other rfl (fun m => ?_) ?_⟩
    · rw [observe_drop]
      cases (s.channels q)[i]? <;> rfl
    · rw [observe_drop]
      cases (s.channels q)[i]? <;> rfl
  | assembler =>
    show ∃ consumed', Synced s' (es ++ observeAssembler s) consumed'
    rcases assemblerStep_observe hstep with ⟨q, p, msgs, -, -, rfl, hobs⟩ | ⟨res, rest, -, hout, rfl, hobs⟩ |
      ⟨p, image, -, -, rfl, hobs⟩ | ⟨what, image, rfl, hobs⟩
    · rw [hobs]
      exact ⟨consumed, h.receives q p msgs⟩
    · rw [hobs]
      exact ⟨_, h.returns hinc hout⟩
    · rw [hobs]
      exact ⟨consumed, h.other rfl (fun _ => rfl) rfl⟩
    · rw [hobs]
      exact ⟨consumed, h.other rfl (fun _ => rfl) rfl⟩

theorem synced_run (hinit : Init start) (h : TracedUnder ok start s es) :
    Increasing g es → ∃ consumed, Synced s es consumed := by
  refine h.invariant (I := fun s es => Increasing g es → ∃ consumed, Synced s es consumed) (fun s hs _ => ?_)
    (fun s es a s' ih _ hstep hinc => ?_)
  · subst hs
    refine ⟨fun _ => [], fun m _ => (hinit.unread m).symm, ?_, .inl fun _ _ => rfl⟩
    refine (List.eq_nil_iff_forall_not_mem.2 fun c hc => ?_).symm
    obtain ⟨m, hm⟩ := List.exists_mem_of_ne_nil _ (modules_ne_nil g)
    exact List.not_mem_nil ((mem_common (by simpa using modules_ne_nil g)).1 hc [] (List.mem_map.2 ⟨m, hm, rfl⟩))
  · obtain ⟨consumed, hsynced⟩ := ih hinc.left
    exact synced_step hsynced hinc.left hstep

/-! ## The images -/

/-- Steps of the processes and the channels give no result and no image. -/
theorem observe_other {a : Action} (hne : a ≠ .assembler) (s : State g) :
    returnedOf (observe a s) = [] ∧ imagesOf (observe a s) = [] := by
  cases a with
  | sender q =>
    unfold observe
    simp only
    split
    all_goals exact ⟨rfl, rfl⟩
  | drop q i =>
    rw [observe_drop]
    cases (s.channels q)[i]? with
    | none => exact ⟨rfl, rfl⟩
    | some p => exact ⟨rfl, rfl⟩
  | assembler => exact absurd rfl hne

theorem step_assembler {s' : State g} {a : Action} (hne : a ≠ .assembler) (h : step a s = some s') :
    s'.assembler = s.assembler := by
  cases a with
  | sender q =>
    rcases senderStep_cases (step_sender h).2 with ⟨_, _, _, _, _, _, -, -, rfl, -⟩ | ⟨_, -, -, rfl⟩ | ⟨_, -, rfl⟩
    all_goals rfl
  | drop q i =>
    cases h
    rfl
  | assembler => exact absurd rfl hne

/-- The results of which there is no image yet: the one at hand, if there is one. -/
structure AtHand (s : State g) (rest : List UInt64) : Prop where
  length : rest.length ≤ 1
  receiving : s.assembler = .receiving → rest = []
  assembling : ∀ p, s.assembler = .assembling p → rest = [p]

/-- The images are those of the results, but for one that is at hand. -/
theorem images_returned (hinit : Init start) (h : TracedUnder ok start s es) :
    ∃ rest, returnedOf es = (imagesOf es).map Prod.fst ++ rest ∧ AtHand s rest := by
  refine h.invariant (I := fun s es => ∃ rest, returnedOf es = (imagesOf es).map Prod.fst ++ rest ∧ AtHand s rest)
    (fun s hs => ?_) (fun s es a s' ih _ hstep => ?_)
  · subst hs
    refine ⟨[], rfl, Nat.zero_le _, fun _ => rfl, fun p hp => ?_⟩
    rw [hinit.assembler] at hp
    cases hp
  · obtain ⟨rest, hrest, hlength, hreceiving, hassembling⟩ := ih
    rw [returnedOf_append, imagesOf_append, hrest]
    by_cases hne : a = .assembler
    · subst hne
      show ∃ rest', _ ++ rest ++ returnedOf (observeAssembler s) =
        (imagesOf es ++ imagesOf (observeAssembler s)).map Prod.fst ++ rest' ∧ _
      rcases assemblerStep_observe hstep with ⟨q, p, msgs, hphase, -, rfl, hobs⟩ | ⟨res, left, hphase, -, rfl, hobs⟩ |
        ⟨p, image, hphase, -, rfl, hobs⟩ | ⟨what, image, rfl, hobs⟩
      · rw [hobs, hreceiving hphase]
        refine ⟨[], by simp [returnedOf, imagesOf, Event.result, Event.image, List.filterMap_cons], Nat.zero_le _,
          fun _ => rfl, fun p hp => ?_⟩
        exact absurd (hphase.symm.trans hp) nofun
      · rw [hobs, hreceiving hphase]
        refine ⟨[res.pulseId], by simp [returnedOf, imagesOf, Event.result, Event.image], le_rfl, nofun, fun p hp => ?_⟩
        cases hp
        rfl
      · rw [hobs, hassembling p hphase]
        exact ⟨[], by simp [returnedOf, imagesOf, Event.result, Event.image], Nat.zero_le _, fun _ => rfl, nofun⟩
      · rw [hobs]
        exact ⟨rest, by simp [returnedOf, imagesOf], hlength, nofun, nofun⟩
    · obtain ⟨hresult, himage⟩ := observe_other hne s
      have hsame := step_assembler hne hstep
      rw [hresult, himage, List.append_nil, List.append_nil]
      exact ⟨rest, rfl, hlength, fun hr => hreceiving (hsame.symm.trans hr), fun p hp => hassembling p (hsame.symm.trans hp)⟩

/-- jf_assembler waits for a message. -/
def State.AssemblerWaits (s : State g) : Prop :=
  s.assembler = .receiving ∧ ∃ m, getNextPulseId ((List.range g.nModules).map s.unread) = .error (.blocked m) ∧
    s.channels m = []

/-- What all modules have delivered has been returned when jf_assembler waits. -/
theorem common_unread_of_waits {consumed : Nat → List UInt64} (h : Synced s es consumed) (hinc : Increasing g es)
    (hwaits : s.AssemblerWaits) : common ((List.range g.nModules).map s.unread) = [] := by
  obtain ⟨-, m, hout, -⟩ := hwaits
  have hne : (List.range g.nModules).map s.unread ≠ [] := by simpa using modules_ne_nil g
  have hspec := getNextPulseId_spec hne (unread_increasing h hinc)
  rw [hout] at hspec
  cases hspec with
  | blocked hnone => exact common_eq_nil hne hnone

theorem returned_of_increasing (hinit : Init start) (h : TracedUnder ok start s es) (hinc : Increasing g es) :
    returnedOf es <+: common ((List.range g.nModules).map fun m => deliveredOf m es) ∧
      (s.AssemblerWaits → returnedOf es = common ((List.range g.nModules).map fun m => deliveredOf m es) ∧
        (imagesOf es).map Prod.fst = returnedOf es) := by
  obtain ⟨consumed, hsynced⟩ := synced_run hinit h hinc
  obtain ⟨rest, hrest, hhand⟩ := images_returned hinit h
  rw [hsynced.common_delivered hinc]
  refine ⟨List.prefix_append _ _, fun hwaits => ⟨?_, ?_⟩⟩
  · rw [common_unread_of_waits hsynced hinc hwaits, List.append_nil]
  · rw [hrest, hhand.receiving hwaits.1, List.append_nil]

end

/-- However the processes interleave and whatever messages get lost: a module's messages arrive in the order
of its announcements, none of them twice, and those that do not arrive are in the channel or lost. An image
is assembled for each result of `get_next_pulse_id`, in order, but for the one at hand; and the results are the
pulse_ids that the messages of all modules have in common, from the first one on, all of them when jf_assembler
waits. -/
theorem returned_common {start s : State g} {es : List Event} (hinit : Init start) (h : Traced start s es) :
    (∀ m, (deliveredOf m es ++ s.channels m).Sublist ((publishedOf m es).map (·.announced)) ∧
      (deliveredOf m es).length + (s.channels m).length + (lostOf m es).length = (publishedOf m es).length) ∧
    (∃ rest, returnedOf es = (imagesOf es).map Prod.fst ++ rest ∧ AtHand s rest) ∧
    (Increasing g es → returnedOf es <+: common ((List.range g.nModules).map fun m => deliveredOf m es) ∧
      (s.AssemblerWaits → returnedOf es = common ((List.range g.nModules).map fun m => deliveredOf m es) ∧
        (imagesOf es).map Prod.fst = returnedOf es)) := by
  exact ⟨fun m => ⟨channel_order hinit h m, channel_count hinit h m⟩, images_returned hinit h,
    returned_of_increasing hinit h⟩

/-- Two modules and the default number of slots. -/
def twoModuleRing : Geometry := .checked 2 1000 (@rfl Bool true)

/-- Both modules receive the same packets of pulses 1, 2 and 3, of which only the first frame is complete. -/
def twoStreams : State twoModuleRing := .start _ fun _ => frameBatches (partFrames .one .two .three)

/-- The modules publish their frames in turns. -/
def publishAll : List Action := (List.replicate 9 [.sender 0, .sender 1]).flatten

/-- The second message of module 1 gets lost: the assembler finds the other two pulse_ids, and assembles an
image of each. -/
theorem returned_common_twoStreams : ∃ s es, Traced twoStreams s es ∧ lostOf 1 es = [2] ∧
    imagesOf es = [(1, ⟨1, 1, 0, 1⟩), (3, ⟨0, 0, 0, 0⟩)] ∧ returnedOf es = [1, 3] ∧
    returnedOf es = common ((List.range 2).map fun m => deliveredOf m es) := by
  have hrun : ((Runs.runObserved (fun _ _ => True) step observe
      (publishAll ++ [.drop 1 1] ++ List.replicate 9 .assembler) twoStreams).map fun out =>
        (out.1.assembler, imagesOf out.2, [out.1.unread 0, out.1.channels 0, lostOf 1 out.2, returnedOf out.2,
          deliveredOf 0 out.2, deliveredOf 1 out.2])) =
      some (.receiving, [(1, ⟨1, 1, 0, 1⟩), (3, ⟨0, 0, 0, 0⟩)], [[], [], [2], [1, 3], [1, 2, 3], [1, 3]]) := by
    decide +kernel
  obtain ⟨⟨s, es⟩, hs, hobs⟩ := Option.map_eq_some_iff.1 hrun
  simp only [Prod.mk.injEq, List.cons.injEq, and_true] at hobs
  obtain ⟨hassembler, himages, hunread, hchannel, hlost, hreturned, hfirst, hsecond⟩ := hobs
  have h0 : Traced twoStreams twoStreams [] := .init rfl
  have htrace : Traced twoStreams s es := h0.run hs
  have hinc : Increasing twoModuleRing es := by
    intro m hm
    change m < 2 at hm
    rcases (by omega : m = 0 ∨ m = 1) with rfl | rfl
    · rw [hfirst]
      decide
    · rw [hsecond]
      decide
  have hwaits : s.AssemblerWaits := by
    refine ⟨hassembler, 0, ?_, hchannel⟩
    show getNextPulseId [s.unread 0, s.unread 1] = _
    rw [hunread]
    rfl
  obtain ⟨-, -, hall⟩ := returned_common (init_start _ _) htrace
  exact ⟨s, es, htrace, hlost, himages, hreturned, ((hall hinc).2 hwaits).1⟩

end SfDaqBuffer.LivePath
