/-
The live path: a jf_udp_recv process for each module, the RAM buffer they write to, one channel of
pulse_ids for each module, and jf_assembler. `write_frame` and `assemble_image` are one step each.
-/
import SfDaqBuffer.Assembler.PulseSync
import SfDaqBuffer.CoreBuffer.RamBuffer
import SfDaqBuffer.Lib.Runs
import SfDaqBuffer.UdpRecv.Main

namespace SfDaqBuffer.LivePath

open UdpRecv CoreBuffer Assembler

/-! ## State -/

/-- The call that a jf_udp_recv process executes next. -/
inductive SenderPhase
  | receive
  | writeFrame
  | send
  deriving DecidableEq, Repr

/-- A jf_udp_recv process with its local variables, and what `recvmmsg` will return to it. -/
structure Sender where
  receiver : FrameUdpReceiver
  frame : Frame
  pulseId : UInt64
  previous : FrameMark
  events : List RecvMany
  phase : SenderPhase

inductive AssemblerPhase
  | receiving
  | assembling (pulseId : UInt64)
  | threw (what : String)
  deriving DecidableEq, Repr

/-- `unread` is what the current `get_next_pulse_id` has received of each module, and `log` the
frames of all `write_frame` so far. -/
structure State (g : Geometry) where
  buffer : RamBuffer g
  senders : Nat → Sender
  channels : Nat → List UInt64
  assembler : AssemblerPhase
  unread : Nat → List UInt64
  imageMeta : ImageMetadata
  log : List (ModuleFrame × ModuleData)

/-- The `data` of a frame. -/
def moduleData (f : Frame) : ModuleData := fun k => f.frameBuffer k

variable {g : Geometry}

/-! ## Steps -/

def State.setSender (s : State g) (m : Nat) (sender : Sender) : State g :=
  { s with senders := Function.update s.senders m sender }

def State.setChannel (s : State g) (m : Nat) (msgs : List UInt64) : State g :=
  { s with channels := Function.update s.channels m msgs }

def State.setUnread (s : State g) (m : Nat) (msgs : List UInt64) : State g :=
  { s with unread := Function.update s.unread m msgs }

/-- The loop of jf_udp_recv. -/
def senderStep (s : State g) (m : Nat) : Option (State g) :=
  let sender := s.senders m
  match sender.phase with
  | .receive =>
    match getFrameFromUdp sender.receiver sender.frame sender.events with
    | .receiving _ _ => none
    | .returned pulseId r f rest =>
      let next : FrameMark := ⟨pulseId, f.metadata.frameIndex⟩
      if badPulseId sender.previous next then
        some (s.setSender m ⟨r, f, pulseId, next, rest, .receive⟩)
      else
        some (s.setSender m ⟨r, f, pulseId, sender.previous, rest, .writeFrame⟩)
  | .writeFrame => do
    let metadata := sender.frame.metadata
    let data := moduleData sender.frame
    let buffer ← s.buffer.writeFrame metadata data
    let s := { s with buffer := buffer, log := s.log ++ [(metadata, data)] }
    return s.setSender m { sender with phase := .send }
  | .send =>
    let mark : FrameMark := ⟨sender.pulseId, sender.frame.metadata.frameIndex⟩
    some ((s.setChannel m (s.channels m ++ [sender.pulseId])).setSender m
      { sender with previous := mark, phase := .receive })

/-- The loop of jf_assembler. The messages received so far determine where `get_next_pulse_id`
waits. -/
def assemblerStep (s : State g) : Option (State g) :=
  match s.assembler with
  | .receiving =>
    match getNextPulseId ((List.range g.nModules).map s.unread) with
    | .error (.blocked m) =>
      match s.channels m with
      | [] => none
      | p :: msgs => some ((s.setChannel m msgs).setUnread m (s.unread m ++ [p]))
    | .error (.threw what) => some { s with assembler := .threw what }
    | .ok (res, rest) =>
      some { s with assembler := .assembling res.pulseId, unread := fun m => rest.getD m [] }
  | .assembling pulseId =>
    match s.buffer.assembleImage pulseId s.imageMeta with
    | none => none
    | some (.ok (), image) => some { s with assembler := .receiving, imageMeta := image }
    | some (.error what, image) => some { s with assembler := .threw what, imageMeta := image }
  | .threw _ => none

/-- `drop m i` loses message `i` of the channel of module `m`. -/
inductive Action
  | sender (m : Nat)
  | drop (m i : Nat)
  | assembler

def step (a : Action) (s : State g) : Option (State g) :=
  match a with
  | .sender m => if m < g.nModules then senderStep s m else none
  | .drop m i => some (s.setChannel m ((s.channels m).eraseIdx i))
  | .assembler => assemblerStep s

/-! ## What a step can do -/

theorem senderStep_cases {s s' : State g} {m : Nat} (h : senderStep s m = some s') :
    (∃ pulseId r f rest previous phase, phase ≠ .send ∧
      getFrameFromUdp (s.senders m).receiver (s.senders m).frame (s.senders m).events =
        .returned pulseId r f rest ∧
      s' = s.setSender m ⟨r, f, pulseId, previous, rest, phase⟩ ∧ (s.senders m).phase = .receive) ∨
    (∃ buffer, (s.senders m).phase = .writeFrame ∧
      s.buffer.writeFrame (s.senders m).frame.metadata (moduleData (s.senders m).frame) = some buffer ∧
      s' = State.setSender { s with
        buffer := buffer
        log := s.log ++ [((s.senders m).frame.metadata, moduleData (s.senders m).frame)] } m
        { s.senders m with phase := .send }) ∨
    (∃ mark, (s.senders m).phase = .send ∧
      s' = (s.setChannel m (s.channels m ++ [(s.senders m).pulseId])).setSender m
        { s.senders m with previous := mark, phase := .receive }) := by
  unfold senderStep at h
  simp only at h
  cases hphase : (s.senders m).phase with
  | receive =>
    simp only [hphase] at h
    cases hout : getFrameFromUdp (s.senders m).receiver (s.senders m).frame (s.senders m).events with
    | receiving r f =>
      rw [hout] at h
      cases h
    | returned pulseId r f rest =>
      simp only [hout] at h
      split at h
      · cases h
        exact .inl ⟨_, _, _, _, _, _, by decide, rfl, rfl, rfl⟩
      · cases h
        exact .inl ⟨_, _, _, _, _, _, by decide, rfl, rfl, rfl⟩
  | writeFrame =>
    simp only [hphase] at h
    obtain ⟨buffer, hwrite, hs'⟩ := Option.bind_eq_some_iff.1 h
    cases hs'
    exact .inr (.inl ⟨buffer, rfl, hwrite, rfl⟩)
  | send =>
    simp only [hphase] at h
    cases h
    exact .inr (.inr ⟨_, rfl, rfl⟩)

theorem assemblerStep_cases {s s' : State g} (h : assemblerStep s = some s') :
    (∃ m p msgs, s.channels m = p :: msgs ∧ s' = (s.setChannel m msgs).setUnread m (s.unread m ++ [p])) ∨
    (∃ res rest, getNextPulseId ((List.range g.nModules).map s.unread) = .ok (res, rest) ∧
      s' = { s with assembler := .assembling res.pulseId, unread := fun m => rest.getD m [] }) ∨
    (∃ p image, s.assembler = .assembling p ∧ s.buffer.assembleImage p s.imageMeta = some (.ok (), image) ∧
      s' = { s with assembler := .receiving, imageMeta := image }) ∨
    (∃ what image, s' = { s with assembler := .threw what, imageMeta := image }) := by
  unfold assemblerStep at h
  cases hphase : s.assembler with
  | receiving =>
    simp only [hphase] at h
    cases hout : getNextPulseId ((List.range g.nModules).map s.unread) with
    | ok out =>
      simp only [hout] at h
      cases h
      exact .inr (.inl ⟨out.1, out.2, rfl, rfl⟩)
    | error e =>
      cases e with
      | blocked m =>
        simp only [hout] at h
        cases hchannel : s.channels m with
        | nil =>
          rw [hchannel] at h
          cases h
        | cons p msgs =>
          simp only [hchannel] at h
          cases h
          exact .inl ⟨m, p, msgs, hchannel, rfl⟩
      | threw what =>
        simp only [hout] at h
        cases h
        exact .inr (.inr (.inr ⟨what, s.imageMeta, rfl⟩))
  | assembling pulseId =>
    simp only [hphase] at h
    split at h
    · cases h
    · rename_i image himage
      cases h
      exact .inr (.inr (.inl ⟨pulseId, image, rfl, himage, rfl⟩))
    · cases h
      exact .inr (.inr (.inr ⟨_, _, rfl⟩))
  | threw what =>
    simp only [hphase] at h
    cases h

/-- No step takes a frame out of the log. -/
theorem step_log {s s' : State g} {a : Action} (h : step a s = some s') : s.log ⊆ s'.log := by
  cases a with
  | sender m =>
    unfold step at h
    simp only at h
    split at h
    · rcases senderStep_cases h with ⟨_, _, _, _, _, _, -, -, rfl, -⟩ | ⟨_, -, -, rfl⟩ | ⟨_, -, rfl⟩
      · exact List.Subset.refl _
      · exact List.subset_append_left _ _
      · exact List.Subset.refl _
    · cases h
  | drop m i =>
    cases h
    exact List.Subset.refl _
  | assembler =>
    rcases assemblerStep_cases h with ⟨_, _, _, -, rfl⟩ | ⟨_, _, -, rfl⟩ | ⟨_, _, -, -, rfl⟩ | ⟨_, _, rfl⟩
    all_goals exact List.Subset.refl _

/-! ## Initial states -/

/-- A process that starts: its packet slots and its frame are not initialized. -/
structure SenderInit (m : Nat) (sender : Sender) : Prop where
  receiver : ∃ slots, sender.receiver = .new m slots
  previous : sender.previous = ⟨0, 0⟩
  phase : sender.phase = .receive

structure Init (s : State g) : Prop where
  senders : ∀ m, SenderInit m (s.senders m)
  channels : ∀ m, s.channels m = []
  unread : ∀ m, s.unread m = []
  assembler : s.assembler = .receiving
  log : s.log = []

/-- Processes that start on a new RAM buffer, with what `recvmmsg` will return to each. -/
def State.start (g : Geometry) (events : Nat → List RecvMany) : State g where
  buffer := .new g
  senders m := ⟨.new m [], ⟨.zero, fun _ => 0⟩, 0, ⟨0, 0⟩, events m, .receive⟩
  channels _ := []
  assembler := .receiving
  unread _ := []
  imageMeta := ⟨0, 0, 0, 0⟩
  log := []

theorem init_start (g : Geometry) (events : Nat → List RecvMany) : Init (State.start g events) where
  senders _ := ⟨⟨[], rfl⟩, rfl, rfl⟩
  channels _ := rfl
  unread _ := rfl
  assembler := rfl
  log := rfl

/-- The states that the live path can get into. -/
abbrev Reachable (s : State g) : Prop := Runs.Reachable Init step s

end SfDaqBuffer.LivePath
