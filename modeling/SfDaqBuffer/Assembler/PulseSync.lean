/-
`ZmqPulseSyncReceiver` of jf-assembler and sf-stream: the next pulse_id that all modules have. A
socket is the list of the messages it will deliver; a receive from an empty one blocks.
-/
import SfDaqBuffer.Lib.Streams

namespace SfDaqBuffer.Assembler

abbrev pulseOffsetLimit : UInt64 := 100
abbrev syncRetryLimit : Nat := 3

structure PulseAndSync where
  pulseId : UInt64
  nLostPulses : UInt32
  deriving DecidableEq, Repr

/-- `pulses[i]`, and what socket `i` has not delivered yet. -/
structure Module where
  pulse : UInt64
  unread : List UInt64

/-- A call that does not return: it waits for a message of a module, or throws. -/
inductive Stop
  | blocked (module : Nat)
  | threw (what : String)
  deriving DecidableEq, Repr

/-! ## The first messages -/

/-- One receive from each socket, from socket `i` on. -/
def recvAll : Nat → List (List UInt64) → Except Stop (List Module)
  | _, [] => .ok []
  | i, [] :: _ => .error (.blocked i)
  | i, (pulse :: unread) :: sockets => do
    let modules ← recvAll (i + 1) sockets
    return ⟨pulse, unread⟩ :: modules

/-- `pulses[0]`. -/
def firstPulse : List Module → UInt64
  | [] => 0
  | m :: _ => m.pulse

def modulesInSync (modules : List Module) : Bool := modules.all fun m => firstPulse modules == m.pulse

/-! ## Synchronization rounds -/

def minPulseId (modules : List Module) : UInt64 :=
  modules.foldl (fun acc m => min acc m.pulse) (UInt64.ofNat (2 ^ 64 - 1))

def maxPulseId (modules : List Module) : UInt64 := modules.foldl (fun acc m => max acc m.pulse) 0

/-- Receives from socket `i` until `pulses[i]` is not below `maxPulseId`. -/
def skipTo (maxPulseId : UInt64) (i : Nat) :
    UInt64 → List UInt64 → UInt32 → Except Stop (Module × UInt32)
  | pulse, [], lost => if pulse < maxPulseId then .error (.blocked i) else .ok (⟨pulse, []⟩, lost)
  | pulse, next :: unread, lost =>
    if pulse < maxPulseId then skipTo maxPulseId i next unread (lost + 1)
    else .ok (⟨pulse, next :: unread⟩, lost)

/-- The loop over the modules of one round, with `i_sync_lost_pulses` and `modules_in_sync`. -/
def syncRound (maxPulseId : UInt64) :
    Nat → List Module → UInt32 → Bool → Except Stop (List Module × UInt32 × Bool)
  | _, [], lost, inSync => .ok ([], lost, inSync)
  | i, m :: ms, lost, inSync => do
    let (m, moduleLost) ← skipTo maxPulseId i m.pulse m.unread 0
    let (ms, lost, inSync) ←
      syncRound maxPulseId (i + 1) ms (max lost moduleLost) (inSync && m.pulse == maxPulseId)
    return (m :: ms, lost, inSync)

def offsetLimitError (maxDiff : UInt64) (modules : List Module) : String :=
  let pulses := (List.range modules.length).zip modules |>.map fun (i, m) =>
    s!" (module {i}, {m.pulse}),"
  "[ZmqPulseSyncReceiver::get_next_pulse_id] PULSE_OFFSET_LIMIT exceeded." ++
    s!" max_diff={maxDiff} pulses." ++ String.join pulses ++ "\n"

def retryLimitError : String := "[ZmqLiveReceiver::get_next_pulse_id] SYNC_RETRY_LIMIT exceeded.\n"

/-- The rounds that are left, with `n_lost_pulses`. -/
def syncLoop : Nat → List Module → UInt32 → Except Stop (PulseAndSync × List Module)
  | 0, _, _ => .error (.threw retryLimitError)
  | n + 1, modules, nLostPulses => do
    let maxPulseId := maxPulseId modules
    let maxDiff := maxPulseId - minPulseId modules
    if maxDiff > pulseOffsetLimit then
      throw (.threw (offsetLimitError maxDiff modules))
    let (modules, lost, inSync) ← syncRound maxPulseId 0 modules 0 true
    if inSync then return (⟨firstPulse modules, nLostPulses + lost⟩, modules)
    else syncLoop n modules (nLostPulses + lost)

/-- The result, and what the sockets have left after it. -/
def getNextPulseId (sockets : List (List UInt64)) : Except Stop (PulseAndSync × List (List UInt64)) := do
  let modules ← recvAll 0 sockets
  if modulesInSync modules then return (⟨firstPulse modules, 0⟩, modules.map Module.unread)
  else do
    let (res, modules) ← syncLoop syncRetryLimit modules 0
    return (res, modules.map Module.unread)

/-! ## What a call has read -/

/-- The current pulse of each module has been read from its socket. -/
def ModulesRead (sockets : List (List UInt64)) (modules : List Module) : Prop :=
  List.Forall₂ (fun s (m : Module) => Streams.ReadTo s m.pulse m.unread) sockets modules

theorem recvAll_read : ∀ {i : Nat} {sockets : List (List UInt64)} {modules : List Module},
    recvAll i sockets = .ok modules → ModulesRead sockets modules
  | _, [], _, h => by
    cases h
    exact .nil
  | _, [] :: _, _, h => by cases h
  | i, (pulse :: unread) :: sockets, modules, h => by
    unfold recvAll at h
    cases hrest : recvAll (i + 1) sockets with
    | error e => rw [hrest] at h; cases h
    | ok rest =>
      rw [hrest] at h
      cases h
      exact .cons ⟨[], rfl⟩ (recvAll_read hrest)

theorem skipTo_read {top : UInt64} {i : Nat} {s : List UInt64} {m : Module} {lost' : UInt32} :
    ∀ {p : UInt64} {unread : List UInt64} {lost : UInt32}, Streams.ReadTo s p unread →
      skipTo top i p unread lost = .ok (m, lost') → Streams.ReadTo s m.pulse m.unread
  | p, [], lost, hr, h => by
    unfold skipTo at h
    split at h
    · cases h
    · cases h
      exact hr
  | p, q :: unread, lost, hr, h => by
    unfold skipTo at h
    split at h
    · exact skipTo_read hr.next h
    · cases h
      exact hr

theorem syncRound_read {top : UInt64} {sockets : List (List UInt64)} {modules : List Module}
    (hread : ModulesRead sockets modules) : ∀ {i : Nat} {lost : UInt32} {inSync : Bool} {modules' : List Module}
      {lost' : UInt32} {inSync' : Bool}, syncRound top i modules lost inSync = .ok (modules', lost', inSync') →
      ModulesRead sockets modules' ∧ (inSync' = true → inSync = true ∧ ∀ m ∈ modules', m.pulse = top) := by
  induction hread with
  | nil =>
    intro i lost inSync modules' lost' inSync' h
    cases h
    exact ⟨.nil, fun h => ⟨h, nofun⟩⟩
  | @cons s m sockets modules hr _ ih =>
    intro i lost inSync modules' lost' inSync' h
    unfold syncRound at h
    cases hskip : skipTo top i m.pulse m.unread 0 with
    | error e => rw [hskip] at h; cases h
    | ok out =>
      rw [hskip] at h
      simp only [bind, Except.bind] at h
      cases hround : syncRound top (i + 1) modules (max lost out.2) (inSync && out.1.pulse == top) with
      | error e => rw [hround] at h; cases h
      | ok round =>
        rw [hround] at h
        cases h
        obtain ⟨hrest, hsync⟩ := ih hround
        refine ⟨.cons (skipTo_read hr hskip) hrest, fun hin => ?_⟩
        obtain ⟨hboth, hall⟩ := hsync hin
        rw [Bool.and_eq_true, beq_iff_eq] at hboth
        exact ⟨hboth.1, List.forall_mem_cons.2 ⟨hboth.2, hall⟩⟩

/-- Modules in sync have read their sockets up to the pulse_id that is returned. -/
theorem ModulesRead.synced {sockets : List (List UInt64)} {modules : List Module} {p : UInt64}
    (h : ModulesRead sockets modules) (hp : ∀ m ∈ modules, m.pulse = p) :
    List.Forall₂ (fun s s' => Streams.ReadTo s (firstPulse modules) s') sockets (modules.map Module.unread) := by
  have hfirst : ∀ m ∈ modules, m.pulse = firstPulse modules := by
    cases modules with
    | nil => exact nofun
    | cons first rest => exact fun m hm => (hp m hm).trans (hp first (List.mem_cons_self ..)).symm
  rw [List.forall₂_map_right_iff]
  exact Streams.forall₂_imp_mem h fun s m hm hr => hfirst m hm ▸ hr

theorem syncLoop_read {sockets : List (List UInt64)} {res : PulseAndSync} {modules' : List Module} :
    ∀ {n : Nat} {modules : List Module} {nLost : UInt32}, ModulesRead sockets modules →
      syncLoop n modules nLost = .ok (res, modules') →
      List.Forall₂ (fun s s' => Streams.ReadTo s res.pulseId s') sockets (modules'.map Module.unread)
  | 0, _, _, _, h => by cases h
  | n + 1, modules, nLost, hread, h => by
    unfold syncLoop at h
    simp only at h
    split at h
    · cases h
    · simp only [bind, Except.bind] at h
      cases hround : syncRound (maxPulseId modules) 0 modules 0 true with
      | error e => rw [hround] at h; cases h
      | ok round =>
        rw [hround] at h
        obtain ⟨hread', hsync⟩ := syncRound_read hread hround
        simp only at h
        split at h
        · rename_i hin
          cases h
          exact hread'.synced (hsync hin).2
        · exact syncLoop_read hread' h

/-- A call that returns has read each socket up to its result. -/
theorem getNextPulseId_read {sockets rest : List (List UInt64)} {res : PulseAndSync}
    (h : getNextPulseId sockets = .ok (res, rest)) :
    List.Forall₂ (fun s s' => Streams.ReadTo s res.pulseId s') sockets rest := by
  unfold getNextPulseId at h
  cases hall : recvAll 0 sockets with
  | error e => rw [hall] at h; cases h
  | ok modules =>
    rw [hall] at h
    have hread := recvAll_read hall
    simp only [bind, Except.bind] at h
    split at h
    · rename_i hsync
      cases h
      refine hread.synced (p := firstPulse modules) fun m hm => ?_
      exact (beq_iff_eq.1 (List.all_eq_true.1 hsync m hm)).symm
    · cases hloop : syncLoop syncRetryLimit modules 0 with
      | error e => rw [hloop] at h; cases h
      | ok out =>
        rw [hloop] at h
        cases h
        exact syncLoop_read hread hloop

/-! ## Successive calls -/

/-- A call that returned, with the sockets before and after it. -/
structure Call where
  before : List (List UInt64)
  returned : PulseAndSync
  after : List (List UInt64)

/-- At most `n` calls, and why the last of them did not return if it did not. -/
def calls : Nat → List (List UInt64) → List Call × Option Stop
  | 0, _ => ([], none)
  | n + 1, sockets =>
    match getNextPulseId sockets with
    | .error e => ([], some e)
    | .ok (res, after) => (⟨sockets, res, after⟩ :: (calls n after).1, (calls n after).2)

end SfDaqBuffer.Assembler
