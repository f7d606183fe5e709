/-
Which packets `JfjFrameUdpReceiver` loses. A call that has copied no packet yet and finds another
framenum in front of the buffer returns 0 from `process_packets`, and `get_frame_from_udp` then
resets the buffer with its packets. A run loses nothing exactly when the stream never puts a call
into that position: its first packet carries the initial `m_frame_index`, and the packet after
the last packet of a frame carries the same framenum.
-/
import Mathlib.Data.UInt
import SfDaqBuffer.JfjRecv.Receiver

namespace SfDaqBuffer.JfjRecv

/-! ## The condition -/

/-- The packet that ends a frame. -/
def EndsFrame (p : JfjochPacket) : Prop := p.packetnum.toNat = jfjochNPacketsPerFrame - 1

/-- After the last packet of a frame the framenum stays. -/
def SameAfterEnd (p q : JfjochPacket) : Prop := EndsFrame p → q.framenum = p.framenum

/-- The stream starts with framenum `m` and keeps the framenum across each end of a frame. -/
def Steady (m : UInt64) (ps : List JfjochPacket) : Prop :=
  (∀ p ∈ ps.head?, p.framenum = m) ∧ ps.IsChain SameAfterEnd

/-- The condition in the middle of a call: once it has copied a packet any framenum may follow. -/
def Expected (copied : List JfjochPacket) (m : UInt64) (ps : List JfjochPacket) : Prop :=
  (copied = [] → ∀ p ∈ ps.head?, p.framenum = m) ∧ ps.IsChain SameAfterEnd

theorem expected_nil (m : UInt64) (ps : List JfjochPacket) : Expected [] m ps ↔ Steady m ps := by
  unfold Expected Steady; simp

theorem expected_take {c : List JfjochPacket} {m : UInt64} {p : JfjochPacket} (hm : m = p.framenum)
    (he : ¬ EndsFrame p) (ps : List JfjochPacket) :
    Expected c m (p :: ps) ↔ Expected (c ++ [p]) p.framenum ps := by
  unfold Expected
  rw [List.isChain_cons]
  constructor
  · rintro ⟨-, -, h⟩
    exact ⟨fun hc => by simp at hc, h⟩
  · rintro ⟨-, h⟩
    refine ⟨fun _ q hq => ?_, fun q _ hp => absurd hp he, h⟩
    simp only [List.head?_cons, Option.mem_some_iff] at hq
    rw [← hq, hm]

theorem expected_end {c : List JfjochPacket} {m : UInt64} {p : JfjochPacket} (hm : m = p.framenum)
    (he : EndsFrame p) (ps : List JfjochPacket) :
    Expected c m (p :: ps) ↔ Expected [] p.framenum ps := by
  unfold Expected
  rw [List.isChain_cons]
  constructor
  · rintro ⟨-, h, hs⟩
    exact ⟨fun _ q hq => h q hq he, hs⟩
  · rintro ⟨h, hs⟩
    refine ⟨fun _ q hq => ?_, fun q hq _ => h rfl q hq, hs⟩
    simp only [List.head?_cons, Option.mem_some_iff] at hq
    rw [← hq, hm]

theorem expected_cut {c : List JfjochPacket} (hc : c ≠ []) (m : UInt64) (p : JfjochPacket)
    (ps : List JfjochPacket) : Expected c m (p :: ps) ↔ Expected [] p.framenum (p :: ps) := by
  unfold Expected
  constructor
  · rintro ⟨-, h⟩
    exact ⟨fun _ q hq => by simp only [List.head?_cons, Option.mem_some_iff] at hq; rw [hq], h⟩
  · rintro ⟨-, h⟩
    exact ⟨fun h => absurd h hc, h⟩

theorem not_expected {m : UInt64} {p : JfjochPacket} (hm : m ≠ p.framenum) (ps : List JfjochPacket) :
    ¬ Expected [] m (p :: ps) :=
  fun h => hm (h.1 rfl p rfl).symm

/-! ## The frame and the log of a call -/

/-- The frame counts the copied packets and has a pulse_id once there is one. -/
structure Tracks (log : CallLog) (f : Frame) : Prop where
  count : f.metadata.nRecvPackets = UInt64.ofNat log.copied.length
  pulse : f.metadata.pulseId = 0 ↔ log.copied = []

theorem tracks_reset (f : Frame) : Tracks ⟨[], []⟩ (resetFrame f) := ⟨rfl, by simp [resetFrame]⟩

theorem bunchid_toUInt64 {p : JfjochPacket} (h : p.bunchid ≠ 0) : p.bunchid.toUInt64 ≠ 0 := by
  intro h0
  have hback := congrArg UInt64.toInt64 h0
  rw [Int64.toInt64_toUInt64] at hback
  exact h hback

theorem tracks_copy {log : CallLog} {f : Frame} {p : JfjochPacket} (h : Tracks log f)
    (hp : p.bunchid ≠ 0) : Tracks (log.copy p) (copyPacket (initFrame f p) p) := by
  constructor
  · simp [copyPacket, initFrame, CallLog.copy, h.count]
  · simp [copyPacket, initFrame, CallLog.copy, bunchid_toUInt64 hp]

/-! ## One batch -/

/-- How `process_packets` ends on a buffer with the packets `l`: it empties the buffer, or closes
a frame, or stops on a first packet of another framenum. -/
inductive Processed (m : UInt64) (log : CallLog) (l : List JfjochPacket) :
    UInt64 × JfjFrameUdpReceiver × Frame × CallLog → Prop
  | emptied {r' f' log'} : r'.mBuffer.content = [] →
      (∀ s, Expected log.copied m (l ++ s) ↔ Expected log'.copied r'.mFrameIndex s) →
      Processed m log l (0, r', f', log')
  | closed {r' f' log'} : log'.copied ≠ [] →
      (∀ s, Expected log.copied m (l ++ s) ↔
        Expected [] r'.mFrameIndex (r'.mBuffer.content ++ s)) →
      Processed m log l (f'.metadata.pulseId, r', f', log')
  | stuck {r' f' log'} : r'.mBuffer.content ≠ [] →
      (∀ s, ¬ Expected log.copied m (l ++ s)) → Processed m log l (0, r', f', log')

/-- What every end of `process_packets` has in common. -/
structure Kept (log : CallLog) (l : List JfjochPacket)
    (out : UInt64 × JfjFrameUdpReceiver × Frame × CallLog) : Prop where
  wf : out.2.1.mBuffer.WF
  tracks : Tracks out.2.2.2 out.2.2.1
  discarded : out.2.2.2.discarded = log.discarded
  copied : out.2.2.2.copied ++ out.2.1.mBuffer.content = log.copied ++ l
  suffix : out.2.1.mBuffer.content <:+ l

theorem processLoop_spec : ∀ (n : Nat) (r : JfjFrameUdpReceiver) (f : Frame) (log : CallLog)
    (l : List JfjochPacket), r.mBuffer.WF → r.mBuffer.content = l → l.length ≤ n →
      (∀ p ∈ l, p.bunchid ≠ 0) → Tracks log f →
      ∃ out, processLoop n r f log = .ok out ∧ Processed r.mFrameIndex log l out ∧ Kept log l out
  | 0, r, f, log, l, hw, hl, hn, _, ht => by
    obtain rfl : l = [] := List.length_eq_zero_iff.1 (by omega)
    exact ⟨_, rfl, .emptied hl fun _ => Iff.rfl, hw, ht, rfl, by rw [hl], by rw [hl]⟩
  | n + 1, r, f, log, [], hw, hl, _, _, ht => by
    rw [processLoop_empty n f log hw hl]
    exact ⟨_, rfl, .emptied hl fun _ => Iff.rfl, hw, ht, rfl, by rw [hl], by rw [hl]⟩
  | n + 1, r, f, log, p :: l, hw, hl, hn, hreg, ht => by
    obtain ⟨b', hb', hw', hround⟩ := processLoop_front n f log hw hl
    rw [hround]
    by_cases hm : r.mFrameIndex ≠ p.framenum
    · -- another framenum in front: the frame is closed, if it has a packet
      rw [if_pos hm]
      refine ⟨_, rfl, ?_, hw, ht, rfl, by simp only [hl], by simp only [hl]; exact List.suffix_rfl⟩
      by_cases hc : log.copied = []
      · rw [ht.pulse.2 hc]
        refine .stuck (by rw [hl]; exact List.cons_ne_nil _ _) fun s => ?_
        rw [hc]
        exact not_expected hm _
      · exact .closed hc fun s => by simp only [hl]; exact expected_cut hc _ _ _
    · rw [if_neg hm]
      rw [not_not] at hm
      have ht' := tracks_copy ht (hreg p (List.mem_cons_self ..))
      split
      · rename_i hend
        exact ⟨_, rfl, .closed (by simp [CallLog.copy]) fun s => by
          simp only [hb']; exact expected_end hm hend _, hw', ht', rfl, by simp [CallLog.copy, hb'],
          by simp only [hb']; exact List.suffix_cons ..⟩
      · rename_i hend
        obtain ⟨out, ho, hp, hk⟩ := processLoop_spec n ⟨p.framenum, b'⟩ _ (log.copy p) l hw' hb'
          (by simp at hn; omega) (fun q hq => hreg q (List.mem_cons_of_mem _ hq)) ht'
        have htake := fun s => expected_take (c := log.copied) hm hend (l ++ s)
        refine ⟨out, ho, ?_, hk.wf, hk.tracks, hk.discarded, ?_,
          hk.suffix.trans (List.suffix_cons ..)⟩
        · cases hp with
          | emptied h1 h2 => exact .emptied h1 fun s => (htake s).trans (h2 s)
          | closed h1 h2 => exact .closed h1 fun s => (htake s).trans (h2 s)
          | stuck h1 h2 => exact .stuck h1 fun s h => h2 s ((htake s).1 h)
        · rw [hk.copied]; simp [CallLog.copy]

theorem processPackets_spec {r : JfjFrameUdpReceiver} (f : Frame) (log : CallLog)
    (hw : r.mBuffer.WF) (hreg : ∀ p ∈ r.mBuffer.content, p.bunchid ≠ 0) (ht : Tracks log f) :
    ∃ out, processPackets r f log = .ok out ∧ Processed r.mFrameIndex log r.mBuffer.content out ∧
      Kept log r.mBuffer.content out := by
  have hn : r.mBuffer.content.length ≤ r.mBuffer.size.toNat := by
    rw [← PacketBuffer.length_content hw]; simp
  exact processLoop_spec _ r f log _ hw rfl hn hreg ht

/-! ## One call -/

/-- What a call that starts with the log `log₀`, the framenum `m` and the unread stream `ps`
gives: it has discarded nothing exactly when the stream was expected, as far as the call read it. -/
inductive CallSpec (log₀ : CallLog) (m : UInt64) (ps : List JfjochPacket) : Outcome → Prop
  | returned {r f log rest} : r.mBuffer.WF → Tracks log f → log.copied ≠ [] →
      r.mBuffer.content ++ received rest <:+ ps →
      (r.mBuffer.content ++ received rest).length + log.copied.length + log.discarded.length =
        ps.length + log₀.copied.length + log₀.discarded.length →
      (log.discarded = [] → log₀.discarded = [] ∧
        log.copied ++ (r.mBuffer.content ++ received rest) = log₀.copied ++ ps) →
      (log.discarded = [] ∧ Expected [] r.mFrameIndex (r.mBuffer.content ++ received rest) ↔
        log₀.discarded = [] ∧ Expected log₀.copied m ps) →
      CallSpec log₀ m ps (.returned f.metadata.pulseId r f log rest)
  | receiving {r f log} : Tracks log f →
      (log.discarded = [] → log.copied = log₀.copied ++ ps) →
      (log.discarded = [] ↔ log₀.discarded = [] ∧ Expected log₀.copied m ps) →
      CallSpec log₀ m ps (.receiving r f log)

/-- The part of a call after it has read the front of the stream. -/
theorem CallSpec.after {log₀ log₁ : CallLog} {m₀ m₁ : UInt64} {ps ps' : List JfjochPacket} {out : Outcome}
    (h : CallSpec log₁ m₁ ps' out) (hs : ps' <:+ ps)
    (hlen : ps'.length + log₁.copied.length + log₁.discarded.length =
      ps.length + log₀.copied.length + log₀.discarded.length)
    (hc : log₁.discarded = [] → log₀.discarded = [] ∧ log₁.copied ++ ps' = log₀.copied ++ ps)
    (hiff : log₁.discarded = [] ∧ Expected log₁.copied m₁ ps' ↔
      log₀.discarded = [] ∧ Expected log₀.copied m₀ ps) : CallSpec log₀ m₀ ps out := by
  cases h with
  | returned hw ht hne hsuf hl hcop he =>
    refine .returned hw ht hne (hsuf.trans hs) (hl.trans hlen) (fun hd => ?_) (he.trans hiff)
    obtain ⟨hd', hcop'⟩ := hcop hd
    obtain ⟨hd₀, hc'⟩ := hc hd'
    exact ⟨hd₀, hcop'.trans hc'⟩
  | receiving ht hcop he =>
    refine .receiving ht (fun hd => ?_) (he.trans hiff)
    rw [hcop hd]
    exact (hc (he.1 hd).1).2

/-- `receive_many` overwrites what is in the buffer, so the loop may as well start on an empty
one, with the packets in the log. -/
theorem receiveLoop_reset (evs : List RecvMany) (r : JfjFrameUdpReceiver) (f : Frame) (log : CallLog) :
    receiveLoop evs (resetBuffer r log).1 f (resetBuffer r log).2 = receiveLoop evs r f log := by
  have hreset : resetBuffer (resetBuffer r log).1 (resetBuffer r log).2 = resetBuffer r log := by
    unfold resetBuffer
    simp only [PacketBuffer.content_reset, List.append_nil]
    rfl
  cases evs with
  | nil => unfold receiveLoop; rw [hreset]
  | cons ev evs => unfold receiveLoop; rw [hreset]

/-- The end of a call after `process_packets` on the front `l` of the stream. -/
theorem processed_spec {evs : List RecvMany} {m : UInt64} {log : CallLog}
    {l : List JfjochPacket} {out : UInt64 × JfjFrameUdpReceiver × Frame × CallLog}
    (hp : Processed m log l out) (hk : Kept log l out)
    (ih : ∀ (r' : JfjFrameUdpReceiver) (f' : Frame) (log' : CallLog), r'.mBuffer.content = [] →
      r'.mBuffer.WF → Tracks log' f' →
      CallSpec log' r'.mFrameIndex (received evs) (receiveLoop evs r' f' log')) :
    CallSpec log m (l ++ received evs)
      (if out.1 ≠ 0 then .returned out.1 out.2.1 out.2.2.1 out.2.2.2 evs
        else receiveLoop evs out.2.1 out.2.2.1 out.2.2.2) := by
  have hcop := hk.copied
  have hlen := congrArg List.length hcop
  simp only [List.length_append] at hlen
  obtain ⟨pulseId, r', f', log'⟩ := out
  dsimp only at hcop hlen
  cases hp with
  | emptied hb he =>
    simp only [hb, List.append_nil, List.length_nil] at hcop hlen
    refine (ih r' f' log' hb hk.wf hk.tracks).after (List.suffix_append ..) ?_ (fun hd => ⟨?_, ?_⟩) ?_
    · rw [hk.discarded, List.length_append]; omega
    · rw [← hk.discarded]; exact hd
    · rw [hcop, List.append_assoc]
    · rw [hk.discarded, he]
  | closed hne he =>
    have hpulse : f'.metadata.pulseId ≠ 0 := fun h0 => hne (hk.tracks.pulse.1 h0)
    simp only [if_pos hpulse]
    refine .returned hk.wf hk.tracks hne ?_ ?_ (fun hd => ⟨?_, ?_⟩) ?_
    · obtain ⟨pre, hpre⟩ := hk.suffix
      exact ⟨pre, by rw [← hpre, List.append_assoc]⟩
    · rw [hk.discarded, List.length_append, List.length_append]; omega
    · rw [← hk.discarded]; exact hd
    · rw [← List.append_assoc, hcop, List.append_assoc]
    · rw [hk.discarded, he]
  | stuck hne he =>
    have hd : (resetBuffer r' log').2.discarded ≠ [] := by
      intro h0
      exact hne (List.append_eq_nil_iff.1 h0).2
    have hloop := ih (resetBuffer r' log').1 f' (resetBuffer r' log').2 (PacketBuffer.content_reset _)
      (PacketBuffer.reset_wf _) ⟨hk.tracks.count, hk.tracks.pulse⟩
    rw [receiveLoop_reset] at hloop
    refine hloop.after (List.suffix_append ..) ?_ (fun h0 => absurd h0 hd) ?_
    · have hdis : log'.discarded = log.discarded := hk.discarded
      simp only [resetBuffer, List.length_append, hdis]; omega
    · exact ⟨fun h => absurd h.1 hd, fun h => absurd h.2 (he _)⟩

theorem receiveLoop_spec : ∀ (evs : List RecvMany) (r : JfjFrameUdpReceiver) (f : Frame) (log : CallLog),
    r.mBuffer.content = [] → r.mBuffer.WF → Tracks log f → (∀ p ∈ received evs, p.bunchid ≠ 0) →
      CallSpec log r.mFrameIndex (received evs) (receiveLoop evs r f log)
  | [], r, f, log, hb, _, ht, _ => by
    unfold receiveLoop resetBuffer
    rw [hb, List.append_nil]
    exact .receiving ht (fun _ => (List.append_nil _).symm) 
      ⟨fun h => ⟨h, ⟨fun _ => nofun, List.isChain_nil⟩⟩, fun h => h.1⟩
  | ev :: evs, r, f, log, hb, _, ht, hreg => by
    have hreg' : ∀ p ∈ received evs, p.bunchid ≠ 0 := fun p hp =>
      hreg p (List.mem_append_right ev.items hp)
    have hnext : ∀ (r' : JfjFrameUdpReceiver) (f' : Frame) (log' : CallLog), r'.mBuffer.content = [] →
        r'.mBuffer.WF → Tracks log' f' →
        CallSpec log' r'.mFrameIndex (received evs) (receiveLoop evs r' f' log') :=
      fun r' f' log' hb' hw' ht' => receiveLoop_spec evs r' f' log' hb' hw' ht' hreg'
    have hlog : (resetBuffer r log).2 = log := by unfold resetBuffer; rw [hb, List.append_nil]
    have hw := PacketBuffer.fillFrom_wf (resetBuffer r log).1.mBuffer ev
    have hc := PacketBuffer.content_fillFrom (resetBuffer r log).1.mBuffer ev
    have hm : (resetBuffer r log).1.mFrameIndex = r.mFrameIndex := rfl
    unfold receiveLoop
    simp only [hlog, hm]
    generalize (resetBuffer r log).1.mBuffer.fillFrom ev = b at hw hc ⊢
    have hps : received (ev :: evs) = b.content ++ received evs := by rw [hc]; rfl
    rw [hps] at hreg ⊢
    split
    · rename_i hempty
      rw [(PacketBuffer.isEmpty_iff hw).1 hempty, List.nil_append]
      exact hnext ⟨r.mFrameIndex, b⟩ f log ((PacketBuffer.isEmpty_iff hw).1 hempty) hw ht
    · obtain ⟨out, ho, hp, hk⟩ := processPackets_spec (r := ⟨r.mFrameIndex, b⟩) f log hw
        (fun p hp => hreg p (List.mem_append_left _ hp)) ht
      rw [ho]
      exact processed_spec hp hk hnext

theorem getFrameFromUdp_spec {r : JfjFrameUdpReceiver} (f : Frame) {evs : List RecvMany}
    (hw : r.mBuffer.WF) (hreg : ∀ p ∈ r.mBuffer.content ++ received evs, p.bunchid ≠ 0) :
    CallSpec ⟨[], []⟩ r.mFrameIndex (r.mBuffer.content ++ received evs) (getFrameFromUdp r f evs) := by
  have hnext : ∀ (r' : JfjFrameUdpReceiver) (f' : Frame) (log' : CallLog), r'.mBuffer.content = [] →
      r'.mBuffer.WF → Tracks log' f' →
      CallSpec log' r'.mFrameIndex (received evs) (receiveLoop evs r' f' log') :=
    fun r' f' log' hb' hw' ht' => receiveLoop_spec evs r' f' log' hb' hw' ht'
      fun p hp => hreg p (List.mem_append_right _ hp)
  have ht := tracks_reset f
  unfold getFrameFromUdp
  simp only
  split
  · rename_i hempty
    have hb := (PacketBuffer.isEmpty_iff hw).1 hempty
    rw [hb, List.nil_append]
    exact hnext r _ _ hb hw ht
  · obtain ⟨out, ho, hp, hk⟩ := processPackets_spec _ _ hw (fun p hp => hreg p (List.mem_append_left _ hp)) ht
    rw [ho]
    exact processed_spec hp hk hnext

/-! ## Successive calls -/

/-- The packets copied into the frames of a run, in order. -/
def Run.copied (run : Run) : List JfjochPacket :=
  run.frames.flatMap (fun out => out.2.2.copied) ++ run.pending.2.copied

/-- The packets a reset dropped. -/
def Run.discarded (run : Run) : List JfjochPacket :=
  run.frames.flatMap (fun out => out.2.2.discarded) ++ run.pending.2.discarded

/-- `n_recv_packets` summed over the frames of a run. -/
def Run.nRecvPackets (run : Run) : UInt64 :=
  (run.frames.map fun out => out.2.1.metadata.nRecvPackets).sum + run.pending.1.metadata.nRecvPackets

theorem Run.copied_cons (out : UInt64 × Frame × CallLog) (run : Run) :
    Run.copied ⟨out :: run.frames, run.pending⟩ = out.2.2.copied ++ run.copied := by
  simp [Run.copied]

theorem Run.discarded_cons (out : UInt64 × Frame × CallLog) (run : Run) :
    Run.discarded ⟨out :: run.frames, run.pending⟩ = out.2.2.discarded ++ run.discarded := by
  simp [Run.discarded]

theorem Run.nRecvPackets_cons (out : UInt64 × Frame × CallLog) (run : Run) :
    Run.nRecvPackets ⟨out :: run.frames, run.pending⟩ =
      out.2.1.metadata.nRecvPackets + run.nRecvPackets := by
  simp [Run.nRecvPackets, UInt64.add_assoc]

/-- Every packet of the stream is copied into one frame and counted there, and the buffer is never
reset with a packet in it. -/
structure NoLoss (ps : List JfjochPacket) (run : Run) : Prop where
  copied : run.copied = ps
  counted : run.nRecvPackets = UInt64.ofNat ps.length
  discarded : run.discarded = []

/-- What every run does: it counts what it copies, and it copies the whole stream in order exactly
when nothing was in the buffer at a reset. -/
structure RunSpec (m : UInt64) (ps : List JfjochPacket) (run : Run) : Prop where
  counted : run.nRecvPackets = UInt64.ofNat run.copied.length
  copied : run.discarded = [] → run.copied = ps
  expected : run.discarded = [] ↔ Steady m ps

theorem calls_spec : ∀ (k : Nat) (r : JfjFrameUdpReceiver) (f : Frame) (evs : List RecvMany),
    r.mBuffer.WF → (∀ p ∈ r.mBuffer.content ++ received evs, p.bunchid ≠ 0) →
      (r.mBuffer.content ++ received evs).length < k →
      ∃ run, (∀ n ≥ k, calls n r f evs = some run) ∧
        RunSpec r.mFrameIndex (r.mBuffer.content ++ received evs) run
  | 0, _, _, _, _, _, hlen => absurd hlen (Nat.not_lt_zero _)
  | k + 1, r, f, evs, hw, hreg, hlen => by
    have h := getFrameFromUdp_spec f hw hreg
    have hunfold : ∀ n ≥ k + 1, ∃ n', n = n' + 1 ∧ k ≤ n' := fun n hn => ⟨n - 1, by omega, by omega⟩
    cases hout : getFrameFromUdp r f evs with
    | threw e => rw [hout] at h; nomatch h
    | receiving r' f' log =>
      rw [hout] at h
      cases h with
      | receiving ht hcop hiff =>
        refine ⟨⟨[], f', log⟩, fun n hn => ?_, ?_, fun hd => ?_, ?_⟩
        · obtain ⟨n', rfl, -⟩ := hunfold n hn
          unfold calls
          rw [hout]
        · simp [Run.nRecvPackets, Run.copied, ht.count]
        · simpa [Run.copied] using hcop (by simpa [Run.discarded] using hd)
        · simpa [Run.discarded, expected_nil] using hiff
    | returned pulseId r' f' log rest =>
      rw [hout] at h
      cases h with
      | returned hw' ht hne hsuf hl hcop hiff =>
        have hpos : 0 < log.copied.length := List.length_pos_iff.2 hne
        obtain ⟨run, hrun, hspec⟩ := calls_spec k r' f' rest hw'
          (fun p hp => hreg p (hsuf.subset hp)) (by simp at hl hlen ⊢; omega)
        refine ⟨⟨(f'.metadata.pulseId, f', log) :: run.frames, run.pending⟩, fun n hn => ?_, ?_, ?_, ?_⟩
        · obtain ⟨n', rfl, hn'⟩ := hunfold n hn
          unfold calls
          rw [hout]
          simp only [hrun n' hn', Option.map_some]
        · rw [Run.nRecvPackets_cons, Run.copied_cons, ht.count, hspec.counted, List.length_append]
          exact (UInt64.ofNat_add ..).symm
        · rw [Run.discarded_cons, Run.copied_cons, List.append_eq_nil_iff]
          rintro ⟨hd, hds⟩
          rw [hspec.copied hds, (hcop hd).2]
          rfl
        · rw [Run.discarded_cons, List.append_eq_nil_iff, hspec.expected, ← expected_nil, ← expected_nil]
          exact hiff.trans ⟨fun h => h.2, fun h => ⟨rfl, h⟩⟩

theorem RunSpec.noLoss_iff {m : UInt64} {ps : List JfjochPacket} {run : Run} (h : RunSpec m ps run) :
    NoLoss ps run ↔ Steady m ps := by
  constructor
  · intro hloss
    exact h.expected.1 hloss.discarded
  · intro hsteady
    have hd := h.expected.2 hsteady
    exact ⟨h.copied hd, by rw [h.counted, h.copied hd], hd⟩

/-- Repeated calls lose no packet exactly when the first packet has the initial `m_frame_index`
and each packet after the last packet of a frame has that frame's framenum. -/
theorem calls_noLoss_iff (m : UInt64) (container : Fin bufferUdpNRecvMsg → JfjochPacket) (f : Frame)
    (evs : List RecvMany) (hreg : ∀ p ∈ received evs, p.bunchid ≠ 0) :
    ∃ run, (∀ n > (received evs).length, calls n (.new m container) f evs = some run) ∧
      (NoLoss (received evs) run ↔ Steady m (received evs)) := by
  obtain ⟨run, hrun, hspec⟩ := calls_spec ((received evs).length + 1) (.new m container) f evs
    (PacketBuffer.new_wf container) hreg (by exact Nat.lt_succ_self _)
  exact ⟨run, fun n hn => hrun n hn, hspec.noLoss_iff⟩

/-- A packet without payload. -/
def bare (framenum : UInt64) (packetnum : UInt32) (bunchid : Int64) : JfjochPacket :=
  ⟨framenum, packetnum, bunchid, 0, fun _ => 0⟩

/-- The condition holds of a frame of two packets that meets its `m_frame_index`. -/
theorem calls_noLoss_iff_two :
    Steady 7 [bare 7 0 5, bare 7 4095 5] ∧
      ∃ run, calls 3 (.new 7 fun _ => bare 0 0 0) ⟨.zero, fun _ => 0⟩
          [.msgs [bare 7 0 5] (by decide), .error, .msgs [bare 7 4095 5] (by decide)] = some run ∧
        NoLoss [bare 7 0 5, bare 7 4095 5] run := by
  have hsteady : Steady 7 [bare 7 0 5, bare 7 4095 5] := by
    refine ⟨by simp [bare], List.isChain_cons_cons.2 ⟨fun h => ?_, List.isChain_singleton _⟩⟩
    rfl
  obtain ⟨run, hrun, hiff⟩ := calls_noLoss_iff 7 (fun _ => bare 0 0 0) ⟨.zero, fun _ => 0⟩
    [.msgs [bare 7 0 5] (by decide), .error, .msgs [bare 7 4095 5] (by decide)]
    (by decide)
  exact ⟨hsteady, run, hrun 3 (by decide), hiff.2 hsteady⟩

/-- The first packet of the next frame is dropped when it follows a complete frame. -/
theorem calls_loses_next_frame :
    ∃ run, calls 3 (.new 1000 fun _ => bare 0 0 0) ⟨.zero, fun _ => 0⟩
        [.msgs [bare 1000 4095 5, bare 1001 0 6] (by decide)] = some run ∧
      ¬ NoLoss [bare 1000 4095 5, bare 1001 0 6] run := by
  obtain ⟨run, hrun, hspec⟩ := calls_spec 3 (.new 1000 fun _ => bare 0 0 0) ⟨.zero, fun _ => 0⟩
    [.msgs [bare 1000 4095 5, bare 1001 0 6] (by decide)]
    (PacketBuffer.new_wf _) (by decide) (by decide)
  refine ⟨run, hrun 3 (by decide), fun hloss => ?_⟩
  have hsteady := hspec.noLoss_iff.1 hloss
  have hsame := (List.isChain_cons_cons.1 hsteady.2).1 rfl
  exact absurd hsame (by decide)

end SfDaqBuffer.JfjRecv
