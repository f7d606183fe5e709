/-
The synchronizer computes the intersection of the module streams: its successive results are the
pulse_ids common to all streams, in order, and each call reads every stream up to its result. The
invariant of the rounds is that no common pulse_id is below the current pulse of any module.
-/
import SfDaqBuffer.Assembler.PulseSync

namespace SfDaqBuffer.Assembler

open Streams

/-- All streams have the pulse_id `c`. -/
def Shared (ss : List (List UInt64)) (c : UInt64) : Prop := ∀ s ∈ ss, c ∈ s

/-- The current pulses are read from the streams, and no shared pulse_id is below one of them. -/
structure Reading (ss : List (List UInt64)) (ms : List Module) : Prop where
  read : List.Forall₂ (fun s (m : Module) => ReadTo s m.pulse m.unread) ss ms
  below : ∀ c, Shared ss c → ∀ m ∈ ms, m.pulse ≤ c

/-! ## The first messages -/

theorem recvAll_spec : ∀ (i : Nat) (ss : List (List UInt64)),
    (∃ ms, recvAll i ss = .ok ms ∧ List.Forall₂ (fun s (m : Module) => s = m.pulse :: m.unread) ss ms) ∨
      ∃ j, recvAll i ss = .error (.blocked j) ∧ [] ∈ ss
  | _, [] => .inl ⟨[], rfl, .nil⟩
  | i, [] :: _ => .inr ⟨i, rfl, List.mem_cons_self ..⟩
  | i, (p :: s) :: ss => by
    unfold recvAll
    rcases recvAll_spec (i + 1) ss with ⟨ms, hms, hread⟩ | ⟨j, hj, hmem⟩
    · rw [hms]
      exact .inl ⟨⟨p, s⟩ :: ms, rfl, .cons rfl hread⟩
    · rw [hj]
      exact .inr ⟨j, rfl, List.mem_cons_of_mem _ hmem⟩

/-- A first message is the least element of its stream. -/
theorem reading_first {ss : List (List UInt64)} {ms : List Module} (hs : ∀ s ∈ ss, s.Pairwise (· < ·))
    (h : List.Forall₂ (fun s (m : Module) => s = m.pulse :: m.unread) ss ms) : Reading ss ms := by
  refine ⟨h.imp fun s m hm => ⟨[], hm⟩, fun c hc m hm => ?_⟩
  obtain ⟨s, hmem, rfl⟩ := forall₂_mem_right h hm
  have hinc := hs _ hmem
  rcases List.mem_cons.1 (hc _ hmem) with rfl | hrest
  · exact le_refl _
  · exact le_of_lt ((List.pairwise_cons.1 hinc).1 c hrest)

/-! ## The least and the greatest pulse -/

theorem foldl_max_spec : ∀ (ms : List Module) (a : UInt64),
    a ≤ ms.foldl (fun acc m => max acc m.pulse) a ∧
      (∀ m ∈ ms, m.pulse ≤ ms.foldl (fun acc m => max acc m.pulse) a) ∧
      ∀ c, a ≤ c → (∀ m ∈ ms, m.pulse ≤ c) → ms.foldl (fun acc m => max acc m.pulse) a ≤ c
  | [], a => ⟨le_refl _, nofun, fun _ h _ => h⟩
  | m :: ms, a => by
    obtain ⟨h1, h2, h3⟩ := foldl_max_spec ms (max a m.pulse)
    refine ⟨(le_max_left _ _).trans h1, fun q hq => ?_, fun c ha hc => ?_⟩
    · rcases List.mem_cons.1 hq with rfl | hq
      · exact (le_max_right _ _).trans h1
      · exact h2 q hq
    · exact h3 c (max_le ha (hc m (List.mem_cons_self ..))) fun q hq => hc q (List.mem_cons_of_mem _ hq)

theorem pulse_le_max {ms : List Module} {m : Module} (hm : m ∈ ms) : m.pulse ≤ maxPulseId ms :=
  (foldl_max_spec ms 0).2.1 m hm

theorem max_le_of_pulses {ms : List Module} {c : UInt64} (h : ∀ m ∈ ms, m.pulse ≤ c) : maxPulseId ms ≤ c :=
  (foldl_max_spec ms 0).2.2 c UInt64.zero_le h

/-! ## One round -/

/-- A module after a round with the maximum `top`: it has read nothing from `top` on but its
current pulse. -/
structure Skipped (top : UInt64) (s : List UInt64) (m : Module) : Prop where
  read : ReadTo s m.pulse m.unread
  reached : top ≤ m.pulse
  below : ∀ c ∈ s, top ≤ c → m.pulse ≤ c

theorem skipTo_spec (top : UInt64) (i : Nat) {s : List UInt64} (hs : s.Pairwise (· < ·)) :
    ∀ (p : UInt64) (unread : List UInt64) (lost : UInt32), ReadTo s p unread →
      (∀ c ∈ s, top ≤ c → p ≤ c) →
      (∃ m lost', skipTo top i p unread lost = .ok (m, lost') ∧ Skipped top s m) ∨
        skipTo top i p unread lost = .error (.blocked i) ∧ ∀ c ∈ s, ¬ top ≤ c
  | p, [], lost, hr, hb => by
    unfold skipTo
    by_cases hp : p < top
    · rw [if_pos hp]
      refine .inr ⟨rfl, fun c hc htop => ?_⟩
      rcases hr.unread hs hc (hb c hc htop) with rfl | hmem
      · exact absurd hp (not_lt.2 htop)
      · cases hmem
    · rw [if_neg hp]
      exact .inl ⟨⟨p, []⟩, lost, rfl, hr, not_lt.1 hp, hb⟩
  | p, q :: unread, lost, hr, hb => by
    unfold skipTo
    by_cases hp : p < top
    · rw [if_pos hp]
      exact skipTo_spec top i hs q unread (lost + 1) hr.next
        fun c hc htop => hr.next_le hs hc (lt_of_lt_of_le hp htop)
    · rw [if_neg hp]
      exact .inl ⟨⟨p, q :: unread⟩, lost, rfl, hr, not_lt.1 hp, hb⟩

theorem syncRound_spec {top : UInt64} : ∀ (i : Nat) (ss : List (List UInt64)) (ms : List Module)
    (lost : UInt32) (inSync : Bool), (∀ s ∈ ss, s.Pairwise (· < ·)) →
      List.Forall₂ (fun s (m : Module) => ReadTo s m.pulse m.unread) ss ms → (∀ m ∈ ms, m.pulse ≤ top) →
      (∃ ms' lost' inSync', syncRound top i ms lost inSync = .ok (ms', lost', inSync') ∧
        List.Forall₂ (Skipped top) ss ms' ∧
        (inSync' = true ↔ inSync = true ∧ ∀ m ∈ ms', m.pulse = top)) ∨
      ∃ j, syncRound top i ms lost inSync = .error (.blocked j) ∧ ∃ s ∈ ss, ∀ c ∈ s, ¬ top ≤ c
  | i, _, [], lost, inSync => by
    rintro - hrs -
    cases hrs
    exact .inl ⟨[], lost, inSync, rfl, .nil, by simp⟩
  | i, _, m :: ms, lost, inSync => by
    rintro hs hrs htop
    cases hrs with
    | @cons s _ ss _ hr hrs =>
      unfold syncRound
      have hm := htop m (List.mem_cons_self ..)
      rcases skipTo_spec top i (hs s (List.mem_cons_self ..)) m.pulse m.unread 0 hr
        (fun c _ hc => hm.trans hc) with ⟨m', lost', hskip, hm'⟩ | ⟨hskip, hnone⟩
      · rw [hskip]
        simp only [bind, Except.bind]
        rcases syncRound_spec (i + 1) ss ms (max lost lost') (inSync && m'.pulse == top)
          (fun t ht => hs t (List.mem_cons_of_mem _ ht)) hrs (fun q hq => htop q (List.mem_cons_of_mem _ hq))
          with ⟨ms', lost'', inSync', hround, hms', hsync⟩ | ⟨j, hround, t, ht, hnone⟩
        · rw [hround]
          refine .inl ⟨m' :: ms', lost'', inSync', rfl, .cons hm' hms', ?_⟩
          rw [hsync, List.forall_mem_cons, Bool.and_eq_true, beq_iff_eq, and_assoc]
        · rw [hround]
          exact .inr ⟨j, rfl, t, List.mem_cons_of_mem _ ht, hnone⟩
      · rw [hskip]
        exact .inr ⟨i, rfl, s, List.mem_cons_self .., hnone⟩

/-- A round keeps the invariant. -/
theorem Reading.skipped {ss : List (List UInt64)} {ms ms' : List Module} (h : Reading ss ms)
    (h' : List.Forall₂ (Skipped (maxPulseId ms)) ss ms') : Reading ss ms' := by
  refine ⟨h'.imp fun s m hm => hm.read, fun c hc m hm => ?_⟩
  obtain ⟨s, hmem, hskip⟩ := forall₂_mem_right h' hm
  exact hskip.below c (hc s hmem) (max_le_of_pulses fun q hq => h.below c hc q hq)

/-! ## One call -/

/-- A call returns the least shared pulse_id and reads all streams up to it; it blocks only when
there is none. -/
inductive SyncSpec (ss : List (List UInt64)) : Except Stop (PulseAndSync × List (List UInt64)) → Prop
  | synced {res rest} : IsLeast { c | Shared ss c } res.pulseId →
      List.Forall₂ (fun s s' => ReadTo s res.pulseId s') ss rest → SyncSpec ss (.ok (res, rest))
  | blocked {i} : (∀ c, ¬ Shared ss c) → SyncSpec ss (.error (.blocked i))
  | threw {what} : SyncSpec ss (.error (.threw what))

/-- Modules that agree have found the next shared pulse_id. -/
theorem synced_spec {ss : List (List UInt64)} {ms : List Module} (hne : ss ≠ []) (h : Reading ss ms)
    {p : UInt64} (hp : ∀ m ∈ ms, m.pulse = p) (lost : UInt32) :
    SyncSpec ss (.ok (⟨firstPulse ms, lost⟩, ms.map Module.unread)) := by
  have hlen := h.read.length_eq
  cases ms with
  | nil => exact absurd (List.length_eq_zero_iff.1 hlen) hne
  | cons m ms =>
    have hfirst : firstPulse (m :: ms) = p := hp m (List.mem_cons_self ..)
    rw [hfirst]
    have hread : List.Forall₂ (fun s s' => ReadTo s p s') ss ((m :: ms).map Module.unread) := by
      rw [List.forall₂_map_right_iff]
      refine List.forall₂_iff_get.2 ⟨hlen, fun i hi hi' => ?_⟩
      have hri := (List.forall₂_iff_get.1 h.read).2 i hi hi'
      rw [hp _ (List.get_mem ..)] at hri
      exact hri
    refine .synced ⟨fun s hs => ?_, fun c hc => ?_⟩ hread
    · obtain ⟨rest, -, hr⟩ := forall₂_mem_left hread hs
      exact hr.mem
    · show p ≤ c
      rw [← hp m (List.mem_cons_self ..)]
      exact h.below c hc m (List.mem_cons_self ..)

theorem syncLoop_spec {ss : List (List UInt64)} (hne : ss ≠ []) (hs : ∀ s ∈ ss, s.Pairwise (· < ·)) :
    ∀ (n : Nat) (ms : List Module) (nLost : UInt32), Reading ss ms →
      SyncSpec ss ((syncLoop n ms nLost).map fun out => (out.1, out.2.map Module.unread))
  | 0, _, _, _ => .threw
  | n + 1, ms, nLost, h => by
    unfold syncLoop
    simp only
    split
    · exact .threw
    · simp only [bind, Except.bind]
      rcases syncRound_spec 0 ss ms 0 true hs h.read (fun m hm => pulse_le_max hm) with
        ⟨ms', lost, inSync, hround, hms', hsync⟩ | ⟨j, hround, s, hmem, hnone⟩
      · rw [hround]
        have h' := h.skipped hms'
        by_cases hin : inSync = true
        · simp only [if_pos hin]
          exact synced_spec hne h' (hsync.1 hin).2 _
        · simp only [if_neg hin]
          exact syncLoop_spec hne hs n ms' _ h'
      · rw [hround]
        -- a shared pulse_id is not below the maximum, and this module has no such pulse
        exact .blocked fun c hc => hnone c (hc s hmem) (max_le_of_pulses fun m hm => h.below c hc m hm)

theorem getNextPulseId_spec {ss : List (List UInt64)} (hne : ss ≠ [])
    (hs : ∀ s ∈ ss, s.Pairwise (· < ·)) : SyncSpec ss (getNextPulseId ss) := by
  unfold getNextPulseId
  rcases recvAll_spec 0 ss with ⟨ms, hms, hfirst⟩ | ⟨j, hj, hmem⟩
  · rw [hms]
    have h := reading_first hs hfirst
    simp only [bind, Except.bind]
    split
    · rename_i hsync
      refine synced_spec hne h (p := firstPulse ms) (fun m hm => ?_) 0
      unfold modulesInSync at hsync
      exact (beq_iff_eq.1 (List.all_eq_true.1 hsync m hm)).symm
    · have hloop := syncLoop_spec hne hs syncRetryLimit ms 0 h
      cases hout : syncLoop syncRetryLimit ms 0 with
      | error e => rw [hout] at hloop; exact hloop
      | ok out => rw [hout] at hloop; exact hloop
  · rw [hj]
    exact .blocked fun c hc => List.not_mem_nil (hc [] hmem)

/-! ## Successive calls -/

/-- What a call does to the sockets: it returns their least shared pulse_id, and reads each of them
up to and including that pulse_id. -/
structure Call.Exact (c : Call) : Prop where
  least : IsLeast { p | Shared c.before p } c.returned.pulseId
  read : List.Forall₂ (fun s s' => ReadTo s c.returned.pulseId s') c.before c.after

theorem calls_spec : ∀ (n : Nat) (ss : List (List UInt64)), ss ≠ [] → (∀ s ∈ ss, s.Pairwise (· < ·)) →
    (∀ what, (calls n ss).2 ≠ some (.threw what)) →
      (calls n ss).1.map (fun c => c.returned.pulseId) = (common ss).take n ∧ ∀ c ∈ (calls n ss).1, c.Exact
  | 0, _, _, _, _ => ⟨rfl, nofun⟩
  | n + 1, ss, hne, hs, hthrow => by
    have h := getNextPulseId_spec hne hs
    unfold calls at hthrow ⊢
    cases hout : getNextPulseId ss with
    | error e =>
      rw [hout] at h hthrow
      cases h with
      | blocked hnone => exact ⟨by rw [common_eq_nil hne hnone]; rfl, nofun⟩
      | @threw what => exact absurd rfl (hthrow what)
    | ok out =>
      rw [hout] at h hthrow
      cases h with
      | @synced res rest hleast hread =>
        have hs' : ∀ s' ∈ rest, s'.Pairwise (· < ·) := by
          intro s' hmem'
          obtain ⟨s, hmem, hr⟩ := forall₂_mem_right hread hmem'
          exact (hs s hmem).sublist hr.suffix.sublist
        have hne' : rest ≠ [] := by
          rintro rfl
          exact hne (List.forall₂_nil_right_iff.1 hread)
        obtain ⟨hps, hexact⟩ := calls_spec n rest hne' hs' hthrow
        refine ⟨?_, List.forall_mem_cons.2 ⟨⟨hleast, hread⟩, hexact⟩⟩
        rw [common_eq_cons hne hs (fun c hc => hleast.2 hc) hread, List.take_succ_cons, ← hps]
        rfl

/-- The successive results are the pulse_ids that occur in every stream, in order: none is skipped
or returned twice, and each call reads all streams up to its result. -/
theorem calls_eq_common (n : Nat) (ss : List (List UInt64)) (hne : ss ≠ [])
    (hs : ∀ s ∈ ss, s.Pairwise (· < ·)) (hthrow : ∀ what, (calls n ss).2 ≠ some (.threw what)) :
    (calls n ss).1.map (fun c => c.returned.pulseId) = (common ss).take n ∧
      ((common ss).Pairwise (· < ·) ∧ ∀ p, p ∈ common ss ↔ ∀ s ∈ ss, p ∈ s) ∧
      ∀ c ∈ (calls n ss).1, c.Exact := by
  obtain ⟨hps, hexact⟩ := calls_spec n ss hne hs hthrow
  exact ⟨hps, ⟨common_increasing hs, fun p => mem_common hne⟩, hexact⟩

/-- Three modules with different gaps. -/
theorem calls_eq_common_three :
    (calls 4 [[1, 2, 5, 7, 9], [2, 3, 5, 6, 9], [2, 4, 5, 9]]).1.map (fun c => c.returned.pulseId) =
      [2, 5, 9] := by
  have h := calls_eq_common 4 [[1, 2, 5, 7, 9], [2, 3, 5, 6, 9], [2, 4, 5, 9]] (by decide) (by decide)
    (fun what h => by
      have hstop : (calls 4 [[1, 2, 5, 7, 9], [2, 3, 5, 6, 9], [2, 4, 5, 9]]).2 = some (.blocked 0) := by decide
      rw [hstop] at h
      cases h)
  exact h.1

end SfDaqBuffer.Assembler
