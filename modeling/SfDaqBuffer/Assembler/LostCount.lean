/-
The count of lost pulses of the synchronizer. Each round adds the most receives that a module needed
to reach the maximum; the messages a round discards lie between the maximum of the round before and
its own, so the count is between what any module discarded and what all of them discarded together.
-/
import SfDaqBuffer.Assembler.Intersection

namespace SfDaqBuffer.Assembler

open Streams

/-! ## Receives of a round -/

/-- The receives of the inner loop of a round for a module at `pulse`; the last of them may wait. -/
def recvs (maxPulseId : UInt64) : UInt64 → List UInt64 → Nat
  | pulse, [] => if pulse < maxPulseId then 1 else 0
  | pulse, next :: unread => if pulse < maxPulseId then recvs maxPulseId next unread + 1 else 0

/-- Every receive replaces a pulse below the maximum. -/
theorem recvs_eq (top : UInt64) : ∀ (p : UInt64) (unread : List UInt64),
    recvs top p unread = ((p :: unread).takeWhile (· < top)).length
  | p, [] => by
    unfold recvs
    by_cases hp : p < top
    · simp [hp]
    · simp [hp]
  | p, q :: unread => by
    unfold recvs
    rw [recvs_eq top q unread, List.takeWhile_cons (a := p)]
    by_cases hp : p < top
    · rw [if_pos hp, if_pos (decide_eq_true hp), List.length_cons]
    · rw [if_neg hp, if_neg (by simpa using hp), List.length_nil]

/-- The count of `skipTo` grows with the receives, each of which takes one message. -/
theorem skipTo_count {top : UInt64} {i : Nat} {m : Module} {lost' : UInt32} :
    ∀ {p : UInt64} {unread : List UInt64} {lost : UInt32}, skipTo top i p unread lost = .ok (m, lost') →
      lost' = lost + UInt32.ofNat (recvs top p unread) ∧ unread.length = m.unread.length + recvs top p unread
  | p, [], lost, h => by
    unfold skipTo at h
    unfold recvs
    split at h
    · cases h
    · rename_i hp
      cases h
      rw [if_neg hp]
      exact ⟨(UInt32.add_zero _).symm, rfl⟩
  | p, q :: unread, lost, h => by
    unfold skipTo at h
    unfold recvs
    split at h
    · rename_i hp
      obtain ⟨hlost, hlen⟩ := skipTo_count h
      rw [if_pos hp, hlost, List.length_cons, hlen]
      refine ⟨?_, by omega⟩
      rw [UInt32.ofNat_add, UInt32.add_assoc, UInt32.add_comm 1]
      rfl
    · rename_i hp
      cases h
      rw [if_neg hp]
      exact ⟨(UInt32.add_zero _).symm, rfl⟩

/-- The pulses that a module passes on its way to the maximum. -/
theorem passed_spec (top : UInt64) {p : UInt64} {s unread : List UInt64} (hs : s.Pairwise (· < ·)) (hr : ReadTo s p unread) :
    ((p :: unread).takeWhile (· < top)).Pairwise (· < ·) ∧
      ∀ c ∈ (p :: unread).takeWhile (· < top), c ∈ s ∧ p ≤ c ∧ c < top := by
  have hsuffix : p :: unread <:+ s := by
    obtain ⟨pre, rfl⟩ := hr
    exact ⟨pre, rfl⟩
  have hinc : (p :: unread).Pairwise (· < ·) := hs.sublist hsuffix.sublist
  refine ⟨hinc.sublist (List.takeWhile_sublist _), fun c hc => ?_⟩
  have hmem : c ∈ p :: unread := (List.takeWhile_sublist _).subset hc
  refine ⟨hsuffix.subset hmem, ?_, by simpa using List.all_eq_true.1 List.all_takeWhile c hc⟩
  rcases List.mem_cons.1 hmem with rfl | hrest
  · exact le_refl _
  · exact le_of_lt ((List.pairwise_cons.1 hinc).1 c hrest)

/-- Between two pulse_ids there are at most as many pulses as they are apart. -/
theorem length_le_sub {l : List UInt64} {a b : UInt64} (hl : l.Pairwise (· < ·)) (h : ∀ c ∈ l, a ≤ c ∧ c < b) :
    l.length ≤ b.toNat - a.toNat := by
  have hnodup : (l.map UInt64.toNat).Nodup :=
    List.Nodup.map (fun _ _ heq => UInt64.toNat_inj.1 heq) (hl.imp ne_of_lt)
  have hsub : (l.map UInt64.toNat).toFinset ⊆ Finset.Ico a.toNat b.toNat := by
    intro n hn
    obtain ⟨c, hc, rfl⟩ := List.mem_map.1 (List.mem_toFinset.1 hn)
    exact Finset.mem_Ico.2 ⟨UInt64.le_iff_toNat_le.1 (h c hc).1, UInt64.lt_iff_toNat_lt.1 (h c hc).2⟩
  have hcard := Finset.card_le_card hsub
  rwa [List.toFinset_card_of_nodup hnodup, List.length_map, Nat.card_Ico] at hcard

/-! ## One round -/

/-- The receives of a module in a round. -/
def Module.recvs (maxPulseId : UInt64) (m : Module) : Nat := Assembler.recvs maxPulseId m.pulse m.unread

/-- The check of the offsets lets the round start. -/
def WithinOffset (modules : List Module) : Prop := ¬ maxPulseId modules - minPulseId modules > pulseOffsetLimit

theorem foldl_min_spec : ∀ (ms : List Module) (a : UInt64),
    ms.foldl (fun acc m => min acc m.pulse) a ≤ a ∧
      ∀ m ∈ ms, ms.foldl (fun acc m => min acc m.pulse) a ≤ m.pulse
  | [], a => ⟨le_refl _, nofun⟩
  | m :: ms, a => by
    obtain ⟨h1, h2⟩ := foldl_min_spec ms (min a m.pulse)
    refine ⟨h1.trans (min_le_left _ _), fun q hq => ?_⟩
    rcases List.mem_cons.1 hq with rfl | hq
    · exact h1.trans (min_le_right _ _)
    · exact h2 q hq

/-- No module is further than the limit from the maximum. -/
theorem WithinOffset.sub_le {ms : List Module} (h : WithinOffset ms) {m : Module} (hm : m ∈ ms) :
    (maxPulseId ms).toNat - m.pulse.toNat ≤ 100 := by
  have hmin : minPulseId ms ≤ m.pulse := (foldl_min_spec ms _).2 m hm
  have hmax : m.pulse ≤ maxPulseId ms := pulse_le_max hm
  have hdiff : maxPulseId ms - minPulseId ms ≤ pulseOffsetLimit := not_lt.1 h
  rw [UInt64.le_iff_toNat_le] at hmin hmax hdiff
  rw [UInt64.toNat_sub_of_le _ _ (UInt64.le_iff_toNat_le.2 (hmin.trans hmax))] at hdiff
  have hlimit : pulseOffsetLimit.toNat = 100 := rfl
  omega

/-- In a round that starts, no module receives more than `PULSE_OFFSET_LIMIT` messages. -/
theorem WithinOffset.recvs_le {ss : List (List UInt64)} {ms : List Module} (h : WithinOffset ms)
    (hs : ∀ s ∈ ss, s.Pairwise (· < ·)) (hread : ModulesRead ss ms) {m : Module} (hm : m ∈ ms) :
    m.recvs (maxPulseId ms) ≤ 100 := by
  obtain ⟨s, hmem, hr⟩ := forall₂_mem_right hread hm
  obtain ⟨hinc, hbetween⟩ := passed_spec (maxPulseId ms) (hs s hmem) hr
  unfold Module.recvs
  rw [recvs_eq]
  exact (length_le_sub hinc fun c hc => (hbetween c hc).2).trans (h.sub_le hm)

theorem toNat_max (a b : UInt32) : (max a b).toNat = max a.toNat b.toNat := by
  show (if a ≤ b then b else a).toNat = max a.toNat b.toNat
  split
  · rename_i h
    exact (Nat.max_eq_right (UInt32.le_iff_toNat_le.1 h)).symm
  · rename_i h
    rw [UInt32.le_iff_toNat_le] at h
    exact (Nat.max_eq_left (Nat.le_of_not_le h)).symm

/-- What a round counts: the most receives of a module, or the count it started with. -/
structure RoundCount (top : UInt64) (ms ms' : List Module) (lost lost' : Nat) : Prop where
  each : List.Forall₂ (fun m m' => m.unread.length = m'.unread.length + m.recvs top) ms ms'
  start : lost ≤ lost'
  least : ∀ m ∈ ms, m.recvs top ≤ lost'
  attained : lost' = lost ∨ ∃ m ∈ ms, lost' = m.recvs top

theorem syncRound_count {top : UInt64} : ∀ {ms : List Module} {i : Nat} {lost : UInt32} {inSync : Bool}
    {ms' : List Module} {lost' : UInt32} {inSync' : Bool}, (∀ m ∈ ms, m.recvs top ≤ 100) →
      syncRound top i ms lost inSync = .ok (ms', lost', inSync') →
      RoundCount top ms ms' lost.toNat lost'.toNat
  | [], i, lost, inSync, ms', lost', inSync', _, h => by
    cases h
    exact ⟨.nil, le_refl _, nofun, .inl rfl⟩
  | m :: ms, i, lost, inSync, ms', lost', inSync', hle, h => by
    unfold syncRound at h
    cases hskip : skipTo top i m.pulse m.unread 0 with
    | error e => rw [hskip] at h; cases h
    | ok out =>
      rw [hskip] at h
      simp only [bind, Except.bind] at h
      cases hround : syncRound top (i + 1) ms (max lost out.2) (inSync && out.1.pulse == top) with
      | error e => rw [hround] at h; cases h
      | ok round =>
        rw [hround] at h
        cases h
        obtain ⟨hcount, hlen⟩ := skipTo_count hskip
        have hm := hle m (List.mem_cons_self ..)
        have hout : out.2.toNat = m.recvs top := by
          rw [hcount, UInt32.zero_add, UInt32.toNat_ofNat']
          exact Nat.mod_eq_of_lt (Nat.lt_of_le_of_lt hm (by decide))
        have hrest := syncRound_count (fun q hq => hle q (List.mem_cons_of_mem _ hq)) hround
        have hstart := hrest.start
        rw [toNat_max, hout] at hstart
        refine ⟨.cons hlen hrest.each, (le_max_left _ _).trans hstart, ?_, ?_⟩
        · exact List.forall_mem_cons.2 ⟨(le_max_right _ _).trans hstart, hrest.least⟩
        · rcases hrest.attained with heq | ⟨q, hq, heq⟩
          · rw [toNat_max, hout] at heq
            rcases max_choice lost.toNat (m.recvs top) with hmax | hmax
            · exact .inl (heq.trans hmax)
            · exact .inr ⟨m, List.mem_cons_self .., heq.trans hmax⟩
          · exact .inr ⟨q, List.mem_cons_of_mem _ hq, heq⟩

/-! ## The rounds of a call -/

/-- After some rounds, the last of them with the maximum `reached`: no stream lost more than
`nLost` messages, and the streams have at least `nLost` pulses below `reached`. -/
structure Counted (ss : List (List UInt64)) (ms : List Module) (reached : UInt64) (nLost rounds : Nat) : Prop where
  read : ModulesRead ss ms
  above : ∀ m ∈ ms, reached ≤ m.pulse
  each : List.Forall₂ (fun s (m : Module) => s.length ≤ m.unread.length + 1 + nLost) ss ms
  distinct : nLost ≤ (below ss reached).card
  limit : nLost ≤ rounds * 100

section

variable {ss : List (List UInt64)} {ms ms' : List Module} {reached : UInt64} {nLost rounds : Nat} {lost : UInt32}
  {inSync : Bool}

theorem RoundCount.lost_le {top : UInt64} {lost' : Nat} (h : RoundCount top ms ms' 0 lost')
    (hle : ∀ m ∈ ms, m.recvs top ≤ 100) : lost' ≤ 100 := by
  rcases h.attained with heq | ⟨m, hm, heq⟩
  · rw [heq]
    exact Nat.zero_le _
  · rw [heq]
    exact hle m hm

/-- The messages that a round discards are not below the maximum of the round before. -/
theorem Counted.distinct_round (hne : ss ≠ []) (hs : ∀ s ∈ ss, s.Pairwise (· < ·))
    (h : Counted ss ms reached nLost rounds) {lost' : Nat} (hcount : RoundCount (maxPulseId ms) ms ms' 0 lost') :
    nLost + lost' ≤ (below ss (maxPulseId ms)).card := by
  have hbelow : ∀ {s m}, s ∈ ss → m ∈ ms → ReadTo s m.pulse m.unread →
      (below ss reached).card + m.recvs (maxPulseId ms) ≤ (below ss (maxPulseId ms)).card := by
    rintro s m hmem hm hr
    obtain ⟨hinc, hbetween⟩ := passed_spec (maxPulseId ms) (hs s hmem) hr
    have hfrom := h.above m hm
    unfold Module.recvs
    rw [recvs_eq]
    refine card_below_add (hfrom.trans (pulse_le_max hm)) hmem hinc fun c hc => ?_
    exact ⟨(hbetween c hc).1, hfrom.trans (hbetween c hc).2.1, (hbetween c hc).2.2⟩
  have hdistinct := h.distinct
  rcases hcount.attained with heq | ⟨m, hm, heq⟩
  · obtain ⟨s, hmem⟩ := List.exists_mem_of_ne_nil ss hne
    obtain ⟨m, hm, hr⟩ := forall₂_mem_left h.read hmem
    have hle := hbelow hmem hm hr
    omega
  · obtain ⟨s, hmem, hr⟩ := forall₂_mem_right h.read hm
    have hle := hbelow hmem hm hr
    omega

/-- A round keeps the count right. -/
theorem Counted.round (hne : ss ≠ []) (hs : ∀ s ∈ ss, s.Pairwise (· < ·)) (h : Counted ss ms reached nLost rounds)
    (hoffset : WithinOffset ms) (hround : syncRound (maxPulseId ms) 0 ms 0 true = .ok (ms', lost, inSync)) :
    Counted ss ms' (maxPulseId ms) (nLost + lost.toNat) (rounds + 1) := by
  have hrecvs : ∀ m ∈ ms, m.recvs (maxPulseId ms) ≤ 100 := fun m hm => hoffset.recvs_le hs h.read hm
  have hcount := syncRound_count hrecvs hround
  have hlimit := h.limit
  have hlost := hcount.lost_le hrecvs
  have hskipped : List.Forall₂ (Skipped (maxPulseId ms)) ss ms' := by
    rcases syncRound_spec 0 ss ms 0 true hs h.read (fun m hm => pulse_le_max hm) with
      ⟨ms₁, lost₁, inSync₁, hok, hskip, -⟩ | ⟨j, herror, -⟩
    · rw [hround] at hok
      cases hok
      exact hskip
    · rw [hround] at herror
      cases herror
  refine ⟨(syncRound_read h.read hround).1, fun m hm => ?_, ?_, h.distinct_round hne hs hcount, by omega⟩
  · obtain ⟨s, -, hskip⟩ := forall₂_mem_right hskipped hm
    exact hskip.reached
  · refine forall₂_comp h.each hcount.each fun s m hm m' hlen hrest => ?_
    have hleast := hcount.least m hm
    omega

/-- The loop ends with all modules at the pulse that it returns, and the count is right there. -/
theorem syncLoop_counted (hne : ss ≠ []) (hs : ∀ s ∈ ss, s.Pairwise (· < ·)) {res : PulseAndSync} :
    ∀ {n : Nat} {ms : List Module} {reached : UInt64} {nLost : UInt32} {rounds : Nat},
      Counted ss ms reached nLost.toNat rounds → rounds + n ≤ syncRetryLimit →
      syncLoop n ms nLost = .ok (res, ms') →
      Counted ss ms' res.pulseId res.nLostPulses.toNat syncRetryLimit
  | 0, _, _, _, _, _, _, hloop => by cases hloop
  | n + 1, ms, reached, nLost, rounds, h, hn, hloop => by
    unfold syncLoop at hloop
    simp only at hloop
    split at hloop
    · cases hloop
    · rename_i hoffset
      simp only [bind, Except.bind] at hloop
      cases hround : syncRound (maxPulseId ms) 0 ms 0 true with
      | error e => rw [hround] at hloop; cases hloop
      | ok out =>
        obtain ⟨ms₁, lost, inSync⟩ := out
        have h₁ := h.round hne hs hoffset hround
        rw [hround] at hloop
        simp only at hloop
        -- three rounds cannot make the count wrap
        have hsum : (nLost + lost).toNat = nLost.toNat + lost.toNat := by
          have hlimit := h₁.limit
          simp only [syncRetryLimit] at hn
          rw [UInt32.toNat_add]
          exact Nat.mod_eq_of_lt (by omega)
        rw [← hsum] at h₁
        split at hloop
        · rename_i hin
          cases hloop
          have hpulse := ((syncRound_read h.read hround).2 hin).2
          have hfirst : firstPulse ms' = maxPulseId ms := by
            cases ms' with
            | nil => exact absurd (List.forall₂_nil_right_iff.1 h₁.read) hne
            | cons m ms' => exact hpulse m (List.mem_cons_self ..)
          have hlimit := h₁.limit
          have hle : (rounds + 1) * 100 ≤ syncRetryLimit * 100 := Nat.mul_le_mul_right 100 (by omega)
          rw [hfirst]
          exact ⟨h₁.read, h₁.above, h₁.each, h₁.distinct, hlimit.trans hle⟩
        · exact syncLoop_counted hne hs h₁ (by omega) hloop

/-- A call that returns has the modules at its result, and its count is right. -/
theorem getNextPulseId_counted (hne : ss ≠ []) (hs : ∀ s ∈ ss, s.Pairwise (· < ·)) {res : PulseAndSync}
    {rest : List (List UInt64)} (h : getNextPulseId ss = .ok (res, rest)) :
    ∃ ms, rest = ms.map Module.unread ∧ Counted ss ms res.pulseId res.nLostPulses.toNat syncRetryLimit := by
  unfold getNextPulseId at h
  rcases recvAll_spec 0 ss with ⟨ms, hms, hfirst⟩ | ⟨j, hj, -⟩
  · have hread : ModulesRead ss ms := hfirst.imp fun s m hm => ⟨[], hm⟩
    have heach : List.Forall₂ (fun s (m : Module) => s.length ≤ m.unread.length + 1 + 0) ss ms :=
      hfirst.imp fun s m hm => by rw [hm, List.length_cons]
    rw [hms] at h
    simp only [bind, Except.bind] at h
    split at h
    · rename_i hsync
      cases h
      refine ⟨ms, rfl, hread, fun m hm => ?_, heach, Nat.zero_le _, Nat.zero_le _⟩
      unfold modulesInSync at hsync
      exact le_of_eq (beq_iff_eq.1 (List.all_eq_true.1 hsync m hm))
    · cases hloop : syncLoop syncRetryLimit ms 0 with
      | error e => rw [hloop] at h; cases h
      | ok out =>
        rw [hloop] at h
        cases h
        have hstart : Counted ss ms 0 (0 : UInt32).toNat 0 :=
          ⟨hread, fun _ _ => UInt64.zero_le, heach, Nat.zero_le _, Nat.zero_le _⟩
        exact ⟨out.2, rfl, syncLoop_counted hne hs hstart (le_refl _) hloop⟩
  · rw [hj] at h
    cases h

end

/-- The modules at the start of each round that the check of the offsets lets start. -/
def startedRounds : Nat → List Module → List (List Module)
  | 0, _ => []
  | n + 1, modules =>
    let maxPulseId := maxPulseId modules
    if maxPulseId - minPulseId modules > pulseOffsetLimit then []
    else modules :: match syncRound maxPulseId 0 modules 0 true with
      | .ok (modules, _, false) => startedRounds n modules
      | _ => []

/-- The rounds of a call. -/
def callRounds (sockets : List (List UInt64)) : List (List Module) :=
  match recvAll 0 sockets with
  | .error _ => []
  | .ok modules => if modulesInSync modules then [] else startedRounds syncRetryLimit modules

theorem startedRounds_spec {ss : List (List UInt64)} : ∀ {n : Nat} {ms : List Module}, ModulesRead ss ms →
    ∀ round ∈ startedRounds n ms, WithinOffset round ∧ ModulesRead ss round
  | 0, _, _, _, hmem => by cases hmem
  | n + 1, ms, hread, round, hmem => by
    unfold startedRounds at hmem
    simp only at hmem
    split at hmem
    · cases hmem
    · rename_i hoffset
      rcases List.mem_cons.1 hmem with rfl | hmem
      · exact ⟨hoffset, hread⟩
      · split at hmem
        · rename_i hround
          exact startedRounds_spec (syncRound_read hread hround).1 round hmem
        · cases hmem

/-! ## The bounds of the count -/

/-- What `n_lost_pulses` says about the messages that a call discarded. -/
structure LossBounds (ss rest : List (List UInt64)) (res : PulseAndSync) : Prop where
  discarded : List.Forall₂ (fun s s' => s = before s s' ++ res.pulseId :: s') ss rest
  each : List.Forall₂ (fun s s' => (before s s').length ≤ res.nLostPulses.toNat) ss rest
  distinct : res.nLostPulses.toNat ≤ (List.zipWith before ss rest).flatten.toFinset.card
  limit : res.nLostPulses.toNat ≤ syncRetryLimit * pulseOffsetLimit.toNat
  zero : res.nLostPulses = 0 ↔ ∀ s ∈ ss, ∀ t ∈ ss, s.head? = t.head?

/-- Nothing is lost exactly when all first messages are equal. -/
theorem nLostPulses_eq_zero_iff {ss rest : List (List UInt64)} {res : PulseAndSync}
    (h : getNextPulseId ss = .ok (res, rest)) (hboth : List.Forall₂ (fun s s' =>
      s = before s s' ++ res.pulseId :: s' ∧ (before s s').length ≤ res.nLostPulses.toNat) ss rest) :
    res.nLostPulses = 0 ↔ ∀ s ∈ ss, ∀ t ∈ ss, s.head? = t.head? := by
  constructor
  · intro hzero
    have hhead : ∀ s ∈ ss, s.head? = some res.pulseId := by
      rintro s hmem
      obtain ⟨s', -, hsplit, hlen⟩ := forall₂_mem_left hboth hmem
      have hnil : before s s' = [] := by
        rw [hzero] at hlen
        exact List.length_eq_zero_iff.1 (Nat.le_zero.1 hlen)
      rw [hsplit, hnil]
      rfl
    exact fun s hmem t hmem' => (hhead s hmem).trans (hhead t hmem').symm
  · intro hall
    unfold getNextPulseId at h
    rcases recvAll_spec 0 ss with ⟨ms, hms, hfirst⟩ | ⟨j, hj, -⟩
    · have hsync : modulesInSync ms = true := by
        unfold modulesInSync
        rw [List.all_eq_true]
        rintro m hm
        rw [beq_iff_eq]
        cases ms with
        | nil => cases hm
        | cons m₀ ms =>
          obtain ⟨s₀, hmem₀, hs₀⟩ := forall₂_mem_right hfirst (List.mem_cons_self ..)
          obtain ⟨s, hmem, hs⟩ := forall₂_mem_right hfirst hm
          have heq := hall s₀ hmem₀ s hmem
          rw [hs₀, hs, List.head?_cons, List.head?_cons] at heq
          exact Option.some.inj heq
      rw [hms] at h
      simp only [bind, Except.bind, if_pos hsync] at h
      cases h
      rfl
    · rw [hj] at h
      cases h

/-- The count of lost pulses is at least what any module discarded, at most what all of them
discarded together and at most the product of the limits, and zero exactly when the first messages
agree; in no round does a module receive more than `PULSE_OFFSET_LIMIT` messages. -/
theorem lossBounds {ss : List (List UInt64)} (hne : ss ≠ []) (hs : ∀ s ∈ ss, s.Pairwise (· < ·)) :
    (∀ res rest, getNextPulseId ss = .ok (res, rest) → LossBounds ss rest res) ∧
    ∀ round ∈ callRounds ss, ∀ m ∈ round, m.recvs (maxPulseId round) ≤ pulseOffsetLimit.toNat := by
  constructor
  · intro res rest h
    obtain ⟨ms, rfl, hcounted⟩ := getNextPulseId_counted hne hs h
    have hread := getNextPulseId_read h
    have hdistinct := hcounted.distinct
    have heach : List.Forall₂ (fun s s' => s.length ≤ s'.length + 1 + res.nLostPulses.toNat) ss
        (ms.map Module.unread) := List.forall₂_map_right_iff.2 hcounted.each
    have hboth : List.Forall₂ (fun s s' => s = before s s' ++ res.pulseId :: s' ∧
        (before s s').length ≤ res.nLostPulses.toNat) ss (ms.map Module.unread) := by
      refine (forall₂_and hread heach).imp fun s s' ⟨hr, hlen⟩ => ⟨hr.split, ?_⟩
      have hbefore := hr.length_before
      omega
    rw [below_eq_before hs hread] at hdistinct
    exact ⟨hboth.imp fun _ _ => And.left, hboth.imp fun _ _ => And.right, hdistinct, hcounted.limit,
      nLostPulses_eq_zero_iff h hboth⟩
  · rintro round hround m hm
    unfold callRounds at hround
    split at hround
    · cases hround
    · rename_i modules hall
      split at hround
      · cases hround
      · obtain ⟨hoffset, hread⟩ := startedRounds_spec (recvAll_read hall) round hround
        exact hoffset.recvs_le hs hread hm

/-- Three modules that agree after two rounds: the first round takes two receives, the second one. -/
theorem lossBounds_three :
    getNextPulseId [[1, 2, 5, 7], [2, 3, 5], [4, 5, 6]] = .ok (⟨5, 3⟩, [[7], [], [6]]) ∧
    LossBounds [[1, 2, 5, 7], [2, 3, 5], [4, 5, 6]] [[7], [], [6]] ⟨5, 3⟩ := by
  have hcall : getNextPulseId [[1, 2, 5, 7], [2, 3, 5], [4, 5, 6]] = .ok (⟨5, 3⟩, [[7], [], [6]]) := by rfl
  exact ⟨hcall, (lossBounds (by decide) (by decide)).1 _ _ hcall⟩

end SfDaqBuffer.Assembler
