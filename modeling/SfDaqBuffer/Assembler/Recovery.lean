/-
Recovery from gaps. A round that fails ends at a pulse_id above its maximum, so the maxima of failed rounds
increase, and no round passes a shared pulse_id. When modules miss few pulse_ids between shared ones, the three
rounds of a call are enough and the offsets stay within the limit: no call throws, however many messages have
arrived.
-/
import SfDaqBuffer.Assembler.LostCount
import SfDaqBuffer.Assembler.Waiting

namespace SfDaqBuffer.Assembler

open Streams

/-- Of three pulse_ids of the modules one is shared, or there is a shared one between them; and two of them are
not further apart than the limit unless a shared one is in between. -/
structure Recoverable (ss : List (List UInt64)) : Prop where
  retries : ∀ a ∈ ss.flatten, ∀ b ∈ ss.flatten, ∀ c ∈ ss.flatten, a < b → b < c → ∃ d ∈ common ss, a ≤ d ∧ d ≤ c
  offset : ∀ a ∈ ss.flatten, ∀ b ∈ ss.flatten, a ≤ b → (∃ d ∈ common ss, a ≤ d ∧ d < b) ∨ b - a ≤ pulseOffsetLimit

/-- The check of all triples and pairs. -/
def recoverable (ss : List (List UInt64)) : Bool :=
  ss.flatten.all fun a => ss.flatten.all fun b =>
    (ss.flatten.all fun c => !decide (a < b ∧ b < c) || (common ss).any fun d => decide (a ≤ d ∧ d ≤ c)) &&
      (!decide (a ≤ b) || (common ss).any (fun d => decide (a ≤ d ∧ d < b)) || decide (b - a ≤ pulseOffsetLimit))

theorem recoverable_iff (ss : List (List UInt64)) : recoverable ss = true ↔ Recoverable ss := by
  unfold recoverable
  simp only [List.all_eq_true, Bool.and_eq_true, Bool.or_eq_true, Bool.not_eq_true', decide_eq_false_iff_not,
    List.any_eq_true, decide_eq_true_eq]
  constructor
  · intro h
    refine ⟨fun a ha b hb c hc hab hbc => ?_, fun a ha b hb hab => ?_⟩
    · exact ((h a ha b hb).1 c hc).resolve_left fun hnot => hnot ⟨hab, hbc⟩
    · exact (h a ha b hb).2.imp_left fun hleft => hleft.resolve_left fun hnot => hnot hab
  · intro h a ha b hb
    refine ⟨fun c hc => ?_, ?_⟩
    · by_cases hlt : a < b ∧ b < c
      · exact .inr (h.retries a ha b hb c hc hlt.1 hlt.2)
      · exact .inl hlt
    · by_cases hab : a ≤ b
      · exact (h.offset a ha b hb hab).imp_left .inr
      · exact .inl (.inl hab)

instance (ss : List (List UInt64)) : Decidable (Recoverable ss) := decidable_of_iff _ (recoverable_iff ss)

section

variable {ss ss' : List (List UInt64)} {ms : List Module}

theorem shared_of_common (hne : ss ≠ []) {d : UInt64} (hd : d ∈ common ss) : Shared ss d := (mem_common hne).1 hd

/-- What the modules still send is recoverable, too. -/
theorem Recoverable.rest (h : Recoverable ss) (hsub : ∀ a ∈ ss'.flatten, a ∈ ss.flatten)
    (hshared : ∀ a ∈ ss'.flatten, ∀ d ∈ common ss, a ≤ d → d ∈ common ss') : Recoverable ss' where
  retries a ha b hb c hc hab hbc := by
    obtain ⟨d, hd, had, hdc⟩ := h.retries a (hsub a ha) b (hsub b hb) c (hsub c hc) hab hbc
    exact ⟨d, hshared a ha d hd had, had, hdc⟩
  offset a ha b hb hab := by
    rcases h.offset a (hsub a ha) b (hsub b hb) hab with ⟨d, hd, had, hdb⟩ | hle
    · exact .inl ⟨d, hshared a ha d hd had, had, hdb⟩
    · exact .inr hle

/-! ## Rounds -/

/-- The current pulse of a module is one of its messages. -/
theorem Reading.occurs (h : Reading ss ms) {m : Module} (hm : m ∈ ms) : m.pulse ∈ ss.flatten := by
  obtain ⟨s, hs, hread⟩ := forall₂_mem_right h.read hm
  exact List.mem_flatten.2 ⟨s, hs, hread.mem⟩

/-- A loop that picks one of two values ends at its start or at the pulse of a module. -/
theorem foldl_pulse {op : UInt64 → UInt64 → UInt64} (hop : ∀ a b, op a b = a ∨ op a b = b) :
    ∀ (ms : List Module) (a : UInt64), ms.foldl (fun acc m => op acc m.pulse) a = a ∨
      ∃ m ∈ ms, m.pulse = ms.foldl (fun acc m => op acc m.pulse) a
  | [], a => .inl rfl
  | m :: ms, a => by
    rw [List.foldl_cons]
    rcases foldl_pulse hop ms (op a m.pulse) with hstart | ⟨q, hq, hpulse⟩
    · rw [hstart]
      rcases hop a m.pulse with ha | hm
      · exact .inl ha
      · exact .inr ⟨m, List.mem_cons_self .., hm.symm⟩
    · exact .inr ⟨q, List.mem_cons_of_mem _ hq, hpulse⟩

theorem exists_max (hne : ms ≠ []) : ∃ m ∈ ms, m.pulse = maxPulseId ms := by
  rcases foldl_pulse max_choice ms 0 with hzero | hmax
  · obtain ⟨m, hm⟩ := List.exists_mem_of_ne_nil _ hne
    have hle : m.pulse ≤ maxPulseId ms := pulse_le_max hm
    have hmax : maxPulseId ms = 0 := hzero
    exact ⟨m, hm, le_antisymm hle (hmax ▸ UInt64.zero_le)⟩
  · exact hmax

theorem exists_min (hne : ms ≠ []) : ∃ m ∈ ms, m.pulse = minPulseId ms := by
  rcases foldl_pulse min_choice ms (UInt64.ofNat (2 ^ 64 - 1)) with htop | hmin
  · obtain ⟨m, hm⟩ := List.exists_mem_of_ne_nil _ hne
    have hle : minPulseId ms ≤ m.pulse := (foldl_min_spec ms _).2 m hm
    have hmin : minPulseId ms = UInt64.ofNat (2 ^ 64 - 1) := htop
    refine ⟨m, hm, le_antisymm ?_ hle⟩
    rw [hmin, UInt64.le_iff_toNat_le]
    exact Nat.le_of_lt_succ m.pulse.toNat_lt
  · exact hmin

/-- The modules are close enough for a round. -/
theorem Recoverable.withinOffset (hrec : Recoverable ss) (hss : ss ≠ []) (h : Reading ss ms) (hne : ms ≠ []) :
    WithinOffset ms := by
  obtain ⟨low, hlow, hmin⟩ := exists_min hne
  obtain ⟨high, hhigh, hmax⟩ := exists_max hne
  have hle : low.pulse ≤ high.pulse := hmax ▸ pulse_le_max hlow
  unfold WithinOffset
  rw [← hmin, ← hmax, not_lt]
  rcases hrec.offset _ (h.occurs hlow) _ (h.occurs hhigh) hle with ⟨d, hd, -, hlt⟩ | hclose
  · -- no module has passed a shared pulse_id
    exact absurd (h.below d (shared_of_common hss hd) high hhigh) (not_le.2 hlt)
  · exact hclose

/-- The maxima of rounds that fail are pulse_ids of the modules, they increase, and in the end a module is
above all of them. -/
theorem failed_rounds (hss : ss ≠ []) (hs : ∀ s ∈ ss, s.Pairwise (· < ·)) (hrec : Recoverable ss) {what : String} :
    ∀ (n : Nat) (ms : List Module) (nLost : UInt32), Reading ss ms → ms ≠ [] →
      syncLoop n ms nLost = .error (.threw what) → ∃ tops : List UInt64, tops.length = n ∧ tops.Pairwise (· < ·) ∧
        (∀ top ∈ tops, top ∈ ss.flatten ∧ maxPulseId ms ≤ top) ∧
        ∃ ms', Reading ss ms' ∧ ∃ m ∈ ms', maxPulseId ms ≤ m.pulse ∧ ∀ top ∈ tops, top < m.pulse
  | 0, ms, _, h, hne, _ => by
    obtain ⟨m, hm, hmax⟩ := exists_max hne
    exact ⟨[], rfl, .nil, nofun, ms, h, m, hm, hmax.ge, nofun⟩
  | n + 1, ms, nLost, h, hne, hthrew => by
    unfold syncLoop at hthrew
    simp only [if_neg (hrec.withinOffset hss h hne), bind, Except.bind] at hthrew
    rcases syncRound_spec 0 ss ms 0 true hs h.read (fun m hm => pulse_le_max hm) with
      ⟨ms', lost, inSync, hround, hms', hsync⟩ | ⟨j, hround, -⟩
    · rw [hround] at hthrew
      simp only at hthrew
      split at hthrew
      · cases hthrew
      · rename_i hfailed
        have hne' : ms' ≠ [] := by
          rintro rfl
          exact hss (List.forall₂_nil_right_iff.1 hms')
        -- a module is above the maximum of the round
        have hhigher : maxPulseId ms < maxPulseId ms' := by
          by_contra hnot
          refine hfailed (hsync.2 ⟨rfl, fun m hm => ?_⟩)
          obtain ⟨s, -, hskip⟩ := forall₂_mem_right hms' hm
          exact le_antisymm ((pulse_le_max hm).trans (not_lt.1 hnot)) hskip.reached
        obtain ⟨tops, hlength, hinc, htops, ms'', h'', m, hm, hle, habove⟩ :=
          failed_rounds hss hs hrec n ms' _ (h.skipped hms') hne' hthrew
        obtain ⟨high, hhigh, hmax⟩ := exists_max hne
        refine ⟨maxPulseId ms :: tops, by rw [List.length_cons, hlength], ?_, ?_, ms'', h'', m, hm, ?_, ?_⟩
        · exact List.pairwise_cons.2 ⟨fun top htop => lt_of_lt_of_le hhigher (htops top htop).2, hinc⟩
        · refine List.forall_mem_cons.2 ⟨⟨hmax ▸ h.occurs hhigh, le_refl _⟩, fun top htop => ?_⟩
          exact ⟨(htops top htop).1, hhigher.le.trans (htops top htop).2⟩
        · exact hhigher.le.trans hle
        · exact List.forall_mem_cons.2 ⟨lt_of_lt_of_le hhigher hle, habove⟩
    · rw [hround] at hthrew
      cases hthrew

/-! ## Calls -/

/-- A call on recoverable streams does not throw. -/
theorem getNextPulseId_recovers (hss : ss ≠ []) (hs : ∀ s ∈ ss, s.Pairwise (· < ·)) (hrec : Recoverable ss)
    (what : String) : getNextPulseId ss ≠ .error (.threw what) := by
  intro hthrew
  unfold getNextPulseId at hthrew
  rcases recvAll_spec 0 ss with ⟨ms, hms, hfirst⟩ | ⟨j, hj, -⟩
  · rw [hms] at hthrew
    simp only [bind, Except.bind] at hthrew
    split at hthrew
    · cases hthrew
    · rename_i hout
      have hne : ms ≠ [] := by
        rintro rfl
        exact hout rfl
      cases hloop : syncLoop syncRetryLimit ms 0 with
      | ok out =>
        rw [hloop] at hthrew
        cases hthrew
      | error e =>
        rw [hloop] at hthrew
        cases hthrew
        obtain ⟨tops, hlength, hinc, htops, ms', h', m, hm, -, habove⟩ :=
          failed_rounds hss hs hrec _ ms 0 (reading_first hs hfirst) hne hloop
        match tops, hlength with
        | [a, b, c], _ =>
          -- a shared pulse_id among the three maxima has been passed
          simp only [List.pairwise_cons, List.forall_mem_cons] at hinc htops habove
          obtain ⟨d, hd, -, hdc⟩ := hrec.retries a htops.1.1 b htops.2.1.1 c htops.2.2.1.1 hinc.1.1 hinc.2.1.1
          have hle := h'.below d (shared_of_common hss hd) m hm
          exact absurd (lt_of_lt_of_le habove.2.2.1 hle) (not_lt.2 hdc)
  · rw [hj] at hthrew
    cases hthrew

/-- A call that has only some of the messages does not throw either: with all of them it would throw, too. -/
theorem getNextPulseId_prefix_recovers {n : Nat} (hn : 0 < n) {unread left : Nat → List UInt64}
    (hunread : ∀ m < n, unread m <+: left m) (hleft : ∀ m < n, (left m).Pairwise (· < ·))
    (hrec : Recoverable ((List.range n).map left)) (what : String) :
    getNextPulseId ((List.range n).map unread) ≠ .error (.threw what) := by
  intro hthrew
  have hmore : ∀ m, ∃ more, m < n → unread m ++ more = left m := by
    intro m
    by_cases hm : m < n
    · obtain ⟨more, hmore⟩ := hunread m hm
      exact ⟨more, fun _ => hmore⟩
    · exact ⟨[], fun h => absurd h hm⟩
  choose more hmore using hmore
  have hwith : SameWith (fun out => (out.1, socketsWith more 0 out.2)) more _ _ :=
    getNextPulseId_with ((List.range n).map unread)
  rw [hthrew, socketsWith_range] at hwith
  have hall : (List.range n).map (fun m => unread m ++ more m) = (List.range n).map left :=
    List.map_congr_left fun m hm => hmore m (List.mem_range.1 hm)
  rw [hall] at hwith
  have hne : (List.range n).map left ≠ [] := by
    simp only [ne_eq, List.map_eq_nil_iff, List.range_eq_nil]
    omega
  exact getNextPulseId_recovers hne (List.forall_mem_map.2 fun m hm => hleft m (List.mem_range.1 hm)) hrec what hwith

/-- After a call the streams are still recoverable. -/
theorem Recoverable.afterCall (hrec : Recoverable ss) (hss : ss ≠ []) (hs : ∀ s ∈ ss, s.Pairwise (· < ·)) {p : UInt64}
    (hread : List.Forall₂ (fun s s' => ReadTo s p s') ss ss') : Recoverable ss' := by
  have hss' : ss' ≠ [] := by
    rintro rfl
    exact hss (List.forall₂_nil_right_iff.1 hread)
  refine hrec.rest (fun a ha => ?_) fun a ha d hd had => (mem_common hss').2 fun s' hs' => ?_
  · obtain ⟨s', hs', ha⟩ := List.mem_flatten.1 ha
    obtain ⟨s, hmem, hr⟩ := forall₂_mem_right hread hs'
    exact List.mem_flatten.2 ⟨s, hmem, hr.suffix.subset ha⟩
  · -- what is left is above `p`
    obtain ⟨t', ht', ha⟩ := List.mem_flatten.1 ha
    obtain ⟨t, htmem, hrt⟩ := forall₂_mem_right hread ht'
    have hlt : p < d := lt_of_lt_of_le (hrt.lt_rest (hs t htmem) ha) had
    obtain ⟨s, hmem, hr⟩ := forall₂_mem_right hread hs'
    rcases hr.unread (hs s hmem) (shared_of_common hss hd s hmem) hlt.le with rfl | hd'
    · exact absurd hlt (lt_irrefl _)
    · exact hd'

theorem calls_not_threw : ∀ (n : Nat) (ss : List (List UInt64)), ss ≠ [] → (∀ s ∈ ss, s.Pairwise (· < ·)) →
    Recoverable ss → ∀ what, (calls n ss).2 ≠ some (.threw what)
  | 0, _, _, _, _, _ => nofun
  | n + 1, ss, hss, hs, hrec, what => by
    have hspec := getNextPulseId_spec hss hs
    unfold calls
    cases hout : getNextPulseId ss with
    | error e =>
      rintro ⟨⟩
      exact getNextPulseId_recovers hss hs hrec what hout
    | ok out =>
      rw [hout] at hspec
      cases hspec with
      | @synced res rest _ hread =>
        have hs' : ∀ s' ∈ rest, s'.Pairwise (· < ·) := by
          intro s' hmem'
          obtain ⟨s, hmem, hr⟩ := forall₂_mem_right hread hmem'
          exact (hs s hmem).sublist hr.suffix.sublist
        have hss' : rest ≠ [] := by
          rintro rfl
          exact hss (List.forall₂_nil_right_iff.1 hread)
        exact calls_not_threw n rest hss' hs' (hrec.afterCall hss hs hread) what

end

/-- On streams that are recoverable no number of calls throws, and the results are the shared pulse_ids. -/
theorem calls_recover (n : Nat) {ss : List (List UInt64)} (hss : ss ≠ []) (hs : ∀ s ∈ ss, s.Pairwise (· < ·))
    (hrec : Recoverable ss) : (∀ what, (calls n ss).2 ≠ some (.threw what)) ∧
      (calls n ss).1.map (fun c => c.returned.pulseId) = (common ss).take n := by
  have hthrow := calls_not_threw n ss hss hs hrec
  exact ⟨hthrow, (calls_spec n ss hss hs hthrow).1⟩

/-- Each module misses some pulse_ids, and never more than two in a row are not shared. -/
theorem calls_recover_three : (calls 5 [[1, 2, 4, 5, 6, 90, 91], [2, 3, 5, 6, 90], [2, 3, 5, 7, 90]]).1.map
    (fun c => c.returned.pulseId) = [2, 5, 90] :=
  (calls_recover 5 (by decide) (by decide) (by decide +kernel)).2

end SfDaqBuffer.Assembler
