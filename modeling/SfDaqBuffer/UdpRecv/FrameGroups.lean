/-
Grouping a packet stream in which packets without a pulse_id may occur. Such a packet opens no frame as
the code sees it, so its group is not ended by a packet 127. The groups of a trigger depend on the
packets of that trigger only, and on where packets of other triggers come between them.
-/
import SfDaqBuffer.UdpRecv.Grouping

namespace SfDaqBuffer.UdpRecv

open Grouping

/-! ## The groups -/

/-- The packet has a pulse_id. -/
def timed (p : JungfrauPacket) : Bool := p.bunchid.toUInt64 != 0

/-- Some packet of the group has a pulse_id. -/
def pulsed (g : List JungfrauPacket) : Bool := g.any timed

/-- The packet whose header the frame of the group has. -/
def header (g : List JungfrauPacket) : Option JungfrauPacket := (g.find? timed).or g.getLast?

/-- The group that the packet is copied to. -/
def joined (g : List JungfrauPacket) (p : JungfrauPacket) : List JungfrauPacket :=
  if cuts otherFrame g p then [p] else g ++ [p]

/-- The packet ends the frame that it is copied to. -/
def ended (g : List JungfrauPacket) (p : JungfrauPacket) : Bool := lastPacket p && pulsed (joined g p)

/-- The group that is open after the packet. -/
def afterJoin (g : List JungfrauPacket) (p : JungfrauPacket) : List JungfrauPacket :=
  if ended g p then [] else joined g p

/-- The groups that the packet closes. -/
def closedBy (g : List JungfrauPacket) (p : JungfrauPacket) : List (List JungfrauPacket) :=
  (if cuts otherFrame g p then [g] else []) ++ if ended g p then [joined g p] else []

/-- The groups closed while reading a stream with the open group `g`. -/
def frameGroups : List JungfrauPacket → List JungfrauPacket → List (List JungfrauPacket)
  | _, [] => []
  | g, p :: ps => closedBy g p ++ frameGroups (afterJoin g p) ps

/-- No packet comes after packets of another trigger none of which has a pulse_id. -/
def OneTrigger : List JungfrauPacket → List JungfrauPacket → Prop
  | _, [] => True
  | g, p :: ps => (pulsed g = false → cuts otherFrame g p = false) ∧ OneTrigger (afterJoin g p) ps

/-- The packets of the group have one trigger. -/
def SameTrigger (g : List JungfrauPacket) : Prop := ∀ p ∈ g, ∀ q ∈ g, p.framenum = q.framenum

/-- The frame of a group. -/
def ownFrame (moduleId : Int) (g : List JungfrauPacket) : Received :=
  match header g with
  | some p => ⟨p.bunchid.toUInt64, groupMetadata moduleId p g.length, fun j => groupBlock g j⟩
  | none => ⟨0, ModuleFrame.zero, fun _ _ => 0⟩

theorem timed_iff {p : JungfrauPacket} : timed p = true ↔ p.bunchid.toUInt64 ≠ 0 := by simp [timed]

theorem pulsed_append (g : List JungfrauPacket) (p : JungfrauPacket) : pulsed (g ++ [p]) = (pulsed g || timed p) := by
  simp [pulsed]

theorem header_mem {g : List JungfrauPacket} {p : JungfrauPacket} (h : header g = some p) : p ∈ g := by
  unfold header at h
  cases hfind : g.find? timed with
  | some q =>
    rw [hfind, Option.some_or] at h
    cases h
    exact List.mem_of_find?_eq_some hfind
  | none =>
    rw [hfind, Option.none_or] at h
    exact List.mem_of_getLast? h

theorem header_isSome {g : List JungfrauPacket} (hne : g ≠ []) : ∃ p, header g = some p := by
  unfold header
  rw [List.getLast?_eq_some_getLast hne]
  cases g.find? timed with
  | some q => exact ⟨q, rfl⟩
  | none => exact ⟨_, rfl⟩

/-- The header has a pulse_id if a packet of the group has one. -/
theorem header_timed {g : List JungfrauPacket} {p : JungfrauPacket} (h : header g = some p) :
    p.bunchid.toUInt64 ≠ 0 ↔ pulsed g = true := by
  rw [← timed_iff]
  unfold pulsed
  rw [List.any_eq_true]
  constructor
  · intro hp
    exact ⟨p, header_mem h, hp⟩
  · rintro ⟨q, hq, hqt⟩
    obtain ⟨q', hq'⟩ : ∃ q', g.find? timed = some q' := Option.isSome_iff_exists.1 (List.find?_isSome.2 ⟨q, hq, hqt⟩)
    unfold header at h
    rw [hq', Option.some_or] at h
    cases h
    exact List.find?_some hq'

theorem header_append (g : List JungfrauPacket) (p : JungfrauPacket) :
    header (g ++ [p]) = if pulsed g then header g else some p := by
  unfold header
  rw [List.find?_append, List.getLast?_concat]
  cases hfind : g.find? timed with
  | some q =>
    have hpulsed : pulsed g = true := List.any_eq_true.2 ⟨q, List.mem_of_find?_eq_some hfind, List.find?_some hfind⟩
    simp [hpulsed]
  | none =>
    have hpulsed : pulsed g = false := by
      unfold pulsed
      rw [List.any_eq_false]
      exact List.find?_eq_none.1 hfind
    cases ht : timed p <;> simp [hpulsed, ht]

theorem cuts_iff {g : List JungfrauPacket} {p : JungfrauPacket} (hg : SameTrigger g) :
    cuts otherFrame g p = true ↔ ∃ q ∈ g, q.framenum ≠ p.framenum := by
  cases g with
  | nil => simp [cuts]
  | cons a as =>
    constructor
    · intro h
      exact ⟨a, List.mem_cons_self .., by simpa [cuts, otherFrame] using h⟩
    · rintro ⟨q, hq, hne⟩
      have hsame := hg a (List.mem_cons_self ..) q hq
      simp [cuts, otherFrame, hsame, hne]

theorem SameTrigger.joined {g : List JungfrauPacket} (hg : SameTrigger g) (p : JungfrauPacket) :
    SameTrigger (joined g p) := by
  unfold UdpRecv.joined
  split
  · intro a ha b hb
    rw [List.mem_singleton.1 ha, List.mem_singleton.1 hb]
  · rename_i hcut
    have hall : ∀ q ∈ g, q.framenum = p.framenum := by
      intro q hq
      by_contra hne
      exact hcut ((cuts_iff hg).2 ⟨q, hq, hne⟩)
    intro a ha b hb
    rcases List.mem_append.1 ha with ha | ha <;> rcases List.mem_append.1 hb with hb | hb
    · exact hg a ha b hb
    · rw [List.mem_singleton.1 hb, hall a ha]
    · rw [List.mem_singleton.1 ha, hall b hb]
    · rw [List.mem_singleton.1 ha, List.mem_singleton.1 hb]

theorem SameTrigger.nil : SameTrigger [] := fun p hp => by cases hp

theorem SameTrigger.afterJoin {g : List JungfrauPacket} (hg : SameTrigger g) (p : JungfrauPacket) :
    SameTrigger (afterJoin g p) := by
  unfold UdpRecv.afterJoin
  split
  · exact .nil
  · exact hg.joined p

theorem SameTrigger.foldl : ∀ (ps : List JungfrauPacket) {g : List JungfrauPacket}, SameTrigger g →
    SameTrigger (ps.foldl UdpRecv.afterJoin g)
  | [], _, h => h
  | p :: ps, _, h => SameTrigger.foldl ps (h.afterJoin p)

theorem frameGroups_append : ∀ (ps rest g : List JungfrauPacket),
    frameGroups g (ps ++ rest) = frameGroups g ps ++ frameGroups (ps.foldl afterJoin g) rest
  | [], _, _ => rfl
  | p :: ps, rest, g => by
    rw [List.cons_append, frameGroups, frameGroups_append ps rest, frameGroups, List.append_assoc]
    rfl

theorem oneTrigger_append : ∀ (ps rest g : List JungfrauPacket),
    OneTrigger g (ps ++ rest) ↔ OneTrigger g ps ∧ OneTrigger (ps.foldl afterJoin g) rest
  | [], _, _ => ⟨fun h => ⟨trivial, h⟩, fun h => h.2⟩
  | p :: ps, rest, g => by
    rw [List.cons_append, OneTrigger, oneTrigger_append ps rest, OneTrigger, and_assoc]
    rfl

/-- Packets that all have a pulse_id do not mix. -/
theorem oneTrigger_timed : ∀ (ps : List JungfrauPacket) {g : List JungfrauPacket}, (∀ p ∈ g, timed p = true) →
    (∀ p ∈ ps, timed p = true) → OneTrigger g ps
  | [], _, _, _ => trivial
  | p :: ps, g, hg, hps => by
    refine ⟨fun hnone => ?_, oneTrigger_timed ps (fun q hq => ?_) fun q hq => hps q (List.mem_cons_of_mem _ hq)⟩
    · -- the open group is empty
      cases g with
      | nil => rfl
      | cons a as =>
        have hpulsed : pulsed (a :: as) = true := List.any_eq_true.2 ⟨a, List.mem_cons_self .., hg a (List.mem_cons_self ..)⟩
        rw [hpulsed] at hnone
        cases hnone
    · have hjoined : q ∈ g ∨ q = p := by
        unfold afterJoin joined at hq
        split at hq
        · cases hq
        · split at hq
          · exact .inr (List.mem_singleton.1 hq)
          · exact (List.mem_append.1 hq).imp_right List.mem_singleton.1
      rcases hjoined with hq | rfl
      · exact hg q hq
      · exact hps q (List.mem_cons_self ..)

/-- Every group that is closed is of one trigger, not empty, and made of packets of the stream. -/
theorem frameGroups_own : ∀ (ps : List JungfrauPacket) {g : List JungfrauPacket}, SameTrigger g →
    ∀ g' ∈ frameGroups g ps, SameTrigger g' ∧ g' ≠ [] ∧ ∀ p ∈ g', p ∈ g ++ ps
  | [], _, _ => fun g' hg' => by cases hg'
  | p :: ps, g, hg => by
    have hjoined : ∀ q ∈ joined g p, q ∈ g ++ p :: ps := by
      intro q hq
      unfold joined at hq
      split at hq
      · rw [List.mem_singleton.1 hq]
        simp
      · rcases List.mem_append.1 hq with hq | hq
        · simp [hq]
        · rw [List.mem_singleton.1 hq]
          simp
    have hne : joined g p ≠ [] := by
      unfold joined
      split <;> simp
    rintro g' hg'
    rcases List.mem_append.1 hg' with hg' | hg'
    · rcases List.mem_append.1 hg' with hg' | hg'
      · split at hg'
        · rename_i hcut
          rw [List.mem_singleton.1 hg']
          obtain ⟨q, hq, -⟩ := (cuts_iff hg).1 hcut
          exact ⟨hg, List.ne_nil_of_mem hq, fun q hq => List.mem_append_left _ hq⟩
        · cases hg'
      · split at hg'
        · rw [List.mem_singleton.1 hg']
          exact ⟨hg.joined p, hne, hjoined⟩
        · cases hg'
    · obtain ⟨h1, h2, h3⟩ := frameGroups_own ps (hg.afterJoin p) g' hg'
      refine ⟨h1, h2, fun q hq => ?_⟩
      rcases List.mem_append.1 (h3 q hq) with hq | hq
      · unfold afterJoin at hq
        split at hq
        · cases hq
        · exact hjoined q hq
      · simp [hq]

/-- A packet that cuts is read again with no group open. -/
theorem joined_of_cuts {g : List JungfrauPacket} {p : JungfrauPacket} (h : cuts otherFrame g p = true) :
    joined g p = joined [] p := if_pos h

theorem joined_of_not_cuts {g : List JungfrauPacket} {p : JungfrauPacket} (h : cuts otherFrame g p = false) :
    joined g p = g ++ [p] := if_neg (by rw [h]; decide)

theorem ended_of_cuts {g : List JungfrauPacket} {p : JungfrauPacket} (h : cuts otherFrame g p = true) :
    ended g p = ended [] p := by
  unfold ended
  rw [joined_of_cuts h]

theorem afterJoin_of_cuts {g : List JungfrauPacket} {p : JungfrauPacket} (h : cuts otherFrame g p = true) :
    afterJoin g p = afterJoin [] p := by
  unfold afterJoin
  rw [ended_of_cuts h, joined_of_cuts h]

theorem frameGroups_of_cuts {g : List JungfrauPacket} {p : JungfrauPacket} (h : cuts otherFrame g p = true)
    (ps : List JungfrauPacket) : frameGroups g (p :: ps) = g :: frameGroups [] (p :: ps) := by
  have hnil : cuts otherFrame [] p = false := rfl
  rw [frameGroups, frameGroups, afterJoin_of_cuts h]
  unfold closedBy
  rw [ended_of_cuts h, joined_of_cuts h, if_pos h, hnil]
  rfl

/-! ## The groups of one trigger -/

/-- The group is of trigger `x`. -/
def ofTrigger (x : UInt64) (g : List JungfrauPacket) : Bool := g.head?.any (·.framenum == x)

/-- The same packet, or two packets of other triggers than `x`. -/
def SameOrOther (x : UInt64) (p p' : JungfrauPacket) : Prop := p = p' ∨ p.framenum ≠ x ∧ p'.framenum ≠ x

/-- The same group, or two groups that are not of trigger `x`. -/
def SameOrOtherGroup (x : UInt64) (g g' : List JungfrauPacket) : Prop :=
  g = g' ∨ ofTrigger x g = false ∧ ofTrigger x g' = false

section

variable {x : UInt64} {g g' : List JungfrauPacket} {p p' : JungfrauPacket}

/-- Packets of other triggers leave groups of other triggers. -/
theorem step_other (hg : ofTrigger x g = false) (hp : p.framenum ≠ x) :
    (closedBy g p).filter (ofTrigger x) = [] ∧ ofTrigger x (afterJoin g p) = false := by
  have hjoined : ofTrigger x (joined g p) = false := by
    unfold joined
    split
    · simp [ofTrigger, hp]
    · cases g with
      | nil => simp [ofTrigger, hp]
      | cons a as => exact hg
  constructor
  · unfold closedBy
    split <;> split <;> simp [hg, hjoined]
  · unfold afterJoin
    split
    · rfl
    · exact hjoined

/-- The first packet of trigger `x` after others starts a group. -/
theorem step_first (hg : ofTrigger x g = false) (hp : p.framenum = x) :
    (closedBy g p).filter (ofTrigger x) = (closedBy [] p).filter (ofTrigger x) ∧ afterJoin g p = afterJoin [] p := by
  cases g with
  | nil => exact ⟨rfl, rfl⟩
  | cons a as =>
    have ha : a.framenum ≠ x := by simpa [ofTrigger] using hg
    have hcut : cuts otherFrame (a :: as) p = true := by simp [cuts, otherFrame, hp, ha]
    have hnil : cuts otherFrame [] p = false := rfl
    constructor
    · unfold closedBy
      rw [ended_of_cuts hcut, joined_of_cuts hcut, if_pos hcut, hnil, List.filter_append]
      simp [hg]
    · exact afterJoin_of_cuts hcut

/-- A packet of another trigger closes the group of `x`. -/
theorem step_cut (hg : ofTrigger x g = true) (hp : p.framenum ≠ x) :
    (closedBy g p).filter (ofTrigger x) = [g] ∧ ofTrigger x (afterJoin g p) = false := by
  cases g with
  | nil => cases hg
  | cons a as =>
    have ha : a.framenum = x := by simpa [ofTrigger] using hg
    have hcut : cuts otherFrame (a :: as) p = true := by simp [cuts, otherFrame, ha, Ne.symm hp]
    obtain ⟨hclosed, hafter⟩ := step_other (g := []) rfl hp
    constructor
    · unfold closedBy at hclosed ⊢
      rw [ended_of_cuts hcut, joined_of_cuts hcut, if_pos hcut]
      rw [List.filter_append] at hclosed ⊢
      rw [(List.append_eq_nil_iff.1 hclosed).2]
      simp [hg]
    · rw [afterJoin_of_cuts hcut]
      exact hafter

theorem step_same (hg : SameOrOtherGroup x g g') (hp : SameOrOther x p p') :
    (closedBy g p).filter (ofTrigger x) = (closedBy g' p').filter (ofTrigger x) ∧
      SameOrOtherGroup x (afterJoin g p) (afterJoin g' p') := by
  rcases hg with rfl | ⟨hg, hg'⟩
  · rcases hp with rfl | ⟨hp, hp'⟩
    · exact ⟨rfl, .inl rfl⟩
    · cases hx : ofTrigger x g with
      | true =>
        obtain ⟨hclosed, hafter⟩ := step_cut hx hp
        obtain ⟨hclosed', hafter'⟩ := step_cut hx hp'
        exact ⟨hclosed.trans hclosed'.symm, .inr ⟨hafter, hafter'⟩⟩
      | false =>
        obtain ⟨hclosed, hafter⟩ := step_other hx hp
        obtain ⟨hclosed', hafter'⟩ := step_other hx hp'
        exact ⟨hclosed.trans hclosed'.symm, .inr ⟨hafter, hafter'⟩⟩
  · by_cases hx : p = p' ∧ p.framenum = x
    · obtain ⟨rfl, hx⟩ := hx
      obtain ⟨hclosed, hafter⟩ := step_first hg hx
      obtain ⟨hclosed', hafter'⟩ := step_first hg' hx
      exact ⟨hclosed.trans hclosed'.symm, .inl (hafter.trans hafter'.symm)⟩
    · have hother : p.framenum ≠ x ∧ p'.framenum ≠ x := by
        rcases hp with rfl | hp
        · exact ⟨fun h => hx ⟨rfl, h⟩, fun h => hx ⟨rfl, h⟩⟩
        · exact hp
      obtain ⟨hclosed, hafter⟩ := step_other hg hother.1
      obtain ⟨hclosed', hafter'⟩ := step_other hg' hother.2
      exact ⟨hclosed.trans hclosed'.symm, .inr ⟨hafter, hafter'⟩⟩

/-- The groups of a trigger do not depend on the packets of the others. -/
theorem frameGroups_ofTrigger : ∀ {ps ps' : List JungfrauPacket}, List.Forall₂ (SameOrOther x) ps ps' →
    ∀ {g g' : List JungfrauPacket}, SameOrOtherGroup x g g' →
      (frameGroups g ps).filter (ofTrigger x) = (frameGroups g' ps').filter (ofTrigger x)
  | [], _, .nil, _, _, _ => rfl
  | p :: ps, _, .cons hp hps, g, g', hg => by
    obtain ⟨hclosed, hafter⟩ := step_same hg hp
    rw [frameGroups, frameGroups, List.filter_append, List.filter_append, hclosed, frameGroups_ofTrigger hps hafter]

end

/-- A packet closes a group for the one that was open and for itself at most. -/
theorem closedBy_length (g : List JungfrauPacket) (p : JungfrauPacket) :
    (closedBy g p).length + (if afterJoin g p = [] then 0 else 1) ≤ (if g = [] then 0 else 1) + 1 := by
  have hg : cuts otherFrame g p = true → g ≠ [] := by
    rintro h rfl
    cases h
  unfold closedBy afterJoin
  cases hcut : cuts otherFrame g p with
  | true =>
    rw [if_neg (hg hcut)]
    cases ended g p <;> simp
    split <;> omega
  | false =>
    cases ended g p <;> simp
    split <;> omega

/-! ## Packets that all have a pulse_id -/

theorem ended_of_timed {g : List JungfrauPacket} {p : JungfrauPacket} (hp : timed p = true) :
    ended g p = lastPacket p := by
  have hpulsed : pulsed (joined g p) = true := by
    unfold joined
    split <;> simp [pulsed, hp]
  unfold ended
  rw [hpulsed, Bool.and_true]

theorem step_timed {g : List JungfrauPacket} {p : JungfrauPacket} (hp : timed p = true) :
    step otherFrame lastPacket g p = (closedBy g p, afterJoin g p) := by
  unfold step closedBy afterJoin
  rw [ended_of_timed hp]
  unfold joined
  cases cuts otherFrame g p <;> cases lastPacket p <;> rfl

/-- When all packets have a pulse_id the groups are those of `closedFrom`. -/
theorem frameGroups_timed : ∀ {ps : List JungfrauPacket}, (∀ p ∈ ps, timed p = true) →
    ∀ g, frameGroups g ps = closedFrom g ps ∧ ps.foldl afterJoin g = pending otherFrame lastPacket g ps
  | [], _, _ => ⟨rfl, rfl⟩
  | p :: ps, h, g => by
    obtain ⟨hp, hps⟩ := List.forall_mem_cons.1 h
    obtain ⟨hclosed, hpending⟩ := frameGroups_timed hps (afterJoin g p)
    constructor
    · rw [frameGroups, hclosed]
      simp only [closedFrom, closed, step_timed hp]
    · rw [List.foldl_cons, hpending]
      simp only [pending, step_timed hp]

/-- No more groups than packets. -/
theorem frameGroups_length : ∀ (ps g : List JungfrauPacket),
    (frameGroups g ps).length ≤ ps.length + if g = [] then 0 else 1
  | [], _ => Nat.zero_le _
  | p :: ps, g => by
    have ih := frameGroups_length ps (afterJoin g p)
    have hstep := closedBy_length g p
    rw [frameGroups, List.length_append, List.length_cons]
    omega

end SfDaqBuffer.UdpRecv
