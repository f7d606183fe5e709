/-
Strictly increasing streams read from the front, and the elements common to several of them. What
precedes a read position is smaller than it, so reading past a position loses no element that is
not below it.
-/
import Mathlib.Tactic

namespace SfDaqBuffer.Streams

variable {α β : Type*}

/-! ## Lists related element by element -/

theorem forall₂_mem_right {R : α → β → Prop} : ∀ {l : List α} {m : List β}, List.Forall₂ R l m →
    ∀ {b}, b ∈ m → ∃ a ∈ l, R a b
  | _, _, .nil, _, hb => nomatch hb
  | _, _, .cons hab h, _, hb => by
    rcases List.mem_cons.1 hb with rfl | hb
    · exact ⟨_, List.mem_cons_self .., hab⟩
    · obtain ⟨a, ha, hr⟩ := forall₂_mem_right h hb
      exact ⟨a, List.mem_cons_of_mem _ ha, hr⟩

theorem forall₂_mem_left {R : α → β → Prop} {l : List α} {m : List β} (h : List.Forall₂ R l m) {a : α}
    (ha : a ∈ l) : ∃ b ∈ m, R a b :=
  forall₂_mem_right h.flip ha

theorem forall₂_imp_mem {R S : α → β → Prop} : ∀ {l : List α} {m : List β}, List.Forall₂ R l m →
    (∀ a, ∀ b ∈ m, R a b → S a b) → List.Forall₂ S l m
  | _, _, .nil, _ => .nil
  | _, _, .cons hab h, himp => .cons (himp _ _ (List.mem_cons_self ..) hab)
    (forall₂_imp_mem h fun a b hb => himp a b (List.mem_cons_of_mem _ hb))

theorem forall₂_comp {γ : Type*} {R : α → β → Prop} {S : β → γ → Prop} {T : α → γ → Prop} : ∀ {l : List α}
    {m : List β} {n : List γ}, List.Forall₂ R l m → List.Forall₂ S m n →
      (∀ a, ∀ b ∈ m, ∀ c, R a b → S b c → T a c) → List.Forall₂ T l n
  | _, _, _, .nil, .nil, _ => .nil
  | _, _, _, .cons hab h, .cons hbc h', himp => .cons (himp _ _ (List.mem_cons_self ..) _ hab hbc)
    (forall₂_comp h h' fun a b hb c => himp a b (List.mem_cons_of_mem _ hb) c)

theorem forall₂_and {R S : α → β → Prop} : ∀ {l : List α} {m : List β}, List.Forall₂ R l m → List.Forall₂ S l m →
    List.Forall₂ (fun a b => R a b ∧ S a b) l m
  | _, _, .nil, .nil => .nil
  | _, _, .cons hab h, .cons hab' h' => .cons ⟨hab, hab'⟩ (forall₂_and h h')

/-- Entries of a list with distinct keys, in the order of their keys. -/
theorem sublist_of_keys : ∀ {l r : List (α × β)}, (l.map Prod.fst).Sublist (r.map Prod.fst) → (r.map Prod.fst).Nodup →
    (∀ e ∈ l, e ∈ r) → l.Sublist r
  | [], _, _, _, _ => List.nil_sublist _
  | e :: l, [], hkeys, _, _ => nomatch hkeys
  | e :: l, e' :: r, hkeys, hnodup, hmem => by
    obtain ⟨hnew, hrest⟩ := List.nodup_cons.1 hnodup
    by_cases heq : e.1 = e'.1
    · have he : e = e' := by
        rcases List.mem_cons.1 (hmem e (List.mem_cons_self ..)) with he | he
        · exact he
        · exact absurd (heq ▸ List.mem_map_of_mem he) hnew
      have hkeys' : (l.map Prod.fst).Sublist (r.map Prod.fst) := by
        rw [List.map_cons, List.map_cons, heq] at hkeys
        exact List.cons_sublist_cons.1 hkeys
      subst he
      refine (sublist_of_keys hkeys' hrest fun x hx => ?_).cons_cons e
      rcases List.mem_cons.1 (hmem x (List.mem_cons_of_mem _ hx)) with rfl | hx'
      · exact absurd (hkeys'.subset (List.mem_map_of_mem hx)) hnew
      · exact hx'
    · have hkeys' : ((e :: l).map Prod.fst).Sublist (r.map Prod.fst) := by
        rcases List.sublist_cons_iff.1 hkeys with hkeys | ⟨_, hcons, -⟩
        · exact hkeys
        · exact absurd (List.cons.inj hcons).1 heq
      refine (sublist_of_keys hkeys' hrest fun x hx => ?_).cons e'
      rcases List.mem_cons.1 (hmem x hx) with rfl | hx'
      · exact absurd (hkeys'.subset (List.mem_map_of_mem hx)) hnew
      · exact hx'

/-! ## Read positions -/

/-- `s` has been read up to and including `p`, and `rest` is unread. -/
def ReadTo (s : List α) (p : α) (rest : List α) : Prop := ∃ pre, s = pre ++ p :: rest

theorem ReadTo.mem {s rest : List α} {p : α} (h : ReadTo s p rest) : p ∈ s := by
  obtain ⟨pre, rfl⟩ := h
  simp

theorem ReadTo.suffix {s rest : List α} {p : α} (h : ReadTo s p rest) : rest <:+ s := by
  obtain ⟨pre, rfl⟩ := h
  exact ⟨pre ++ [p], by simp⟩

theorem ReadTo.next {s rest : List α} {p q : α} (h : ReadTo s p (q :: rest)) : ReadTo s q rest := by
  obtain ⟨pre, rfl⟩ := h
  exact ⟨pre ++ [p], by simp⟩

/-- The elements read before the last one. -/
def before (s rest : List α) : List α := s.take (s.length - (rest.length + 1))

theorem ReadTo.split {s rest : List α} {p : α} (h : ReadTo s p rest) : s = before s rest ++ p :: rest := by
  obtain ⟨pre, rfl⟩ := h
  have hlen : (pre ++ p :: rest).length - (rest.length + 1) = pre.length := by simp
  unfold before
  rw [hlen, List.take_left]

theorem ReadTo.length_before {s rest : List α} {p : α} (h : ReadTo s p rest) :
    s.length = (before s rest).length + (rest.length + 1) := by
  have hlen := congrArg List.length h.split
  rwa [List.length_append, List.length_cons] at hlen

variable [LinearOrder α]

theorem ReadTo.lt_rest {s rest : List α} {p c : α} (hs : s.Pairwise (· < ·)) (h : ReadTo s p rest)
    (hc : c ∈ rest) : p < c := by
  obtain ⟨pre, rfl⟩ := h
  exact (List.pairwise_cons.1 (List.pairwise_append.1 hs).2.1).1 c hc

/-- An element that is not below the read position has not been passed. -/
theorem ReadTo.unread {s rest : List α} {p c : α} (hs : s.Pairwise (· < ·)) (h : ReadTo s p rest)
    (hc : c ∈ s) (hp : p ≤ c) : c = p ∨ c ∈ rest := by
  obtain ⟨pre, rfl⟩ := h
  rcases List.mem_append.1 hc with hpre | hrest
  · have hlt := (List.pairwise_append.1 hs).2.2 c hpre p (List.mem_cons_self ..)
    exact absurd hp (not_le.2 hlt)
  · exact List.mem_cons.1 hrest

theorem ReadTo.next_le {s rest : List α} {p q c : α} (hs : s.Pairwise (· < ·))
    (h : ReadTo s p (q :: rest)) (hc : c ∈ s) (hp : p < c) : q ≤ c := by
  rcases h.unread hs hc (le_of_lt hp) with rfl | hmem
  · exact absurd hp (lt_irrefl _)
  · rcases List.mem_cons.1 hmem with rfl | hrest
    · exact le_refl _
    · exact le_of_lt (h.next.lt_rest hs hrest)

/-! ## What has been read -/

theorem ReadTo.mem_before {s rest : List α} {p c : α} (hs : s.Pairwise (· < ·)) (h : ReadTo s p rest) :
    c ∈ before s rest ↔ c ∈ s ∧ c < p := by
  have hsplit := h.split
  constructor
  · intro hc
    rw [hsplit] at hs ⊢
    exact ⟨List.mem_append_left _ hc, (List.pairwise_append.1 hs).2.2 c hc p (List.mem_cons_self ..)⟩
  · rintro ⟨hc, hlt⟩
    rw [hsplit] at hc
    rcases List.mem_append.1 hc with hc | hc
    · exact hc
    · rcases List.mem_cons.1 hc with rfl | hc
      · exact absurd hlt (lt_irrefl _)
      · exact absurd hlt (not_lt.2 (le_of_lt (h.lt_rest hs hc)))

/-- The elements of the streams below `c`. -/
def below (ss : List (List α)) (c : α) : Finset α := ss.flatten.toFinset.filter (· < c)

theorem mem_below {ss : List (List α)} {c a : α} : a ∈ below ss c ↔ (∃ s ∈ ss, a ∈ s) ∧ a < c := by
  unfold below
  rw [Finset.mem_filter, List.mem_toFinset, List.mem_flatten]

/-- Elements between two bounds come on top of those below the first. -/
theorem card_below_add {ss : List (List α)} {a b : α} (hab : a ≤ b) {s l : List α} (hmem : s ∈ ss)
    (hl : l.Pairwise (· < ·)) (h : ∀ c ∈ l, c ∈ s ∧ a ≤ c ∧ c < b) :
    (below ss a).card + l.length ≤ (below ss b).card := by
  have hdisjoint : Disjoint (below ss a) l.toFinset := by
    rw [Finset.disjoint_left]
    rintro c hc hcl
    exact absurd (mem_below.1 hc).2 (not_lt.2 (h c (List.mem_toFinset.1 hcl)).2.1)
  have hsub : below ss a ∪ l.toFinset ⊆ below ss b := by
    rintro c hc
    rcases Finset.mem_union.1 hc with hc | hc
    · obtain ⟨hs, hlt⟩ := mem_below.1 hc
      exact mem_below.2 ⟨hs, lt_of_lt_of_le hlt hab⟩
    · obtain ⟨hs, -, hlt⟩ := h c (List.mem_toFinset.1 hc)
      exact mem_below.2 ⟨⟨s, hmem, hs⟩, hlt⟩
  have hcard := Finset.card_le_card hsub
  rwa [Finset.card_union_of_disjoint hdisjoint, List.toFinset_card_of_nodup (hl.imp ne_of_lt)] at hcard

/-- What streams that were all read up to `c` have below it is what was read before it. -/
theorem below_eq_before [DecidableEq α] {ss ss' : List (List α)} {c : α} (hs : ∀ s ∈ ss, s.Pairwise (· < ·))
    (hread : List.Forall₂ (fun s s' => ReadTo s c s') ss ss') :
    below ss c = (List.zipWith before ss ss').flatten.toFinset := by
  ext a
  rw [mem_below, List.mem_toFinset]
  induction hread with
  | nil => simp
  | @cons s s' ss ss' hr _ ih =>
    have hhead := hr.mem_before (c := a) (hs s (List.mem_cons_self ..))
    have htail := ih fun t ht => hs t (List.mem_cons_of_mem _ ht)
    rw [List.zipWith_cons_cons, List.flatten_cons, List.mem_append, hhead, ← htail]
    constructor
    · rintro ⟨⟨t, ht, hat⟩, hlt⟩
      rcases List.mem_cons.1 ht with rfl | ht
      · exact .inl ⟨hat, hlt⟩
      · exact .inr ⟨⟨t, ht, hat⟩, hlt⟩
    · rintro (⟨has, hlt⟩ | ⟨⟨t, ht, hat⟩, hlt⟩)
      · exact ⟨⟨s, List.mem_cons_self .., has⟩, hlt⟩
      · exact ⟨⟨t, List.mem_cons_of_mem _ ht, hat⟩, hlt⟩

/-! ## Common elements -/

/-- The elements of the first stream that occur in all of them. -/
def common : List (List α) → List α
  | [] => []
  | s :: ss => s.filter fun p => ∀ t ∈ ss, p ∈ t

theorem mem_common {ss : List (List α)} (hne : ss ≠ []) {p : α} :
    p ∈ common ss ↔ ∀ s ∈ ss, p ∈ s := by
  cases ss with
  | nil => exact absurd rfl hne
  | cons s ss => simp [common]

theorem common_increasing {ss : List (List α)} (hs : ∀ s ∈ ss, s.Pairwise (· < ·)) :
    (common ss).Pairwise (· < ·) := by
  cases ss with
  | nil => exact List.Pairwise.nil
  | cons s ss => exact (hs s (List.mem_cons_self ..)).filter _

/-- All streams read up to the same element: it is the first of the common elements, and the
others are those of the unread streams. -/
theorem common_eq_cons {ss ss' : List (List α)} {p : α} (hne : ss ≠ [])
    (hs : ∀ s ∈ ss, s.Pairwise (· < ·)) (hp : ∀ c, (∀ s ∈ ss, c ∈ s) → p ≤ c)
    (hread : List.Forall₂ (fun s s' => ReadTo s p s') ss ss') : common ss = p :: common ss' := by
  have hne' : ss' ≠ [] := by
    rintro rfl
    exact hne (List.forall₂_nil_right_iff.1 hread)
  have hs' : ∀ s' ∈ ss', s'.Pairwise (· < ·) := by
    intro s' hmem'
    obtain ⟨s, hmem, hr⟩ := forall₂_mem_right hread hmem'
    exact (hs s hmem).sublist hr.suffix.sublist
  refine (common_increasing hs).eq_of_mem_iff (List.pairwise_cons.2 ⟨fun c hc => ?_, common_increasing hs'⟩)
    fun c => ?_
  · obtain ⟨s', hmem'⟩ := List.exists_mem_of_ne_nil ss' hne'
    obtain ⟨s, hmem, hr⟩ := forall₂_mem_right hread hmem'
    exact hr.lt_rest (hs s hmem) ((mem_common hne').1 hc s' hmem')
  · rw [List.mem_cons, mem_common hne, mem_common hne']
    constructor
    · intro hc
      by_cases heq : c = p
      · exact .inl heq
      · refine .inr fun s' hmem' => ?_
        obtain ⟨s, hmem, hr⟩ := forall₂_mem_right hread hmem'
        exact (hr.unread (hs s hmem) (hc s hmem) (hp c hc)).resolve_left heq
    · rintro (rfl | hc) s hmem
      · obtain ⟨s', -, hr⟩ := forall₂_mem_left hread hmem
        exact hr.mem
      · obtain ⟨s', hmem', hr⟩ := forall₂_mem_left hread hmem
        exact hr.suffix.subset (hc s' hmem')

theorem common_eq_nil {ss : List (List α)} (hne : ss ≠ []) (h : ∀ c, ¬ ∀ s ∈ ss, c ∈ s) :
    common ss = [] := by
  refine List.eq_nil_iff_forall_not_mem.2 fun c hc => ?_
  exact h c ((mem_common hne).1 hc)

/-- Streams that are extended by elements none of them had: the new common elements come after the old
ones. -/
theorem common_map_append {ι : Type*} {is : List ι} {f g : ι → List α}
    (h : ∀ i ∈ is, ∀ j ∈ is, ∀ c ∈ f i, c ∉ g j) :
    common (is.map fun i => f i ++ g i) = common (is.map f) ++ common (is.map g) := by
  cases is with
  | nil => rfl
  | cons i is =>
    have hi : i ∈ i :: is := List.mem_cons_self ..
    simp only [List.map_cons, common, List.filter_append, List.forall_mem_map]
    congr 1
    · refine List.filter_congr fun c hc => decide_eq_decide.2 (forall₂_congr fun j hj => ?_)
      have hnew := h i hi j (List.mem_cons_of_mem _ hj) c hc
      simp [hnew]
    · refine List.filter_congr fun c hc => decide_eq_decide.2 (forall₂_congr fun j hj => ?_)
      have hold : c ∉ f j := fun hf => h j (List.mem_cons_of_mem _ hj) i hi c hf hc
      simp [hold]

/-- Streams whose last element is their only common one. -/
theorem common_eq_singleton {ι : Type*} {is : List ι} (hne : is ≠ []) {f : ι → List α} {p : α}
    (hs : ∀ i ∈ is, (f i).Pairwise (· < ·)) (hp : ∀ i ∈ is, p ∈ f i ∧ ∀ c ∈ f i, c ≤ p)
    (hleast : ∀ c, (∀ i ∈ is, c ∈ f i) → p ≤ c) : common (is.map f) = [p] := by
  have hne' : is.map f ≠ [] := by simpa using hne
  have hmem : ∀ c, c ∈ common (is.map f) ↔ ∀ i ∈ is, c ∈ f i := fun c => by
    rw [mem_common hne', List.forall_mem_map]
  refine (common_increasing (List.forall_mem_map.2 hs)).eq_of_mem_iff (List.pairwise_singleton ..) fun c => ?_
  rw [hmem, List.mem_singleton]
  constructor
  · intro hc
    obtain ⟨i, hi⟩ := List.exists_mem_of_ne_nil is hne
    exact le_antisymm ((hp i hi).2 c (hc i hi)) (hleast c hc)
  · rintro rfl
    exact fun i hi => (hp i hi).1

end SfDaqBuffer.Streams

namespace SfDaqBuffer

/-! ## 64-bit words -/

instance linearOrderUInt64 : LinearOrder UInt64 where
  le_refl := UInt64.le_refl
  le_trans _ _ _ := UInt64.le_trans
  le_antisymm _ _ := UInt64.le_antisymm
  le_total := UInt64.le_total
  lt_iff_le_not_ge a b := by grind
  toDecidableLE := inferInstance
  min_def _ _ := rfl
  max_def _ _ := rfl

end SfDaqBuffer
