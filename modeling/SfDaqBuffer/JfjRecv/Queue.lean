/-
`PacketBuffer` refines a linear queue: between the two indices are the items that arrived and were not
popped, and every operation gives the result of the queue's operation, its exceptions included. No
operation uses an index outside of the container.
-/
import SfDaqBuffer.JfjRecv.PacketBuffer
import SfDaqBuffer.Lib.LinearQueue

namespace SfDaqBuffer.JfjRecv

variable {T : Type} {CAPACITY : Nat}

/-! ## Calls -/

/-- A call of a user of the buffer, with what `receive_many` does in `fill_from`. -/
inductive BufferCall (T : Type) (CAPACITY : Nat)
  | reset
  | pushBack (item : T)
  | popFront
  | peekFront
  | fillFrom (ev : ReceiveMany T CAPACITY)

/-- What a call returns: the item of a read, or an exception. -/
abbrev CallResult (T : Type) := Except PacketBufferError (Option T)

def PacketBuffer.call : BufferCall T CAPACITY → Action PacketBufferError (PacketBuffer T CAPACITY) (Option T)
  | .reset => do
    Action.modify PacketBuffer.reset
    return none
  | .pushBack item => do
    PacketBuffer.pushBack item
    return none
  | .popFront => do
    let item ← PacketBuffer.popFront
    return some item
  | .peekFront => do
    let item ← PacketBuffer.peekFront
    return some item
  | .fillFrom ev => do
    Action.modify fun b => b.fillFrom ev
    return none

/-- The results of a call and the buffer after it, whether the call throws or not. -/
def bufferCall (b : PacketBuffer T CAPACITY) (c : BufferCall T CAPACITY) : CallResult T × PacketBuffer T CAPACITY :=
  (PacketBuffer.call c).run b

/-- The queue after `receive_many` delivered its items, or none. -/
def ReceiveMany.queue : ReceiveMany T CAPACITY → LinearQueue T CAPACITY
  | .error => .empty
  | .msgs items fits => .fill items fits

def emptyQueueError : PacketBufferError := .outOfRange "Attempted to read empty queue!"

def fullBufferError : PacketBufferError := .outOfRange "Attempted to write a full buffer!"

/-- The calls on a linear queue. -/
def queueCall (q : LinearQueue T CAPACITY) : BufferCall T CAPACITY → CallResult T × LinearQueue T CAPACITY
  | .reset => (.ok none, .empty)
  | .pushBack item =>
    match q.push item with
    | some q' => (.ok none, q')
    | none => (.error fullBufferError, q)
  | .popFront =>
    match q.pop with
    | some (item, q') => (.ok (some item), q')
    | none => (.error emptyQueueError, q)
  | .peekFront =>
    match q.front with
    | some item => (.ok (some item), q)
    | none => (.error emptyQueueError, q)
  | .fillFrom ev => (.ok none, ev.queue)

/-- The results of successive calls, and the state after them. -/
def runCalls {S : Type} (call : S → BufferCall T CAPACITY → CallResult T × S) :
    List (BufferCall T CAPACITY) → S → List (CallResult T) × S
  | [], s => ([], s)
  | c :: cs, s => ((call s c).1 :: (runCalls call cs (call s c).2).1, (runCalls call cs (call s c).2).2)

/-! ## The refinement -/

/-- The indices are those of the queue, and in front of the write index are the items that arrived. -/
structure Represents (b : PacketBuffer T CAPACITY) (q : LinearQueue T CAPACITY) : Prop where
  read : b.idxRead = q.taken
  write : b.idxWrite = q.arrived.length
  items : ∀ i : Fin CAPACITY, i < q.arrived.length → q.arrived[(i : Nat)]? = some (b.container i)

namespace Represents

variable {b : PacketBuffer T CAPACITY} {q : LinearQueue T CAPACITY}

theorem wf (h : Represents b q) : b.WF := by
  have h1 := q.taken_le
  have h2 := q.arrived_le
  constructor
  · rw [h.read]
    exact Int.natCast_nonneg _
  · rw [h.read, h.write]
    exact Int.ofNat_le.2 h1
  · rw [h.write]
    exact Int.ofNat_le.2 h2

theorem content (h : Represents b q) : b.content = q.content := by
  have hitems : (List.ofFn b.container).take q.arrived.length = q.arrived := by
    have hle := q.arrived_le
    refine List.ext_getElem (by simp [hle]) fun i h1 h2 => ?_
    have hi := h.items ⟨i, h2.trans_le hle⟩ h2
    rw [List.getElem?_eq_getElem h2] at hi
    simpa using (Option.some.inj hi).symm
  unfold PacketBuffer.content LinearQueue.content
  rw [h.read, h.write, Int.toNat_natCast, Int.toNat_natCast, hitems]

theorem isEmpty (h : Represents b q) : b.isEmpty = true ↔ q.content = [] := by
  rw [PacketBuffer.isEmpty_iff h.wf, h.content]

/-- The write index is not negative, so the comparison with `CAPACITY` is that of the numbers. -/
theorem isFull (hcap : CAPACITY < 2 ^ 31) (h : Represents b q) : b.isFull = true ↔ q.arrived.length = CAPACITY := by
  have hle := q.arrived_le
  unfold PacketBuffer.isFull
  rw [decide_eq_true_iff, h.write]
  omega

theorem new (container : Fin CAPACITY → T) : Represents (.new container) .empty :=
  ⟨rfl, rfl, fun _ hi => absurd hi (Nat.not_lt_zero _)⟩

theorem reset (b : PacketBuffer T CAPACITY) : Represents b.reset .empty :=
  ⟨rfl, rfl, fun _ hi => absurd hi (Nat.not_lt_zero _)⟩

theorem fillFrom (b : PacketBuffer T CAPACITY) (ev : ReceiveMany T CAPACITY) : Represents (b.fillFrom ev) ev.queue := by
  cases ev with
  | error => exact ⟨rfl, rfl, fun _ hi => absurd hi (Nat.not_lt_zero _)⟩
  | msgs items fits =>
    refine ⟨rfl, rfl, fun i hi => ?_⟩
    have hget : items[(i : Nat)]? = some items[(i : Nat)] := List.getElem?_eq_getElem hi
    show items[(i : Nat)]? = some (items[(i : Nat)]?.getD (b.container i))
    rw [hget]
    rfl

/-- The slot at the read index of a queue that is not empty. -/
theorem front_slot (h : Represents b q) {x : T} (hx : q.front = some x) :
    ∃ i, (∀ b' : PacketBuffer T CAPACITY, (PacketBuffer.slot b.idxRead).run b' = (.ok i, b')) ∧ b.container i = x ∧
      b.isEmpty = false := by
  obtain ⟨hlt, hget⟩ := List.getElem?_eq_some_iff.1 hx
  have hcap := hlt.trans_le q.arrived_le
  have hindex : 0 ≤ b.idxRead ∧ b.idxRead < CAPACITY := by
    rw [h.read]
    exact ⟨Int.natCast_nonneg _, Int.ofNat_lt.2 hcap⟩
  have htaken : b.idxRead.toNat = q.taken := by
    rw [h.read]
    exact Int.toNat_natCast _
  refine ⟨⟨b.idxRead.toNat, by omega⟩, PacketBuffer.slot_run hindex, ?_, ?_⟩
  · have hi := h.items ⟨q.taken, hcap⟩ hlt
    rw [List.getElem?_eq_getElem hlt, hget] at hi
    simp only [htaken]
    exact (Option.some.inj hi).symm
  · rw [← Bool.not_eq_true, h.isEmpty, LinearQueue.content_eq_nil]
    exact Nat.ne_of_lt hlt

/-- `peek_front` returns the front item. -/
theorem peekFront (h : Represents b q) : PacketBuffer.peekFront.run b = match q.front with
    | some x => (.ok x, b)
    | none => (.error emptyQueueError, b) := by
  cases hfront : q.front with
  | some x =>
    obtain ⟨i, hi, rfl, hempty⟩ := h.front_slot hfront
    exact PacketBuffer.run_peekFront hempty hi
  | none =>
    have hempty : b.isEmpty = true := by
      rw [h.isEmpty, ← List.head?_eq_none_iff, ← q.front_eq_head, hfront]
    exact PacketBuffer.run_peekFront_empty hempty

/-- `pop_front` returns the front item and leaves the queue behind it. -/
theorem popFront (h : Represents b q) : match q.pop with
    | some (x, q') => ∃ b', PacketBuffer.popFront.run b = (.ok x, b') ∧ Represents b' q'
    | none => PacketBuffer.popFront.run b = (.error emptyQueueError, b) := by
  cases hpop : q.pop with
  | some out =>
    obtain ⟨x, q'⟩ := out
    obtain ⟨harrived, htaken, hcontent⟩ := LinearQueue.pop_eq_some hpop
    have hfront : q.front = some x := by rw [q.front_eq_head, hcontent]; rfl
    obtain ⟨i, hi, rfl, hempty⟩ := h.front_slot hfront
    refine ⟨{ b with idxRead := b.idxRead + 1 }, PacketBuffer.run_popFront hempty hi, ?_, ?_, ?_⟩
    · rw [htaken, h.read]
      rfl
    · rw [harrived]
      exact h.write
    · rw [harrived]
      exact h.items
  | none =>
    have hempty : b.isEmpty = true := h.isEmpty.2 (LinearQueue.pop_eq_none.1 hpop)
    exact PacketBuffer.run_popFront_empty hempty

/-- `push_back` appends the item unless all slots were used. -/
theorem pushBack (hcap : CAPACITY < 2 ^ 31) (h : Represents b q) (item : T) : match q.push item with
    | some q' => ∃ b', (PacketBuffer.pushBack item).run b = (.ok (), b') ∧ Represents b' q'
    | none => (PacketBuffer.pushBack item).run b = (.error fullBufferError, b) := by
  cases hpush : q.push item with
  | some q' =>
    obtain ⟨harrived, htaken, -⟩ := LinearQueue.push_eq_some hpush
    have hnotFull : b.isFull = false := by
      rw [← Bool.not_eq_true, h.isFull hcap, ← LinearQueue.push_eq_none (x := item), hpush]
      exact Option.some_ne_none q'
    have hlt : q.arrived.length < CAPACITY := by
      have hle := q'.arrived_le
      rwa [harrived, List.length_append] at hle
    have hindex : 0 ≤ b.idxWrite ∧ b.idxWrite < CAPACITY := by
      rw [h.write]
      exact ⟨Int.natCast_nonneg _, Int.ofNat_lt.2 hlt⟩
    have hwrite : b.idxWrite.toNat = q.arrived.length := by
      rw [h.write]
      exact Int.toNat_natCast _
    refine ⟨_, PacketBuffer.run_pushBack hnotFull (PacketBuffer.slot_run hindex b) item, ?_, ?_, ?_⟩
    · rw [htaken]
      exact h.read
    · rw [harrived, List.length_append]
      show b.idxWrite + 1 = _
      rw [h.write]
      rfl
    · intro i hi
      rw [harrived] at hi ⊢
      simp only [hwrite]
      by_cases hlast : i = ⟨q.arrived.length, hlt⟩
      · subst hlast
        simp
      · have hne : (i : Nat) ≠ q.arrived.length := fun heq => hlast (Fin.ext heq)
        rw [List.length_append, List.length_singleton] at hi
        have hold : (i : Nat) < q.arrived.length := by omega
        rw [List.getElem?_append_left hold, h.items i hold]
        exact congrArg some (if_neg hlast).symm
  | none =>
    have hfull : b.isFull = true := (h.isFull hcap).2 (LinearQueue.push_eq_none.1 hpush)
    exact PacketBuffer.run_pushBack_full hfull item

/-- A call gives the result of the queue, and the buffer represents the queue after it; a call that throws
leaves the buffer as it is. -/
theorem call (hcap : CAPACITY < 2 ^ 31) (h : Represents b q) (c : BufferCall T CAPACITY) :
    (bufferCall b c).1 = (queueCall q c).1 ∧ Represents (bufferCall b c).2 (queueCall q c).2 ∧
      ∀ e, (bufferCall b c).1 = .error e → (bufferCall b c).2 = b := by
  cases c with
  | reset => exact ⟨rfl, .reset b, nofun⟩
  | fillFrom ev => exact ⟨rfl, .fillFrom b ev, nofun⟩
  | pushBack item =>
    have hpush := h.pushBack hcap item
    unfold bufferCall PacketBuffer.call queueCall
    cases hq : q.push item with
    | some q' =>
      rw [hq] at hpush
      obtain ⟨b', hb, h'⟩ := hpush
      rw [Action.run_bind_ok hb]
      simp only [hq]
      exact ⟨rfl, h', nofun⟩
    | none =>
      rw [hq] at hpush
      rw [Action.run_bind_error hpush]
      simp only [hq]
      exact ⟨trivial, h, fun _ _ => trivial⟩
  | popFront =>
    have hpop := h.popFront
    unfold bufferCall PacketBuffer.call queueCall
    cases hq : q.pop with
    | some out =>
      rw [hq] at hpop
      obtain ⟨b', hb, h'⟩ := hpop
      rw [Action.run_bind_ok hb]
      exact ⟨rfl, h', nofun⟩
    | none =>
      rw [hq] at hpop
      rw [Action.run_bind_error hpop]
      exact ⟨rfl, h, fun _ _ => rfl⟩
  | peekFront =>
    have hpeek := h.peekFront
    unfold bufferCall PacketBuffer.call queueCall
    cases hq : q.front with
    | some x =>
      rw [hq] at hpeek
      rw [Action.run_bind_ok hpeek]
      exact ⟨rfl, h, nofun⟩
    | none =>
      rw [hq] at hpeek
      rw [Action.run_bind_error hpeek]
      exact ⟨rfl, h, fun _ _ => rfl⟩

theorem runCalls (hcap : CAPACITY < 2 ^ 31) : ∀ (cs : List (BufferCall T CAPACITY)) {b : PacketBuffer T CAPACITY}
    {q : LinearQueue T CAPACITY}, Represents b q →
      (JfjRecv.runCalls bufferCall cs b).1 = (JfjRecv.runCalls queueCall cs q).1 ∧
        Represents (JfjRecv.runCalls bufferCall cs b).2 (JfjRecv.runCalls queueCall cs q).2
  | [], _, _, h => ⟨rfl, h⟩
  | c :: cs, _, _, h => by
    obtain ⟨hresult, h', -⟩ := h.call hcap c
    obtain ⟨hresults, hafter⟩ := runCalls hcap cs h'
    unfold JfjRecv.runCalls
    exact ⟨by rw [hresult, hresults], hafter⟩

end Represents

/-- No call of the queue uses an index outside of the container. -/
theorem queueCall_ne_badIndex (q : LinearQueue T CAPACITY) (c : BufferCall T CAPACITY) :
    (queueCall q c).1 ≠ .error .badIndex := by
  cases c with
  | reset => nofun
  | fillFrom ev => nofun
  | pushBack item =>
    simp only [queueCall]
    cases q.push item <;> rintro ⟨⟩
  | popFront =>
    unfold queueCall
    cases q.pop <;> rintro ⟨⟩
  | peekFront =>
    unfold queueCall
    cases q.front <;> rintro ⟨⟩

theorem runCalls_ne_badIndex : ∀ (cs : List (BufferCall T CAPACITY)) (q : LinearQueue T CAPACITY),
    ∀ r ∈ (runCalls queueCall cs q).1, r ≠ .error .badIndex
  | [], _ => nofun
  | c :: cs, q => by
    intro r hr
    rcases List.mem_cons.1 hr with rfl | hr
    · exact queueCall_ne_badIndex q c
    · exact runCalls_ne_badIndex cs _ r hr

/-- After any calls the buffer has given the results of a linear queue and holds its content, and a next
call that throws changes nothing of it. -/
theorem packetBuffer_refines_queue (hcap : CAPACITY < 2 ^ 31) (container : Fin CAPACITY → T)
    (cs : List (BufferCall T CAPACITY)) :
    let (results, b) := runCalls bufferCall cs (.new container)
    let (expected, q) := runCalls queueCall cs .empty
    results = expected ∧ b.content = q.content ∧
      (0 ≤ b.idxRead ∧ b.idxRead ≤ b.idxWrite ∧ b.idxWrite ≤ CAPACITY) ∧ (∀ r ∈ results, r ≠ .error .badIndex) ∧
      ∀ c e, (bufferCall b c).1 = .error e → (bufferCall b c).2 = b := by
  obtain ⟨hresults, h⟩ := (Represents.new container).runCalls hcap cs
  refine ⟨hresults, h.content, ⟨h.wf.read_nonneg, h.wf.read_le, h.wf.write_le⟩, ?_, fun c => (h.call hcap c).2.2⟩
  rw [hresults]
  exact runCalls_ne_badIndex cs _

/-- A popped slot is not used again: the buffer is full after two items, one of which was popped, and a
further item leaves it as it is. -/
theorem packetBuffer_refines_queue_two :
    let (results, b) := runCalls bufferCall [.pushBack 7, .popFront, .pushBack 8, .pushBack 9, .peekFront]
      (.new fun _ : Fin 2 => 0)
    results = [.ok none, .ok (some 7), .ok none, .error fullBufferError, .ok (some 8)] ∧ b.content = [8] ∧
      (bufferCall b (.pushBack 9)).2 = b := by
  have h := packetBuffer_refines_queue (by decide) (fun _ : Fin 2 => 0)
    [.pushBack 7, .popFront, .pushBack 8, .pushBack 9, .peekFront]
  exact ⟨h.1.trans rfl, h.2.1.trans rfl, h.2.2.2.2 (.pushBack 9) fullBufferError rfl⟩

end SfDaqBuffer.JfjRecv
