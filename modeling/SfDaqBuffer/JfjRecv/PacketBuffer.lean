/-
`PacketBuffer`, the linear packet queue of jfj-udp-recv: a container of `CAPACITY` slots with a
write and a read index, filled by one `receive_many` call and drained from the front. Its content
is the list of the items between the two indices.
-/
import SfDaqBuffer.Lib.Actions

namespace SfDaqBuffer.JfjRecv

/-- An exception of `PacketBuffer`, or an access outside the container. -/
inductive PacketBufferError
  | outOfRange (what : String)
  | badIndex
  deriving DecidableEq, Repr

/-- The result of a `receive_many` call with `CAPACITY` slots: -1, or the items now in the first
slots. -/
inductive ReceiveMany (T : Type) (CAPACITY : Nat)
  | error
  | msgs (items : List T) (fits : items.length ≤ CAPACITY)

/-- The items a call delivered. -/
def ReceiveMany.items {T : Type} {CAPACITY : Nat} : ReceiveMany T CAPACITY → List T
  | .error => []
  | .msgs items _ => items

structure PacketBuffer (T : Type) (CAPACITY : Nat) where
  container : Fin CAPACITY → T
  idxWrite : Int
  idxRead : Int

namespace PacketBuffer

variable {T : Type} {CAPACITY : Nat}

/-- The buffer after its constructor; the container is not initialized. -/
def new (container : Fin CAPACITY → T) : PacketBuffer T CAPACITY := ⟨container, 0, 0⟩

/-! ## Operations -/

def size (b : PacketBuffer T CAPACITY) : Int := b.idxWrite - b.idxRead

def capacity (_ : PacketBuffer T CAPACITY) : Nat := CAPACITY

/-- The signed index is compared as a `size_t`. -/
def isFull (b : PacketBuffer T CAPACITY) : Bool := (CAPACITY : Int) ≤ b.idxWrite % 2 ^ 64

def isEmpty (b : PacketBuffer T CAPACITY) : Bool := b.idxWrite ≤ b.idxRead

def reset (b : PacketBuffer T CAPACITY) : PacketBuffer T CAPACITY :=
  { b with idxWrite := 0, idxRead := 0 }

/-- The slot an index names, if it is one of the container. -/
def slot (i : Int) : Action PacketBufferError (PacketBuffer T CAPACITY) (Fin CAPACITY) :=
  if h : 0 ≤ i ∧ i < CAPACITY then pure ⟨i.toNat, by omega⟩ else .throw .badIndex

def popFront : Action PacketBufferError (PacketBuffer T CAPACITY) T := do
  let b ← Action.get
  Action.onlyIf b.isEmpty (.throw (.outOfRange "Attempted to read empty queue!"))
  Action.modify fun b => { b with idxRead := b.idxRead + 1 }
  let b ← Action.get
  let i ← slot (b.idxRead - 1)
  return b.container i

def peekFront : Action PacketBufferError (PacketBuffer T CAPACITY) T := do
  let b ← Action.get
  Action.onlyIf b.isEmpty (.throw (.outOfRange "Attempted to read empty queue!"))
  let i ← slot b.idxRead
  return b.container i

def pushBack (item : T) : Action PacketBufferError (PacketBuffer T CAPACITY) Unit := do
  let b ← Action.get
  Action.onlyIf b.isFull (.throw (.outOfRange "Attempted to write a full buffer!"))
  let i ← slot b.idxWrite
  Action.modify fun b => { b with container := fun j => if j = i then item else b.container j }
  Action.modify fun b => { b with idxWrite := b.idxWrite + 1 }

def fillFrom (b : PacketBuffer T CAPACITY) : ReceiveMany T CAPACITY → PacketBuffer T CAPACITY
  -- -1 with errno=11 if no data received
  | .error => { b with idxWrite := 0, idxRead := 0 }
  | .msgs items _ => {
      container := fun j => items[(j : Nat)]?.getD (b.container j)
      idxWrite := items.length
      idxRead := 0 }

/-! ## The content -/

/-- The items between the read and the write index, in arrival order. -/
def content (b : PacketBuffer T CAPACITY) : List T :=
  ((List.ofFn b.container).take b.idxWrite.toNat).drop b.idxRead.toNat

/-- The indices of a reachable buffer. -/
structure WF (b : PacketBuffer T CAPACITY) : Prop where
  read_nonneg : 0 ≤ b.idxRead
  read_le : b.idxRead ≤ b.idxWrite
  write_le : b.idxWrite ≤ CAPACITY

theorem length_content {b : PacketBuffer T CAPACITY} (h : b.WF) :
    (b.content.length : Int) = b.size := by
  obtain ⟨h1, h2, h3⟩ := h
  unfold content size
  rw [List.length_drop, List.length_take, List.length_ofFn]
  omega

theorem isEmpty_iff {b : PacketBuffer T CAPACITY} (h : b.WF) : b.isEmpty = true ↔ b.content = [] := by
  have hl := length_content h
  unfold size at hl
  unfold isEmpty
  rw [decide_eq_true_iff, ← List.length_eq_zero_iff]
  omega

theorem new_wf (container : Fin CAPACITY → T) : (new container).WF :=
  ⟨le_refl _, le_refl _, by simp [new]⟩

theorem reset_wf (b : PacketBuffer T CAPACITY) : b.reset.WF :=
  ⟨le_refl _, le_refl _, by simp [reset]⟩

theorem content_reset (b : PacketBuffer T CAPACITY) : b.reset.content = [] := rfl

theorem fillFrom_wf (b : PacketBuffer T CAPACITY) (ev : ReceiveMany T CAPACITY) : (b.fillFrom ev).WF := by
  cases ev with
  | error => exact ⟨le_refl _, le_refl _, by simp [fillFrom]⟩
  | msgs items fits => exact ⟨le_refl _, by simp [fillFrom], by simpa [fillFrom] using fits⟩

theorem content_fillFrom (b : PacketBuffer T CAPACITY) (ev : ReceiveMany T CAPACITY) :
    (b.fillFrom ev).content = ev.items := by
  cases ev with
  | error => rfl
  | msgs items fits =>
    unfold content fillFrom ReceiveMany.items
    simp only [Int.toNat_natCast, Int.toNat_zero, List.drop_zero]
    refine List.ext_getElem (by simpa using fits) fun i h1 h2 => ?_
    simp [List.getElem?_eq_getElem h2]

theorem slot_run {i : Int} (h : 0 ≤ i ∧ i < CAPACITY) (b : PacketBuffer T CAPACITY) :
    (slot i).run b = (.ok ⟨i.toNat, by omega⟩, b) := by
  unfold slot
  rw [dif_pos h]
  rfl

/-- The front slot of a nonempty buffer. -/
theorem content_cons {b : PacketBuffer T CAPACITY} (h : b.WF) {x : T} {xs : List T}
    (hc : b.content = x :: xs) :
    ∃ i, (∀ b' : PacketBuffer T CAPACITY, (slot b.idxRead).run b' = (.ok i, b')) ∧ b.container i = x ∧
      ({ b with idxRead := b.idxRead + 1 } : PacketBuffer T CAPACITY).content = xs ∧
      b.idxRead < b.idxWrite := by
  have hl := length_content h
  rw [hc] at hl
  unfold size at hl
  obtain ⟨h1, h2, h3⟩ := h
  have hlt : b.idxRead < b.idxWrite := by simp at hl; omega
  have hi : b.idxRead.toNat < CAPACITY := by omega
  refine ⟨⟨b.idxRead.toNat, hi⟩, fun b' => slot_run ⟨h1, by omega⟩ b', ?_, ?_, hlt⟩
  all_goals
    have hlen : b.idxRead.toNat < ((List.ofFn b.container).take b.idxWrite.toNat).length := by
      simp; omega
    unfold content at hc
    rw [List.drop_eq_getElem_cons hlen] at hc
  · simpa using (List.cons.inj hc).1
  · have hnat : (b.idxRead + 1).toNat = b.idxRead.toNat + 1 := by omega
    unfold content
    simp only [hnat]
    exact (List.cons.inj hc).2

section

variable {b : PacketBuffer T CAPACITY}

theorem run_peekFront_empty (h : b.isEmpty = true) :
    peekFront.run b = (.error (.outOfRange "Attempted to read empty queue!"), b) := by
  unfold peekFront
  rw [Action.run_bind_ok (Action.run_get b), Action.onlyIf_true h]
  exact Action.run_bind_error (Action.run_throw _ b)

theorem run_peekFront (h : b.isEmpty = false) {i : Fin CAPACITY}
    (hi : ∀ b' : PacketBuffer T CAPACITY, (slot b.idxRead).run b' = (.ok i, b')) :
    peekFront.run b = (.ok (b.container i), b) := by
  unfold peekFront
  rw [Action.run_bind_ok (Action.run_get b), Action.onlyIf_false (by rw [h]; decide),
    Action.run_bind_ok (Action.run_pure () b), Action.run_bind_ok (hi b)]
  rfl

theorem run_popFront_empty (h : b.isEmpty = true) :
    popFront.run b = (.error (.outOfRange "Attempted to read empty queue!"), b) := by
  unfold popFront
  rw [Action.run_bind_ok (Action.run_get b), Action.onlyIf_true h]
  exact Action.run_bind_error (Action.run_throw _ b)

theorem run_popFront (h : b.isEmpty = false) {i : Fin CAPACITY}
    (hi : ∀ b' : PacketBuffer T CAPACITY, (slot b.idxRead).run b' = (.ok i, b')) :
    popFront.run b = (.ok (b.container i), { b with idxRead := b.idxRead + 1 }) := by
  unfold popFront
  rw [Action.run_bind_ok (Action.run_get b), Action.onlyIf_false (by rw [h]; decide),
    Action.run_bind_ok (Action.run_pure () b), Action.run_bind_ok (Action.run_modify _ b),
    Action.run_bind_ok (Action.run_get _)]
  simp only [add_sub_cancel_right]
  rw [Action.run_bind_ok (hi _)]
  rfl

theorem run_pushBack_full (h : b.isFull = true) (item : T) :
    (pushBack item).run b = (.error (.outOfRange "Attempted to write a full buffer!"), b) := by
  unfold pushBack
  rw [Action.run_bind_ok (Action.run_get b), Action.onlyIf_true h]
  exact Action.run_bind_error (Action.run_throw _ b)

theorem run_pushBack (h : b.isFull = false) {i : Fin CAPACITY} (hi : (slot b.idxWrite).run b = (.ok i, b)) (item : T) :
    (pushBack item).run b = (.ok (), { b with
      container := fun j => if j = i then item else b.container j
      idxWrite := b.idxWrite + 1 }) := by
  unfold pushBack
  rw [Action.run_bind_ok (Action.run_get b), Action.onlyIf_false (by rw [h]; decide),
    Action.run_bind_ok (Action.run_pure () b), Action.run_bind_ok hi, Action.run_bind_ok (Action.run_modify _ b)]
  rfl

theorem isEmpty_of_cons (h : b.WF) {x : T} {xs : List T} (hc : b.content = x :: xs) : b.isEmpty = false := by
  rw [← Bool.not_eq_true, isEmpty_iff h, hc]
  exact List.cons_ne_nil _ _

theorem peekFront_eq (h : b.WF) {x : T} {xs : List T} (hc : b.content = x :: xs) :
    peekFront.run b = (.ok x, b) := by
  obtain ⟨i, hi, rfl, -, -⟩ := content_cons h hc
  exact run_peekFront (isEmpty_of_cons h hc) hi

theorem popFront_eq (h : b.WF) {x : T} {xs : List T} (hc : b.content = x :: xs) :
    ∃ b', popFront.run b = (.ok x, b') ∧ b'.content = xs ∧ b'.WF := by
  obtain ⟨i, hi, rfl, hxs, hlt⟩ := content_cons h hc
  refine ⟨{ b with idxRead := b.idxRead + 1 }, run_popFront (isEmpty_of_cons h hc) hi, hxs, ⟨?_, ?_, h.write_le⟩⟩
  · have := h.read_nonneg; simp; omega
  · simp; omega

end

end PacketBuffer

end SfDaqBuffer.JfjRecv
