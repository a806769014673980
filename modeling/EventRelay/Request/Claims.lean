import EventRelay.Payload

/-!
# Claims of a request

In each request every event has a slot: one for the chat turn, one for each pair of block type and
rule, one for each triple of conversation, turn and feedback value. A slot can be claimed once.
-/

namespace EventRelay.Request

/-- The slot of an event other than the chat turn. -/
inductive Slot
  /-- A security block. -/
  | security (blockType rule : String)
  /-- A feedback. -/
  | feedback (conversation : String) (turn : Int) (value : Feedback)
  deriving DecidableEq, Repr

/-- The slots that have been claimed. -/
structure Claims where
  /-- The slot of the chat turn. -/
  chatTurn : Bool := false
  /-- The other slots, each once. -/
  slots : List Slot := []
  deriving DecidableEq, Repr, Inhabited

namespace Claims

/-- Claims the slot of the chat turn; the answer tells whether it was free. -/
def claimChatTurn (c : Claims) : Claims × Bool := ({ c with chatTurn := true }, !c.chatTurn)

/-- Claims a slot; the answer tells whether it was free. -/
def claim (c : Claims) (s : Slot) : Claims × Bool :=
  if c.slots.contains s then (c, false) else ({ c with slots := s :: c.slots }, true)

/-- Whether a slot has been claimed. -/
def has (c : Claims) (s : Slot) : Bool := c.slots.contains s

/-- The number of slots that have been claimed, the chat turn apart. -/
def count (c : Claims) : Nat := c.slots.length

/-- Whether nothing has been claimed. -/
def isEmpty (c : Claims) : Bool := !c.chatTurn && c.slots.isEmpty

/-- After a claim exactly that slot is taken in addition. -/
theorem has_claim (c : Claims) (s t : Slot) : (c.claim s).1.has t = (c.has t || t == s) := by
  unfold claim has
  split
  · next h =>
    by_cases e : t = s
    · subst e
      simpa using h
    · simp [e]
  · by_cases e : t = s <;> simp [e]

/-- A claim succeeds exactly if the slot was free. -/
theorem claim_snd (c : Claims) (s : Slot) : (c.claim s).2 = !c.has s := by
  unfold claim has
  split <;> simp_all

end Claims

end EventRelay.Request
