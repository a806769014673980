import EventRelay.Proofs.Payload.RoundTrip
import EventRelay.Proofs.Relay.Asking
import Mathlib.Data.List.Forall2

/-!
# What the text of a batch says

The body of a batch is read back as an object with the name of its sender, its time and its events,
in this order. Each event is an object from which its identifiers are recovered, whatever characters
they hold; an identifier that is not known is null. The kind that is written beside a payload is the
kind of the variant that a reader makes of the payload, to whom the kind is not told.
-/

namespace EventRelay

open Json

namespace Json

/-- The value of the member with the given name, if an object has exactly one. -/
def field? (name : String) : Json → Option Json
  | .object members =>
    match members.filter (·.1 = some name) with
    | [member] => some member.2
    | _ => none
  | _ => none

theorem wellFormed_ofOption {α : Type} {f : α → Json} (each : ∀ a, (f a).WellFormed)
    (value : Option α) : (ofOption f value).WellFormed := by
  cases value with
  | none =>
    rw [ofOption, WellFormed]
    trivial
  | some a => exact each a

theorem wellFormed_array {items : List Json} (each : ∀ j ∈ items, j.WellFormed) :
    (array items).WellFormed := by
  rw [WellFormed]
  induction items with
  | nil => exact trivial
  | cons j rest ih =>
    exact ⟨each j List.mem_cons_self, ih fun k later => each k (List.mem_cons_of_mem j later)⟩

/-- A value that may be absent is read back, null for absence, if null is not written for one that
is present. -/
theorem toOption?_ofOption {α : Type} {f : Json → Option α} {g : α → Json} {value : Option α}
    (present : ∀ a, value = some a → g a ≠ .null ∧ f (g a) = some a) :
    toOption? f (ofOption g value) = some value := by
  cases value with
  | none => rfl
  | some a =>
    obtain ⟨other, read⟩ := present a rfl
    rw [ofOption, toOption?, read]
    · rfl
    · exact other

end Json

/-- Reading scores from their digits leaves the kind of a payload as it is. -/
theorem Payload.kind_of_reread {p q : Payload} (h : p.reread? = some q) : q.kind = p.kind := by
  cases p with
  | chatTurn p =>
    obtain ⟨t, _, rfl⟩ := Option.map_eq_some_iff.mp h
    rfl
  | security p =>
    cases h
    rfl
  | feedback p =>
    cases h
    rfl

namespace Event

/-- An event was built from a correlation and a payload that are valid. -/
inductive Built : Event → Prop
  | build {id : EventId} {time : Instant} {c : Correlation} {p : Payload} {e : Event}
    (correlation : c.Valid) (payload : p.Valid) (built : build id time c p = .ok e) : Built e

/-- What a value says of an event. -/
structure Told (e : Event) (j : Json) : Prop where
  /-- The identifiers that every event has. -/
  trace : (j.field? "traceId").bind toText? = some e.trace
  user : (j.field? "userId").bind toText? = some e.user
  dept : (j.field? "deptId").bind toText? = some e.dept
  /-- The identifiers that may be absent. -/
  conversation : (j.field? "conversationId").bind (toOption? toText?) = some e.conversation
  turn : (j.field? "turnId").bind (toOption? toInt64?) = some e.turn
  /-- The payload is read without its kind, which is the one that stands beside it. -/
  payload : ∃ q, (j.field? "payload").bind Payload.ofJson? = some q ∧
    e.payload.reread? = some q ∧ (j.field? "eventType").bind toText? = some q.kind.word

variable {e : Event}

/-- The payload of an event that was built is valid, and so is its turn. -/
theorem Built.valid (built : e.Built) :
    e.payload.Valid ∧ ∀ i, e.turn = some i → IsInt64 i := by
  obtain ⟨correlation, payload, made⟩ := built
  obtain ⟨carries, same⟩ := carries_of_build made
  rw [same, ← carries.turn]
  exact ⟨payload, correlation⟩

theorem Built.wellFormed_toJson (built : e.Built) : e.toJson.WellFormed := by
  obtain ⟨_, _, payload, _⟩ := Payload.readsAs built.valid.1
  refine wellFormed_record ?_
  simp [wellFormed_ofString, wellFormed_ofOption wellFormed_ofString,
    wellFormed_ofOption wellFormed_ofInt, payload]

/-- An event that was built is told by its JSON value. -/
theorem Built.told (built : e.Built) : e.Told e.toJson := by
  obtain ⟨valid, turn⟩ := built.valid
  obtain ⟨q, reread, _, read⟩ := Payload.readsAs valid
  have conversation : toOption? toText? (.ofOption .ofString e.conversation) =
      some e.conversation :=
    toOption?_ofOption fun s _ => ⟨Json.noConfusion, rfl⟩
  have turn : toOption? toInt64? (.ofOption .ofInt e.turn) = some e.turn :=
    toOption?_ofOption fun i present =>
      ⟨Json.noConfusion, toIntBetween?_ofInt (turn i present)⟩
  have kind : e.kind = q.kind := (Payload.kind_of_reread reread).symm
  constructor
  · simp [toJson, record, field?, ofString, toText?]
  · simp [toJson, record, field?, ofString, toText?]
  · simp [toJson, record, field?, ofString, toText?]
  · simpa [toJson, record, field?] using conversation
  · simpa [toJson, record, field?] using turn
  · refine ⟨q, ?_, reread, ?_⟩
    · simpa [toJson, record, field?] using read
    · simp [toJson, record, field?, ofString, toText?, kind]

end Event

/-- The text of a batch is read as an object with exactly the name of the sender, the time and the
events, in this order, and each event is told by the item in its place. -/
theorem batch_text_tells_its_events (source : String) (sentAt : Instant) {events : List Event}
    (built : ∀ e ∈ events, e.Built) :
    ∃ items : List Json,
      parse (Envelope.body ⟨source, sentAt, events⟩) =
        some (.object [(some "source", .string (some source)),
          (some "sentAt", .string (some sentAt.text)), (some "events", .array items)]) ∧
      List.Forall₂ Event.Told events items := by
  have items : (Json.array (events.map Event.toJson)).WellFormed := by
    refine wellFormed_array fun j hj => ?_
    obtain ⟨e, he, rfl⟩ := List.mem_map.mp hj
    exact (built e he).wellFormed_toJson
  have form : (Envelope.toJson ⟨source, sentAt, events⟩).WellFormed := by
    refine wellFormed_record ?_
    simp [wellFormed_ofString, items]
  refine ⟨events.map Event.toJson, parse_text form, ?_⟩
  exact List.forall₂_map_right_iff.mpr (List.forall₂_same.mpr fun e he => (built e he).told)

/-- A chat turn of the least turn, whose identifiers need escapes. -/
def quotedTurn : Event where
  id := ⟨3⟩
  trace := "a\"\\"
  conversation := some "\n\u0001"
  turn := some (-0x8000000000000000)
  user := "é😀"
  dept := " "
  occurredAt := ⟨7⟩
  payload := .chatTurn {
    intent := ⟨"faq", by decide⟩, route := ⟨"plain", by decide⟩, domain := ⟨"it", by decide⟩
    ragUsed := false, latencyTotal := Text.maxU64, piiInput := true, piiOutput := false
    errorCode := some ⟨"E:1", by decide⟩ }

/-- A feedback outside any conversation. -/
def plainFeedback : Event where
  id := ⟨4⟩
  trace := "t"
  conversation := none
  turn := none
  user := "u"
  dept := "d"
  occurredAt := ⟨8⟩
  payload := .feedback ⟨.dislike, "what is \"it\"?", 0⟩

/-- Both are told in the batch that they make up. -/
theorem turn_and_feedback_are_told :
    (∀ e ∈ [quotedTurn, plainFeedback], e.Built) ∧
    ∃ items : List Json,
      parse (Envelope.body ⟨"chat \"service\"", ⟨9⟩, [quotedTurn, plainFeedback]⟩) =
        some (.object [(some "source", .string (some "chat \"service\"")),
          (some "sentAt", .string (some "<time>")), (some "events", .array items)]) ∧
      List.Forall₂ Event.Told [quotedTurn, plainFeedback] items := by
  have turn : quotedTurn.Built := by
    have made : Event.build ⟨3⟩ ⟨7⟩
        ⟨"a\"\\", "é😀", " ", "\n\u0001", some (-0x8000000000000000)⟩ quotedTurn.payload =
        .ok quotedTurn := rfl
    refine .build ?_ ?_ made
    · rintro i ⟨⟩
      exact ⟨by decide, by decide⟩
    · refine ⟨Nat.le_refl _, ?_⟩
      rintro r ⟨⟩
  have feedback : plainFeedback.Built := by
    have made : Event.build ⟨4⟩ ⟨8⟩ ⟨"t", "u", "d", none, none⟩ plainFeedback.payload =
        .ok plainFeedback := rfl
    refine .build ?_ ?_ made
    · rintro i ⟨⟩
    · exact ⟨by decide, by decide⟩
  have built : ∀ e ∈ [quotedTurn, plainFeedback], e.Built := by
    simp [turn, feedback]
  exact ⟨built, batch_text_tells_its_events "chat \"service\"" ⟨9⟩ built⟩

end EventRelay
