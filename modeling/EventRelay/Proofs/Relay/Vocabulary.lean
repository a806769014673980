import EventRelay.Proofs.Guards.ChatTurns
import EventRelay.Proofs.Relay.Receipts

/-!
# What payloads say

Guards get arbitrary texts from their callers and from the metrics of a request. The texts that show
in a payload that is offered to the sink are labels, which carry that they obey the grammar, and
words of the closed set of feedback values. There is one exception: the conversation that a feedback
refers to is passed through as the caller names it, whatever it says.
-/

namespace EventRelay

open Request (ScopeId)

/-! ## Texts of payloads -/

theorem Label.texts_toJson (l : Label) : l.toJson.texts = [l.text] := Json.texts_ofString l.text

theorem RagSource.texts_toJson (s : RagSource) : s.toJson.texts = s.labels.map Label.text := by
  simp [RagSource.toJson, Json.texts_record, Label.texts_toJson, RagSource.labels]

theorem RagInfo.texts_toJson (r : RagInfo) : r.toJson.texts = r.labels.map Label.text := by
  have chunks : r.sources.flatMap (fun s => s.toJson.texts) =
      (r.sources.flatMap RagSource.labels).map Label.text := by
    rw [List.map_flatMap]
    exact congrArg (List.flatMap · r.sources) (funext RagSource.texts_toJson)
  simp [RagInfo.toJson, Json.texts_record, Json.texts_array, Label.texts_toJson, RagInfo.labels,
    List.flatMap_map, chunks]

/-- Apart from truth values and numbers a chat turn shows its labels. -/
theorem ChatTurn.texts_toJson (p : ChatTurn) : p.toJson.texts = p.labels.map Label.text := by
  obtain ⟨intent, route, domain, ragUsed, latency, piiInput, piiOutput, errorCode, rag⟩ := p
  rcases errorCode with _ | code <;> rcases rag with _ | info <;>
    simp [ChatTurn.toJson, Json.texts_record, Json.member?, Label.texts_toJson,
      RagInfo.texts_toJson, ChatTurn.labels]

/-- A security block shows its labels. -/
theorem SecurityBlock.texts_toJson (p : SecurityBlock) :
    p.toJson.texts = p.labels.map Label.text := by
  simp [SecurityBlock.toJson, Json.texts_record, Label.texts_toJson, SecurityBlock.labels]

/-- A feedback shows its word and the conversation that it refers to. -/
theorem FeedbackNote.texts_toJson (p : FeedbackNote) :
    p.toJson.texts = [p.feedback.word, p.conversation] := by
  simp [FeedbackNote.toJson, Feedback.toJson, Json.texts_record]

/-! ## What calls make payloads show -/

namespace Guards

open Request (Metrics)

/-- A text that a payload may show: a label or a word of the closed set of feedback values. -/
def Admitted (s : String) : Prop := Label.Valid s ∨ ∃ f : Feedback, s = f.word

instance (s : String) : Decidable (Admitted s) :=
  decidable_of_iff (Label.Valid s ∨ ∃ f ∈ [Feedback.like, .dislike, .neutral], s = f.word)
    (or_congr_right
      ⟨fun ⟨f, _, same⟩ => ⟨f, same⟩, fun ⟨f, same⟩ => ⟨f, by cases f <;> simp, same⟩⟩)

private theorem admitted_of_labels {ls : List Label} {s : String}
    (shown : s ∈ ls.map Label.text) : Admitted s := by
  obtain ⟨l, -, rfl⟩ := List.mem_map.mp shown
  exact .inl l.valid

/-- Every text that the payload of a call shows is admitted, unless it is the conversation that a
feedback names. -/
theorem Call.texts_of_payload {call : Call} {m : Metrics} {p : Payload}
    (made : (call.payload m).1 = .ok p) {s : String} (shown : s ∈ p.toJson.texts) :
    Admitted s ∨ ∃ value turn, call = .feedback value s turn := by
  cases call with
  | chatTurn f =>
    obtain ⟨t, rfl, -⟩ := chatPayload_eq_ok_iff.mp made
    rw [Payload.toJson, ChatTurn.texts_toJson] at shown
    exact .inl (admitted_of_labels shown)
  | security blockType rule =>
    obtain ⟨blockType, -, made⟩ := bind_eq_ok_iff.mp made
    obtain ⟨rule, -, made⟩ := bind_eq_ok_iff.mp made
    cases made
    rw [Payload.toJson, SecurityBlock.texts_toJson] at shown
    exact .inl (admitted_of_labels shown)
  | feedback value conversation turn =>
    cases made
    rw [Payload.toJson, FeedbackNote.texts_toJson] at shown
    rcases List.mem_cons.mp shown with rfl | named
    · exact .inl (.inr ⟨value, rfl⟩)
    · rw [List.mem_singleton.mp named]
      exact .inr ⟨value, turn, rfl⟩

end Guards

/-! ## Runs -/

namespace Relay

/-- The guard calls of a run that asked the sink to take an event, each with that event, in order.
-/
def offers (r : Relay) : List Action → List (Guards.Call × Event)
  | [] => []
  | a :: rest =>
    (match a with
      | .emit scope call => (r.asks (.emit scope call)).map (call, ·)
      | _ => []) ++ (r.apply a).offers rest

/-- The payload of an event that a guard call asks the sink to take is the payload of the call. -/
theorem payload_of_asks {r : Relay} {scope : Option ScopeId} {call : Guards.Call} {e : Event}
    (asked : e ∈ r.asks (.emit scope call)) :
    ∃ m, (call.payload m).1 = .ok e.payload := by
  rw [asks_emit] at asked
  cases decision : (r.ruling scope call).decision with
  | «over» outcome =>
    rw [decision] at asked
    cases asked
  | offer own =>
    rw [decision] at asked
    obtain rfl := List.mem_singleton.mp asked
    cases scope with
    | none => cases decision
    | some i =>
      obtain ⟨-, -, p, made, built⟩ := Guards.judge_offer decision
      rw [(Event.carries_of_build built).2]
      exact ⟨_, made⟩

/-- In every run, from whatever state of the requests and their metrics, every text in the payload
of an event that a guard call offers is a label or a feedback word, unless the call is a feedback
that names the text as its conversation. -/
theorem offered_texts_are_admitted (r : Relay) (actions : List Action) :
    ∀ c ∈ r.offers actions, ∀ s ∈ c.2.payload.toJson.texts,
      Guards.Admitted s ∨ ∃ value turn, c.1 = .feedback value s turn := by
  induction actions generalizing r with
  | nil => simp [offers]
  | cons a rest ih =>
    intro c member s shown
    rcases List.mem_append.mp member with now | later
    · cases a with
      | emit scope call =>
        obtain ⟨e, asked, rfl⟩ := List.mem_map.mp now
        obtain ⟨m, made⟩ := payload_of_asks asked
        exact Guards.Call.texts_of_payload made shown
      | _ => cases now
    · exact ih (r.apply a) c later s shown

/-- In a request a block is reported. -/
def blocking : List Action :=
  [.create, .perform (some 0) (.setCorrelation visitor), .emit (some 0) (.security "pii" "no-ssn")]

/-- The payload of the event that is offered for a block shows its type, and that is a label. -/
theorem block_type_is_admitted :
    ∃ c ∈ unused.offers blocking, "pii" ∈ c.2.payload.toJson.texts ∧
      (Guards.Admitted "pii" ∨ ∃ value turn, c.1 = .feedback value "pii" turn) := by
  have offered : ∃ c ∈ unused.offers blocking, "pii" ∈ c.2.payload.toJson.texts := by
    decide +kernel
  obtain ⟨c, member, shown⟩ := offered
  exact ⟨c, member, shown, offered_texts_are_admitted unused blocking c member "pii" shown⟩

/-- In a request a user complains about an answer and names the question as its conversation. -/
def complaint : List Action :=
  [.create, .perform (some 0) (.setCorrelation visitor),
    .emit (some 0) (.feedback .dislike "what is my salary?" 1)]

/-- The conversation of a feedback reaches the sink without a check, whatever it says. -/
theorem conversation_is_not_admitted :
    ∃ c ∈ unused.offers complaint, ∃ s ∈ c.2.payload.toJson.texts, ¬ Guards.Admitted s := by
  decide +kernel

end Relay

end EventRelay
