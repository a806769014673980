import EventRelay.Exchange
import EventRelay.Proofs.Publisher.Answers
import EventRelay.Proofs.Settings.Token
import EventRelay.Proofs.Text.Utf8

/-!
# Requests that can be formed

A request carries the token in a header, and only legal header values can be sent. A token is looked
at nowhere else, neither when settings are checked nor when a collector or a publisher is made. With
a token that is not legal every attempt of every batch fails before anything is sent.
-/

namespace EventRelay

namespace Text

/-- A text without control bytes other than the tab. -/
def HeaderLegal (s : String) : Prop := ∀ b ∈ utf8Bytes s, (b = 9 ∨ 32 ≤ b) ∧ b ≠ 127

instance (s : String) : Decidable (HeaderLegal s) :=
  inferInstanceAs (Decidable (∀ b ∈ utf8Bytes s, _))

theorem isHeaderByte_iff {b : UInt8} : isHeaderByte b = true ↔ (b = 9 ∨ 32 ≤ b) ∧ b ≠ 127 := by
  simp only [isHeaderByte, Bool.or_eq_true, beq_iff_eq, Bool.and_eq_true, decide_eq_true_eq,
    bne_iff_ne]
  constructor
  · rintro (rfl | ⟨printed, kept⟩)
    · exact ⟨.inl rfl, by decide⟩
    · exact ⟨.inr printed, kept⟩
  · rintro ⟨tab | printed, kept⟩
    · exact .inl tab
    · exact .inr ⟨printed, kept⟩

/-- The legal texts are those that can be sent as a header value. -/
theorem isHeaderValue_iff {s : String} : isHeaderValue s = true ↔ HeaderLegal s :=
  List.all_eq_true.trans (forall₂_congr fun _ _ => isHeaderByte_iff)

theorem isHeaderValue_append (s t : String) :
    isHeaderValue (s ++ t) = (isHeaderValue s && isHeaderValue t) := by
  rw [isHeaderValue, utf8Bytes_append, List.all_append, isHeaderValue, isHeaderValue]

/-- The word before the token is legal, so that the token decides. -/
theorem isHeaderValue_bearer (token : String) :
    isHeaderValue ("Bearer " ++ token) = isHeaderValue token := by
  have word : isHeaderValue "Bearer " = true := by decide +kernel
  rw [isHeaderValue_append, word, Bool.true_and]

end Text

namespace Collector

open Publisher (Ending Response State)

variable {c : Collector} {token : String}

/-- How an attempt fails whose request cannot be formed. -/
def unformed : DeliveryError :=
  .transport "failed to build request: failed to parse header value"

/-- The headers of a collector, with the given authorization. -/
def headersWith (authorization : Option String) : List (String × String) :=
  (authorization.map fun value => ("authorization", value)).toList ++
    [("content-type", "application/json")]

/-- Legal tokens make headers. -/
theorem headers_of_legal (legal : ∀ token ∈ c.authToken, Text.HeaderLegal token) :
    c.headers =
      .ok (headersWith (c.authToken.map fun token => "Bearer " ++ token)) := by
  cases given : c.authToken with
  | none => simp only [headers, given]; rfl
  | some token =>
    have sent := Text.isHeaderValue_iff.mpr (legal token given)
    simp only [headers, given, Text.isHeaderValue_bearer, sent]
    rfl

/-- Other tokens make none. -/
theorem headers_of_illegal (given : c.authToken = some token) (illegal : ¬Text.HeaderLegal token) :
    c.headers = .error unformed := by
  have refused : ¬Text.isHeaderValue token = true := mt Text.isHeaderValue_iff.mp illegal
  simp only [headers, given, Text.isHeaderValue_bearer, if_neg refused]
  rfl

/-- What stands in the authorization header for a token, if the token can be sent. -/
def authorization (token : String) : Except DeliveryError String :=
  if Text.isHeaderValue token then .ok ("Bearer " ++ token) else .error unformed

/-- The request for a batch with the given authorization. -/
def request (c : Collector) (batch : Envelope) (value : String) : Post :=
  ⟨c.endpoint.target, headersWith (some value), batch.body⟩

/-- Of a token a request has nothing but the authorization. -/
theorem post_withToken (c : Collector) (token : String) (batch : Envelope) :
    (c.withToken token).post batch = (authorization token).map (c.request batch) := by
  unfold authorization
  split
  · next sent =>
    have legal : ∀ t ∈ (c.withToken token).authToken, Text.HeaderLegal t := by
      rintro t ⟨⟩
      exact Text.isHeaderValue_iff.mp sent
    rw [post, headers_of_legal legal]
    rfl
  · next refused =>
    have illegal : ¬Text.HeaderLegal token := mt Text.isHeaderValue_iff.mpr refused
    rw [post, headers_of_illegal rfl illegal]
    rfl

/-- A collector has the token of its settings. -/
theorem authToken_of_settings {s : Settings} (described : Collector.ofSettings s = .ok c) :
    c.authToken = s.authToken := by
  unfold Collector.ofSettings at described
  split at described
  · contradiction
  · split at described
    · contradiction
    · cases described
      rfl

/-- A publisher that can accept events was made with a collector that has the token of its
settings. -/
theorem exists_of_made {s : Settings} {reach : Collector → Publisher.Transport}
    {tosses : List Publisher.Branch} {p : State}
    (made : Publisher.ofSettings s reach tosses = .ok p) (enabled : p.enabled = true) :
    ∃ c, s.validate = .ok () ∧ s.enabled = true ∧ Collector.ofSettings s = .ok c ∧
      c.authToken = s.authToken ∧ p = { settings := s, transport := some (reach c), tosses } := by
  unfold Publisher.ofSettings at made
  split at made
  · contradiction
  · next checked =>
    split_ifs at made with off
    · cases made
      rw [State.enabled, Bool.and_eq_true] at enabled
      exact absurd enabled.2 Bool.false_ne_true
    · split at made
      · contradiction
      · next c described =>
        cases made
        exact ⟨c, checked, by simpa using off, described, authToken_of_settings described, rfl⟩

/-- With any other token the publisher is made as well. -/
theorem exists_made_withToken {s : Settings} {reach : Collector → Publisher.Transport}
    {tosses : List Publisher.Branch} (checked : s.validate = .ok ()) (on : s.enabled = true)
    (described : Collector.ofSettings s = .ok c) (token : String) :
    ∃ q, Publisher.ofSettings (s.withToken token) reach tosses = .ok q ∧ q.enabled = true := by
  have unseen : (s.withToken token).validate = .ok () := checked
  have switched : (!(s.withToken token).enabled) = false := by rw [Settings.withToken, on]; rfl
  have other : Collector.ofSettings (s.withToken token) = .ok (c.withToken token) := by
    rw [ofSettings_withToken, described]
    rfl
  refine ⟨{ settings := s.withToken token, transport := some (reach (c.withToken token)), tosses },
    ?_, Bool.and_eq_true_iff.mpr ⟨on, rfl⟩⟩
  rw [Publisher.ofSettings, unseen, switched, other]
  rfl

/-- The way to a collector whose requests cannot be formed: every attempt fails at once. -/
def futile : Publisher.Transport := { later := { ending := .failure unformed } }

theorem transport_of_illegal (n : Network) (given : c.authToken = some token)
    (illegal : ¬Text.HeaderLegal token) : n.transport c = futile := by
  unfold Network.transport
  rw [headers_of_illegal given illegal]
  rfl

/-- An attempt that fails at once ends with that failure. -/
theorem eq_of_result_futile {limit : Nat} {result : Ending}
    (h : Publisher.Result (· = futile.later) limit result) : result = .failure unformed := by
  obtain ⟨r, elapsed, rfl, ended⟩ := h
  have now : futile.later.resultAfter elapsed limit = some (.failure unformed) :=
    if_pos ⟨Nat.zero_le elapsed, Ending.noConfusion⟩
  exact (Option.some.inj (now.symm.trans ended)).symm

/-- For every publisher that is made from settings and can accept events. A request for a batch can
be formed exactly if there is no token or the token has no control byte other than the tab, whatever
the batch; it then carries the token behind its word, with every blank. Neither the check of the
settings nor the construction looks at the token: with any other token the publisher is made as
well. If the token is not legal, every attempt of every batch fails with the fault of its header,
and in every run all answers are this failure and nothing is ever delivered. -/
theorem requests_are_formed_iff_token_is_legal {s : Settings} {n : Network}
    {tosses : List Publisher.Branch} {p : State}
    (made : Publisher.ofSettings s n.transport tosses = .ok p) (enabled : p.enabled = true) :
    ∃ c, Collector.ofSettings s = .ok c ∧ p.transport = some (n.transport c) ∧
      (∀ batch, (∃ q, c.post batch = .ok q) ↔ ∀ token ∈ s.authToken, Text.HeaderLegal token) ∧
      (∀ batch q, c.post batch = .ok q → q = ⟨c.endpoint.target,
        headersWith (s.authToken.map fun token => "Bearer " ++ token), batch.body⟩) ∧
      (∀ token, ∃ q, Publisher.ofSettings (s.withToken token) n.transport tosses = .ok q ∧
        q.enabled = true) ∧
      (∀ token ∈ s.authToken, ¬Text.HeaderLegal token →
        (∀ batch, c.post batch = .error unformed) ∧
        (∀ batch attempt, n.deliver c batch attempt = .failure unformed) ∧
        ∀ actions,
          (∀ i time result, .answered i time result ∈ (p.run actions).history →
            result = .failure unformed) ∧
          (p.run actions).stats.batchesDelivered = 0 ∧
          (p.run actions).stats.eventsDelivered = 0) := by
  obtain ⟨c, checked, on, described, same, whole⟩ := exists_of_made made enabled
  have posted (h : ∀ token ∈ s.authToken, Text.HeaderLegal token) (batch : Envelope) :
      c.post batch = .ok ⟨c.endpoint.target,
        headersWith (s.authToken.map fun token => "Bearer " ++ token), batch.body⟩ := by
    rw [post, headers_of_legal (same ▸ h), same]
    rfl
  have refused (token : String) (given : token ∈ s.authToken) (illegal : ¬Text.HeaderLegal token)
      (batch : Envelope) : c.post batch = .error unformed := by
    rw [post, headers_of_illegal (same.trans given) illegal]
    rfl
  have formed (batch : Envelope) :
      (∃ q, c.post batch = .ok q) ↔ ∀ token ∈ s.authToken, Text.HeaderLegal token := by
    refine ⟨fun ⟨q, h⟩ token given => ?_, fun legal => ⟨_, posted legal batch⟩⟩
    by_contra illegal
    nomatch (refused token given illegal batch).symm.trans h
  refine ⟨c, described, by rw [whole], formed, fun batch q h => ?_, fun token => ?_,
    fun token given illegal =>
      ⟨refused token given illegal, fun batch attempt => ?_, fun actions => ?_⟩⟩
  · have legal := (formed batch).mp ⟨q, h⟩
    exact (Except.ok.inj ((posted legal batch).symm.trans h)).symm
  · exact exists_made_withToken checked on described token
  · simp only [Network.deliver, refused token given illegal batch]
  · have supplied : p.transport = some futile := by
      rw [whole, transport_of_illegal n (same.trans given) illegal]
    have gives : futile.Gives (· = futile.later) :=
      { coming := fun _ member => (nomatch member)
        later := rfl }
    have origin : Publisher.Made p := .ofSettings made
    refine ⟨fun i time result told => ?_, origin.nothing_delivered supplied gives ?_ actions⟩
    · exact eq_of_result_futile (((origin.gives supplied gives).run actions).told _ told)
    · intro limit success
      nomatch eq_of_result_futile success

/-- Settings whose token holds a tab and ends in a blank. -/
def tabbedToken : Settings := { Settings.forCollector "http://h" with authToken := some "a\tb " }

/-- The token with a tab is sent as it stands, with the blank at its end. -/
theorem token_with_tab_is_sent :
    ∃ p c q, Publisher.ofSettings tabbedToken (Network.transport .refusing) [] = .ok p ∧
      p.enabled = true ∧ Collector.ofSettings tabbedToken = .ok c ∧
      c.post ⟨"s", ⟨0⟩, []⟩ = .ok q ∧
      q.headers = [("authorization", "Bearer a\tb "), ("content-type", "application/json")] := by
  let c : Collector := ⟨⟨some "http", "h", "/v1/events/batch", none⟩, some "a\tb "⟩
  let p : State := { settings := tabbedToken, transport := some (Network.refusing.transport c) }
  have described : Collector.ofSettings tabbedToken = .ok c := by decide +kernel
  have checked : tabbedToken.validate = .ok () := by decide +kernel
  have made : Publisher.ofSettings tabbedToken (Network.transport .refusing) [] = .ok p := by
    rw [Publisher.ofSettings, checked, described]
    rfl
  have legal : ∀ token ∈ tabbedToken.authToken, Text.HeaderLegal token := by decide +kernel
  obtain ⟨c', again, -, formed, sent, -⟩ := requests_are_formed_iff_token_is_legal made rfl
  cases described.symm.trans again
  obtain ⟨q, posted⟩ := (formed ⟨"s", ⟨0⟩, []⟩).mpr legal
  refine ⟨p, c, q, made, rfl, described, posted, ?_⟩
  rw [sent _ q posted]
  decide +kernel

/-- Settings whose token holds a line feed. -/
def splitToken : Settings := { Settings.forCollector "http://h" with authToken := some "a\nb" }

/-- The token with a line feed is taken, and no request can be formed. -/
theorem token_with_line_feed_is_taken :
    ∃ p c, Publisher.ofSettings splitToken (Network.transport .refusing) [] = .ok p ∧
      p.enabled = true ∧ Collector.ofSettings splitToken = .ok c ∧
      ∀ batch, c.post batch = .error unformed := by
  let c : Collector := ⟨⟨some "http", "h", "/v1/events/batch", none⟩, some "a\nb"⟩
  have described : Collector.ofSettings splitToken = .ok c := by decide +kernel
  have checked : splitToken.validate = .ok () := by decide +kernel
  have refused : c.headers = .error unformed := by decide +kernel
  let p : State := { settings := splitToken, transport := some (Network.refusing.transport c) }
  refine ⟨p, c, ?_, rfl, described, fun batch => ?_⟩
  · rw [Publisher.ofSettings, checked, described]
    rfl
  · rw [post, refused]
    rfl

end Collector

end EventRelay
