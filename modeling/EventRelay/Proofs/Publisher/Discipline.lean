import EventRelay.Proofs.Publisher.Phases
import EventRelay.Proofs.Publisher.Shipments
import Mathlib.Data.List.Induction

/-!
# The discipline of deliveries

At most one batch is in flight. The batches are handed over one after the other, in the order in
which they were taken off the queue; each is handed over once, or a second time after a failure
where that is allowed. A shutdown never hands a batch over twice, and no event is handed over again
in another batch. That a shutdown sends each batch once is a fact about activities, not about
batches: what an activity is never changes, so its part in a delivery can be read off any earlier
moment of the run.
-/

namespace EventRelay.Publisher

open Relation

/-- What one activity does to its entry in the books. -/
structure Books.Turnover (b b' : Books) (me : ActivityId) (p q : Post) : Prop where
  entry : b.posts[me]? = some p
  posts : b'.posts = b.posts.set me q
  /-- An activity stays what it is until it ends. -/
  role : q.role = p.role ∨ q.role = none
  /-- Only a loop or a flush waits for a second attempt. -/
  pausing : ∀ batch resume, q.cycle = some (.pausing batch resume) →
    p.role ≠ some .shutdown ∧ p.role ≠ none
  /-- A second attempt follows the waiting for it. -/
  told : ∀ i time batch, .handed i time batch true ∈ b'.tale →
    .handed i time batch true ∈ b.tale ∨
      (i = me ∧ ∃ batch resume, p.cycle = some (.pausing batch resume))

/-- Work begins an activity, which tells nothing, or is the work of one activity. -/
theorem Books.Work.turnover {b b' : Books} (w : b.Work b') :
    (∃ p, Idle p.cycle ∧ b'.posts = b.posts ++ [p] ∧ b'.tale = b.tale) ∨
      ∃ me p q, Turnover b b' me p q := by
  have idle {c : Option Cycle} {P : Prop} (hi : Idle c) (batch : Envelope) (resume : Nat)
      (hc : c = some (.pausing batch resume)) : P := by
    cases hi <;> cases hc
  cases w with
  | @join p hi => exact .inl ⟨p, hi, rfl, rfl⟩
  | @shift me r r' c c' t entry role hs =>
    refine .inr ⟨me, _, _, entry, rfl, role, fun batch resume hc => ?_,
      fun i time batch hm => .inl hm⟩
    cases hs with
    | rest _ after => exact idle after batch resume hc
    | enter => cases hc
    | wait => cases hc
    | wake => cases hc
    | withdraw after => exact idle after batch resume hc
    | leave after => exact idle after batch resume hc
  | @discard me r r' c' events sample entry role after =>
    refine .inr ⟨me, _, _, entry, rfl, role, idle after, fun i time batch hm => .inl ?_⟩
    simpa using hm
  | @ship me r batch time response entry =>
    refine .inr ⟨me, _, _, entry, rfl, .inl rfl, fun _ _ hc => (by cases hc),
      fun i t b' hm => .inl ?_⟩
    simpa using hm
  | @retry me r batch begun time resume response e entry role =>
    refine .inr ⟨me, _, _, entry, rfl, .inl rfl, fun _ _ _ => ⟨fun hr => role ?_, by simp⟩,
      fun i t b' hm => .inl ?_⟩
    · exact Option.some.inj hr
    · simpa using hm
  | @resume me r batch resume time response entry =>
    refine .inr ⟨me, _, _, entry, rfl, .inl rfl, fun _ _ hc => (by cases hc),
      fun i t b' hm => ?_⟩
    rcases List.mem_cons.mp hm with he | hm
    · exact .inr ⟨(Observation.handed.inj he).1, batch, resume, rfl⟩
    · exact .inl hm
  | @settle me r r' c' batch second begun time response answer fate entry role after =>
    refine .inr ⟨me, _, _, entry, rfl, role, idle after, fun i t b' hm => .inl ?_⟩
    cases answer <;> simpa using hm
  | @forgo me r r' c' batch resume entry role after =>
    refine .inr ⟨me, _, _, entry, rfl, role, idle after, fun i t b' hm => .inl ?_⟩
    simpa using hm

/-- Second attempts are made by loops and flushes. -/
structure Seconds (b : Books) : Prop where
  told : ∀ {i : ActivityId} {time : Nat} {batch : Envelope}, .handed i time batch true ∈ b.tale →
    ∃ p, b.posts[i]? = some p ∧ p.role ≠ some .shutdown
  pausing : ∀ {i : ActivityId} {p : Post} {batch : Envelope} {resume : Nat},
    b.posts[i]? = some p → p.cycle = some (.pausing batch resume) → p.role ≠ some .shutdown

/-- An activity that is a shutdown, or has ended, makes no second attempts. -/
structure Once (i : ActivityId) (b : Books) : Prop where
  entry : ∃ p, b.posts[i]? = some p ∧ (p.role = some .shutdown ∨ p.role = none) ∧
    ∀ batch resume, p.cycle ≠ some (.pausing batch resume)
  told : ∀ time batch, .handed i time batch true ∉ b.tale

section roles

variable {b b' : Books} {me i : ActivityId} {p p' q : Post}

private theorem mem_tale_of_offer {e : Event} {v : Verdict} {time : Nat} {batch : Envelope}
    (h : .handed i time batch true ∈ (b.offer e v).tale) : .handed i time batch true ∈ b.tale := by
  cases v <;> exact (List.mem_cons.mp h).resolve_left Observation.noConfusion

private theorem posts_offer (b : Books) (e : Event) (v : Verdict) :
    (b.offer e v).posts = b.posts := by
  cases v <;> rfl

private theorem Books.Turnover.role_ne (turn : Books.Turnover b b' me p q)
    (hp : p.role ≠ some .shutdown) : q.role ≠ some .shutdown := by
  intro hq
  rcases turn.role with he | he
  · exact hp (he.symm.trans hq)
  · rw [he] at hq
    contradiction

private theorem Books.Turnover.getElem?_self (turn : Books.Turnover b b' me p q) :
    b'.posts[me]? = some q := by
  rw [turn.posts]
  exact getElem?_set_of_some turn.entry q

namespace Seconds

private theorem offer (h : Seconds b) (e : Event) (v : Verdict) : Seconds (b.offer e v) where
  told := by
    intro i time batch hm
    rw [posts_offer]
    exact h.told (mem_tale_of_offer hm)
  pausing := by
    intro i p batch resume hp
    rw [posts_offer] at hp
    exact h.pausing hp

private theorem join (h : Seconds b) (idle : Idle p.cycle) (posts : b'.posts = b.posts ++ [p])
    (tale : b'.tale = b.tale) : Seconds b' where
  told := by
    intro i time batch hm
    rw [tale] at hm
    obtain ⟨p', hp', hr⟩ := h.told hm
    rw [posts]
    exact ⟨p', getElem?_append_of_some hp' p, hr⟩
  pausing := by
    intro i p' batch resume hp' hc
    rw [posts] at hp'
    rcases getElem?_of_append hp' with ⟨_, rfl⟩ | hp'
    · rw [hc] at idle
      cases idle
    · exact h.pausing hp' hc

private theorem turnover (h : Seconds b) (turn : Books.Turnover b b' me p q) : Seconds b' where
  told := by
    intro i time batch hm
    rcases turn.told i time batch hm with hm | ⟨rfl, batch', resume, hc⟩
    · obtain ⟨p', hp', hr⟩ := h.told hm
      by_cases hi : i = me
      · subst hi
        cases hp'.symm.trans turn.entry
        exact ⟨q, turn.getElem?_self, turn.role_ne hr⟩
      · rw [turn.posts, List.getElem?_set_ne (Ne.symm hi)]
        exact ⟨p', hp', hr⟩
    · exact ⟨q, turn.getElem?_self, turn.role_ne (h.pausing turn.entry hc)⟩
  pausing := by
    intro i p' batch resume hp' hc
    rw [turn.posts] at hp'
    rcases getElem?_of_set hp' with ⟨_, rfl⟩ | ⟨_, hp'⟩
    · exact turn.role_ne (turn.pausing batch resume hc).1
    · exact h.pausing hp' hc

/-- What has begun as a shutdown makes no second attempts. -/
theorem once (h : Seconds b) (entry : b.posts[i]? = some p) (role : p.role = some .shutdown) :
    Once i b where
  entry := ⟨p, entry, .inl role, fun _ _ hc => h.pausing entry hc role⟩
  told := by
    intro time batch hm
    obtain ⟨p', hp', hr⟩ := h.told hm
    cases hp'.symm.trans entry
    exact hr role

end Seconds

/-- Every entry leaves second attempts to loops and flushes. -/
theorem Books.Step.seconds (step : b.Step b') (h : Seconds b) : Seconds b' := by
  cases step with
  | offer => exact h.offer _ _
  | work w =>
    rcases w.turnover with ⟨p, idle, posts, tale⟩ | ⟨me, p, q, turn⟩
    · exact h.join idle posts tale
    · exact h.turnover turn

/-- No entry gives a shutdown a second attempt. -/
theorem Books.Step.once (step : b.Step b') (h : Once i b) : Once i b' := by
  obtain ⟨⟨p₀, hp₀, role, still⟩, told⟩ := h
  cases step with
  | @offer e v _ =>
    refine ⟨⟨p₀, ?_, role, still⟩, fun time batch hm => told time batch (mem_tale_of_offer hm)⟩
    rw [posts_offer]
    exact hp₀
  | work w =>
    rcases w.turnover with ⟨p, idle, posts, tale⟩ | ⟨me, p, q, turn⟩
    · refine ⟨⟨p₀, ?_, role, still⟩, fun time batch hm => told time batch (tale ▸ hm)⟩
      rw [posts]
      exact getElem?_append_of_some hp₀ p
    · refine ⟨?_, fun time batch hm => ?_⟩
      · by_cases hi : i = me
        · subst hi
          cases hp₀.symm.trans turn.entry
          refine ⟨q, turn.getElem?_self, ?_, fun batch resume hc => ?_⟩
          · rcases turn.role with he | he
            · rw [he]
              exact role
            · exact .inr he
          · obtain ⟨hs, hn⟩ := turn.pausing batch resume hc
            exact role.elim hs hn
        · refine ⟨p₀, ?_, role, still⟩
          rw [turn.posts, List.getElem?_set_ne (Ne.symm hi)]
          exact hp₀
      · rcases turn.told i time batch hm with hm | ⟨rfl, batch', resume, hc⟩
        · exact told time batch hm
        · cases hp₀.symm.trans turn.entry
          exact still batch' resume hc

end roles

namespace State

/-- What an activity is, until it has ended. -/
def role? (s : State) (i : ActivityId) : Option Role := (s.activity? i).bind Activity.role?

private theorem post_of_role {s : State} {i : ActivityId} {r : Role} (h : s.role? i = some r) :
    ∃ p, s.books.posts[i]? = some p ∧ p.role = some r := by
  obtain ⟨a, ha, hr⟩ := Option.bind_eq_some_iff.mp h
  exact ⟨a.post, entry_of_activity ha, hr⟩

end State

/-- In every run second attempts are made by loops and flushes. -/
theorem Made.seconds {s₀ : State} (made : Made s₀) (actions : List Action) :
    Seconds (s₀.run actions).books := by
  refine s₀.books_run_keeps Books.Step.seconds ⟨fun hm => ?_, fun hp => ?_⟩ actions
  · rw [made.books_tale] at hm
    contradiction
  · rw [made.books_posts] at hp
    contradiction

/-- Whoever was a shutdown at some moment of a run makes no second attempts in it. -/
theorem Made.once {s₀ : State} (made : Made s₀) {earlier actions : List Action}
    (moment : earlier <+: actions) {i : ActivityId}
    (role : (s₀.run earlier).role? i = some .shutdown) : Once i (s₀.run actions).books := by
  obtain ⟨p, hp, hr⟩ := State.post_of_role role
  obtain ⟨later, rfl⟩ := moment
  rw [State.run_append]
  exact State.books_run_keeps Books.Step.once ((made.seconds earlier).once hp hr) later

namespace State

private theorem length_poll (s : State) (i : ActivityId) :
    (s.poll i).activities.length = s.activities.length := by
  rw [poll]
  generalize s.fuel = fuel
  induction fuel generalizing s with
  | zero => rfl
  | succ fuel ih =>
    rw [advance]
    cases h : s.step? i with
    | none => rfl
    | some t => exact (ih t).trans (length_of_step h)

private theorem role_of_loop {s : State} {i : ActivityId}
    (h : s.lifecycle.parts[i]? = some .loop) : s.role? i = some .loop := by
  rw [getElem?_parts] at h
  obtain ⟨a, ha, hp⟩ := Option.map_eq_some_iff.mp h
  rw [role?, ha, Option.bind_some]
  cases a with
  | loop l cancelled => rfl
  | flush cycle => cases hp
  | shutdown d => cases d <;> cases hp
  | ended c => cases hp

private theorem role_of_birth (s : State) (a : Action) {i : ActivityId}
    (before : s.activities.length ≤ i) (after : i < (s.apply a).activities.length) :
    ∃ r, (s.apply a).role? i = some r := by
  have same (h : (s.apply a).activities.length = s.activities.length) :
      ∃ r, (s.apply a).role? i = some r := by
    rw [h] at after
    exact absurd after (Nat.not_lt_of_le before)
  have new (h : (s.apply a).activities.length = s.activities.length + 1) :
      i = s.activities.length := by
    rw [h] at after
    exact Nat.le_antisymm (Nat.le_of_lt_succ after) before
  have called {x : Activity} {r : Role} (hr : x.role? = some r)
      (h : (s.apply a).activities = s.activities ++ [x]) : ∃ r, (s.apply a).role? i = some r := by
    refine ⟨r, ?_⟩
    rw [new (by rw [h, List.length_append, List.length_singleton]), role?, activity?, h,
      List.getElem?_concat_length, Option.bind_some, hr]
  cases a with
  | offer e =>
    refine same ?_
    rw [apply, ← length_parts, s.lifecycle_offer, length_parts]
  | start runtime =>
    rw [apply] at new same ⊢
    rcases s.lifecycle_start runtime with he | ⟨_, _, he⟩
    · refine same ?_
      rw [← length_parts, he, length_parts]
    · have hi := new (by
        rw [← length_parts, he, List.length_append, length_parts, List.length_singleton])
      refine ⟨.loop, role_of_loop ?_⟩
      rw [he, hi, ← length_parts]
      exact List.getElem?_concat_length ..
  | flush => exact called (x := .flush .arriving) rfl rfl
  | shutdown => exact called (x := .shutdown .called) rfl rfl
  | step i' =>
    refine same ?_
    rw [apply]
    cases h : s.step? i' with
    | none => rfl
    | some t => exact length_of_step h
  | poll i' => exact same (s.length_poll i')
  | cancel i' =>
    refine same ?_
    rw [apply]
    split
    · rfl
    · exact s.length_of_cancel i'
  | elapse millis => exact same rfl

private theorem role_in_run {s : State} (none : s.activities = []) (actions : List Action)
    {i : ActivityId} (h : i < (s.run actions).activities.length) :
    ∃ earlier, earlier <+: actions ∧ ∃ r, (s.run earlier).role? i = some r := by
  induction actions using List.reverseRecOn with
  | nil =>
    rw [run_nil, none] at h
    contradiction
  | append_singleton before a ih =>
    rcases Nat.lt_or_ge i (s.run before).activities.length with hi | hi
    · obtain ⟨earlier, moment, hr⟩ := ih hi
      exact ⟨earlier, moment.trans (List.prefix_append _ _), hr⟩
    · rw [run_append] at h
      refine ⟨before ++ [a], List.prefix_rfl, ?_⟩
      rw [run_append]
      exact role_of_birth _ a hi h

end State

/-- Whoever makes a second attempt was a loop or a flush at some moment of the run. -/
theorem Made.role_of_second {s₀ : State} (made : Made s₀) (actions : List Action) {i : ActivityId}
    {time : Nat} {batch : Envelope}
    (h : .handed i time batch true ∈ (s₀.run actions).books.tale) :
    ∃ earlier, earlier <+: actions ∧
      ((s₀.run earlier).role? i = some .loop ∨ (s₀.run earlier).role? i = some .flush) := by
  obtain ⟨p, hp, _⟩ := (made.seconds actions).told h
  have hlt : i < (s₀.run actions).activities.length := by
    have hlt := (List.getElem?_eq_some_iff.mp hp).1
    rwa [State.books, List.length_map] at hlt
  obtain ⟨earlier, moment, r, hr⟩ := State.role_in_run made.untouched.activities actions hlt
  refine ⟨earlier, moment, ?_⟩
  cases r with
  | loop => exact .inl hr
  | flush => exact .inr hr
  | shutdown => exact absurd h ((made.once moment hr).told time batch)

namespace Shipment

variable {sh : Shipment}

private theorem mem_told_of_second (h : sh.second ≠ none) :
    ∃ time, .handed sh.actor time sh.batch true ∈ sh.told := by
  cases hs : sh.second with
  | none => exact absurd hs h
  | some a =>
    refine ⟨a.begun, ?_⟩
    rw [told, hs]
    simp [Attempt.told]

end Shipment

private theorem two_le_count (shipments : List Shipment) :
    shipments.Pairwise fun sh sh' => ∀ e ∈ sh.batch.events, e ∈ sh'.batch.events →
      2 ≤ (shipments.flatMap fun sh => sh.batch.events).count e := by
  induction shipments with
  | nil => exact .nil
  | cons sh rest ih =>
    refine List.pairwise_cons.mpr ⟨fun sh' hm e he he' => ?_, ih.imp fun hp e he he' => ?_⟩
    · have hone : 0 < sh.batch.events.count e := List.count_pos_iff.mpr he
      have htwo : 0 < (rest.flatMap fun sh => sh.batch.events).count e :=
        List.count_pos_iff.mpr (List.mem_flatMap.mpr ⟨sh', hm, he'⟩)
      rw [List.flatMap_cons, List.count_append]
      omega
    · have hr := hp e he he'
      rw [List.flatMap_cons, List.count_append]
      omega

/-- Deliveries follow one another. At most one activity carries a batch. What a history tells of
deliveries are shipments, one for each batch in the order in which the batches were taken off the
queue: a shipment is told to its end before the next one begins, and the one that is not told to its
end is the batch that is carried. A shipment is one batch, handed over once or twice and unchanged;
twice only after a failure, where a second attempt is allowed, and by a loop or a flush. The batch
of a shutdown is handed over once. After a success nothing is handed over again: not the batch, and
none of its events in another batch, unless the event itself was accepted twice. -/
theorem deliveries_are_disciplined {s₀ : State} (made : Made s₀) (actions : List Action) :
    let s := s₀.run actions
    (∀ i j batch batch', s.Carries i batch → s.Carries j batch' → i = j ∧ batch = batch') ∧
    ∃ shipments : List Shipment,
      deliveries s.history = shipments.flatMap Shipment.told ∧
      (∀ sh ∈ shipments, sh.Lawful s₀.settings) ∧
      (∀ sh ∈ shipments.dropLast, sh.fate ≠ none) ∧
      (∀ sh ∈ shipments, sh.fate = none → s.Carries sh.actor sh.batch) ∧
      (∀ i batch, s.Carries i batch → ∃ sh ∈ shipments,
        sh.fate = none ∧ sh.actor = i ∧ sh.batch = batch) ∧
      (∀ sh ∈ shipments, sh.second ≠ none →
        s₀.settings.retryOnce = true ∧ sh.first.Failed ∧ ∃ earlier, earlier <+: actions ∧
          ((s₀.run earlier).role? sh.actor = some .loop ∨
            (s₀.run earlier).role? sh.actor = some .flush)) ∧
      (∀ sh ∈ shipments, ∀ earlier, earlier <+: actions →
        (s₀.run earlier).role? sh.actor = some .shutdown → sh.second = none) ∧
      (∀ sh ∈ shipments, ∀ time, sh.first.answer = some (time, .success) → sh.second = none) ∧
      shipments.Pairwise fun sh sh' => ∀ e ∈ sh.batch.events, e ∈ sh'.batch.events →
        2 ≤ (s₀.taken actions).count e := by
  intro s
  obtain ⟨past, now, h⟩ : ∃ past now, Accounts s.books past now :=
    (made.audited actions).accounts
  have lawful : ∀ sh ∈ past ++ now.toList, sh.Lawful s₀.settings := by
    intro sh hm
    rw [← s₀.settings_run actions]
    exact h.lawful_of_mem hm
  have told : deliveries s.history = (past ++ now.toList).flatMap Shipment.told := by
    rw [← deliveries_tale]
    exact h.told
  have second {sh : Shipment} (hm : sh ∈ past ++ now.toList) (hsec : sh.second ≠ none) :
      ∃ time, .handed sh.actor time sh.batch true ∈ s.books.tale := by
    obtain ⟨time, ht⟩ := Shipment.mem_told_of_second hsec
    exact ⟨time, h.mem_tale hm ht⟩
  refine ⟨fun i j batch batch' hi hj => h.carries_unique hi hj, past ++ now.toList, told, lawful,
    fun sh hm => h.counted_of_mem_dropLast hm, fun sh hm hf => ?_, fun i batch hi => ?_,
    fun sh hm hsec => ?_, fun sh hm earlier moment role => ?_, fun sh hm time ht => ?_, ?_⟩
  · rcases List.mem_append.mp hm with hm | hm
    · exact absurd hf (h.counted sh hm)
    · exact h.carries (Option.mem_toList.mp hm)
  · obtain ⟨sh, hn, ha, hb⟩ := h.exists_of_carries hi
    have hm : sh ∈ past ++ now.toList := List.mem_append_right _ (Option.mem_toList.mpr hn)
    exact ⟨sh, hm, h.uncounted hn, ha, hb⟩
  · obtain ⟨allowed, failed⟩ := (lawful sh hm).retried hsec
    obtain ⟨time, ht⟩ := second hm hsec
    exact ⟨allowed, failed, made.role_of_second actions ht⟩
  · by_contra hsec
    obtain ⟨time, ht⟩ := second hm hsec
    exact (made.once moment role).told time sh.batch ht
  · by_contra hsec
    obtain ⟨_, time', e, hf⟩ := (lawful sh hm).retried hsec
    rw [ht] at hf
    cases hf
  · refine (two_le_count _).imp fun hp e he he' => ?_
    have hc := hp e he he'
    rw [← made.accepted_tale, h.whole, List.count_append]
    omega

/-- After a failure a batch is handed over a second time, and nobody carries it afterwards. -/
theorem failed_batch_is_handed_over_again :
    let s₀ := small [⟨0, .failure (.status 503 "busy")⟩]
    let s := s₀.run (offers 2 ++ [.flush, .poll 0, .elapse 200, .poll 0])
    Made s₀ ∧
    (∀ i j batch batch', s.Carries i batch → s.Carries j batch' → i = j ∧ batch = batch') ∧
    s.stats.retries = 1 ∧ s.stats.eventsDelivered = 2 :=
  ⟨made_small _, (deliveries_are_disciplined (made_small _) _).1, rfl, rfl⟩

end EventRelay.Publisher
