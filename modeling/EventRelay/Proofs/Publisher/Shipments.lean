import EventRelay.Proofs.Publisher.Fifo
import EventRelay.Proofs.Publisher.Line

/-!
# Shipments

A shipment is what a history tells of one batch: it was taken off the queue, handed over once or
twice, answered, and counted. The deliveries in a history are shipments one after the other. All of
them but the last are counted; the last one is counted or is under way, and then exactly one
activity carries its batch.
-/

namespace EventRelay.Publisher

/-- One attempt to hand a batch over. -/
structure Attempt where
  /-- When it began. -/
  begun : Nat
  /-- When and how it was answered; otherwise it is under way or was cut off. -/
  answer : Option (Nat × Ending)
  deriving DecidableEq, Repr

namespace Attempt

/-- What a history tells of an attempt. -/
def told (a : Attempt) (actor : ActivityId) (batch : Envelope) (second : Bool) :
    List Observation :=
  .handed actor a.begun batch second ::
    (a.answer.map fun answer => Observation.answered actor answer.1 answer.2).toList

/-- Whether an attempt was answered with a failure; a timeout is one. -/
def Failed (a : Attempt) : Prop := ∃ time e, a.answer = some (time, .failure e)

end Attempt

/-- What became of a batch after it was taken off the queue. -/
structure Shipment where
  /-- Who took it. -/
  actor : ActivityId
  /-- The batch as it was sent. -/
  batch : Envelope
  /-- The first attempt. -/
  first : Attempt
  /-- The second attempt, if there was one. -/
  second : Option Attempt
  /-- What became of it, once it is counted. -/
  fate : Option Fate
  deriving DecidableEq, Repr

namespace Shipment

/-- What a history tells of a shipment. -/
def told (sh : Shipment) : List Observation :=
  .drained sh.actor sh.batch.events ::
    (sh.first.told sh.actor sh.batch false ++
      ((sh.second.map fun a => a.told sh.actor sh.batch true).getD [] ++
        (sh.fate.map fun f => Observation.notice (f.notice sh.batch)).toList))

/-- The answer to the last attempt. -/
def lastAnswer (sh : Shipment) : Option Ending := (sh.second.getD sh.first).answer.map Prod.snd

/-- What holds of every shipment. -/
structure Lawful (settings : Settings) (sh : Shipment) : Prop where
  /-- There is no empty batch. -/
  nonempty : sh.batch.events ≠ []
  /-- There is a second attempt only where it is allowed, and only after a failure. -/
  retried : sh.second ≠ none → settings.retryOnce = true ∧ sh.first.Failed
  /-- What became of the batch follows from the last answer, unless the second attempt was cut off
  before it began. -/
  settled : ∀ f, sh.fate = some f → f.Follows sh.lastAnswer ∨
    (f = .abandoned ∧ sh.second = none ∧ sh.first.Failed)

end Shipment

/-- The flush cycle that carries a shipment. -/
inductive Underway (settings : Settings) : Cycle → Shipment → Prop
  /-- The first attempt is under way. -/
  | first {actor : ActivityId} {batch : Envelope} {begun : Nat} {response : Response}
    (nonempty : batch.events ≠ []) :
    Underway settings (.attempting batch false begun response)
      ⟨actor, batch, ⟨begun, none⟩, none, none⟩
  /-- The first attempt has failed, and the second one is to come. -/
  | pause {actor : ActivityId} {batch : Envelope} {first : Attempt} {resume : Nat}
    (nonempty : batch.events ≠ []) (allowed : settings.retryOnce = true) (failed : first.Failed) :
    Underway settings (.pausing batch resume) ⟨actor, batch, first, none, none⟩
  /-- The second attempt is under way. -/
  | second {actor : ActivityId} {batch : Envelope} {first : Attempt} {begun : Nat}
    {response : Response} (nonempty : batch.events ≠ []) (allowed : settings.retryOnce = true)
    (failed : first.Failed) :
    Underway settings (.attempting batch true begun response)
      ⟨actor, batch, first, some ⟨begun, none⟩, none⟩

namespace Underway

variable {settings : Settings} {c : Cycle} {sh : Shipment}

theorem batch (h : Underway settings c sh) : c.batch? = some sh.batch := by
  cases h <;> rfl

theorem uncounted (h : Underway settings c sh) : sh.fate = none := by
  cases h <;> rfl

theorem lawful (h : Underway settings c sh) : sh.Lawful settings := by
  cases h with
  | first nonempty =>
    exact ⟨nonempty, fun hs => absurd rfl hs, fun f hf => by contradiction⟩
  | pause nonempty =>
    exact ⟨nonempty, fun hs => absurd rfl hs, fun f hf => by contradiction⟩
  | second nonempty allowed failed =>
    exact ⟨nonempty, fun _ => ⟨allowed, failed⟩, fun f hf => by contradiction⟩

end Underway

/-- Exactly the activity of the current shipment, if there is one, carries a batch. -/
structure Carried (settings : Settings) (posts : List Post) (now : Option Shipment) : Prop where
  /-- Whoever carries a batch carries the current shipment. -/
  known : ∀ {i c batch}, cycleAt posts i = some c → c.batch? = some batch →
    ∃ sh, now = some sh ∧ sh.actor = i ∧ Underway settings c sh
  /-- The current shipment is carried. -/
  real : ∀ {sh}, now = some sh → ∃ c, cycleAt posts sh.actor = some c ∧ Underway settings c sh

namespace Carried

variable {settings : Settings} {posts : List Post} {now : Option Shipment} {me : ActivityId}
  {p q : Post}

theorem nil : Carried settings [] none where
  known := by
    intro i c batch hc _
    simp [cycleAt] at hc
  real := by
    intro sh hn
    contradiction

theorem append (h : Carried settings posts now) (idle : Idle p.cycle) :
    Carried settings (posts ++ [p]) now where
  known := by
    intro i c batch hc hb
    rw [cycleAt_append] at hc
    split at hc
    · exact absurd (Cycle.inside_of_batch hb) (Idle.not_inside (hc ▸ idle))
    · exact h.known hc hb
  real := by
    intro sh hn
    obtain ⟨c, hc, hu⟩ := h.real hn
    refine ⟨c, ?_, hu⟩
    obtain ⟨q, hq, _⟩ := Option.bind_eq_some_iff.mp hc
    obtain ⟨hlt, _⟩ := List.getElem?_eq_some_iff.mp hq
    rw [cycleAt_append, if_neg (Nat.ne_of_lt hlt)]
    exact hc

/-- An activity without a batch goes on without one. -/
theorem rest (h : Carried settings posts now) (entry : posts[me]? = some q)
    (before : ∀ c, q.cycle = some c → c.batch? = none)
    (after : ∀ c, p.cycle = some c → c.batch? = none) : Carried settings (posts.set me p) now where
  known := by
    intro i c batch hc hb
    by_cases hi : i = me
    · subst hi
      rw [cycleAt_set_self entry] at hc
      rw [after c hc] at hb
      contradiction
    · rw [cycleAt_set_ne hi] at hc
      exact h.known hc hb
  real := by
    intro sh hn
    obtain ⟨c, hc, hu⟩ := h.real hn
    have hne : sh.actor ≠ me := by
      intro he
      rw [he, cycleAt_of_entry entry] at hc
      have hb := hu.batch
      rw [before c hc] at hb
      contradiction
    rw [cycleAt_set_ne hne]
    exact ⟨c, hc, hu⟩

/-- What a flush cycle without a batch does leaves it without one. -/
theorem shift (h : Carried settings posts now) {r r' : Option Role} {c c' : Option Cycle}
    {turn turn' : Turn} (entry : posts[me]? = some ⟨r, c⟩)
    (hs : Books.Shift me turn c turn' c') : Carried settings (posts.set me ⟨r', c'⟩) now := by
  have idle {c : Option Cycle} (hi : Idle c) (x : Cycle) (hc : c = some x) : x.batch? = none := by
    subst hc
    cases hi
    rfl
  cases hs with
  | rest before after => exact h.rest entry (idle before) (idle after)
  | enter => exact h.rest entry (fun _ hc => by cases hc; rfl) fun _ hc => by cases hc; rfl
  | wait => exact h.rest entry (fun _ hc => by cases hc; rfl) fun _ hc => by cases hc; rfl
  | wake => exact h.rest entry (fun _ hc => by cases hc; rfl) fun _ hc => by cases hc; rfl
  | withdraw after => exact h.rest entry (fun _ hc => by cases hc; rfl) (idle after)
  | leave after => exact h.rest entry (fun _ hc => by cases hc; rfl) (idle after)

/-- An activity carries a shipment, and nobody else did. -/
theorem carry (h : Carried settings posts now) (entry : posts[me]? = some q)
    (mine : ∀ sh, now = some sh → sh.actor = me) {sh : Shipment} {r : Option Role} {c : Cycle}
    (actor : sh.actor = me) (under : Underway settings c sh) :
    Carried settings (posts.set me ⟨r, some c⟩) (some sh) where
  known := by
    intro i c' batch hc hb
    by_cases hi : i = me
    · subst hi
      rw [cycleAt_set_self entry] at hc
      cases hc
      exact ⟨sh, rfl, actor, under⟩
    · rw [cycleAt_set_ne hi] at hc
      obtain ⟨old, hn, ha, _⟩ := h.known hc hb
      exact absurd (ha.symm.trans (mine old hn)) hi
  real := by
    intro sh' hn
    cases hn
    rw [actor, cycleAt_set_self entry]
    exact ⟨c, rfl, under⟩

/-- The activity that carried a shipment has counted it. -/
theorem put (h : Carried settings posts now) (entry : posts[me]? = some q)
    (mine : ∀ sh, now = some sh → sh.actor = me) {r : Option Role} {c : Option Cycle}
    (after : Idle c) : Carried settings (posts.set me ⟨r, c⟩) none where
  known := by
    intro i c' batch hc hb
    by_cases hi : i = me
    · subst hi
      rw [cycleAt_set_self entry] at hc
      change c = some c' at hc
      exact absurd (Cycle.inside_of_batch hb) (Idle.not_inside (hc ▸ after))
    · rw [cycleAt_set_ne hi] at hc
      obtain ⟨old, hn, ha, _⟩ := h.known hc hb
      exact absurd (ha.symm.trans (mine old hn)) hi
  real := by
    intro sh hn
    contradiction

end Carried

/-- The tale is an account of shipments: those in `past` are counted, `now` is under way. -/
structure Accounts (b : Books) (past : List Shipment) (now : Option Shipment) : Prop where
  /-- The deliveries are those of the shipments, one after the other. -/
  told : deliveries b.tale = (past ++ now.toList).flatMap Shipment.told
  /-- The shipments and the queue hold what was accepted. -/
  whole : accepted b.tale =
    (past ++ now.toList).flatMap (fun sh => sh.batch.events) ++ b.queue
  /-- The shipments in the past are as they have to be. -/
  lawful : ∀ sh ∈ past, sh.Lawful b.settings
  /-- The shipments in the past are counted. -/
  counted : ∀ sh ∈ past, sh.fate ≠ none
  /-- The current shipment is under way. -/
  carried : Carried b.settings b.posts now

/-- What belongs to a delivery is told at its end. -/
theorem deliveries_cons {o : Observation} (older : List Observation)
    (h : o.delivery? = some o) : deliveries (o :: older) = deliveries older ++ [o] :=
  reading_find h

namespace Accounts

variable {b b' : Books} {past : List Shipment} {now : Option Shipment} {sh sh' : Shipment}
  {me : ActivityId}

private theorem extend (h : Accounts b past (some sh)) (sh' : Shipment) (b' : Books)
    {os : List Observation}
    (told : sh'.told = sh.told ++ os) (batch : sh'.batch = sh.batch)
    (tale : deliveries b'.tale = deliveries b.tale ++ os)
    (kept : accepted b'.tale = accepted b.tale) (queue : b'.queue = b.queue) :
    deliveries b'.tale = (past ++ [sh']).flatMap Shipment.told ∧
      accepted b'.tale = (past ++ [sh']).flatMap (fun sh => sh.batch.events) ++ b'.queue := by
  constructor
  · rw [tale, h.told]
    simp only [Option.toList_some, List.flatMap_append, List.flatMap_singleton, told,
      List.append_assoc]
  · rw [kept, queue, h.whole]
    simp only [Option.toList_some, List.flatMap_append, List.flatMap_singleton, batch]

private theorem current (h : Accounts b past now) {p : Post} {c : Cycle} {batch : Envelope}
    (entry : b.posts[me]? = some p) (hc : p.cycle = some c) (hb : c.batch? = some batch) :
    ∃ sh, now = some sh ∧ sh.actor = me ∧ Underway b.settings c sh :=
  h.carried.known ((cycleAt_of_entry entry).trans hc) hb

/-- Whoever has the turn and no batch yet is alone. -/
theorem alone (h : Accounts b past now) (line : InLine b.posts b.turn) {r : Option Role}
    (entry : b.posts[me]? = some ⟨r, some .admitted⟩) : now = none := by
  cases now with
  | none => rfl
  | some sh =>
    obtain ⟨c, hc, hu⟩ := h.carried.real rfl
    have mine := line.inside (cycleAt_of_entry entry) trivial
    have theirs := line.inside hc (Cycle.inside_of_batch hu.batch)
    have he : sh.actor = me := Option.some.inj (theirs.symm.trans mine)
    rw [he, cycleAt_of_entry entry] at hc
    cases hc
    exact absurd hu.batch (by simp [Cycle.batch?])

/-- An offer concerns no shipment. -/
theorem offer (h : Accounts b past now) (e : Event) (v : Verdict) :
    Accounts (b.offer e v) past now := by
  have skip : deliveries (.offered e v :: b.tale) = deliveries b.tale :=
    reading_skip rfl
  cases v with
  | accepted =>
    have ha : accepted (.offered e .accepted :: b.tale) = accepted b.tale ++ [e] :=
      reading_find rfl
    refine ⟨skip.trans h.told, ?_, h.lawful, h.counted, h.carried⟩
    change accepted (.offered e .accepted :: b.tale) = _ ++ (b.queue ++ [e])
    rw [ha, h.whole, List.append_assoc]
  | rejected =>
    have ha : accepted (.offered e .rejected :: b.tale) = accepted b.tale :=
      reading_skip rfl
    exact ⟨skip.trans h.told, ha.trans h.whole, h.lawful, h.counted, h.carried⟩
  | full =>
    have ha : accepted (.offered e .full :: b.tale) = accepted b.tale :=
      reading_skip rfl
    exact ⟨skip.trans h.told, ha.trans h.whole, h.lawful, h.counted, h.carried⟩

private theorem ship (h : Accounts b past now) (line : InLine b.posts b.turn) {r : Option Role}
    {batch : Envelope} {time : Nat} {response : Response}
    (entry : b.posts[me]? = some ⟨r, some .admitted⟩) (queued : b.queue ≠ [])
    (events : batch.events = b.queue.take b.settings.batchSize.value) :
    Accounts { b.put me ⟨r, some (.attempting batch false time response)⟩ with
      queue := b.queue.drop b.settings.batchSize.value
      tale := .handed me time batch false :: .drained me batch.events :: b.tale }
      past (some ⟨me, batch, ⟨time, none⟩, none, none⟩) := by
  obtain rfl := h.alone line entry
  have nonempty : batch.events ≠ [] := by
    intro he
    rw [he] at events
    rcases List.take_eq_nil_iff.mp events.symm with hz | hq
    · exact absurd b.settings.batchSize.pos (by omega)
    · exact queued hq
  have hd : deliveries b.tale = past.flatMap Shipment.told := by
    rw [h.told, Option.toList_none, List.append_nil]
  have ha : accepted (.handed me time batch false :: .drained me batch.events :: b.tale) =
      accepted b.tale := (reading_skip rfl).trans (reading_skip rfl)
  refine ⟨?_, ?_, h.lawful, h.counted,
    h.carried.carry entry (fun _ hn => by contradiction) rfl (.first nonempty)⟩
  · change deliveries (.handed me time batch false :: .drained me batch.events :: b.tale) = _
    rw [deliveries_cons _ rfl, deliveries_cons _ rfl, hd, List.flatMap_append, List.append_assoc]
    rfl
  · change accepted (.handed me time batch false :: .drained me batch.events :: b.tale) = _
    rw [ha, h.whole, Option.toList_none, List.append_nil, List.flatMap_append, Option.toList_some,
      List.flatMap_singleton, List.append_assoc, events, List.take_append_drop]

private theorem retry (h : Accounts b past now) {r : Option Role} {batch : Envelope}
    {begun time resume : Nat} {response : Response} {e : DeliveryError} {stats : Stats}
    (entry : b.posts[me]? = some ⟨r, some (.attempting batch false begun response)⟩)
    (allowed : b.settings.retryOnce = true) :
    ∃ now', Accounts { b.put me ⟨r, some (.pausing batch resume)⟩ with
      stats := stats
      tale := .answered me time (.failure e) :: b.tale } past now' := by
  obtain ⟨sh, rfl, actor, under⟩ := h.current entry rfl rfl
  cases under with
  | @first actor' _ _ _ nonempty =>
    obtain rfl : me = actor' := actor.symm
    obtain ⟨told, whole⟩ := h.extend
      ⟨me, batch, ⟨begun, some (time, .failure e)⟩, none, none⟩
      ({ b.put me ⟨r, some (.pausing batch resume)⟩ with
        stats := stats
        tale := .answered me time (.failure e) :: b.tale })
      rfl rfl (deliveries_cons _ rfl) (reading_skip rfl) rfl
    exact ⟨some _, told, whole, h.lawful, h.counted, h.carried.carry entry
      (fun _ hn => by cases hn; rfl) rfl (.pause nonempty allowed ⟨time, e, rfl⟩)⟩

private theorem resume (h : Accounts b past now) {r : Option Role} {batch : Envelope}
    {resume time : Nat} {response : Response}
    (entry : b.posts[me]? = some ⟨r, some (.pausing batch resume)⟩) :
    ∃ now', Accounts { b.put me ⟨r, some (.attempting batch true time response)⟩ with
      tale := .handed me time batch true :: b.tale } past now' := by
  obtain ⟨sh, rfl, actor, under⟩ := h.current entry rfl rfl
  cases under with
  | @pause actor' _ first _ nonempty allowed failed =>
    obtain rfl : me = actor' := actor.symm
    obtain ⟨told, whole⟩ := h.extend ⟨me, batch, first, some ⟨time, none⟩, none⟩
      ({ b.put me ⟨r, some (.attempting batch true time response)⟩ with
        tale := .handed me time batch true :: b.tale })
      (by simp [Shipment.told, Attempt.told]) rfl (deliveries_cons _ rfl)
      (reading_skip rfl) rfl
    exact ⟨some _, told, whole, h.lawful, h.counted, h.carried.carry entry
      (fun _ hn => by cases hn; rfl) rfl (.second nonempty allowed failed)⟩

private theorem count (h : Accounts b past (some sh)) {p : Post} {r : Option Role}
    {c : Option Cycle} {stats : Stats} {os : List Observation} {tale : List Observation}
    (entry : b.posts[me]? = some p) (actor : sh.actor = me) (after : Idle c)
    (told : sh'.told = sh.told ++ os) (batch : sh'.batch = sh.batch)
    (grown : deliveries tale = deliveries b.tale ++ os) (kept : accepted tale = accepted b.tale)
    (lawful : sh'.Lawful b.settings) (counted : sh'.fate ≠ none) :
    Accounts { b.put me ⟨r, c⟩ with
      stats := stats
      turn := b.turn.release
      tale := tale } (past ++ [sh']) none := by
  obtain ⟨told, whole⟩ := h.extend sh'
    { b.put me ⟨r, c⟩ with stats := stats, turn := b.turn.release, tale := tale }
    told batch grown kept rfl
  refine ⟨?_, ?_, fun other ho => ?_, fun other ho => ?_, ?_⟩
  · rw [Option.toList_none, List.append_nil]
    exact told
  · rw [Option.toList_none, List.append_nil]
    exact whole
  · rcases List.mem_append.mp ho with ho | ho
    · exact h.lawful other ho
    · rw [List.mem_singleton.mp ho]
      exact lawful
  · rcases List.mem_append.mp ho with ho | ho
    · exact h.counted other ho
    · rw [List.mem_singleton.mp ho]
      exact counted
  · exact h.carried.put entry (fun _ hn => Option.some.inj hn ▸ actor) after

private theorem delivery_notice (fate : Fate) (batch : Envelope) :
    (Observation.notice (fate.notice batch)).delivery? = some (.notice (fate.notice batch)) := by
  cases fate <;> rfl

private theorem deliveries_settle (tale : List Observation) (me : ActivityId) (time : Nat)
    (answer : Option Ending) (fate : Fate) (batch : Envelope) :
    deliveries (.notice (fate.notice batch) ::
      ((answer.map (Observation.answered me time)).toList ++ tale)) =
        deliveries tale ++ ((answer.map (Observation.answered me time)).toList ++
          [.notice (fate.notice batch)]) := by
  rw [deliveries_cons _ (delivery_notice fate batch)]
  cases answer with
  | none => rfl
  | some result =>
    change deliveries (.answered me time result :: tale) ++ _ = _
    rw [deliveries_cons _ rfl, List.append_assoc]
    rfl

private theorem accepted_settle (tale : List Observation) (me : ActivityId) (time : Nat)
    (answer : Option Ending) (fate : Fate) (batch : Envelope) :
    accepted (.notice (fate.notice batch) ::
      ((answer.map (Observation.answered me time)).toList ++ tale)) = accepted tale := by
  have hf : (Observation.notice (fate.notice batch)).accepted? = none := by cases fate <;> rfl
  refine (reading_skip hf).trans ?_
  cases answer with
  | none => rfl
  | some result => exact reading_skip rfl

private theorem settle (h : Accounts b past now) {r r' : Option Role} {c' : Option Cycle}
    {batch : Envelope} {second : Bool} {begun time : Nat} {response : Response}
    {answer : Option Ending} {fate : Fate} {stats : Stats}
    (entry : b.posts[me]? = some ⟨r, some (.attempting batch second begun response)⟩)
    (after : Idle c') (follows : fate.Follows answer) :
    ∃ sh', Accounts { b.put me ⟨r', c'⟩ with
      stats := stats
      turn := b.turn.release
      tale := .notice (fate.notice batch) ::
        ((answer.map (.answered me time)).toList ++ b.tale) } (past ++ [sh']) none := by
  have grown := deliveries_settle b.tale me time answer fate batch
  have kept := accepted_settle b.tale me time answer fate batch
  -- The last answer of the shipment is the answer to this attempt, whichever attempt it is.
  have last : (answer.map fun result => (time, result)).map Prod.snd = answer := by
    cases answer <;> rfl
  obtain ⟨sh, rfl, actor, under⟩ := h.current entry rfl rfl
  cases under with
  | @first actor' _ _ _ nonempty =>
    obtain rfl : me = actor' := actor.symm
    let sh' : Shipment := ⟨me, batch, ⟨begun, answer.map fun result => (time, result)⟩, none,
      some fate⟩
    have told : sh'.told = Shipment.told ⟨me, batch, ⟨begun, none⟩, none, none⟩ ++
        ((answer.map (Observation.answered me time)).toList ++ [.notice (fate.notice batch)]) := by
      cases answer <;> rfl
    refine ⟨sh', h.count entry rfl after told rfl grown kept ⟨nonempty, fun hs => absurd rfl hs,
      fun f hf => .inl ?_⟩ (by simp [sh'])⟩
    have hl : sh'.lastAnswer = answer := last
    cases hf
    rw [hl]
    exact follows
  | @second actor' _ first _ _ nonempty allowed failed =>
    obtain rfl : me = actor' := actor.symm
    let sh' : Shipment := ⟨me, batch, first,
      some ⟨begun, answer.map fun result => (time, result)⟩, some fate⟩
    have told : sh'.told = Shipment.told ⟨me, batch, first, some ⟨begun, none⟩, none⟩ ++
        ((answer.map (Observation.answered me time)).toList ++ [.notice (fate.notice batch)]) := by
      cases answer <;> simp [sh', Shipment.told, Attempt.told]
    refine ⟨sh', h.count entry rfl after told rfl grown kept ⟨nonempty,
      fun _ => ⟨allowed, failed⟩, fun f hf => .inl ?_⟩ (by simp [sh'])⟩
    have hl : sh'.lastAnswer = answer := last
    cases hf
    rw [hl]
    exact follows

private theorem forgo (h : Accounts b past now) {r r' : Option Role} {c' : Option Cycle}
    {batch : Envelope} {resume : Nat} {stats : Stats}
    (entry : b.posts[me]? = some ⟨r, some (.pausing batch resume)⟩) (after : Idle c') :
    ∃ sh', Accounts { b.put me ⟨r', c'⟩ with
      stats := stats
      turn := b.turn.release
      tale := .notice (Fate.abandoned.notice batch) :: b.tale } (past ++ [sh']) none := by
  obtain ⟨sh, rfl, actor, under⟩ := h.current entry rfl rfl
  cases under with
  | @pause actor' _ first _ nonempty allowed failed =>
    obtain rfl : me = actor' := actor.symm
    refine ⟨⟨me, batch, first, none, some .abandoned⟩, h.count entry rfl after
      (by simp [Shipment.told]) rfl (deliveries_cons _ rfl)
      (reading_skip rfl) ⟨nonempty, fun hs => absurd rfl hs,
        fun f hf => .inr ?_⟩ (by simp)⟩
    cases hf
    exact ⟨rfl, rfl, failed⟩

private theorem shift (h : Accounts b past now) {r r' : Option Role} {c c' : Option Cycle}
    {turn : Turn} (entry : b.posts[me]? = some ⟨r, c⟩) (hs : Books.Shift me b.turn c turn c') :
    Accounts { b.put me ⟨r', c'⟩ with turn := turn } past now :=
  ⟨h.told, h.whole, h.lawful, h.counted, h.carried.shift entry hs⟩

end Accounts

/-- What is known of the books of every reachable state. -/
structure Audited (b : Books) : Prop where
  /-- The line is in order. -/
  line : InLine b.posts b.turn
  /-- The queue is what the tale says. -/
  replayed : Replayed b
  /-- The tale is an account of shipments. -/
  accounts : ∃ past now, Accounts b past now

/-- Every entry keeps the account. -/
theorem Books.Step.audited {b b' : Books} (step : b.Step b') (h : Audited b) : Audited b' := by
  obtain ⟨past, now, ha⟩ := h.accounts
  refine ⟨step.inLine h.line, step.replayed h.replayed, ?_⟩
  cases step with
  | offer => exact ⟨past, now, ha.offer _ _⟩
  | work w =>
    cases w with
    | join idle =>
      have hc := ha.carried.append idle
      exact ⟨past, now, ha.told, ha.whole, ha.lawful, ha.counted, hc⟩
    | shift entry _ hs => exact ⟨past, now, ha.shift entry hs⟩
    | discard _ _ _ unsupplied queued =>
      have hs := (h.replayed.live queued).2
      exact absurd (hs.symm.trans unsupplied) (by decide)
    | ship entry queued events => exact ⟨past, _, ha.ship h.line entry queued events⟩
    | retry entry _ allowed => exact ⟨past, ha.retry entry allowed⟩
    | resume entry => exact ⟨past, ha.resume entry⟩
    | settle entry _ after follows =>
      obtain ⟨sh', hc⟩ := ha.settle entry after follows
      exact ⟨past ++ [sh'], none, hc⟩
    | forgo entry _ after =>
      obtain ⟨sh', hc⟩ := ha.forgo entry after
      exact ⟨past ++ [sh'], none, hc⟩

/-- In every reachable state the history is an account of shipments. -/
theorem Made.audited {s : State} (made : Made s) (actions : List Action) :
    Audited (s.run actions).books := by
  refine s.books_run_keeps Books.Step.audited ⟨made.inLine [], made.replayed [], [], none, ?_⟩
    actions
  have hp := made.books_posts
  refine ⟨?_, ?_, fun _ hs => by contradiction, fun _ hs => by contradiction, ?_⟩
  · rw [made.books_tale]
    rfl
  · rw [made.books_tale, show s.books.queue = [] from made.untouched.queue]
    rfl
  · rw [hp]
    exact .nil

/-- Whether an activity carries a batch that it has taken and not counted. -/
def State.Carries (s : State) (i : ActivityId) (batch : Envelope) : Prop :=
  ∃ a c, s.activity? i = some a ∧ a.cycle? = some c ∧ c.batch? = some batch

/-- The books show the flush cycle of every activity. -/
theorem State.cycleAt_posts (s : State) (i : ActivityId) :
    cycleAt s.books.posts i = (s.activity? i).bind Activity.cycle? := by
  rw [cycleAt, getElem?_posts]
  cases s.activity? i <;> rfl

/-- The books show who carries a batch. -/
theorem State.carries_iff {s : State} {i : ActivityId} {batch : Envelope} :
    s.Carries i batch ↔ ∃ c, cycleAt s.books.posts i = some c ∧ c.batch? = some batch := by
  rw [cycleAt_posts]
  constructor
  · rintro ⟨a, c, ha, hc, hb⟩
    exact ⟨c, by rw [ha, Option.bind_some, hc], hb⟩
  · rintro ⟨c, hc, hb⟩
    obtain ⟨a, ha, hc⟩ := Option.bind_eq_some_iff.mp hc
    exact ⟨a, c, ha, hc, hb⟩

namespace Accounts

variable {s : State} {past : List Shipment} {now : Option Shipment} {sh : Shipment}
  {i j : ActivityId} {batch batch' : Envelope}

/-- The current shipment is carried. -/
theorem carries (h : Accounts s.books past now) (hn : now = some sh) :
    s.Carries sh.actor sh.batch := by
  obtain ⟨c, hc, hu⟩ := h.carried.real hn
  exact State.carries_iff.mpr ⟨c, hc, hu.batch⟩

/-- Whoever carries a batch carries the current shipment. -/
theorem exists_of_carries (h : Accounts s.books past now) (hi : s.Carries i batch) :
    ∃ sh, now = some sh ∧ sh.actor = i ∧ sh.batch = batch := by
  obtain ⟨c, hc, hb⟩ := State.carries_iff.mp hi
  obtain ⟨sh, hn, ha, hu⟩ := h.carried.known hc hb
  have hbatch : some sh.batch = some batch := hu.batch.symm.trans hb
  exact ⟨sh, hn, ha, Option.some.inj hbatch⟩

/-- Only one activity carries a batch, and it carries only one. -/
theorem carries_unique (h : Accounts s.books past now) (hi : s.Carries i batch)
    (hj : s.Carries j batch') : i = j ∧ batch = batch' := by
  obtain ⟨sh, hn, rfl, rfl⟩ := h.exists_of_carries hi
  obtain ⟨sh', hn', rfl, rfl⟩ := h.exists_of_carries hj
  cases hn.symm.trans hn'
  exact ⟨rfl, rfl⟩

variable {b : Books}

/-- The current shipment is not counted yet. -/
theorem uncounted (h : Accounts b past now) (hn : now = some sh) : sh.fate = none := by
  obtain ⟨c, _, hu⟩ := h.carried.real hn
  exact hu.uncounted

/-- All shipments are as they have to be. -/
theorem lawful_of_mem (h : Accounts b past now) (hm : sh ∈ past ++ now.toList) :
    sh.Lawful b.settings := by
  rcases List.mem_append.mp hm with hm | hm
  · exact h.lawful sh hm
  · obtain ⟨c, _, hu⟩ := h.carried.real (Option.mem_toList.mp hm)
    exact hu.lawful

/-- All shipments but the last are counted. -/
theorem counted_of_mem_dropLast (h : Accounts b past now)
    (hm : sh ∈ (past ++ now.toList).dropLast) : sh.fate ≠ none := by
  refine h.counted sh ?_
  cases now with
  | none =>
    rw [Option.toList_none, List.append_nil] at hm
    exact List.dropLast_subset _ hm
  | some current =>
    rw [Option.toList_some, List.dropLast_concat] at hm
    exact hm

/-- Whatever is told of a shipment stands in the tale. -/
theorem mem_tale (h : Accounts b past now) (hm : sh ∈ past ++ now.toList) {o : Observation}
    (ho : o ∈ sh.told) : o ∈ b.tale := by
  have hd : o ∈ deliveries b.tale := by
    rw [h.told]
    exact List.mem_flatMap.mpr ⟨sh, hm, ho⟩
  exact mem_of_mem_deliveries hd

end Accounts

/-- What is told of the attempts of a shipment is told of its batch. -/
theorem Shipment.batch_of_handed {sh : Shipment} {i : ActivityId} {time : Nat} {batch : Envelope}
    {second : Bool} (h : .handed i time batch second ∈ sh.told) : batch = sh.batch := by
  have attempt {a : Attempt} {again : Bool}
      (ha : .handed i time batch second ∈ a.told sh.actor sh.batch again) : batch = sh.batch := by
    simp only [Attempt.told, List.mem_cons, Observation.handed.injEq, Option.mem_toList,
      Option.map_eq_some_iff, reduceCtorEq, and_false, exists_false, or_false] at ha
    exact ha.2.2.1
  rcases List.mem_cons.mp h with h | h
  · contradiction
  · rcases List.mem_append.mp h with h | h
    · exact attempt h
    · rcases List.mem_append.mp h with h | h
      · cases hs : sh.second with
        | none =>
          rw [hs] at h
          contradiction
        | some a =>
          rw [hs] at h
          exact attempt h
      · obtain ⟨f, _, hf⟩ := Option.map_eq_some_iff.mp (Option.mem_toList.mp h)
        contradiction

/-- Whether an event is part of a batch that was handed to the collector. -/
def State.Handed (s : State) (e : Event) : Prop :=
  ∃ i time batch second, .handed i time batch second ∈ s.history ∧ e ∈ batch.events

/-- Only accepted events are handed to the collector. -/
theorem Made.accepted_of_handed {s : State} (made : Made s) (actions : List Action) {e : Event}
    (h : (s.run actions).Handed e) : e ∈ accepted (s.run actions).history := by
  obtain ⟨i, time, batch, second, stands, inside⟩ := h
  obtain ⟨past, now, accounts⟩ := (made.audited actions).accounts
  have told : .handed i time batch second ∈ deliveries (s.run actions).history :=
    List.mem_filterMap.mpr ⟨_, List.mem_reverse.mpr stands, rfl⟩
  rw [← deliveries_tale, accounts.told] at told
  obtain ⟨sh, hm, ht⟩ := List.mem_flatMap.mp told
  rw [Shipment.batch_of_handed ht] at inside
  rw [← Publisher.accepted_tale, accounts.whole]
  exact List.mem_append_left _ (List.mem_flatMap.mpr ⟨sh, hm, inside⟩)

end EventRelay.Publisher
