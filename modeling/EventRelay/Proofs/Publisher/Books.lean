import EventRelay.Proofs.Publisher.Run

/-!
# The books of a publisher

The books keep what the fate of events depends on: the queue, the counters, the turn, the flush
cycle of every activity, and of the history only what tells of events and batches. Signals, phases,
deadlines and the stages between two flush cycles are left out. Every event of a run leaves the
books as they are or makes one of a few entries; an invariant of the books is checked against these
entries and against nothing else.
-/

namespace EventRelay.Publisher

open Relation

/-- What an activity is. -/
inductive Role
  /-- The flush loop. -/
  | loop
  /-- A call that flushes. -/
  | flush
  /-- A call that shuts the publisher down. -/
  | shutdown
  deriving DecidableEq, Repr

namespace Activity

/-- What an activity is, until it has ended. -/
def role? : Activity → Option Role
  | .loop .. => some .loop
  | .flush _ => some .flush
  | .shutdown _ => some .shutdown
  | .ended _ => none

/-- The flush cycle that an activity runs. -/
def cycle? : Activity → Option Cycle
  | .loop (.flushing _ c) _ => some c
  | .flush c => some c
  | .shutdown (.flushing c _ _) => some c
  | _ => none

end Activity

namespace Cycle

/-- The batch that a cycle has taken and not counted, as it is sent. -/
def batch? : Cycle → Option Envelope
  | .attempting batch _ _ _ => some batch
  | .pausing batch _ => some batch
  | _ => none

/-- Whether a cycle has the turn and knows it. -/
def Inside : Cycle → Prop
  | .arriving => False
  | .waiting => False
  | _ => True

/-- A cycle with a batch is inside. -/
theorem inside_of_batch {c : Cycle} {batch : Envelope} (h : c.batch? = some batch) : c.Inside := by
  cases c with
  | arriving => contradiction
  | waiting => contradiction
  | admitted => contradiction
  | attempting => trivial
  | pausing => trivial

end Cycle

/-- No flush cycle, or one that has not asked for its turn. -/
inductive Idle : Option Cycle → Prop
  /-- There is none. -/
  | none : Idle none
  /-- It has not asked for its turn. -/
  | arriving : Idle (some .arriving)

/-- What became of a batch. -/
inductive Fate
  /-- It was delivered. -/
  | delivered
  /-- It was dropped after its last attempt. -/
  | dropped (e : DeliveryError)
  /-- Its delivery was cut off. -/
  | abandoned
  deriving DecidableEq, Repr

namespace Fate

/-- The report of a fate. -/
def notice (batch : Envelope) : Fate → Notice
  | .delivered => .delivered batch.size
  | .dropped e => .dropped e batch.size (batch.sample sampleSize)
  | .abandoned => .abandoned batch.size (batch.sample sampleSize)

/-- How a fate is counted. -/
def count (stats : Stats) (batch : Envelope) : Fate → Stats
  | .delivered => stats.recordDelivered batch.size
  | _ => stats.recordDropped batch.size

/-- The last answer after which a batch meets a fate; without one the attempt was cut off. -/
inductive Follows : Fate → Option Ending → Prop
  /-- A success delivers it. -/
  | delivered : Follows .delivered (some .success)
  /-- A failure drops it. -/
  | dropped (e : DeliveryError) : Follows (.dropped e) (some (.failure e))
  /-- A breakdown of the transport abandons it. -/
  | broken : Follows .abandoned (some .breakdown)
  /-- A cancellation abandons it. -/
  | cut : Follows .abandoned none

end Fate

/-- Whether an observation tells of events or batches. -/
def Observation.tells : Observation → Bool
  | .offered .. => true
  | .drained .. => true
  | .handed .. => true
  | .answered .. => true
  | .notice (.delivered _) => true
  | .notice (.dropped ..) => true
  | .notice (.abandoned ..) => true
  | .notice (.noCollector ..) => true
  | _ => false

/-- An activity as the books see it. -/
structure Post where
  /-- What it is, until it has ended. -/
  role : Option Role
  /-- Its flush cycle. -/
  cycle : Option Cycle
  deriving DecidableEq, Repr

/-- The entry of an activity. -/
def Activity.post (a : Activity) : Post := ⟨a.role?, a.cycle?⟩

/-- The books of a publisher. -/
structure Books where
  /-- The settings. -/
  settings : Settings
  /-- Whether there is a way to the collector. -/
  supplied : Bool
  /-- The queued events, the oldest first. -/
  queue : List Event
  /-- The counters. -/
  stats : Stats
  /-- The turn. -/
  turn : Turn
  /-- The part of the history that tells of events and batches, the latest first. -/
  tale : List Observation
  /-- All activities, by number. -/
  posts : List Post

/-- The books of a state. -/
def State.books (s : State) : Books where
  settings := s.settings
  supplied := s.transport.isSome
  queue := s.queue
  stats := s.stats
  turn := s.turn
  tale := s.history.filter Observation.tells
  posts := s.activities.map Activity.post

namespace Books

/-- Changes the entry of an activity. -/
def put (b : Books) (i : ActivityId) (p : Post) : Books := { b with posts := b.posts.set i p }

/-- An entry that stays as it is changes nothing. -/
theorem put_self {b : Books} {i : ActivityId} {p : Post} (h : b.posts[i]? = some p) :
    b.put i p = b := by
  obtain ⟨hi, rfl⟩ := List.getElem?_eq_some_iff.mp h
  simp only [put, List.set_getElem_self]

/-- Enters what became of an offered event. -/
def offer (b : Books) (e : Event) : Verdict → Books
  | .accepted => { b with
      queue := b.queue ++ [e]
      stats := { b.stats with accepted := b.stats.accepted + 1 }
      tale := .offered e .accepted :: b.tale }
  | .rejected => { b with
      stats := { b.stats with rejected := b.stats.rejected + 1 }
      tale := .offered e .rejected :: b.tale }
  | .full => { b with
      stats := { b.stats with queueFull := b.stats.queueFull + 1 }
      tale := .offered e .full :: b.tale }

/-- When an offered event can meet a verdict. -/
def Allows (b : Books) : Verdict → Prop
  | .accepted => b.settings.enabled = true ∧ b.supplied = true ∧
      b.queue.length < b.settings.maxQueueSize.value
  | .rejected => True
  | .full => b.settings.maxQueueSize.value ≤ b.queue.length

/-- What a flush cycle without a batch does with the turn. -/
inductive Shift (me : ActivityId) : Turn → Option Cycle → Turn → Option Cycle → Prop
  /-- It is not concerned. -/
  | rest {t : Turn} {c c' : Option Cycle} (before : Idle c) (after : Idle c') : Shift me t c t c'
  /-- It finds the turn free. -/
  | enter {t : Turn} (free : t.holder = none) :
    Shift me t (some .arriving) (t.request me) (some .admitted)
  /-- It finds the turn taken. -/
  | wait {t : Turn} (taken : t.holder ≠ none) :
    Shift me t (some .arriving) (t.request me) (some .waiting)
  /-- It was handed the turn. -/
  | wake {t : Turn} (mine : t.holder = some me) : Shift me t (some .waiting) t (some .admitted)
  /-- It gives up waiting. -/
  | withdraw {t : Turn} {c' : Option Cycle} (after : Idle c') :
    Shift me t (some .waiting) (t.withdraw me) c'
  /-- It gives up the turn. -/
  | leave {t : Turn} {c' : Option Cycle} (after : Idle c') :
    Shift me t (some .admitted) t.release c'

/-- What an activity does to the books. -/
inductive Work : Books → Books → Prop
  /-- An activity begins. -/
  | join {b : Books} {p : Post} (idle : Idle p.cycle) : Work b { b with posts := b.posts ++ [p] }
  /-- An activity without a batch goes on, or ends. -/
  | shift {b : Books} {me : ActivityId} {r r' : Option Role} {c c' : Option Cycle} {t : Turn}
    (entry : b.posts[me]? = some ⟨r, c⟩) (role : r' = r ∨ r' = none)
    (shift : Shift me b.turn c t c') : Work b { b.put me ⟨r', c'⟩ with turn := t }
  /-- A batch is taken without a way to the collector, and counted. -/
  | discard {b : Books} {me : ActivityId} {r r' : Option Role} {c' : Option Cycle}
    {events : List Event} {sample : List EventId}
    (entry : b.posts[me]? = some ⟨r, some .admitted⟩) (role : r' = r ∨ r' = none)
    (after : Idle c') (unsupplied : b.supplied = false) (queued : b.queue ≠ [])
    (taken : events = b.queue.take b.settings.batchSize.value) :
    Work b { b.put me ⟨r', c'⟩ with
      queue := b.queue.drop b.settings.batchSize.value
      stats := b.stats.recordDropped events.length
      turn := b.turn.release
      tale := .notice (.noCollector events.length sample) :: .drained me events :: b.tale }
  /-- A batch is taken and handed over. -/
  | ship {b : Books} {me : ActivityId} {r : Option Role} {batch : Envelope} {time : Nat}
    {response : Response} (entry : b.posts[me]? = some ⟨r, some .admitted⟩)
    (queued : b.queue ≠ []) (events : batch.events = b.queue.take b.settings.batchSize.value) :
    Work b { b.put me ⟨r, some (.attempting batch false time response)⟩ with
      queue := b.queue.drop b.settings.batchSize.value
      tale := .handed me time batch false :: .drained me batch.events :: b.tale }
  /-- The first attempt fails, and a second one is allowed. -/
  | retry {b : Books} {me : ActivityId} {r : Role} {batch : Envelope} {begun time resume : Nat}
    {response : Response} {e : DeliveryError}
    (entry : b.posts[me]? = some ⟨some r, some (.attempting batch false begun response)⟩)
    (role : r ≠ .shutdown) (allowed : b.settings.retryOnce = true) :
    Work b { b.put me ⟨some r, some (.pausing batch resume)⟩ with
      stats := { b.stats with retries := b.stats.retries + 1 }
      tale := .answered me time (.failure e) :: b.tale }
  /-- The batch is handed over a second time. -/
  | resume {b : Books} {me : ActivityId} {r : Option Role} {batch : Envelope} {resume time : Nat}
    {response : Response} (entry : b.posts[me]? = some ⟨r, some (.pausing batch resume)⟩) :
    Work b { b.put me ⟨r, some (.attempting batch true time response)⟩ with
      tale := .handed me time batch true :: b.tale }
  /-- An attempt ends, and the batch is counted. -/
  | settle {b : Books} {me : ActivityId} {r r' : Option Role} {c' : Option Cycle}
    {batch : Envelope} {second : Bool} {begun time : Nat} {response : Response}
    {answer : Option Ending} {fate : Fate}
    (entry : b.posts[me]? = some ⟨r, some (.attempting batch second begun response)⟩)
    (role : r' = r ∨ r' = none) (after : Idle c') (follows : fate.Follows answer) :
    Work b { b.put me ⟨r', c'⟩ with
      stats := fate.count b.stats batch
      turn := b.turn.release
      tale := .notice (fate.notice batch) ::
        ((answer.map (.answered me time)).toList ++ b.tale) }
  /-- The second attempt is cut off before it begins, and the batch is counted. -/
  | forgo {b : Books} {me : ActivityId} {r r' : Option Role} {c' : Option Cycle}
    {batch : Envelope} {resume : Nat}
    (entry : b.posts[me]? = some ⟨r, some (.pausing batch resume)⟩)
    (role : r' = r ∨ r' = none) (after : Idle c') : Work b { b.put me ⟨r', c'⟩ with
      stats := Fate.abandoned.count b.stats batch
      turn := b.turn.release
      tale := .notice (Fate.abandoned.notice batch) :: b.tale }

/-- An entry in the books. -/
inductive Step : Books → Books → Prop
  /-- An event was offered. -/
  | offer {b : Books} {e : Event} {v : Verdict} (allowed : b.Allows v) : Step b (b.offer e v)
  /-- An activity did something. -/
  | work {b b' : Books} (h : Work b b') : Step b b'

end Books

end EventRelay.Publisher
