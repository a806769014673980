import EventRelay.Proofs.Publisher.Entries
import EventRelay.Proofs.Publisher.History
import EventRelay.Proofs.Publisher.Lifecycle
import Mathlib.Logic.Function.Iterate

/-!
# What an activity leaves alone

Whatever one activity does, it only adds to the history, it uses up one answer of the collector for
each batch that it hands over, and it leaves the clock and the entries of all other activities as
they are. What becomes of an offer is told by the offer alone.
-/

namespace EventRelay.Publisher

open Relation

namespace Observation

/-- Whether an observation tells what became of an offer. -/
def isVerdict : Observation → Bool
  | .offered .. => true
  | .notice (.refused _) => true
  | .notice (.queueFull ..) => true
  | _ => false

/-- Whether an observation tells that an answer of the collector was asked for. -/
def asks : Observation → Bool
  | .handed .. => true
  | _ => false

end Observation

/-- What one activity does leaves everything else as it is. -/
structure State.Leaves (me : ActivityId) (s t : State) : Prop where
  /-- The history grows, and the answers to the batches that were handed over are used up. -/
  told : ∃ os, t.history = os ++ s.history ∧ (∀ o ∈ os, o.isVerdict = false) ∧
    t.transport =
      (Option.map fun tr : Transport => tr.next.2)^[os.countP Observation.asks] s.transport
  /-- All other activities stay as the books see them. -/
  others : ∀ j, j ≠ me → t.books.posts[j]? = s.books.posts[j]?
  /-- No time passes. -/
  now : t.now = s.now

namespace State.Leaves

variable {s t u : State} {me : ActivityId}

theorem trans (h : s.Leaves me t) (h' : t.Leaves me u) : s.Leaves me u := by
  obtain ⟨os, history, plain, transport⟩ := h.told
  obtain ⟨os', history', plain', transport'⟩ := h'.told
  refine ⟨⟨os' ++ os, ?_, fun o ho => ?_, ?_⟩, fun j hj => (h'.others j hj).trans (h.others j hj),
    h'.now.trans h.now⟩
  · rw [history', history, List.append_assoc]
  · rcases List.mem_append.mp ho with ho | ho
    · exact plain' o ho
    · exact plain o ho
  · rw [transport', transport, List.countP_append, Function.iterate_add_apply]

/-- Adding to the history changes nothing else, unless a batch is handed over. -/
theorem of_told (os : List Observation) (history : t.history = os ++ s.history)
    (plain : os.all (fun o => !o.isVerdict && !o.asks) = true)
    (transport : t.transport = s.transport)
    (activities : t.activities = s.activities) (now : t.now = s.now) : s.Leaves me t := by
  simp only [List.all_eq_true, Bool.and_eq_true, Bool.not_eq_true'] at plain
  have none : os.countP Observation.asks = 0 :=
    List.countP_eq_zero.mpr fun o ho => by simp [(plain o ho).2]
  refine ⟨⟨os, history, fun o ho => (plain o ho).1, ?_⟩, fun j _ => ?_, now⟩
  · rw [none, transport]
    rfl
  · rw [getElem?_posts, getElem?_posts, activity?, activity?, activities]

/-- Nothing that concerns others has changed. -/
theorem same (history : t.history = s.history) (transport : t.transport = s.transport)
    (activities : t.activities = s.activities) (now : t.now = s.now) : s.Leaves me t :=
  of_told [] history rfl transport activities now

/-- An activity replaces its own stage. -/
theorem put (h : s.Leaves me t) (a : Activity) : s.Leaves me (t.setActivity me a) := by
  refine h.trans ⟨⟨[], rfl, fun o ho => by contradiction, rfl⟩, fun j hj => ?_, rfl⟩
  rw [books_setActivity, Books.put, List.getElem?_set_ne (Ne.symm hj)]

/-- Reports are made by activities too. -/
theorem report (s : State) (me : ActivityId) {n : Notice}
    (plain : (Observation.notice n).isVerdict = false) : s.Leaves me (s.report n) := by
  refine of_told [.notice n] rfl ?_ rfl rfl rfl
  rw [List.all_cons, plain]
  rfl

private theorem nextResponse_same (s : State) :
    s.nextResponse.2 = { s with transport := s.transport.map fun tr => tr.next.2 } := by
  unfold nextResponse
  split
  · next tr ht => rw [ht, Option.map_some]
  · next ht =>
    rw [ht, Option.map_none, ← ht]

/-- A batch is handed over, and one answer is used up. -/
theorem hand (s : State) (me : ActivityId) (batch : Envelope) (second : Bool) :
    s.Leaves me (s.hand me batch second).1 := by
  have handed : (s.hand me batch second).1 =
      s.nextResponse.2.observe (.handed me s.nextResponse.2.now batch second) := rfl
  rw [handed, nextResponse_same]
  refine ⟨⟨[.handed me s.now batch second], rfl, fun o ho => ?_, rfl⟩, fun j _ => rfl, rfl⟩
  rw [List.mem_singleton.mp ho]
  rfl

/-- Asking the loop to end does not show in the books. -/
theorem cancelLoop (s : State) (me loop : ActivityId) : s.Leaves me (s.cancelLoop loop) := by
  unfold State.cancelLoop
  split
  · next l c hl =>
    refine ⟨⟨[], rfl, fun o ho => by contradiction, rfl⟩, fun j _ => ?_, rfl⟩
    have hp : (Activity.loop l true).post = (Activity.loop l c).post := by cases l <;> rfl
    rw [books_setActivity, hp, Books.put_self (entry_of_activity hl)]
  · exact .same rfl rfl rfl rfl

/-- A reading that finds nothing in what activities tell finds nothing new. -/
theorem reading {α : Type} {read : Observation → Option α} (h : s.Leaves me t)
    (blind : ∀ o, o.isVerdict = false → read o = none) :
    Publisher.reading read t.history = Publisher.reading read s.history := by
  obtain ⟨os, history, plain, _⟩ := h.told
  have nothing : os.reverse.filterMap read = [] :=
    List.filterMap_eq_nil_iff.mpr fun o ho => blind o (plain o (List.mem_reverse.mp ho))
  rw [history, Publisher.reading, List.reverse_append, List.filterMap_append, nothing,
    List.append_nil]
  rfl

/-- Who hands no batch over uses up no answer. -/
theorem transport (h : s.Leaves me t) (tale : t.books.tale = s.books.tale) :
    t.transport = s.transport := by
  obtain ⟨os, history, _, transport⟩ := h.told
  have untold : os.filter Observation.tells = [] := by
    have grown : t.books.tale = os.filter Observation.tells ++ s.books.tale := by
      rw [books, history, List.filter_append]
      rfl
    exact List.append_left_eq_self.mp (grown.symm.trans tale)
  have none : os.countP Observation.asks = 0 := by
    refine List.countP_eq_zero.mpr fun o ho asks => ?_
    have tells : o.tells = true := by
      cases o with
      | handed => rfl
      | _ => contradiction
    exact List.filter_eq_nil_iff.mp untold o ho tells
  rw [transport, none]
  rfl

end State.Leaves

namespace Cycle

/-- A step of a flush cycle leaves all else as it is. -/
theorem leaves_of_step {c : Cycle} {s : State} {me : ActivityId} {retry : Bool} {r : CycleStep}
    (h : c.step s me retry = r) : r.Leads (s.Leaves me) := by
  have step := steps_of_step h
  cases step with
  | stay others => trivial
  | pend => trivial
  | pause early => trivial
  | enter free => exact .same rfl rfl rfl rfl
  | wait taken => exact .same rfl rfl rfl rfl
  | wake mine => exact .same rfl rfl rfl rfl
  | empty nothing => exact .same rfl rfl rfl rfl
  | @discard t events queued left taken unsupplied =>
    subst left
    exact .of_told [.notice (.noCollector ..), .drained ..] rfl rfl rfl rfl rfl
  | @ship t events queued left taken supplied =>
    subst left
    have drained : s.Leaves me (s.drain me).1 := .of_told [.drained ..] rfl rfl rfl rfl rfl
    exact drained.trans (.hand _ me _ false)
  | deliver answer =>
    exact .of_told [.notice (.delivered _), .answered ..] rfl rfl rfl rfl rfl
  | @retry batch begun response e answer allowed t told =>
    subst told
    exact .of_told [.notice (.retrying ..), .answered ..] rfl rfl rfl rfl rfl
  | drop answer last =>
    exact .of_told [.notice (.dropped ..), .answered ..] rfl rfl rfl rfl rfl
  | breakDown answer =>
    exact .of_told [.notice (.abandoned ..), .answered ..] rfl rfl rfl rfl rfl
  | resume due => exact .hand s me _ true

/-- Cutting a flush cycle off leaves all else as it is. -/
theorem leaves_cancel (c : Cycle) (s : State) (me : ActivityId) :
    s.Leaves me (c.cancel s me) := by
  cases c with
  | arriving => exact .same rfl rfl rfl rfl
  | waiting => exact .same rfl rfl rfl rfl
  | admitted => exact .same rfl rfl rfl rfl
  | attempting => exact .of_told [.notice (.abandoned ..)] rfl rfl rfl rfl rfl
  | pausing => exact .of_told [.notice (.abandoned ..)] rfl rfl rfl rfl rfl

end Cycle

namespace Loop

variable {s t : State} {me : ActivityId}

private theorem leaves_takeBranch (s : State) (me : ActivityId) (b : Branch) :
    s.Leaves me (s.toss.2.takeBranch me b) := by
  unfold State.toss
  split <;> cases b <;> exact .same rfl rfl rfl rfl

/-- A step of the loop leaves all else as it is. -/
theorem leaves_of_step {l : Loop} (step : l.Steps s me t) : s.Leaves me t := by
  have here : s.Leaves me s := .same rfl rfl rfl rfl
  have exits {u : State} (h : s.Leaves me u) : s.Leaves me (u.exitLoop me) :=
    (h.trans (.report u me rfl)).put _
  cases step with
  | create => exact here.put _
  | exit shut => exact exits here
  | park up => exact here.put _
  | leave ready => exact exits (leaves_takeBranch s me .shutdown)
  | wake ready => exact (leaves_takeBranch s me .wake).put _
  | tick ready => exact (leaves_takeBranch s me .tick).put _
  | join ready absent => exact .same rfl rfl rfl rfl
  | rest shut => exact here.put _
  | flush up => exact here.put _
  | goes h => exact State.Leaves.put (Cycle.leaves_of_step h) _
  | done h short => exact State.Leaves.put (Cycle.leaves_of_step h) _
  | more h long => exact State.Leaves.put (Cycle.leaves_of_step h) _
  | breaks h => exact State.Leaves.put (Cycle.leaves_of_step h) _

/-- Cutting the loop off leaves all else as it is. -/
theorem leaves_cancel (l : Loop) (s : State) (me : ActivityId) : s.Leaves me (l.cancel s me) := by
  cases l with
  | flushing tick cycle => exact cycle.leaves_cancel s me
  | _ => exact .same rfl rfl rfl rfl

end Loop

namespace Shutdown

variable {s t : State} {me : ActivityId}

/-- A transition leaves all else as it is. -/
theorem leaves_move {tr : Transition} (moved : s.move? tr = some t) : s.Leaves me t := by
  unfold State.move? at moved
  obtain ⟨p, _, rfl⟩ := Option.map_eq_some_iff.mp moved
  exact .of_told [.notice (.moved ..)] rfl rfl rfl rfl rfl

/-- A step of a shutdown leaves all else as it is. -/
theorem leaves_of_step {d : Shutdown} (step : d.Steps s me t) : s.Leaves me t := by
  have here : s.Leaves me s := .same rfl rfl rfl rfl
  have closes {u : State} (moved : s.move? .stop = some u) : s.Leaves me u.closing :=
    (leaves_move moved).trans (.same rfl rfl rfl rfl)
  cases step with
  | again refused =>
    exact (State.Leaves.report s me rfl).put _
  | begin moved alone => exact (closes moved).put _
  | await moved worker => exact (closes moved).put _
  | join gone => exact here.put _
  | @overdue loop deadline alive late =>
    have told : s.Leaves me (s.report (.loopOverdue s.settings.shutdownTimeout)) :=
      .report s me rfl
    exact (told.trans (.cancelLoop _ me loop)).put _
  | joinLate gone => exact here.put _
  | goes h => exact State.Leaves.put (Cycle.leaves_of_step h) _
  | @finish sent lost c u v h moved =>
    have ended : s.Leaves me u := Cycle.leaves_of_step h
    have final : u.Leaves me v := by
      subst moved
      cases hm : u.move? .finish with
      | none => exact .same rfl rfl rfl rfl
      | some w => exact leaves_move hm
    exact ((ended.trans final).trans (.report v me rfl)).put _
  | sent h => exact State.Leaves.put (Cycle.leaves_of_step h) _
  | lost h => exact State.Leaves.put (Cycle.leaves_of_step h) _
  | breaks h => exact State.Leaves.put (Cycle.leaves_of_step h) _

/-- Cutting a shutdown off leaves all else as it is. -/
theorem leaves_cancel (d : Shutdown) (s : State) (me : ActivityId) :
    s.Leaves me (d.cancel s me) := by
  cases d with
  | flushing cycle sent lost => exact cycle.leaves_cancel s me
  | _ => exact .same rfl rfl rfl rfl

end Shutdown

namespace State

variable {s t : State} {me : ActivityId}

/-- A step of an activity leaves all else as it is. -/
theorem leaves_of_step (h : s.step? me = some t) : s.Leaves me t := by
  have step := steps_of_step h
  cases step with
  | @cut l ha => exact (l.leaves_cancel s me).put _
  | loop ha step => exact Loop.leaves_of_step step
  | goes ha hc => exact Leaves.put (Cycle.leaves_of_step hc) _
  | ends ha hc => exact Leaves.put (Cycle.leaves_of_step hc) _
  | breaks ha hc => exact Leaves.put (Cycle.leaves_of_step hc) _
  | shutdown ha step => exact Shutdown.leaves_of_step step

/-- Cutting an activity off leaves all else as it is. -/
theorem leaves_cancel (s : State) (me : ActivityId) : s.Leaves me (s.cancel me) := by
  unfold cancel
  split
  · next l _ _ => exact (l.leaves_cancel s me).put _
  · next c _ => exact (c.leaves_cancel s me).put _
  · next d _ => exact (d.leaves_cancel s me).put _
  · exact .same rfl rfl rfl rfl

/-- An activity that begins leaves all else as it is. -/
theorem leaves_addActivity (s : State) (a : Activity) :
    s.Leaves s.activities.length (s.addActivity a) := by
  refine ⟨⟨[], rfl, fun o ho => by contradiction, rfl⟩, fun j hj => ?_, rfl⟩
  have length : s.books.posts.length = s.activities.length := List.length_map _
  rw [books_addActivity]
  change (s.books.posts ++ [a.post])[j]? = s.books.posts[j]?
  rcases Nat.lt_or_gt_of_ne hj with before | after
  · exact List.getElem?_append_left (length ▸ before)
  · have beyond : (s.books.posts ++ [a.post]).length ≤ j := by
      rw [List.length_append, List.length_singleton, length]
      exact after
    rw [List.getElem?_eq_none beyond, List.getElem?_eq_none (length ▸ Nat.le_of_lt after)]

/-- Starting the loop leaves all else as it is. -/
theorem leaves_start (s : State) (runtime : Bool) :
    s.Leaves s.activities.length (s.start runtime).1 := by
  unfold start
  split
  · exact .report s _ rfl
  · split
    · exact .report s _ rfl
    · split
      · exact .same rfl rfl rfl rfl
      · split
        · exact .same rfl rfl rfl rfl
        · exact .report s _ rfl
        · split
          · exact .same rfl rfl rfl rfl
          · next moved hm =>
            have length : moved.activities.length = s.activities.length := by
              unfold move? at hm
              obtain ⟨p, _, rfl⟩ := Option.map_eq_some_iff.mp hm
              rfl
            have begun : s.Leaves s.activities.length
                (moved.addActivity (.loop .created false)) :=
              (Shutdown.leaves_move hm).trans (length ▸ moved.leaves_addActivity _)
            exact begun.trans
              (.of_told [.notice (.started ..), .loopStarted _] rfl rfl rfl rfl rfl)

/-- What happens to a publisher, apart from an offer, is the doing of one activity, or time
passes. -/
theorem leaves_of_acts (act : Acts s t) :
    (∃ i, s.Leaves i t) ∨ ∃ millis, t = s.elapse millis := by
  cases act with
  | start runtime => exact .inl ⟨_, s.leaves_start runtime⟩
  | callFlush => exact .inl ⟨_, s.leaves_addActivity _⟩
  | callShutdown => exact .inl ⟨_, s.leaves_addActivity _⟩
  | step hs => exact .inl ⟨_, leaves_of_step hs⟩
  | @cancel i _ => exact .inl ⟨_, s.leaves_cancel i⟩
  | elapse millis => exact .inr ⟨millis, rfl⟩

/-- A reading that finds nothing in what activities tell is changed by offers only. -/
theorem reading_apply {α : Type} {read : Observation → Option α} (s : State) {a : Action}
    (other : ∀ e, a ≠ .offer e) (blind : ∀ o, o.isVerdict = false → read o = none) :
    reading read (s.apply a).history = reading read s.history := by
  have acts := s.acts_of_apply other
  generalize s.apply a = t at acts ⊢
  induction acts with
  | refl => rfl
  | tail _ act ih =>
    rcases leaves_of_acts act with ⟨i, leaves⟩ | ⟨millis, rfl⟩
    · exact (leaves.reading blind).trans ih
    · exact ih

end State

end EventRelay.Publisher
