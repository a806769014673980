import EventRelay.Publisher
import Mathlib.Logic.Relation

/-!
# Runs of a publisher

A run starts from a publisher as it is made and is a sequence of actions. Between two actions lie
the single steps of the activities: letting an activity run until it has to wait is the same as a
number of its steps, and every state between them is a moment of the run. A property that every
single event of a run keeps therefore holds after every run and at every moment of it, whatever the
order in which activities take turns.
-/

namespace EventRelay.Publisher

open Relation

-- Activities are found by their number, whether in a state or in what is told of one.
section places

variable {α : Type} {xs : List α} {i j : ActivityId} {x y : α}

/-- What is replaced is found in its place. -/
theorem getElem?_set_of_some (h : xs[i]? = some x) (y : α) : (xs.set i y)[i]? = some y := by
  obtain ⟨hi, _⟩ := List.getElem?_eq_some_iff.mp h
  exact List.getElem?_set_self hi

/-- What is found after one thing was replaced is new, or was there before. -/
theorem getElem?_of_set (h : (xs.set i y)[j]? = some x) :
    (j = i ∧ x = y) ∨ (j ≠ i ∧ xs[j]? = some x) := by
  by_cases hj : j = i
  · subst hj
    have hlt : j < xs.length := by
      obtain ⟨hlt, _⟩ := List.getElem?_eq_some_iff.mp h
      rwa [List.length_set] at hlt
    rw [List.getElem?_set_self hlt] at h
    exact .inl ⟨rfl, (Option.some.inj h).symm⟩
  · rw [List.getElem?_set_ne (Ne.symm hj)] at h
    exact .inr ⟨hj, h⟩

/-- What was there stays in its place when something is added. -/
theorem getElem?_append_of_some (h : xs[i]? = some x) (y : α) : (xs ++ [y])[i]? = some x := by
  obtain ⟨hi, _⟩ := List.getElem?_eq_some_iff.mp h
  rw [List.getElem?_append_left hi]
  exact h

/-- What is found after something was added is that, or was there before. -/
theorem getElem?_of_append (h : (xs ++ [y])[i]? = some x) :
    (i = xs.length ∧ x = y) ∨ xs[i]? = some x := by
  rcases Nat.lt_trichotomy i xs.length with hi | hi | hi
  · rw [List.getElem?_append_left hi] at h
    exact .inr h
  · subst hi
    rw [List.getElem?_concat_length] at h
    exact .inl ⟨rfl, (Option.some.inj h).symm⟩
  · have hlen : (xs ++ [y]).length ≤ i := by
      rw [List.length_append, List.length_singleton]
      exact hi
    rw [List.getElem?_eq_none hlen] at h
    contradiction

end places

/-- A publisher as it is made. -/
inductive Made : State → Prop
  /-- From settings and a way to the collector. -/
  | create {settings : Settings} {transport : Transport} {tosses : List Branch} {s : State}
    (h : create settings transport tosses = .ok s) : Made s
  /-- From settings alone. -/
  | ofSettings {settings : Settings} {reach : Collector → Transport} {tosses : List Branch}
    {s : State} (h : ofSettings settings reach tosses = .ok s) : Made s
  /-- The one that refuses every event. -/
  | disabled : Made disabled

/-- Nothing has happened to a publisher. -/
structure State.Untouched (s : State) : Prop where
  /-- Nothing is queued. -/
  queue : s.queue = []
  /-- Nothing is counted. -/
  stats : s.stats = {}
  /-- The loop has not been started. -/
  phase : s.phase = .stopped
  /-- Nobody has shut the publisher down. -/
  closed : s.closed = false
  /-- Nobody is asked to end. -/
  shutdown : s.shutdown = false
  /-- There is no loop. -/
  worker : s.worker = none
  /-- Nobody was notified of a full batch. -/
  wake : s.wake = {}
  /-- Nobody was notified of a shutdown. -/
  shutdownSignal : s.shutdownSignal = {}
  /-- The turn is free. -/
  turn : s.turn = {}
  /-- There are no activities. -/
  activities : s.activities = []
  /-- At most one thing was seen: that publishing is disabled. -/
  history : s.history.Sublist [.notice .publishingDisabled]

/-- However a publisher is made, nothing has happened to it. -/
theorem Made.untouched {s : State} (made : Made s) : s.Untouched := by
  cases made with
  | create h =>
    unfold EventRelay.Publisher.create at h
    split at h
    · contradiction
    · cases h
      exact ⟨rfl, rfl, rfl, rfl, rfl, rfl, rfl, rfl, rfl, rfl, List.nil_sublist _⟩
  | ofSettings h =>
    unfold EventRelay.Publisher.ofSettings at h
    split at h
    · contradiction
    · split at h
      · cases h
        exact ⟨rfl, rfl, rfl, rfl, rfl, rfl, rfl, rfl, rfl, rfl, List.Sublist.refl _⟩
      · split at h
        · contradiction
        · cases h
          exact ⟨rfl, rfl, rfl, rfl, rfl, rfl, rfl, rfl, rfl, rfl, List.nil_sublist _⟩
  | disabled => exact ⟨rfl, rfl, rfl, rfl, rfl, rfl, rfl, rfl, rfl, rfl, List.nil_sublist _⟩

/-- A small publisher: batches of two events, a queue of three, the given answers. -/
def small (coming : List Response) : State where
  settings := { Settings.forCollector "http://collector" with
    batchSize := ⟨2, by decide⟩
    maxQueueSize := ⟨3, by decide⟩ }
  transport := some { coming }

theorem made_small (coming : List Response) : Made (small coming) := by
  have h : create (small []).settings { coming } [] = .ok (small coming) := rfl
  exact .create h

/-- An event with a number. -/
def numbered (n : Nat) : Event where
  id := ⟨n⟩
  trace := "trace"
  conversation := none
  turn := none
  user := "user"
  dept := "dept"
  occurredAt := ⟨0⟩
  payload := .security ⟨⟨"secret", by decide⟩, true, ⟨"rule", by decide⟩⟩

/-- Numbered events are offered. -/
def offers (count : Nat) : List Action := (List.range count).map fun n => .offer (numbered n)

/-- Something that happens to a publisher, apart from an offer. -/
inductive State.Acts : State → State → Prop
  /-- The loop is started. -/
  | start (s : State) (runtime : Bool) : Acts s (s.start runtime).1
  /-- A flush is called. -/
  | callFlush (s : State) : Acts s s.callFlush
  /-- A shutdown is called. -/
  | callShutdown (s : State) : Acts s s.callShutdown
  /-- An activity makes a step. -/
  | step {s t : State} {i : ActivityId} (h : s.step? i = some t) : Acts s t
  /-- An activity other than the loop is cut off. -/
  | cancel {s : State} {i : ActivityId} (h : ∀ l c, s.activity? i ≠ some (.loop l c)) :
    Acts s (s.cancel i)
  /-- Time passes. -/
  | elapse (s : State) (millis : Nat) : Acts s (s.elapse millis)

/-- An action is an offer or something else. -/
theorem Action.offer_or (a : Action) : (∃ e, a = .offer e) ∨ ∀ e, a ≠ .offer e := by
  cases a with
  | offer e => exact .inl ⟨e, rfl⟩
  | _ => exact .inr fun e he => by contradiction

/-- The event whose acceptance an action reports to its caller. -/
def State.answer (s : State) : Action → List Event
  | .offer e => if (s.offer e).2 then [e] else []
  | _ => []

/-- The events whose offer was answered with `true`, in order. -/
def State.taken (s : State) : List Action → List Event
  | [] => []
  | a :: rest => s.answer a ++ (s.apply a).taken rest

namespace State

/-- The states through which an activity goes until it has to wait, without the last one. -/
def passes (me : ActivityId) : Nat → State → List State
  | 0, _ => []
  | fuel + 1, s =>
    match s.step? me with
    | none => []
    | some t => s :: passes me fuel t

/-- The states through which an action leads, without the last one. -/
def within (s : State) : Action → List State
  | .poll i => passes i s.fuel s
  | _ => [s]

/-- The moments of a run: the states between its actions, and those between the single steps of an
activity that runs until it has to wait. -/
def moments (s : State) : List Action → List State
  | [] => [s]
  | a :: rest => s.within a ++ (s.apply a).moments rest

@[simp] theorem run_nil (s : State) : s.run [] = s := rfl

@[simp] theorem run_cons (s : State) (a : Action) (rest : List Action) :
    s.run (a :: rest) = (s.apply a).run rest := rfl

/-- A step that an activity can make is the step that it makes. -/
theorem apply_step {s t : State} {i : ActivityId} (h : s.step? i = some t) :
    s.apply (.step i) = t := by
  rw [apply, h, Option.getD_some]

/-- Runs compose. -/
theorem run_append (s : State) (earlier later : List Action) :
    s.run (earlier ++ later) = (s.run earlier).run later :=
  List.foldl_append

/-- What is taken in a run is taken in its parts, one after the other. -/
theorem taken_append (s : State) (earlier later : List Action) :
    s.taken (earlier ++ later) = s.taken earlier ++ (s.run earlier).taken later := by
  induction earlier generalizing s with
  | nil => rfl
  | cons a rest ih =>
    rw [List.cons_append, taken, ih, taken, List.append_assoc]
    rfl

/-- An activity that runs until it has to wait makes a number of single steps. -/
theorem advance_eq_run (me : ActivityId) (fuel : Nat) (s : State) :
    ∃ count, s.advance me fuel = s.run (List.replicate count (.step me)) := by
  induction fuel generalizing s with
  | zero => exact ⟨0, rfl⟩
  | succ fuel ih =>
    rw [advance]
    cases h : s.step? me with
    | none => exact ⟨0, rfl⟩
    | some t =>
      obtain ⟨count, hc⟩ := ih t
      refine ⟨count + 1, ?_⟩
      rw [List.replicate_succ, run_cons, apply_step h]
      exact hc

private theorem exists_of_mem_passes {me : ActivityId} {fuel : Nat} {s u : State}
    (h : u ∈ passes me fuel s) : ∃ m n, s.run (List.replicate m (.step me)) = u ∧
      u.run (List.replicate n (.step me)) = s.advance me fuel := by
  induction fuel generalizing s with
  | zero => contradiction
  | succ fuel ih =>
    rw [passes] at h
    cases hs : s.step? me with
    | none =>
      rw [hs] at h
      contradiction
    | some t =>
      rw [hs] at h
      rcases List.mem_cons.mp h with rfl | h
      · obtain ⟨count, hc⟩ := advance_eq_run me (fuel + 1) u
        exact ⟨0, count, rfl, hc.symm⟩
      · obtain ⟨m, n, hm, hn⟩ := ih h
        refine ⟨m + 1, n, ?_, ?_⟩
        · rw [List.replicate_succ, run_cons, apply_step hs, hm]
        · rw [advance, hs, hn]

/-- Every state through which an action leads lies between its beginning and its end. -/
theorem exists_of_mem_within {s u : State} {a : Action} (h : u ∈ s.within a) :
    ∃ before during, s.run before = u ∧ u.run during = s.apply a := by
  cases ha : a with
  | poll i =>
    rw [ha] at h
    obtain ⟨m, n, hm, hn⟩ := exists_of_mem_passes h
    exact ⟨List.replicate m (.step i), List.replicate n (.step i), hm, hn⟩
  | _ =>
    rw [ha] at h
    rw [List.mem_singleton.mp h]
    exact ⟨[], [a], rfl, by rw [ha]; rfl⟩

/-- Every moment divides a run into two, so that what holds after all runs holds at every moment. -/
theorem exists_of_mem_moments {s u : State} {actions : List Action} (h : u ∈ s.moments actions) :
    ∃ before during, s.run before = u ∧ u.run during = s.run actions := by
  induction actions generalizing s with
  | nil =>
    rw [List.mem_singleton.mp h]
    exact ⟨[], [], rfl, rfl⟩
  | cons a rest ih =>
    rcases List.mem_append.mp h with h | h
    · obtain ⟨before, during, hb, hd⟩ := exists_of_mem_within h
      exact ⟨before, during ++ rest, hb, by rw [run_append, hd, run_cons]⟩
    · obtain ⟨before, during, hb, hd⟩ := ih h
      exact ⟨a :: before, during, hb, hd⟩

private theorem passes_ordered {me : ActivityId} {fuel : Nat} {s u v : State}
    (hu : u ∈ passes me fuel s) (hv : v ∈ passes me fuel s) :
    (∃ later, u.run later = v) ∨ ∃ later, v.run later = u := by
  induction fuel generalizing s with
  | zero => contradiction
  | succ fuel ih =>
    rw [passes] at hu hv
    cases hs : s.step? me with
    | none =>
      rw [hs] at hu
      contradiction
    | some t =>
      rw [hs] at hu hv
      have first {w : State} (hw : w ∈ passes me fuel t) : ∃ later, s.run later = w := by
        obtain ⟨m, _, hm, _⟩ := exists_of_mem_passes hw
        exact ⟨.step me :: List.replicate m (.step me), by rw [run_cons, apply_step hs, hm]⟩
      rcases List.mem_cons.mp hu with hus | hut
      · rcases List.mem_cons.mp hv with hvs | hvt
        · exact .inl ⟨[], hus.trans hvs.symm⟩
        · exact .inl (hus ▸ first hvt)
      · rcases List.mem_cons.mp hv with hvs | hvt
        · exact .inr (hvs ▸ first hut)
        · exact ih hut hvt

/-- Of two moments of a run one leads to the other. -/
theorem moments_ordered {s u v : State} {actions : List Action} (hu : u ∈ s.moments actions)
    (hv : v ∈ s.moments actions) : (∃ later, u.run later = v) ∨ ∃ later, v.run later = u := by
  induction actions generalizing s with
  | nil =>
    rw [List.mem_singleton.mp hu, List.mem_singleton.mp hv]
    exact .inl ⟨[], rfl⟩
  | cons a rest ih =>
    have across {x y : State} (hx : x ∈ s.within a) (hy : y ∈ (s.apply a).moments rest) :
        ∃ later, x.run later = y := by
      obtain ⟨_, during, _, hd⟩ := exists_of_mem_within hx
      obtain ⟨before, _, hb, _⟩ := exists_of_mem_moments hy
      exact ⟨during ++ before, by rw [run_append, hd, hb]⟩
    rcases List.mem_append.mp hu with hu | hu
    · rcases List.mem_append.mp hv with hv | hv
      · cases a with
        | poll i => exact passes_ordered hu hv
        | _ =>
          rw [List.mem_singleton.mp hu, List.mem_singleton.mp hv]
          exact .inl ⟨[], rfl⟩
      · exact .inl (across hu hv)
    · rcases List.mem_append.mp hv with hv | hv
      · exact .inr (across hv hu)
      · exact ih hu hv

/-- The end of a run is a moment of it. -/
theorem run_mem_moments (s : State) (actions : List Action) :
    s.run actions ∈ s.moments actions := by
  induction actions generalizing s with
  | nil => exact List.mem_singleton_self s
  | cons a rest ih => exact List.mem_append_right _ (ih (s.apply a))

/-- A step of an activity, if it can make one. -/
theorem acts_of_step (s : State) (i : ActivityId) : ReflTransGen Acts s (s.apply (.step i)) := by
  rw [apply]
  cases hs : s.step? i with
  | none => exact .refl
  | some t => exact .single (.step hs)

/-- Letting an activity run is a sequence of its steps. -/
theorem acts_of_poll (s : State) (i : ActivityId) : ReflTransGen Acts s (s.poll i) := by
  obtain ⟨count, hc⟩ := advance_eq_run i s.fuel s
  rw [poll, hc]
  clear hc
  induction count generalizing s with
  | zero => exact .refl
  | succ count ih =>
    rw [List.replicate_succ, run_cons]
    exact (s.acts_of_step i).trans (ih _)

/-- Every action but an offer is a sequence of such events. -/
theorem acts_of_apply (s : State) {a : Action} (h : ∀ e, a ≠ .offer e) :
    ReflTransGen Acts s (s.apply a) := by
  cases a with
  | offer e => exact absurd rfl (h e)
  | start runtime => exact .single (.start s runtime)
  | flush => exact .single (.callFlush s)
  | shutdown => exact .single (.callShutdown s)
  | step i => exact s.acts_of_step i
  | poll i => exact s.acts_of_poll i
  | cancel i =>
    rw [apply]
    split
    · exact .refl
    · next hne => exact .single (.cancel fun l c he => hne l c he)
  | elapse millis => exact .single (.elapse s millis)

private theorem onset_advance {P : State → Prop} {me : ActivityId} {fuel : Nat} {s : State}
    (before : ¬ P s) (after : P (s.advance me fuel)) :
    ∃ u ∈ passes me fuel s, ∃ v later, Acts u v ∧ ¬ P u ∧ P v ∧
      v.run later = s.advance me fuel := by
  induction fuel generalizing s with
  | zero => exact absurd after before
  | succ fuel ih =>
    rw [advance] at after
    rw [passes]
    cases hs : s.step? me with
    | none =>
      rw [hs] at after
      exact absurd after before
    | some t =>
      rw [hs] at after
      rw [advance, hs]
      by_cases ht : P t
      · obtain ⟨count, hc⟩ := advance_eq_run me fuel t
        exact ⟨s, List.mem_cons_self .., t, _, .step hs, before, ht, hc.symm⟩
      · obtain ⟨u, hu, rest⟩ := ih ht after
        exact ⟨u, List.mem_cons_of_mem _ hu, rest⟩

/-- What begins to hold in an action other than an offer begins to hold at one event of it. -/
private theorem onset_apply {P : State → Prop} {s : State} {a : Action} (other : ∀ e, a ≠ .offer e)
    (before : ¬ P s) (after : P (s.apply a)) :
    ∃ u ∈ s.within a, ∃ v later, Acts u v ∧ ¬ P u ∧ P v ∧ v.run later = s.apply a := by
  have single (act : Acts s (s.apply a)) (h : s ∈ s.within a) :
      ∃ u ∈ s.within a, ∃ v later, Acts u v ∧ ¬ P u ∧ P v ∧ v.run later = s.apply a :=
    ⟨s, h, _, [], act, before, after, rfl⟩
  cases a with
  | offer e => exact absurd rfl (other e)
  | start runtime => exact single (.start s runtime) (List.mem_singleton_self s)
  | flush => exact single (.callFlush s) (List.mem_singleton_self s)
  | shutdown => exact single (.callShutdown s) (List.mem_singleton_self s)
  | step i =>
    cases hs : s.step? i with
    | none =>
      rw [apply, hs] at after
      exact absurd after before
    | some t =>
      exact single (apply_step hs ▸ .step hs) (List.mem_singleton_self s)
  | poll i => exact onset_advance before after
  | cancel i =>
    have act : s.apply (.cancel i) = s ∨ Acts s (s.apply (.cancel i)) := by
      rw [apply]
      split
      · exact .inl rfl
      · next hne => exact .inr (.cancel fun l c he => hne l c he)
    rcases act with he | act
    · rw [he] at after
      exact absurd after before
    · exact single act (List.mem_singleton_self s)
  | elapse millis => exact single (.elapse s millis) (List.mem_singleton_self s)

/-- What holds at the end of a run and not at its beginning begins to hold at one event of it, if
offers do not bring it about. -/
theorem exists_onset {P : State → Prop} (offers : ∀ {s} e, P (s.offer e).1 → P s) {s : State}
    {actions : List Action} (before : ¬ P s) (after : P (s.run actions)) :
    ∃ u ∈ s.moments actions, ∃ v later, Acts u v ∧ ¬ P u ∧ P v ∧ v.run later = s.run actions := by
  induction actions generalizing s with
  | nil => exact absurd after before
  | cons a rest ih =>
    by_cases ha : P (s.apply a)
    · rcases a.offer_or with ⟨e, rfl⟩ | other
      · exact absurd (offers e ha) before
      · obtain ⟨u, hu, v, later, act, hpu, hpv, hv⟩ := onset_apply other before ha
        exact ⟨u, List.mem_append_left _ hu, v, later ++ rest, act, hpu, hpv,
          by rw [run_append, hv, run_cons]⟩
    · obtain ⟨u, hu, found⟩ := ih ha after
      exact ⟨u, List.mem_append_right _ hu, found⟩

/-- What offers and all other events keep holds after every run. -/
theorem run_keeps {P : State → Prop} (offers : ∀ {s} e, P s → P (s.offer e).1)
    (acts : ∀ {s t}, Acts s t → P s → P t) {s : State} (start : P s) (actions : List Action) :
    P (s.run actions) := by
  induction actions generalizing s with
  | nil => exact start
  | cons a rest ih =>
    rw [run_cons]
    refine ih ?_
    rcases a.offer_or with ⟨e, rfl⟩ | other
    · exact offers e start
    · have ha := s.acts_of_apply other
      generalize s.apply a = t at ha ⊢
      induction ha with
      | refl => exact start
      | tail _ act keep => exact acts act keep

end State

end EventRelay.Publisher
