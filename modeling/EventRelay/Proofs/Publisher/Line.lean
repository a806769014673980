import EventRelay.Proofs.Publisher.Entries
import Mathlib.Data.List.Nodup

/-!
# The line for the turn

The holder of the turn and those who wait for it form one line. In every reachable state the line
names each activity at most once, and exactly those whose flush cycle has asked for its turn. Only
the head of the line can be inside a flush cycle, so at most one batch is under way at a time.
-/

namespace EventRelay.Publisher

/-- The holder of the turn, and after it those who wait for it. -/
def Turn.line (t : Turn) : List ActivityId := t.holder.toList ++ t.waiting

namespace Turn

variable {t : Turn} {i : ActivityId}

theorem line_of_holder (h : t.holder = some i) : t.line = i :: t.waiting := by
  rw [line, h]
  rfl

/-- Whoever asks for the turn joins the line at its end. -/
theorem line_request (busy : t.holder = none → t.waiting = []) :
    (t.request i).line = t.line ++ [i] := by
  unfold request line
  cases h : t.holder with
  | none => simp [busy h]
  | some j => simp

/-- A release lets the line move up. -/
theorem line_release (t : Turn) : t.release.line = t.waiting := by
  unfold release line
  split <;> simp_all

/-- Whoever withdraws leaves the line. -/
theorem line_withdraw (t : Turn) (i : ActivityId) : (t.withdraw i).line = t.line.erase i := by
  unfold withdraw
  split
  · next h => rw [line_release, line_of_holder h, List.erase_cons_head]
  · next h =>
    cases hh : t.holder with
    | none => simp [line, hh]
    | some j =>
      have hne : j ≠ i := fun he => h (hh.trans (congrArg some he))
      simp [line, hh, List.erase_cons_tail, hne]

theorem holder_request_of_some {j : ActivityId} (h : t.holder = some j) :
    (t.request i).holder = some j := by
  rw [request, h]

theorem holder_request_of_none (h : t.holder = none) : (t.request i).holder = some i := by
  rw [request, h]

/-- Behind a free turn nobody waits. -/
theorem waiting_release (t : Turn) : t.release.holder = none → t.release.waiting = [] := by
  unfold release
  split
  · next h => exact fun _ => h
  · exact fun h => by contradiction

end Turn

/-- The flush cycle of an activity. -/
def cycleAt (posts : List Post) (i : ActivityId) : Option Cycle := posts[i]?.bind Post.cycle

section cycleAt

variable {posts : List Post} {i j : ActivityId} {p q : Post}

theorem cycleAt_of_entry (h : posts[i]? = some p) : cycleAt posts i = p.cycle := by
  rw [cycleAt, h]
  rfl

theorem cycleAt_set_self (h : posts[i]? = some q) : cycleAt (posts.set i p) i = p.cycle := by
  rw [cycleAt, getElem?_set_of_some h p]
  rfl

theorem cycleAt_set_ne (h : j ≠ i) : cycleAt (posts.set i p) j = cycleAt posts j := by
  rw [cycleAt, List.getElem?_set_ne h.symm, cycleAt]

/-- Only the entry that is added can show a new flush cycle. -/
theorem cycleAt_append (posts : List Post) (p : Post) (i : ActivityId) :
    cycleAt (posts ++ [p]) i = if i = posts.length then p.cycle else cycleAt posts i := by
  unfold cycleAt
  rcases Nat.lt_trichotomy i posts.length with h | h | h
  · rw [List.getElem?_append_left h, if_neg (Nat.ne_of_lt h)]
  · subst h
    rw [List.getElem?_concat_length, if_pos rfl]
    rfl
  · rw [List.getElem?_eq_none (by simp; omega), if_neg (Nat.ne_of_gt h),
      List.getElem?_eq_none (Nat.le_of_lt h)]

end cycleAt

theorem Idle.not_inside {c : Cycle} (h : Idle (some c)) : ¬ c.Inside := by
  cases h
  exact id

theorem not_idle_of_inside {c : Cycle} (h : c.Inside) : ¬ Idle (some c) :=
  fun hi => hi.not_inside h

/-- The line fits the flush cycles of the activities. -/
structure InLine (posts : List Post) (turn : Turn) : Prop where
  /-- Nobody is in the line twice. -/
  nodup : turn.line.Nodup
  /-- The line holds those who have asked for the turn. -/
  mem : ∀ i, i ∈ turn.line ↔ ¬ Idle (cycleAt posts i)
  /-- Whoever is inside holds the turn. -/
  inside : ∀ {i c}, cycleAt posts i = some c → c.Inside → turn.holder = some i
  /-- Behind a free turn nobody waits. -/
  busy : turn.holder = none → turn.waiting = []

namespace InLine

variable {posts : List Post} {turn turn' : Turn} {me : ActivityId} {p q : Post}

theorem nil : InLine [] {} := by
  refine ⟨List.nodup_nil, fun i => ?_, fun h => ?_, fun _ => rfl⟩
  · simp [Turn.line, cycleAt, Idle.none]
  · simp [cycleAt] at h

/-- One activity changes its flush cycle and the line accordingly. -/
theorem replace (h : InLine posts turn) (entry : posts[me]? = some q) (nodup : turn'.line.Nodup)
    (others : ∀ i ≠ me, i ∈ turn'.line ↔ i ∈ turn.line)
    (mine : me ∈ turn'.line ↔ ¬ Idle p.cycle)
    (inside : ∀ c, p.cycle = some c → c.Inside → turn'.holder = some me)
    (holds : ∀ i ≠ me, turn.holder = some i → turn'.holder = some i)
    (busy : turn'.holder = none → turn'.waiting = []) : InLine (posts.set me p) turn' := by
  refine ⟨nodup, fun i => ?_, fun {i c} hc hin => ?_, busy⟩
  · by_cases hi : i = me
    · subst hi
      rw [mine, cycleAt_set_self entry]
    · rw [others i hi, h.mem, cycleAt_set_ne hi]
  · by_cases hi : i = me
    · subst hi
      rw [cycleAt_set_self entry] at hc
      exact inside c hc hin
    · rw [cycleAt_set_ne hi] at hc
      exact holds i hi (h.inside hc hin)

/-- An activity begins without a place in the line. -/
theorem append (h : InLine posts turn) (idle : Idle p.cycle) : InLine (posts ++ [p]) turn := by
  have outside : Idle (cycleAt posts posts.length) := by
    rw [cycleAt, List.getElem?_eq_none (Nat.le_refl _)]
    exact .none
  refine ⟨h.nodup, fun i => ?_, fun {i c} hc hin => ?_, h.busy⟩
  · rw [h.mem, cycleAt_append]
    split
    · next hi =>
      subst hi
      exact iff_of_false (not_not_intro outside) (not_not_intro idle)
    · rfl
  · rw [cycleAt_append] at hc
    split at hc
    · exact absurd hin (Idle.not_inside (hc ▸ idle))
    · exact h.inside hc hin

/-- An activity inside keeps the turn. -/
theorem stay (h : InLine posts turn) {r r' : Option Role} {c c' : Cycle}
    (entry : posts[me]? = some ⟨r, some c⟩) (before : c.Inside) (after : c'.Inside) :
    InLine (posts.set me ⟨r', some c'⟩) turn := by
  have hc := cycleAt_of_entry entry
  refine h.replace entry h.nodup (fun _ _ => Iff.rfl) ?_ (fun _ _ _ => h.inside hc before)
    (fun _ _ hj => hj) h.busy
  rw [h.mem, hc]
  exact iff_of_true (not_idle_of_inside before) (not_idle_of_inside after)

/-- An activity inside gives the turn up. -/
theorem leave (h : InLine posts turn) {r r' : Option Role} {c : Cycle} {c' : Option Cycle}
    (entry : posts[me]? = some ⟨r, some c⟩) (before : c.Inside) (after : Idle c') :
    InLine (posts.set me ⟨r', c'⟩) turn.release := by
  have hh := h.inside (cycleAt_of_entry entry) before
  have hl := Turn.line_of_holder hh
  have hn : me ∉ turn.waiting ∧ turn.waiting.Nodup := List.nodup_cons.mp (hl ▸ h.nodup)
  refine h.replace entry ?_ (fun i hi => ?_) ?_ (fun c hc hin => ?_) (fun i hi hj => ?_)
    turn.waiting_release
  · rw [Turn.line_release]
    exact hn.2
  · rw [Turn.line_release, hl, List.mem_cons]
    exact ⟨Or.inr, fun hm => hm.resolve_left hi⟩
  · rw [Turn.line_release]
    exact iff_of_false hn.1 (not_not_intro after)
  · exact absurd hin (Idle.not_inside (hc ▸ after))
  · exact absurd (Option.some.inj (hj.symm.trans hh)) hi

/-- An activity asks for the turn. -/
theorem ask (h : InLine posts turn) {r r' : Option Role} {c : Cycle}
    (entry : posts[me]? = some ⟨r, some .arriving⟩) (asked : ¬ Idle (some c))
    (free : c.Inside → turn.holder = none) :
    InLine (posts.set me ⟨r', some c⟩) (turn.request me) := by
  have hl := Turn.line_request (i := me) h.busy
  have hout : me ∉ turn.line := by
    rw [h.mem, cycleAt_of_entry entry]
    exact not_not_intro .arriving
  refine h.replace entry ?_ (fun i hi => ?_) ?_ (fun c' hc hin => ?_) (fun i _ hi => ?_)
    (fun hn => ?_)
  · rw [hl]
    exact List.nodup_append.mpr ⟨h.nodup, List.nodup_singleton me,
      fun a ha b hb he => hout (List.mem_singleton.mp hb ▸ he ▸ ha)⟩
  · rw [hl, List.mem_append, List.mem_singleton]
    exact ⟨fun ho => ho.resolve_right hi, Or.inl⟩
  · rw [hl]
    exact iff_of_true (List.mem_append_right _ (List.mem_singleton_self me)) asked
  · cases hc
    exact Turn.holder_request_of_none (free hin)
  · exact Turn.holder_request_of_some hi
  · cases hh : turn.holder with
    | none =>
      rw [Turn.holder_request_of_none hh] at hn
      contradiction
    | some j =>
      rw [Turn.holder_request_of_some hh] at hn
      contradiction

/-- What a flush cycle without a batch does keeps the line in order. -/
theorem shift (h : InLine posts turn) {r r' : Option Role} {c c' : Option Cycle}
    (entry : posts[me]? = some ⟨r, c⟩) (hs : Books.Shift me turn c turn' c') :
    InLine (posts.set me ⟨r', c'⟩) turn' := by
  have hc := cycleAt_of_entry entry
  have hm := h.mem me
  rw [hc] at hm
  cases hs with
  | rest before after =>
    refine h.replace entry h.nodup (fun _ _ => Iff.rfl) ?_ (fun c hc' hin => ?_)
      (fun _ _ hj => hj) h.busy
    · exact iff_of_false (fun hl => hm.mp hl before) (not_not_intro after)
    · exact absurd hin (Idle.not_inside (hc' ▸ after))
  | enter free => exact h.ask entry (not_idle_of_inside trivial) fun _ => free
  | wait taken => exact h.ask entry (fun hw => by cases hw) fun hin => hin.elim
  | wake mine =>
    refine h.replace entry h.nodup (fun _ _ => Iff.rfl) ?_ (fun _ _ _ => mine)
      (fun _ _ hj => hj) h.busy
    rw [Turn.line_of_holder mine]
    exact iff_of_true (List.mem_cons_self ..) (not_idle_of_inside trivial)
  | withdraw after =>
    have hl := turn.line_withdraw me
    refine h.replace entry ?_ (fun i hi => ?_) ?_ (fun c hc' hin => ?_) (fun i hi hj => ?_)
      (fun hn => ?_)
    · rw [hl]
      exact h.nodup.erase me
    · rw [hl]
      exact List.mem_erase_of_ne hi
    · rw [hl]
      exact iff_of_false h.nodup.not_mem_erase (not_not_intro after)
    · exact absurd hin (Idle.not_inside (hc' ▸ after))
    · rw [Turn.withdraw, if_neg fun hme => hi (Option.some.inj (hj.symm.trans hme))]
      exact hj
    · rw [Turn.withdraw] at hn ⊢
      split at hn
      · next hme =>
        rw [if_pos hme]
        exact turn.waiting_release hn
      · next hme =>
        rw [if_neg hme, h.busy hn]
        rfl
  | leave after => exact h.leave entry trivial after

end InLine

/-- Every entry keeps the line in order. -/
theorem Books.Step.inLine {b b' : Books} (step : b.Step b') (h : InLine b.posts b.turn) :
    InLine b'.posts b'.turn := by
  cases step with
  | @offer e v _ => cases v <;> exact h
  | work w =>
    cases w with
    | join idle => exact h.append idle
    | shift entry _ hs => exact h.shift entry hs
    | discard entry _ after => exact h.leave entry trivial after
    | ship entry => exact h.stay entry trivial trivial
    | retry entry => exact h.stay entry trivial trivial
    | resume entry => exact h.stay entry trivial trivial
    | settle entry _ after => exact h.leave entry trivial after
    | forgo entry _ after => exact h.leave entry trivial after

/-- In every reachable state the line is in order. -/
theorem Made.inLine {s : State} (made : Made s) (actions : List Action) :
    InLine (s.run actions).books.posts (s.run actions).books.turn := by
  refine s.books_run_keeps (P := fun b => InLine b.posts b.turn) (fun step => step.inLine) ?_
    actions
  have ht : s.books.turn = {} := made.untouched.turn
  rw [made.books_posts, ht]
  exact .nil

end EventRelay.Publisher
