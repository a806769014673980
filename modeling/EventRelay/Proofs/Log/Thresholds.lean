import EventRelay.Log.Threshold
import Mathlib.Data.List.Basic

/-!
# What thresholds keep

Thresholds are ordered by what they keep, from the one that keeps every line to the one that keeps
none, and no two of them keep the same lines. The text that a threshold is read from is cut at its
commas. The last of its words that names a threshold counts; a text that names none keeps nothing,
unless it has no word at all.
-/

namespace EventRelay.Log

namespace Threshold

variable {a b t : Threshold} {w : List Char} {text : String} {ws : List (List Char)}

/-! ## Lines -/

/-- The rank from which on lines are kept. -/
def bound : Threshold → Nat
  | none => 5
  | some least => least.rank

theorem keeps_iff {l : Line} : t.keeps l = true ↔ t.bound ≤ l.level.rank := by
  cases t with
  | none => cases h : l.level <;> simp [keeps, bound, Level.rank]
  | some least => rw [keeps, decide_eq_true_iff, bound]

theorem bound_le (t : Threshold) : t.bound ≤ 5 := by
  match t with
  | none => exact Nat.le_refl 5
  | some least => cases least <;> decide

theorem bound_injective : Function.Injective bound := by
  intro a b same
  match a, b with
  | none, none => rfl
  | none, some least => cases least <;> contradiction
  | some least, none => cases least <;> contradiction
  | some least, some other => cases least <;> cases other <;> first | rfl | contradiction

/-- One threshold keeps all that another keeps exactly if its bound is not above the other's. -/
theorem keeps_of_keeps_iff : (∀ l, b.keeps l = true → a.keeps l = true) ↔ a.bound ≤ b.bound := by
  simp only [keeps_iff]
  constructor
  · intro more
    match b with
    | none => exact a.bound_le
    | some least => exact more ⟨least, "", []⟩ (Nat.le_refl _)
  · exact fun le l kept => Nat.le_trans le kept

/-- No two thresholds keep the same lines. -/
theorem eq_of_keeps (same : ∀ l, a.keeps l = b.keeps l) : a = b :=
  bound_injective (Nat.le_antisymm (keeps_of_keeps_iff.mp fun l kept => by rwa [same])
    (keeps_of_keeps_iff.mp fun l kept => by rwa [← same]))

/-- A log is part of every log with a lower bound, in the same order. -/
theorem filter_sublist_filter (le : a.bound ≤ b.bound) (lines : List Line) :
    (lines.filter b.keeps).Sublist (lines.filter a.keeps) :=
  List.monotone_filter_right lines fun l => keeps_of_keeps_iff.mpr le l

/-! ## Texts -/

/-- The word for a threshold. -/
def word : Threshold → String
  | none => "off"
  | some .error => "error"
  | some .warn => "warn"
  | some .info => "info"
  | some .debug => "debug"
  | some .trace => "trace"

/-- A threshold is named by its word or by the number of levels that it keeps, in any case. -/
theorem ofWord?_eq_some_iff : ofWord? w = some t ↔
    w.map Char.toLower = t.word.toList ∨ w.map Char.toLower = (toString (5 - t.bound)).toList := by
  have lower {s : String} :
      w.map Char.toLower = s.toList ↔ String.ofList (w.map Char.toLower) = s := by
    rw [← String.toList_inj, String.toList_ofList]
  rw [lower, lower, ofWord?]
  generalize String.ofList (w.map Char.toLower) = name
  constructor
  · intro named
    split at named <;> cases named <;> decide
  · rintro (rfl | rfl)
    · match t with
      | none => rfl
      | some least => cases least <;> rfl
    · match t with
      | none => rfl
      | some least => cases least <;> rfl

/-- What the words of a text ask for. -/
inductive Asks : List (List Char) → Threshold → Prop
  /-- There is no word. -/
  | blank {ws : List (List Char)} (empty : ∀ w ∈ ws, w = []) : Asks ws (some .error)
  /-- No word names a threshold. -/
  | nameless {ws : List (List Char)} {w : List Char} (inside : w ∈ ws) (nonempty : w ≠ [])
    (silent : ∀ v ∈ ws, ofWord? v = none) : Asks ws none
  /-- A word names a threshold, and no later one does. -/
  | last {before later : List (List Char)} {w : List Char} {t : Threshold}
    (names : ofWord? w = some t) (silent : ∀ v ∈ later, ofWord? v = none) :
    Asks (before ++ w :: later) t

theorem ofWords_of_blank (empty : ∀ w ∈ ws, w = []) : ofWords ws = some .error :=
  if_pos (List.all_eq_true.mpr fun w member => List.isEmpty_iff.mpr (empty w member))

theorem ofWords_of_word (inside : w ∈ ws) (nonempty : w ≠ []) :
    ofWords ws = (ws.filterMap ofWord?).getLast?.getD none :=
  if_neg fun empty => nonempty (List.isEmpty_iff.mp (List.all_eq_true.mp empty w inside))

theorem ofWords_eq_iff : ofWords ws = t ↔ Asks ws t := by
  constructor
  · rintro rfl
    by_cases empty : ∀ w ∈ ws, w = []
    · rw [ofWords_of_blank empty]
      exact .blank empty
    · obtain ⟨w, inside, nonempty⟩ : ∃ w ∈ ws, w ≠ [] := by simpa using empty
      rw [ofWords_of_word inside nonempty]
      cases named : (ws.filterMap ofWord?).getLast? with
      | none =>
        rw [List.getLast?_eq_none_iff, List.filterMap_eq_nil_iff] at named
        exact .nameless inside nonempty named
      | some t =>
        obtain ⟨earlier, whole⟩ := List.getLast?_eq_some_iff.mp named
        obtain ⟨before, rest, rfl, -, found⟩ := List.filterMap_eq_append_iff.mp whole
        obtain ⟨skipped, w, later, rfl, -, names, silent⟩ := List.filterMap_eq_cons_iff.mp found
        rw [← List.append_assoc]
        exact .last names (List.filterMap_eq_nil_iff.mp silent)
  · rintro (empty | ⟨inside, nonempty, silent⟩ | @⟨before, later, w, t, names, silent⟩)
    · exact ofWords_of_blank empty
    · rw [ofWords_of_word inside nonempty, List.filterMap_eq_nil_iff.mpr silent]
      rfl
    · have nonempty : w ≠ [] := by
        rintro rfl
        contradiction
      rw [ofWords_of_word (List.mem_append_right before List.mem_cons_self) nonempty,
        List.filterMap_append, List.filterMap_cons_some names, List.filterMap_eq_nil_iff.mpr silent,
        List.getLast?_concat]
      rfl

/-- A text asks for what its words ask for, however it is made of words with commas between them. -/
theorem ofText_eq_iff (some : ws ≠ []) (plain : ∀ w ∈ ws, ',' ∉ w)
    (joined : text.toList = [','].intercalate ws) : ofText (.some text) = t ↔ Asks ws t := by
  rw [ofText, joined, List.splitOn_intercalate ',' plain some, ofWords_eq_iff]

end Threshold

end EventRelay.Log
