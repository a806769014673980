import Mathlib.Data.List.DropRight
import EventRelay.Text.Blank

/-!
# What trimming leaves

Trimming leaves the one part of a text that has only blanks around it and no blank at either end.
Blanks that are put around a text do not show in what is left.
-/

namespace EventRelay.Text

/-- All characters are blank. -/
def AllBlank (cs : List Char) : Prop := ∀ c ∈ cs, isBlank c = true

instance (cs : List Char) : Decidable (AllBlank cs) := List.decidableBAll ..

/-- No blank stands at either end. -/
structure Trimmed (cs : List Char) : Prop where
  first : ∀ c ∈ cs.head?, isBlank c = false
  last : ∀ c ∈ cs.getLast?, isBlank c = false

/-- A text is its core with blanks around it. -/
def TrimsTo (cs core : List Char) : Prop :=
  ∃ front back, AllBlank front ∧ AllBlank back ∧ cs = front ++ core ++ back ∧ Trimmed core

variable {cs core front back : List Char}

theorem trimChars_append_front (blank : AllBlank front) :
    trimChars (front ++ cs) = trimChars cs := by
  rw [trimChars, List.dropWhile_append_of_pos blank, trimChars]

theorem trimChars_append_back (blank : AllBlank back) : trimChars (cs ++ back) = trimChars cs := by
  have gone : back.dropWhile isBlank = [] := List.dropWhile_eq_nil_iff.mpr blank
  have reversed : ∀ c ∈ back.reverse, isBlank c = true :=
    fun c member => blank c (List.mem_reverse.mp member)
  unfold trimChars
  rw [List.dropWhile_append]
  split
  · next empty => rw [gone, List.isEmpty_iff.mp empty]
  · rw [List.reverse_append, List.dropWhile_append_of_pos reversed]

theorem trimChars_append_ends (before : AllBlank front) (after : AllBlank back) :
    trimChars (front ++ cs ++ back) = trimChars cs := by
  rw [trimChars_append_back after, trimChars_append_front before]

/-- What is left has no blank at either end. -/
theorem trimmed_trimChars (cs : List Char) : Trimmed (trimChars cs) := by
  have form : trimChars cs = (cs.dropWhile isBlank).rdropWhile isBlank := rfl
  constructor
  · intro c first
    obtain ⟨rest, whole⟩ := List.rdropWhile_prefix isBlank (cs.dropWhile isBlank)
    have start := List.head?_dropWhile_not isBlank cs
    rw [← whole, ← form, List.head?_append, first] at start
    exact start
  · intro c last
    obtain ⟨nonempty, rfl⟩ := List.mem_getLast?_eq_getLast last
    rw [← Bool.not_eq_true]
    exact List.rdropWhile_last_not isBlank (cs.dropWhile isBlank) nonempty

/-- Trimming takes exactly the blanks off both ends. -/
theorem trimChars_eq_iff : trimChars cs = core ↔ TrimsTo cs core := by
  constructor
  · rintro rfl
    refine ⟨cs.takeWhile isBlank, (cs.dropWhile isBlank).rtakeWhile isBlank,
      fun c => List.mem_takeWhile_imp, fun c => List.mem_rtakeWhile_imp, ?_, trimmed_trimChars cs⟩
    calc cs = cs.takeWhile isBlank ++ cs.dropWhile isBlank := List.takeWhile_append_dropWhile.symm
      _ = cs.takeWhile isBlank ++ (trimChars cs ++ (cs.dropWhile isBlank).rtakeWhile isBlank) :=
        congrArg _ (List.rdropWhile_append_rtakeWhile ..).symm
      _ = _ := (List.append_assoc ..).symm
  · rintro ⟨front, back, before, after, rfl, trimmed⟩
    rw [trimChars_append_ends before after, trimChars_of_ends trimmed.first trimmed.last]

/-- Nothing is left exactly of a text of blanks. -/
theorem trimChars_eq_nil_iff : trimChars cs = [] ↔ AllBlank cs := by
  constructor
  · intro empty
    obtain ⟨front, back, before, after, rfl, -⟩ := trimChars_eq_iff.mp empty
    rw [List.append_nil]
    exact List.forall_mem_append.mpr ⟨before, after⟩
  · intro blank
    rw [← List.append_nil cs, trimChars_append_front blank, trimChars_nil]

/-- The content of a text: what trimming leaves of it, if that is not empty. -/
structure Content (raw content : String) : Prop where
  core : TrimsTo raw.toList content.toList
  nonempty : content ≠ ""

/-- A text that is trimmed and kept unless it is empty is reduced to its content. -/
theorem filter_trim_eq_some_iff {given : Option String} {content : String} :
    (given.map trim).filter (· ≠ "") = some content ↔
      ∃ raw, given = some raw ∧ Content raw content := by
  have trims (raw : String) : trim raw = content ↔ TrimsTo raw.toList content.toList := by
    rw [← trimChars_eq_iff, ← toList_trim, String.toList_inj]
  simp only [Option.filter_eq_some_iff, Option.map_eq_some_iff, decide_eq_true_eq]
  constructor
  · rintro ⟨⟨raw, present, trimmed⟩, nonempty⟩
    exact ⟨raw, present, (trims raw).mp trimmed, nonempty⟩
  · rintro ⟨raw, present, core, nonempty⟩
    exact ⟨⟨raw, present, (trims raw).mpr core⟩, nonempty⟩

/-- A text without a blank at either end is its own content. -/
theorem content_self {s : String} (ends : Trimmed s.toList) (nonempty : s ≠ "") : Content s s where
  core := trimChars_eq_iff.mp (trimChars_of_ends ends.first ends.last)
  nonempty := nonempty

end EventRelay.Text
