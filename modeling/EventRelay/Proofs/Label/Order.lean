import Mathlib.Data.List.Sort
import Mathlib.Data.String.Basic
import EventRelay.Proofs.Payload.Validity
import EventRelay.Proofs.Text.Ascii

/-!
# The order of labels

Labels are compared by their characters, which is the order of their bytes because the alphabet lies
within ASCII. Sorting leaves every label once, in strictly increasing order, so a sorted list is the
normal form of a set of labels: neither order nor repetition in what is sorted is seen in it.
-/

namespace EventRelay.Label

open Text (utf8Bytes)

variable {a b l : Label} {ls ms : List Label}

/-! ## Bytes -/

/-- The characters of a label are in ASCII. -/
theorem ascii (l : Label) : ∀ c ∈ l.text.toList, c.toNat ≤ 127 := fun c member =>
  Char.utf8Size_eq_one_iff.mp (utf8Size_of_allowed (l.valid.2.2 c member))

/-- The order of ASCII texts is the order of their bytes. -/
theorem bytes_lt_bytes_iff {cs ds : List Char} (left : ∀ c ∈ cs, c.toNat ≤ 127)
    (right : ∀ d ∈ ds, d.toNat ≤ 127) :
    (cs.map fun c => UInt8.ofNat c.toNat) < (ds.map fun d => UInt8.ofNat d.toNat) ↔ cs < ds := by
  induction cs generalizing ds with
  | nil => cases ds <;> simp
  | cons c cs ih =>
    cases ds with
    | nil => simp
    | cons d ds =>
      obtain ⟨hc, hcs⟩ := List.forall_mem_cons.mp left
      obtain ⟨hd, hds⟩ := List.forall_mem_cons.mp right
      have value {e : Char} (he : e.toNat ≤ 127) : (UInt8.ofNat e.toNat).toNat = e.toNat :=
        UInt8.toNat_ofNat_of_lt' (show e.toNat < 256 by omega)
      have first : UInt8.ofNat c.toNat < UInt8.ofNat d.toNat ↔ c < d := by
        rw [UInt8.lt_iff_toNat_lt, value hc, value hd]
        exact UInt32.lt_iff_toNat_lt.symm
      have same : UInt8.ofNat c.toNat = UInt8.ofNat d.toNat ↔ c = d := by
        rw [← UInt8.toNat_inj, value hc, value hd]
        exact Char.toNat_inj
      rw [List.map_cons, List.map_cons, List.cons_lt_cons_iff, List.cons_lt_cons_iff, first, same,
        ih hcs hds]

/-- One label comes before another in the order of their bytes. -/
theorem atMost_iff : atMost a b = true ↔ ¬ utf8Bytes b.text < utf8Bytes a.text := by
  rw [Text.utf8Bytes_of_ascii a.ascii, Text.utf8Bytes_of_ascii b.ascii,
    bytes_lt_bytes_iff b.ascii a.ascii, ← String.lt_iff_toList_lt, atMost, Bool.not_eq_true',
    decide_eq_false_iff_not]

/-! ## Sorted lists -/

/-- Nothing is lost or added by sorting. -/
theorem mem_sort : l ∈ sort ls ↔ l ∈ ls := by
  rw [sort, List.mem_eraseDups, List.mem_mergeSort]

theorem atMost_iff_le : atMost a b = true ↔ a.text ≤ b.text := by
  rw [atMost, Bool.not_eq_true', decide_eq_false_iff_not, String.not_lt]

/-- A list in order stays in order, now strictly, when repetitions are erased. -/
theorem increasing_eraseDups (inOrder : ls.Pairwise (atMost · ·)) :
    ls.eraseDups.Pairwise (·.text < ·.text) := by
  -- The induction is on the length, since erasing goes on with a filtered tail.
  induction length : ls.length using Nat.strong_induction_on generalizing ls with
  | _ n ih =>
    cases ls with
    | nil => exact List.Pairwise.nil
    | cons l ls =>
      obtain ⟨least, rest⟩ := List.pairwise_cons.mp inOrder
      rw [List.eraseDups_cons, List.pairwise_cons]
      refine ⟨fun m member => ?_, ih _ ?_ (rest.filter _) rfl⟩
      · obtain ⟨inside, other⟩ := List.mem_filter.mp (List.mem_eraseDups.mp member)
        have le := atMost_iff_le.mp (least m inside)
        refine lt_of_le_of_ne le fun same => ?_
        simp [Label.ext same] at other
      · rw [← length, List.length_cons]
        exact Nat.lt_succ_of_le (List.length_filter_le _ ls)

/-- A sorted list is strictly increasing, so that no label occurs twice. -/
theorem sort_increasing (ls : List Label) : (sort ls).Pairwise (·.text < ·.text) := by
  refine increasing_eraseDups (List.pairwise_mergeSort ?_ ?_ ls)
  · intro a b c hab hbc
    rw [atMost_iff_le] at hab hbc ⊢
    exact String.le_trans hab hbc
  · intro a b
    rw [Bool.or_eq_true, atMost_iff_le, atMost_iff_le]
    exact String.le_total a.text b.text

/-- Two lists are sorted alike exactly if they hold the same labels. -/
theorem sort_eq_sort_iff : sort ls = sort ms ↔ ∀ l, l ∈ ls ↔ l ∈ ms := by
  constructor
  · intro same l
    rw [← mem_sort, same, mem_sort]
  · intro same
    have antisymm : Std.Antisymm fun a b : Label => a.text < b.text :=
      ⟨fun _ _ less more => (lt_asymm less more).elim⟩
    have irrefl : Std.Irrefl fun a b : Label => a.text < b.text := ⟨fun _ => lt_irrefl _⟩
    refine (sort_increasing ls).eq_of_mem_iff (sort_increasing ms) fun l => ?_
    rw [mem_sort, mem_sort, same]

/-- Sorting again changes nothing. -/
theorem sort_sort (ls : List Label) : sort (sort ls) = sort ls :=
  sort_eq_sort_iff.mpr fun _ => mem_sort

end EventRelay.Label
