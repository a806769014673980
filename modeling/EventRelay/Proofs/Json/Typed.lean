import EventRelay.Proofs.Json.Reading
import EventRelay.Proofs.Json.Scores

/-!
# Typed values read back

Integers, texts and finite numbers are recovered from the values they are written as, and what is
recovered from any value lies within the bounds of its type. A record is read field by field: a
field that occurs once is found under its name, and one that does not occur is left out.
-/

namespace EventRelay

/-- Reads a text as a value of a type. -/
def Json.decode? {α : Type} (f : Json → Option α) (s : String) : Option α := (Json.parse s).bind f

/-- Text written for a value is decoded as the value itself. -/
theorem Json.decode?_text {α : Type} (f : Json → Option α) {j : Json} (form : j.WellFormed) :
    Json.decode? f j.text = f j := by
  rw [Json.decode?, Json.parse_text form, Option.bind_some]

/-! ## Integers -/

namespace Numeral

theorem toInt?_ofNat (n : Nat) : (ofNat n).toInt? = some (n : Int) := by
  have digits : digitsNat (ofNat n).whole = n := digitsNat_toDigits n
  rw [toInt?, if_pos ⟨rfl, rfl⟩, digits]
  exact if_neg Bool.false_ne_true

theorem toInt?_ofInt (i : Int) : (ofInt i).toInt? = some i := by
  have digits : digitsNat (ofInt i).whole = i.natAbs := digitsNat_toDigits i.natAbs
  rw [toInt?, if_pos ⟨rfl, rfl⟩, digits]
  change (if decide (i < 0) = true then _ else _) = _
  split
  · next negative =>
    rw [decide_eq_true_eq] at negative
    rw [if_neg (by omega)]
    exact congrArg some (by omega)
  · next whole =>
    rw [decide_eq_true_eq] at whole
    exact congrArg some (by omega)

end Numeral

namespace Json

variable {α : Type}

/-- An integer that is read lies between the bounds. -/
theorem toIntBetween?_bounds {low high i : Int} {j : Json}
    (read : toIntBetween? low high j = some i) :
    low ≤ i ∧ i ≤ high := by
  unfold toIntBetween? at read
  split at read
  · rw [Option.filter_eq_some_iff] at read
    simpa using read.2
  · cases read

/-- A natural number that is read does not exceed its limit. -/
theorem toNatUpTo?_le {limit n : Nat} {j : Json} (read : toNatUpTo? limit j = some n) :
    n ≤ limit := by
  rw [toNatUpTo?, Option.map_eq_some_iff] at read
  obtain ⟨i, between, rfl⟩ := read
  have := toIntBetween?_bounds between
  omega

/-- A floating-point number that is read fits 64 bits. -/
theorem representable_of_toBinary64? {x : Binary64} {j : Json} (read : toBinary64? j = some x) :
    x.Representable := by
  unfold toBinary64? at read
  split at read
  · exact Numeral.representable_of_toBinary64? read
  · cases read

theorem toIntBetween?_ofInt {low high i : Int} (bounds : low ≤ i ∧ i ≤ high) :
    toIntBetween? low high (.ofInt i) = some i := by
  rw [ofInt, toIntBetween?, Numeral.toInt?_ofInt, Option.filter_some]
  simp [bounds]

theorem toNatUpTo?_ofNat {limit n : Nat} (small : n ≤ limit) :
    toNatUpTo? limit (.ofNat n) = some n := by
  rw [toNatUpTo?, ofNat, toIntBetween?, Numeral.toInt?_ofNat, Option.filter_some]
  simp [small]

/-! ## Numbers that are held -/

theorem holdable_ofNat (depth : Nat) {n : Nat} (small : n ≤ Text.maxU64) :
    holdable depth (.ofNat n) = true := by
  rw [ofNat, holdable]
  exact Numeral.isSome_toBinary64?_of_whole rfl rfl ((Numeral.digitsNat_toDigits n).trans_le small)

theorem holdable_ofInt (depth : Nat) {i : Int} (small : i.natAbs ≤ Text.maxU64) :
    holdable depth (.ofInt i) = true := by
  rw [ofInt, holdable]
  exact Numeral.isSome_toBinary64?_of_whole rfl rfl
    ((Numeral.digitsNat_toDigits i.natAbs).trans_le small)

/-- The number that is read from the digits written for a number. -/
def reread? (x : Binary64) : Option Binary64 := decode? toBinary64? (Json.ofBinary64 x).text

/-- A number that fits 64 bits is written in digits that can be held and read. -/
theorem ofBinary64_readable {x : Binary64} (fits : x.Representable) :
    (Json.ofBinary64 x).WellFormed ∧ (∀ depth, holdable depth (.ofBinary64 x) = true) ∧
      ∃ y, reread? x = some y ∧ toBinary64? (.ofBinary64 x) = some y := by
  obtain ⟨n, written, form, read⟩ := Numeral.ofBinary64?_readable fits
  have same : Json.ofBinary64 x = .number n := by rw [ofBinary64, written]
  have whole : (Json.ofBinary64 x).WellFormed := by rwa [same, WellFormed]
  obtain ⟨y, value⟩ := Option.isSome_iff_exists.mp read
  refine ⟨whole, fun depth => by rwa [same, holdable], y, ?_, by rw [same, toBinary64?, value]⟩
  rw [reread?, decode?_text toBinary64? whole, same, toBinary64?, value]

/-! ## Records -/

/-- What is read item by item was read from an item. -/
theorem of_mem_mapM {β : Type} {f : β → Option α} {items : List β} {as : List α}
    (read : items.mapM f = some as) {a : α} (member : a ∈ as) :
    ∃ item ∈ items, f item = some a := by
  induction items generalizing as with
  | nil =>
    cases read
    cases member
  | cons item items ih =>
    rw [List.mapM_cons] at read
    obtain ⟨first, head, rest⟩ := Option.bind_eq_some_iff.mp read
    obtain ⟨others, tail, same⟩ := Option.bind_eq_some_iff.mp rest
    cases same
    rcases List.mem_cons.mp member with rfl | later
    · exact ⟨item, List.mem_cons_self, head⟩
    · obtain ⟨other, inside, inner⟩ := ih tail later
      exact ⟨other, List.mem_cons_of_mem item inside, inner⟩

/-- The fields of a written record are looked up by their names. -/
theorem fields?_record (names : List String) (members : List (String × Json)) :
    fields? names (record members) = (names.mapM (findField · members)).map (⟨.named, ·⟩) := by
  have texts : (members.map fun m => ((some m.1, m.2) : Literal × Json)).mapM
      (fun m => m.1.map (·, m.2)) = some members := by
    induction members with
    | nil => rfl
    | cons m rest ih => rw [List.map_cons, List.mapM_cons, ih]; rfl
  rw [record, fields?, texts]
  exact Option.map_eq_bind.symm

end Json

end EventRelay
