import EventRelay.Proofs.Json.Typed

/-!
# Strings in values

The texts of all strings in a value are listed in order. What is read from the fields of a record or
from the items of an array is read from a part of the value, whose strings are among those of the
whole.
-/

namespace EventRelay.Json

mutual

/-- The texts of all strings in a value, in order; names of members are not among them. -/
def texts : Json → List String
  | .string (some s) => [s]
  | .array items => textsOfItems items
  | .object members => textsOfMembers members
  | .string none | .null | .bool _ | .number _ => []

/-- The texts in the items of an array. -/
def textsOfItems : List Json → List String
  | [] => []
  | j :: rest => texts j ++ textsOfItems rest

/-- The texts in the members of an object. -/
def textsOfMembers : List (Literal × Json) → List String
  | [] => []
  | (_, j) :: rest => texts j ++ textsOfMembers rest

end

theorem texts_array (items : List Json) : (Json.array items).texts = items.flatMap texts := by
  change textsOfItems items = _
  induction items with
  | nil => rfl
  | cons j rest ih => rw [textsOfItems, ih, List.flatMap_cons]

theorem texts_object (members : List (Literal × Json)) :
    (Json.object members).texts = members.flatMap fun m => m.2.texts := by
  change textsOfMembers members = _
  induction members with
  | nil => rfl
  | cons m rest ih => rw [textsOfMembers, ih, List.flatMap_cons]

theorem texts_record (members : List (String × Json)) :
    (record members).texts = members.flatMap fun m => m.2.texts := by
  rw [record, texts_object, List.flatMap_map]

@[simp] theorem texts_ofString (s : String) : (Json.ofString s).texts = [s] := rfl

@[simp] theorem texts_bool (b : Bool) : (Json.bool b).texts = [] := rfl

@[simp] theorem texts_ofNat (n : Nat) : (Json.ofNat n).texts = [] := rfl

@[simp] theorem texts_ofInt (i : Int) : (Json.ofInt i).texts = [] := rfl

@[simp] theorem texts_ofBinary64 (x : Binary64) : (Json.ofBinary64 x).texts = [] := by
  unfold ofBinary64
  split <;> rfl

/-! ## Parts of a value -/

variable {α : Type} {f : Json → Option α} {names : List String} {j part : Json} {fields : Fields}
  {value : Option Json}

/-- A string that is read is the only one of its value. -/
theorem texts_of_toText? {s : String} (read : toText? j = some s) : j.texts = [s] := by
  unfold toText? at read
  split at read
  · cases read
    rfl
  · cases read

theorem texts_subset_of_item {items : List Json} (member : part ∈ items) :
    part.texts ⊆ (Json.array items).texts := by
  intro s shown
  rw [texts_array]
  exact List.mem_flatMap.mpr ⟨part, member, shown⟩

theorem texts_subset_of_member {members : List (Literal × Json)} {m : Literal × Json}
    (member : m ∈ members) : m.2.texts ⊆ (Json.object members).texts := by
  intro s shown
  rw [texts_object]
  exact List.mem_flatMap.mpr ⟨m, member, shown⟩

/-- A field that is found is a member with its name. -/
theorem mem_of_findField {name : String} {members : List (String × Json)}
    (found : findField name members = some (some part)) : (name, part) ∈ members := by
  unfold findField at found
  split at found
  · cases found
  · next single =>
    cases found
    have member := List.mem_filter.mp (single ▸ List.mem_singleton_self _)
    have named := of_decide_eq_true member.2
    exact named ▸ member.1
  · cases found

/-- The fields of a record are parts of it. -/
theorem texts_subset_of_fields? (read : fields? names j = some fields)
    (present : some part ∈ fields.values) : part.texts ⊆ j.texts := by
  unfold fields? at read
  split at read
  · next members =>
    obtain ⟨named, texts, read⟩ := Option.bind_eq_some_iff.mp read
    obtain ⟨values, found, read⟩ := Option.bind_eq_some_iff.mp read
    cases read
    obtain ⟨name, -, field⟩ := of_mem_mapM found present
    obtain ⟨m, member, same⟩ := of_mem_mapM texts (mem_of_findField field)
    obtain ⟨_, -, parts⟩ := Option.map_eq_some_iff.mp same
    cases parts
    exact texts_subset_of_member member
  · next items =>
    split at read
    · cases read
      rcases List.mem_append.mp present with item | missing
      · obtain ⟨_, member, ⟨⟩⟩ := List.mem_map.mp item
        exact texts_subset_of_item member
      · cases (List.mem_replicate.mp missing).2
    · cases read
  · cases read

/-- A field that must be present is read from a part of the record. -/
theorem exists_part_of_required (read : fields? names j = some fields)
    (field : value ∈ fields.values) {a : α} (given : required f value = some a) :
    ∃ part, part.texts ⊆ j.texts ∧ f part = some a := by
  obtain ⟨part, rfl, inner⟩ := Option.bind_eq_some_iff.mp given
  exact ⟨part, texts_subset_of_fields? read field, inner⟩

/-- A field that may be left out is read from a part of the record where there is a value. -/
theorem exists_part_of_optional (read : fields? names j = some fields)
    (field : value ∈ fields.values) {a : α} (given : optional f value = some (some a)) :
    ∃ part, part.texts ⊆ j.texts ∧ f part = some a := by
  cases value with
  | none => cases given
  | some part =>
    refine ⟨part, texts_subset_of_fields? read field, ?_⟩
    unfold optional toOption? at given
    dsimp only at given
    split at given
    · cases given
    · simpa using given

/-- Every element of a list that is read is read from a part of it. -/
theorem exists_part_of_toList? {as : List α} (read : toList? f j = some as) {a : α}
    (member : a ∈ as) : ∃ part, part.texts ⊆ j.texts ∧ f part = some a := by
  unfold toList? at read
  split at read
  · obtain ⟨item, inside, inner⟩ := of_mem_mapM read member
    exact ⟨item, texts_subset_of_item inside, inner⟩
  · cases read

end EventRelay.Json
