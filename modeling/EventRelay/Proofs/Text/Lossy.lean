import EventRelay.Proofs.Text.Utf8

/-!
# Decoding without failing

Bytes that spell characters are read as those characters. Where no character is spelled, the longest
stretch that begins one, or else a single byte, becomes one replacement character, and decoding goes
on behind it. This describes exactly one text for all bytes, and it is the one that is decoded.
-/

namespace EventRelay.Text

/-- Bytes with which the bytes of a character begin. -/
def Begins (part : List UInt8) : Prop := ∃ c : Char, part <+: String.utf8EncodeChar c

/-- A stretch of bytes before `rest` that spells no character: one byte that begins none, or the
beginning of a character that does not go on. -/
inductive Broken : List UInt8 → List UInt8 → Prop
  /-- No character begins with the byte. -/
  | stray {a : UInt8} {rest : List UInt8} (alone : ¬Begins [a]) : Broken [a] rest
  /-- A character begins with the stretch, and none with one byte more. -/
  | cut {part rest : List UInt8} (some_bytes : part ≠ []) (begins : Begins part)
    (incomplete : ∀ c, String.utf8EncodeChar c ≠ part)
    (stops : ∀ next ∈ rest.head?, ¬Begins (part ++ [next])) : Broken part rest

/-- What bytes are read as if reading cannot fail. -/
inductive Lossy : List UInt8 → List Char → Prop
  /-- Nothing is left. -/
  | done : Lossy [] []
  /-- A character is spelled. -/
  | char {bytes : List UInt8} {cs : List Char} (c : Char) (h : Lossy bytes cs) :
    Lossy (String.utf8EncodeChar c ++ bytes) (c :: cs)
  /-- No character is spelled. -/
  | broken {part bytes : List UInt8} {cs : List Char} (ill : Broken part bytes)
    (h : Lossy bytes cs) : Lossy (part ++ bytes) (replacement :: cs)

/-! ## Beginnings of characters -/

section beginnings

variable {count : Nat} {a b c d low high : UInt8}

theorem begins_iff {part : List UInt8} :
    Begins part ↔ ∃ c bytes, Written c bytes ∧ part <+: bytes :=
  ⟨fun ⟨c, start⟩ => ⟨c, _, written c, start⟩,
    fun ⟨c, _, listed, start⟩ => ⟨c, listed.bytes ▸ start⟩⟩

/-- One to three bytes follow a leading byte. -/
theorem Leads.count_cases (leads : Leads count a b) : count = 1 ∨ count = 2 ∨ count = 3 := by
  rcases (leads_iff.mp leads).2 with ⟨h, -⟩ | ⟨h, -⟩ | ⟨h, -⟩ <;> omega

/-- The leading byte tells how many bytes follow, and in which range the next one lies. -/
theorem Leads.row (leads : Leads count a b) {row : Nat × UInt8 × UInt8}
    (leading : followers a = some row) : row.1 = count ∧ row.2.1 ≤ b ∧ b ≤ row.2.2 := by
  obtain ⟨low, high, own, second⟩ := leads
  cases own.symm.trans leading
  exact ⟨rfl, second⟩

/-- A leading byte is beyond ASCII. -/
theorem not_small_of_followers (leading : followers a = some (count, low, high)) : ¬a < 0x80 := by
  intro small
  have range : a.toNat < 128 := UInt8.lt_iff_toNat_lt.mp small
  rw [followers_eq, if_neg (by omega), if_neg (by omega), if_neg (by omega), if_neg (by omega),
    if_neg (by omega), if_neg (by omega), if_neg (by omega)] at leading
  cases leading

/-- Some second byte can follow a leading byte. -/
theorem exists_leads (leading : followers a = some (count, low, high)) : ∃ b, Leads count a b := by
  have order : low ≤ high := by
    unfold followers at leading
    repeat' split at leading
    all_goals cases leading
    all_goals decide
  exact ⟨low, low, high, leading, UInt8.le_refl low, order⟩

/-- What two bytes begin can be brought to its end. -/
private theorem exists_written (leads : Leads count a b) (third : isContinuation c = true) :
    ∃ character bytes, Written character bytes ∧ [a, b] <+: bytes ∧
      (count ≠ 1 → [a, b, c] <+: bytes) := by
  rcases leads.count_cases with rfl | rfl | rfl
  · exact ⟨_, _, .two leads, List.prefix_refl _, fun other => absurd rfl other⟩
  · exact ⟨_, _, .three leads third, ⟨[c], rfl⟩, fun _ => List.prefix_refl _⟩
  · exact ⟨_, _, .four leads third third, ⟨[c, c], rfl⟩, fun _ => ⟨[c], rfl⟩⟩

theorem begins_one_iff : Begins [a] ↔ a < 0x80 ∨ ∃ row, followers a = some row := by
  rw [begins_iff]
  constructor
  · rintro ⟨character, bytes, listed, start⟩
    cases listed with
    | one small =>
      obtain ⟨rfl, -⟩ := List.cons_prefix_cons.mp start
      exact .inl small
    | two leads | three leads | four leads =>
      obtain ⟨rfl, -⟩ := List.cons_prefix_cons.mp start
      obtain ⟨low, high, leading, -⟩ := leads
      exact .inr ⟨_, leading⟩
  · rintro (small | ⟨⟨count, low, high⟩, leading⟩)
    · exact ⟨_, _, .one small, List.prefix_refl _⟩
    · obtain ⟨b, leads⟩ := exists_leads leading
      obtain ⟨character, bytes, listed, start, -⟩ := exists_written leads (c := 0x80) rfl
      exact ⟨character, bytes, listed, List.IsPrefix.trans ⟨[b], rfl⟩ start⟩

theorem begins_two_iff : Begins [a, b] ↔ ∃ count, Leads count a b := by
  rw [begins_iff]
  constructor
  · rintro ⟨character, bytes, listed, start⟩
    cases listed with
    | one small => simp at start
    | two leads | three leads | four leads =>
      simp only [List.cons_prefix_cons] at start
      obtain ⟨rfl, rfl, -⟩ := start
      exact ⟨_, leads⟩
  · rintro ⟨count, leads⟩
    obtain ⟨character, bytes, listed, start, -⟩ := exists_written leads (c := 0x80) rfl
    exact ⟨character, bytes, listed, start⟩

theorem begins_three_iff :
    Begins [a, b, c] ↔ (∃ count, count ≠ 1 ∧ Leads count a b) ∧ isContinuation c = true := by
  rw [begins_iff]
  constructor
  · rintro ⟨character, bytes, listed, start⟩
    cases listed with
    | one small => simp at start
    | two leads => simp at start
    | three leads third | four leads third =>
      simp only [List.cons_prefix_cons] at start
      obtain ⟨rfl, rfl, rfl, -⟩ := start
      exact ⟨⟨_, by decide, leads⟩, third⟩
  · rintro ⟨⟨count, more, leads⟩, third⟩
    obtain ⟨character, bytes, listed, -, start⟩ := exists_written leads third
    exact ⟨character, bytes, listed, start more⟩

theorem begins_four_iff :
    Begins [a, b, c, d] ↔ Leads 3 a b ∧ isContinuation c = true ∧ isContinuation d = true := by
  rw [begins_iff]
  constructor
  · rintro ⟨character, bytes, listed, start⟩
    cases listed with
    | one small => simp at start
    | two leads => simp at start
    | three leads third => simp at start
    | four leads third fourth =>
      simp only [List.cons_prefix_cons] at start
      obtain ⟨rfl, rfl, rfl, rfl, -⟩ := start
      exact ⟨leads, third, fourth⟩
  · rintro ⟨leads, third, fourth⟩
    exact ⟨_, _, .four leads third fourth, List.prefix_refl _⟩

end beginnings

/-! ## Stretches that are replaced -/

section stretches

variable {count : Nat} {a b c low high : UInt8} {rest : List UInt8}

/-- A leading byte that is not followed. -/
theorem broken_one (leading : followers a = some (count, low, high))
    (stops : ∀ next ∈ rest.head?, ¬(low ≤ next ∧ next ≤ high)) : Broken [a] rest := by
  refine .cut (List.cons_ne_nil _ _) (begins_one_iff.mpr (.inr ⟨_, leading⟩)) (fun x whole => ?_)
    fun next first begins => ?_
  · cases written_iff.mpr whole with
    | one small => exact not_small_of_followers leading small
  · obtain ⟨_, leads⟩ := begins_two_iff.mp begins
    exact stops next first (leads.row leading).2

/-- Two bytes that are not followed. -/
theorem broken_two (leads : Leads count a b) (more : count ≠ 1)
    (stops : ∀ next ∈ rest.head?, isContinuation next = false) : Broken [a, b] rest := by
  obtain ⟨low, high, leading, -⟩ := id leads
  refine .cut (List.cons_ne_nil _ _) (begins_two_iff.mpr ⟨_, leads⟩) (fun x whole => ?_)
    fun next first begins => ?_
  · cases written_iff.mpr whole with
    | two leads' => exact more (leads'.row leading).1
  · have continues := (begins_three_iff.mp begins).2
    rw [stops next first] at continues
    contradiction

/-- Three bytes that are not followed. -/
theorem broken_three (leads : Leads 3 a b) (third : isContinuation c = true)
    (stops : ∀ next ∈ rest.head?, isContinuation next = false) : Broken [a, b, c] rest := by
  obtain ⟨low, high, leading, -⟩ := id leads
  have begins : Begins [a, b, c] := begins_three_iff.mpr ⟨⟨3, by decide, leads⟩, third⟩
  refine .cut (List.cons_ne_nil _ _) begins (fun x whole => ?_) fun next first begins => ?_
  · cases written_iff.mpr whole with
    | three leads' => nomatch (leads'.row leading).1
  · have continues := (begins_four_iff.mp begins).2.2
    rw [stops next first] at continues
    contradiction

end stretches

/-! ## What is decoded -/

section decoding

variable {count : Nat} {a b c low high : UInt8} {rest : List UInt8}

/-- A character that is spelled is decoded. -/
theorem decodeLossy_written {character : Char} {bytes : List UInt8}
    (listed : Written character bytes) (rest : List UInt8) :
    decodeLossy (bytes ++ rest) = character :: decodeLossy rest := by
  cases listed with
  | one small =>
    rw [List.singleton_append, decodeLossy, if_pos small]
  | two leads =>
    obtain ⟨low, high, leading, second⟩ := leads
    simp [decodeLossy, not_small_of_followers leading, leading, second]
  | three leads third =>
    obtain ⟨low, high, leading, second⟩ := leads
    simp [decodeLossy, not_small_of_followers leading, leading, second, third]
  | four leads third fourth =>
    obtain ⟨low, high, leading, second⟩ := leads
    simp [decodeLossy, not_small_of_followers leading, leading, second, third, fourth]

/-- A byte that begins no character is replaced. -/
theorem decodeLossy_stray (alone : ¬Begins [a]) :
    decodeLossy (a :: rest) = replacement :: decodeLossy rest := by
  rw [begins_one_iff, not_or] at alone
  have silent : followers a = none := Option.eq_none_iff_forall_ne_some.mpr (not_exists.mp alone.2)
  rw [decodeLossy, if_neg alone.1, silent]

/-- A leading byte that is not followed is replaced. -/
theorem decodeLossy_cut_one (leading : followers a = some (count, low, high))
    (stops : ∀ next ∈ rest.head?, ¬(low ≤ next ∧ next ≤ high)) :
    decodeLossy (a :: rest) = replacement :: decodeLossy rest := by
  rw [decodeLossy, if_neg (not_small_of_followers leading), leading]
  cases rest with
  | nil => simp [decodeLossy]
  | cons b rest => simp [stops b rfl]

/-- Two bytes that are not followed become one replacement character. -/
theorem decodeLossy_cut_two (leads : Leads count a b) (more : count ≠ 1)
    (stops : ∀ next ∈ rest.head?, isContinuation next = false) :
    decodeLossy (a :: b :: rest) = replacement :: decodeLossy rest := by
  obtain ⟨low, high, leading, second⟩ := leads
  rw [decodeLossy, if_neg (not_small_of_followers leading), leading]
  cases rest with
  | nil => simp [decodeLossy, second, more]
  | cons c rest => simp [second, more, stops c rfl]

/-- Three bytes that are not followed become one replacement character. -/
theorem decodeLossy_cut_three (leads : Leads 3 a b) (third : isContinuation c = true)
    (stops : ∀ next ∈ rest.head?, isContinuation next = false) :
    decodeLossy (a :: b :: c :: rest) = replacement :: decodeLossy rest := by
  obtain ⟨low, high, leading, second⟩ := leads
  rw [decodeLossy, if_neg (not_small_of_followers leading), leading]
  cases rest with
  | nil => simp [decodeLossy, second, third]
  | cons d rest => simp [second, third, stops d rfl]

end decoding

/-- What is decoded is what the bytes are read as. -/
theorem lossy_decodeLossy (bytes : List UInt8) : Lossy bytes (decodeLossy bytes) := by
  have spelled {character : Char} {word rest : List UInt8} (listed : Written character word)
      (h : Lossy rest (decodeLossy rest)) :
      Lossy (word ++ rest) (character :: decodeLossy rest) := by
    rw [← listed.bytes]
    exact .char character h
  have inRange {b low high : UInt8} (second : ¬(!(low ≤ b && b ≤ high)) = true) :
      low ≤ b ∧ b ≤ high := by simpa using second
  fun_induction decodeLossy bytes with
  | case1 => exact .done
  | case2 a rest small ih => exact spelled (.one small) ih
  | case3 a rest large silent ih =>
    have alone : ¬Begins [a] := by
      intro begins
      rcases begins_one_iff.mp begins with small | ⟨row, leading⟩
      · exact large small
      · exact Option.some_ne_none row (leading.symm.trans silent)
    exact .broken (.stray alone) ih
  | case4 a large count low high leading =>
    exact .broken (broken_one leading (by simp)) .done
  | case5 a large count low high leading b rest outside ih =>
    refine .broken (broken_one leading fun next first => ?_) ih
    cases first
    rintro ⟨above, below⟩
    simp [above, below] at outside
  | case6 a large low high b rest second leading acc ih =>
    exact spelled (.two ⟨low, high, leading, inRange second⟩) ih
  | case7 a large count low high leading b second more =>
    exact .broken (broken_two ⟨low, high, leading, inRange second⟩ more (by simp)) .done
  | case8 a large count low high leading b second more c rest stops ih =>
    refine .broken (broken_two ⟨low, high, leading, inRange second⟩ more fun next first => ?_) ih
    cases first
    simpa using stops
  | case9 a large low high b second c rest third leading acc more acc' ih =>
    exact spelled (.three ⟨low, high, leading, inRange second⟩ (by simpa using third)) ih
  | case10 a large count low high leading b second more c third most =>
    have leads : Leads count a b := ⟨low, high, leading, inRange second⟩
    have three : count = 3 := by have := leads.count_cases; omega
    exact .broken (broken_three (three ▸ leads) (by simpa using third) (by simp)) .done
  | case11 a large count low high leading b second more c third most d rest stops ih =>
    have leads : Leads count a b := ⟨low, high, leading, inRange second⟩
    have three : count = 3 := by have := leads.count_cases; omega
    refine .broken (broken_three (three ▸ leads) (by simpa using third) fun next first => ?_) ih
    cases first
    simpa using stops
  | case12 a large count low high leading b second acc more c third acc' most d rest fourth ih =>
    have leads : Leads count a b := ⟨low, high, leading, inRange second⟩
    obtain rfl : count = 3 := by have := leads.count_cases; omega
    exact spelled (.four leads (by simpa using third) (by simpa using fourth)) ih

/-- A stretch that spells no character is decoded as one replacement character. -/
theorem decodeLossy_broken {part rest : List UInt8} (ill : Broken part rest) :
    decodeLossy (part ++ rest) = replacement :: decodeLossy rest := by
  cases ill with
  | stray alone => exact decodeLossy_stray alone
  | cut some_bytes begins incomplete stops =>
    match part with
    | [] => contradiction
    | [a] =>
      rcases begins_one_iff.mp begins with small | ⟨⟨count, low, high⟩, leading⟩
      · exact absurd (Written.one small).bytes (incomplete _)
      · refine decodeLossy_cut_one leading fun next first second => ?_
        exact stops next first (begins_two_iff.mpr ⟨count, low, high, leading, second⟩)
    | [a, b] =>
      obtain ⟨count, leads⟩ := begins_two_iff.mp begins
      have more : count ≠ 1 := by
        rintro rfl
        exact incomplete _ (Written.two leads).bytes
      refine decodeLossy_cut_two leads more fun next first => eq_false_of_ne_true fun third => ?_
      exact stops next first (begins_three_iff.mpr ⟨⟨count, more, leads⟩, third⟩)
    | [a, b, c] =>
      obtain ⟨⟨count, more, leads⟩, third⟩ := begins_three_iff.mp begins
      have most : count ≠ 2 := by
        rintro rfl
        exact incomplete _ (Written.three leads third).bytes
      obtain rfl : count = 3 := by have := leads.count_cases; omega
      refine decodeLossy_cut_three leads third fun next first =>
        eq_false_of_ne_true fun fourth => ?_
      exact stops next first (begins_four_iff.mpr ⟨leads, third, fourth⟩)
    | [a, b, c, d] =>
      obtain ⟨leads, third, fourth⟩ := begins_four_iff.mp begins
      exact absurd (Written.four leads third fourth).bytes (incomplete _)
    | a :: b :: c :: d :: e :: more =>
      obtain ⟨character, start⟩ := begins
      have width := start.length_le
      rw [String.length_utf8EncodeChar] at width
      have limit := character.utf8Size_le_four
      simp only [List.length_cons] at width
      omega

/-- Bytes are read as one text only, and this text is decoded. -/
theorem lossy_iff {bytes : List UInt8} {cs : List Char} :
    Lossy bytes cs ↔ decodeLossy bytes = cs := by
  refine ⟨fun h => ?_, fun h => h ▸ lossy_decodeLossy bytes⟩
  induction h with
  | done => simp [decodeLossy]
  | char c _ ih => rw [decodeLossy_written (written c), ih]
  | broken ill _ ih => rw [decodeLossy_broken ill, ih]

end EventRelay.Text
