import EventRelay.Json.Reader
import EventRelay.Proofs.Json.Numerals

/-!
# JSON text reads back

The compact text of a value is read as that value, whatever follows it as long as a number is not
continued. Every string is read back with its escapes, and a literal without text is read as one.
The only requirement is that number literals are in order.
-/

namespace EventRelay.Json

/-! ## Strings -/

/-- A short escape is read as the character that it stands for. -/
theorem readUnits_escape {e c : Char} (short : shortEscape e = some c) (rest : List Char) :
    readUnits ('\\' :: e :: rest) = (readUnits rest).map fun r => (.char c :: r.1, r.2) := by
  have other : e ≠ 'u' := by
    rintro rfl
    cases short
  rw [readUnits]
  · simp only [short]
    cases readUnits rest <;> rfl
  · exact fun _ _ _ _ _ same _ => other same

/-- A character that needs no escape is read as it stands. -/
theorem readUnits_plain {c : Char} (quote : c ≠ '"') (backslash : c ≠ '\\')
    (raw : ¬c.toNat < 0x20) (rest : List Char) :
    readUnits (c :: rest) = (readUnits rest).map fun r => (.char c :: r.1, r.2) := by
  rw [readUnits.eq_def]
  split
  · next same => cases same
  · next same => exact absurd (List.cons.inj same).1 quote
  · next same => exact absurd (List.cons.inj same).1 backslash
  · next same => exact absurd (List.cons.inj same).1 backslash
  · next same =>
    cases same
    simp only [raw, backslash, decide_false, Bool.or_self, Bool.false_eq_true, if_false]
    cases readUnits rest <;> rfl

private theorem hexQuad_control : ∀ n < 32,
    hexQuad '0' '0' (hexDigit (n / 16)) (hexDigit (n % 16)) = some n := by
  decide

/-- An escaped number is read as that number. -/
theorem readUnits_number {a b c d : Char} {n : Nat} (quad : hexQuad a b c d = some n)
    (rest : List Char) : readUnits ('\\' :: 'u' :: a :: b :: c :: d :: rest) =
      (readUnits rest).map fun r => (.escaped n :: r.1, r.2) := by
  rw [readUnits, quad]
  cases readUnits rest <;> rfl

theorem unitsText_char (c : Char) (us : List Unit16) :
    unitsText (.char c :: us) = (unitsText us).map (c :: ·) := by
  rw [unitsText]

/-- A number that is no half of a character denotes one. -/
theorem unitsText_number {n : Nat} (whole : n < 0xd800 ∨ 0xdfff < n) (us : List Unit16) :
    unitsText (.escaped n :: us) = (unitsText us).map (Char.ofNat n :: ·) := by
  rw [unitsText.eq_def]
  dsimp only
  rw [if_neg (by omega), if_neg (by omega)]

/-- A written character is read as one unit, which denotes it. -/
private theorem readUnits_writeChar (c : Char) :
    ∃ u, (∀ rest, readUnits (writeChar c ++ rest) =
        (readUnits rest).map fun r => (u :: r.1, r.2)) ∧
      ∀ us, unitsText (u :: us) = (unitsText us).map (c :: ·) := by
  have short {e : Char} (read : shortEscape e = some c) :
      ∃ u, (∀ rest, readUnits ('\\' :: e :: rest) =
          (readUnits rest).map fun r => (u :: r.1, r.2)) ∧
        ∀ us, unitsText (u :: us) = (unitsText us).map (c :: ·) :=
    ⟨.char c, readUnits_escape read, unitsText_char c⟩
  have number {n : Nat} (same : c.toNat = n) : Char.ofNat n = c := by
    rw [← same, Char.ofNat_toNat]
  unfold writeChar
  split
  · next same => exact short (by rw [same]; rfl)
  split
  · next same => exact short (by rw [same]; rfl)
  split
  · next same => exact short (by rw [same]; rfl)
  split
  · next same => exact short (by rw [same]; rfl)
  split
  · next same => exact short (by rw [same]; rfl)
  split
  · next same => exact short (by rw [← number same]; rfl)
  split
  · next same => exact short (by rw [← number same]; rfl)
  split
  · next control =>
    refine ⟨_, readUnits_number (hexQuad_control _ control), fun us => ?_⟩
    rw [unitsText_number (.inl (Nat.lt_trans control (by decide))), Char.ofNat_toNat]
  · next quote backslash _ _ _ _ _ raw =>
    exact ⟨_, readUnits_plain quote backslash raw, unitsText_char c⟩

/-- The characters of a written string are read back. -/
theorem readUnits_flatMap (cs : List Char) (rest : List Char) :
    ∃ us, readUnits (cs.flatMap writeChar ++ '"' :: rest) = some (us, rest) ∧
      unitsText us = some cs := by
  induction cs with
  | nil => exact ⟨[], by simp [readUnits], by rw [unitsText]⟩
  | cons c cs ih =>
    obtain ⟨us, read, text⟩ := ih
    obtain ⟨u, front, denotes⟩ := readUnits_writeChar c
    refine ⟨u :: us, ?_, by rw [denotes, text]; rfl⟩
    rw [List.flatMap_cons, List.append_assoc, front, read]
    rfl

/-- A written literal is read back. -/
theorem readLiteral_writeLiteral (l : Literal) (rest : List Char) :
    ∃ cs, writeLiteral l ++ rest = '"' :: cs ∧ readLiteral cs = some (l, rest) := by
  cases l with
  | none => exact ⟨_, rfl, by rw [readLiteral]; rfl⟩
  | some s =>
    obtain ⟨us, read, text⟩ := readUnits_flatMap s.toList rest
    refine ⟨s.toList.flatMap writeChar ++ '"' :: rest, by simp [writeLiteral], ?_⟩
    rw [readLiteral, read]
    simp [text]

/-! ## Values -/

mutual

/-- All number literals of a value are in order. -/
def WellFormed : Json → Prop
  | .number n => n.WellFormed
  | .array items => WellFormedItems items
  | .object members => WellFormedMembers members
  | .null | .bool _ | .string _ => True

/-- All items are well formed. -/
def WellFormedItems : List Json → Prop
  | [] => True
  | j :: rest => WellFormed j ∧ WellFormedItems rest

/-- All members are well formed. -/
def WellFormedMembers : List (Literal × Json) → Prop
  | [] => True
  | (_, j) :: rest => WellFormed j ∧ WellFormedMembers rest

end

private theorem skipSpace_cons {c : Char} (solid : isSpace c = false) (cs : List Char) :
    skipSpace (c :: cs) = c :: cs := by
  rw [skipSpace, List.dropWhile_cons_of_neg (by simp [solid])]

private theorem solid_of_isDigit {c : Char} (digit : c.isDigit = true) : isSpace c = false := by
  unfold isSpace
  simp only [Bool.or_eq_false_iff, decide_eq_false_iff_not]
  refine ⟨⟨⟨?_, ?_⟩, ?_⟩, ?_⟩ <;> (rintro rfl; cases digit)

/-- A value starts with a character that neither is space nor closes an array. -/
private theorem head_write {j : Json} (form : j.WellFormed) (rest : List Char) :
    ∃ c cs, j.write ++ rest = c :: cs ∧ isSpace c = false ∧ c ≠ ']' := by
  cases j with
  | number n =>
    obtain ⟨c, cs, same, first⟩ := Numeral.head_text (by rwa [WellFormed] at form) rest
    refine ⟨c, cs, by rw [write, same], ?_⟩
    rcases first with rfl | digit
    · exact ⟨by decide, by decide⟩
    · exact ⟨solid_of_isDigit digit, by rintro rfl; cases digit⟩
  | null => exact ⟨'n', _, by rw [write]; rfl, by decide, by decide⟩
  | bool b =>
    cases b with
    | true => exact ⟨'t', _, by rw [write]; rfl, by decide, by decide⟩
    | false => exact ⟨'f', _, by rw [write]; rfl, by decide, by decide⟩
  | string l =>
    obtain ⟨cs, same, -⟩ := readLiteral_writeLiteral l rest
    exact ⟨'"', cs, by rw [write, same], by decide, by decide⟩
  | array items => exact ⟨'[', _, by rw [write]; rfl, by decide, by decide⟩
  | object members => exact ⟨'\x7b', _, by rw [write]; rfl, by decide, by decide⟩

/-- No number goes on with a comma or a closing bracket or brace. -/
private theorem ends_cons {c : Char} (mark : c = ',' ∨ c = ']' ∨ c = '\x7d') (cs : List Char) :
    Numeral.Ends (c :: cs) := by
  intro d first
  cases first
  rcases mark with rfl | rfl | rfl <;> decide

/-- A number is read where a value is expected. -/
private theorem readValue_number {n : Numeral} (form : n.WellFormed) {rest : List Char}
    (ends : Numeral.Ends rest) (fuel : Nat) :
    readValue (fuel + 1) (n.text ++ rest) = some (.number n, rest) := by
  have read := Numeral.readNumeral_text form ends
  obtain ⟨c, cs, same, first⟩ := Numeral.head_text form rest
  have solid : isSpace c = false := by
    rcases first with rfl | digit
    · decide
    · exact solid_of_isDigit digit
  rw [same] at read ⊢
  rw [readValue, skipSpace_cons solid]
  have other {d : Char} {more : List Char} (mark : d ≠ '-' ∧ d.isDigit = false)
      (start : c :: cs = d :: more) : False := by
    cases start
    rcases first with rfl | digit
    · exact mark.1 rfl
    · rw [mark.2] at digit
      cases digit
  split
  · next start => exact (other (by decide) start).elim
  · next start => exact (other (by decide) start).elim
  · next start => exact (other (by decide) start).elim
  · next start => exact (other (by decide) start).elim
  · next start => exact (other (by decide) start).elim
  · next start => exact (other (by decide) start).elim
  · rw [read]
    rfl

/-- A value has at least one character. -/
private theorem length_write_pos {j : Json} (form : j.WellFormed) : 0 < j.write.length := by
  obtain ⟨c, cs, same, -⟩ := head_write form []
  rw [List.append_nil] at same
  rw [same]
  exact Nat.succ_pos _

mutual

/-- The text of a value is read as that value. -/
theorem readValue_write : ∀ (fuel : Nat) {j : Json} (rest : List Char), j.WellFormed →
    2 * j.write.length ≤ fuel → Numeral.Ends rest →
    readValue fuel (j.write ++ rest) = some (j, rest)
  | 0, j, rest, form, enough, _ => by
    have := length_write_pos form
    omega
  | _ + 1, .null, _, _, _, _ => by
    rw [write, readValue]
    rfl
  | _ + 1, .bool true, _, _, _, _ => by
    rw [write, readValue]
    rfl
  | _ + 1, .bool false, _, _, _, _ => by
    rw [write, readValue]
    rfl
  | fuel + 1, .number n, _, form, _, ends => by
    rw [WellFormed] at form
    rw [write, readValue_number form ends]
  | _ + 1, .string l, rest, _, _, _ => by
    obtain ⟨cs, same, read⟩ := readLiteral_writeLiteral l rest
    rw [write, same, readValue, skipSpace_cons (by decide)]
    simp [read]
  | _ + 1, .array [], _, _, _, _ => by
    rw [write, writeItems, readValue]
    rfl
  | fuel + 1, .array (j :: items), rest, form, enough, _ => by
    rw [WellFormed] at form
    rw [write, List.length_cons] at enough
    have read := readItems_write fuel rest form (by omega)
    obtain ⟨c, cs, same, solid, other⟩ : ∃ c cs, writeItems (j :: items) ++ rest = c :: cs ∧
        isSpace c = false ∧ c ≠ ']' := by
      rw [WellFormedItems] at form
      cases items with
      | nil =>
        rw [writeItems, List.append_assoc]
        exact head_write form.1 _
      | cons k more =>
        rw [writeItems, List.append_assoc]
        exact head_write form.1 _
    rw [write, List.cons_append, readValue, skipSpace_cons (by decide)]
    rw [same] at read ⊢
    change (match skipSpace (c :: cs) with
      | ']' :: rest => some (array [], rest)
      | rest => (readItems fuel rest).map fun r : List Json × List Char => (array r.1, r.2)) = _
    rw [skipSpace_cons solid]
    split
    · next start => exact absurd (List.cons.inj start).1 other
    · rw [read]
      rfl
  | _ + 1, .object [], _, _, _, _ => by
    rw [write, writeMembers, readValue]
    rfl
  | fuel + 1, .object ((name, j) :: members), rest, form, enough, _ => by
    rw [WellFormed] at form
    rw [write, List.length_cons] at enough
    have read := readMembers_write fuel rest form (by omega)
    obtain ⟨cs, same⟩ : ∃ cs, writeMembers ((name, j) :: members) ++ rest = '"' :: cs := by
      cases members with
      | nil =>
        rw [writeMembers, List.append_assoc]
        exact (readLiteral_writeLiteral name _).imp fun _ found => found.1
      | cons k more =>
        rw [writeMembers, List.append_assoc]
        exact (readLiteral_writeLiteral name _).imp fun _ found => found.1
    rw [write, List.cons_append, readValue, skipSpace_cons (by decide)]
    rw [same] at read ⊢
    change (readMembers fuel ('"' :: cs)).map (fun r => (object r.1, r.2)) = _
    rw [read]
    rfl

/-- The text of the items of an array is read as those items. -/
theorem readItems_write : ∀ (fuel : Nat) {j : Json} {items : List Json} (rest : List Char),
    WellFormedItems (j :: items) → 2 * (writeItems (j :: items)).length ≤ fuel →
    readItems fuel (writeItems (j :: items) ++ rest) = some (j :: items, rest)
  | 0, j, items, rest, form, enough => by
    cases items <;> simp [writeItems] at enough
  | fuel + 1, j, [], rest, form, enough => by
    rw [WellFormedItems] at form
    rw [writeItems, List.length_append, List.length_cons] at enough
    have item := readValue_write fuel (']' :: rest) form.1 (by omega)
      (ends_cons (by decide) rest)
    rw [writeItems, List.append_assoc, readItems, List.singleton_append, item]
    rfl
  | fuel + 1, j, k :: more, rest, form, enough => by
    rw [WellFormedItems] at form
    rw [writeItems, List.length_append, List.length_cons] at enough
    have item := readValue_write fuel (',' :: (writeItems (k :: more) ++ rest)) form.1
      (by omega) (ends_cons (by decide) _)
    have others := readItems_write fuel rest form.2 (by omega)
    rw [writeItems, List.append_assoc, readItems, List.cons_append, item]
    simp [skipSpace_cons, isSpace, others]

/-- The text of the members of an object is read as those members. -/
theorem readMembers_write : ∀ (fuel : Nat) {name : Literal} {j : Json}
    {members : List (Literal × Json)} (rest : List Char), WellFormedMembers ((name, j) :: members) →
    2 * (writeMembers ((name, j) :: members)).length ≤ fuel →
    readMembers fuel (writeMembers ((name, j) :: members) ++ rest) =
      some ((name, j) :: members, rest)
  | 0, name, j, members, rest, form, enough => by
    cases members <;> simp [writeMembers] at enough
  | fuel + 1, name, j, [], rest, form, enough => by
    rw [WellFormedMembers] at form
    rw [writeMembers, List.length_append, List.length_cons, List.length_append, List.length_cons]
      at enough
    have value := readValue_write fuel ('\x7d' :: rest) form.1 (by omega)
      (ends_cons (by decide) rest)
    obtain ⟨cs, same, read⟩ := readLiteral_writeLiteral name (':' :: (j.write ++ '\x7d' :: rest))
    have text : writeMembers [(name, j)] ++ rest = '"' :: cs := by
      rw [← same, writeMembers]
      simp
    rw [text, readMembers, skipSpace_cons (by decide)]
    simp [read, skipSpace_cons, isSpace, value]
  | fuel + 1, name, j, (other, k) :: more, rest, form, enough => by
    rw [WellFormedMembers] at form
    rw [writeMembers, List.length_append, List.length_cons, List.length_append, List.length_cons]
      at enough
    have value := readValue_write fuel
      (',' :: (writeMembers ((other, k) :: more) ++ rest)) form.1 (by omega)
      (ends_cons (by decide) _)
    have others := readMembers_write fuel rest form.2 (by omega)
    obtain ⟨cs, same, read⟩ := readLiteral_writeLiteral name
      (':' :: (j.write ++ ',' :: (writeMembers ((other, k) :: more) ++ rest)))
    have text : writeMembers ((name, j) :: (other, k) :: more) ++ rest = '"' :: cs := by
      rw [← same, writeMembers]
      simp
    rw [text, readMembers, skipSpace_cons (by decide)]
    simp [read, skipSpace_cons, isSpace, value, others]

end

/-- The text of a value is read as that value and nothing else. -/
theorem parse_text {j : Json} (form : j.WellFormed) : parse j.text = some j := by
  have read := readValue_write (2 * j.write.length + 2) [] form (by omega)
    (by intro c first; cases first)
  rw [List.append_nil] at read
  rw [parse, text, String.toList_ofList]
  dsimp only
  rw [read]
  rfl

end EventRelay.Json
