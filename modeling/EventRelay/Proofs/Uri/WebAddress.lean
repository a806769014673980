import Mathlib.Data.List.DropRight
import EventRelay.Proofs.Checks
import EventRelay.Proofs.Text.Ascii
import EventRelay.Uri

/-!
# Web addresses

An address that starts with one of the two web schemes is an authority, a path and a tail that a
question mark or a number sign sets off. It is read as it is written, part by part. The strict and
the lenient reading agree on it unless a character beyond ASCII stands before its fragment.
-/

namespace EventRelay.Uri

/-- The characters that end a path. -/
def isMark (c : Char) : Bool := c = '?' || c = '#'

/-- No character of a text ends a path. -/
def Unmarked (cs : List Char) : Prop := ∀ c ∈ cs, isMark c = false

instance (cs : List Char) : Decidable (Unmarked cs) := List.decidableBAll ..

/-- The parts of a web address as they are written. -/
structure WebAddress where
  /-- The scheme is the secure one. -/
  secure : Bool
  /-- Host, port and user. -/
  authority : List Char
  /-- The path; it may be missing. -/
  path : List Char
  /-- Query and fragment with the marks that set them off. -/
  tail : List Char
  authority_unended : ∀ c ∈ authority, endsAuthority c = false
  path_rooted : ∀ c ∈ path.head?, c = '/'
  path_unmarked : Unmarked path
  tail_marked : ∀ c ∈ tail.head?, isMark c = true

/-- A web scheme with its colon. -/
def webStart (secure : Bool) : List Char := if secure then "https:".toList else "http:".toList

/-- The characters of a text that a reader looks at: the fragment is skipped. -/
def beforeFragment (cs : List Char) : List Char := cs.takeWhile (· ≠ '#')

/-- All characters are in ASCII, and none is the delete character. -/
def Ascii (cs : List Char) : Prop := ∀ c ∈ cs, c.toNat < 0x7f

instance (cs : List Char) : Decidable (Ascii cs) := List.decidableBAll ..

/-- What stands before the fragment is in ASCII. -/
def Plain (cs : List Char) : Prop := Ascii (beforeFragment cs)

instance (cs : List Char) : Decidable (Plain cs) := inferInstanceAs (Decidable (Ascii _))

section Stretches

variable {p : Char → Bool} {cs rest : List Char}

theorem takeWhile_stop (outside : ∀ c ∈ rest.head?, p c = false) : rest.takeWhile p = [] := by
  cases rest with
  | nil => rfl
  | cons c r => rw [List.takeWhile_cons, outside c rfl, if_neg Bool.false_ne_true]

/-- A stretch ends where the first character does not belong to it. -/
theorem takeWhile_append_stop (inside : ∀ c ∈ cs, p c = true)
    (outside : ∀ c ∈ rest.head?, p c = false) : (cs ++ rest).takeWhile p = cs := by
  rw [List.takeWhile_append_of_pos inside, takeWhile_stop outside, List.append_nil]

/-- Dropping stops at a character that is not dropped. -/
theorem head?_dropWhile_stop (p : Char → Bool) (cs : List Char) :
    ∀ c ∈ (cs.dropWhile p).head?, p c = false := by
  intro c first
  have stop := List.head?_dropWhile_not p cs
  rw [Option.mem_def.mp first] at stop
  exact stop

end Stretches

section Characters

theorem ascii_append {cs more : List Char} : Ascii (cs ++ more) ↔ Ascii cs ∧ Ascii more :=
  List.forall_mem_append

/-- An authority ends at a slash or where a path ends as well. -/
theorem endsAuthority_eq (c : Char) : endsAuthority c = (c = '/' || isMark c) :=
  Bool.or_assoc ..

theorem unmarked_of_unended {c : Char} (unended : endsAuthority c = false) : isMark c = false := by
  rw [endsAuthority_eq, Bool.or_eq_false_iff] at unended
  exact unended.2

theorem ne_hash_of_unmarked {c : Char} (unmarked : isMark c = false) : decide (c ≠ '#') = true := by
  simp only [isMark, Bool.or_eq_false_iff, decide_eq_false_iff_not] at unmarked
  exact decide_eq_true unmarked.2

/-- The characters of a path as the reader delimits them. -/
theorem delimits_eq : (fun c : Char => decide (c ≠ '?') && decide (c ≠ '#')) = (!isMark ·) := by
  funext c
  simp [isMark]

theorem isAuthorityChar_ascii {c : Char} (allowed : isAuthorityChar c = true) :
    c.toNat < 0x7f := by
  rcases Bool.or_eq_true_iff.mp allowed with letter | sign
  · exact Text.ascii_of_isAlphanum letter
  · have signs : Ascii "!$&'()*+,-.;=_~".toList := by decide
    exact signs c (List.contains_iff_mem.mp sign)

/-- Every character that an authority takes is in ASCII. -/
theorem AuthorityScan.next_ascii {s t : AuthorityScan} {c : Char} (taken : s.next c = .ok t) :
    c.toNat < 0x7f := by
  unfold next at taken
  split_ifs at taken with colon _ opening _ closing _ sign percent allowed
  all_goals first
    | (subst_vars; decide)
    | exact isAuthorityChar_ascii allowed

/-- An authority that is taken to its end is in ASCII. -/
theorem authority_ascii {authority : List Char} {s t : AuthorityScan}
    (scanned : authority.foldlM AuthorityScan.next s = .ok t) : Ascii authority := by
  induction authority generalizing s with
  | nil => exact fun _ member => nomatch member
  | cons c rest ih =>
    obtain ⟨middle, first, others⟩ := bind_eq_ok_iff.mp scanned
    exact List.forall_mem_cons.mpr ⟨AuthorityScan.next_ascii first, ih others⟩

theorem ascii_of_checkAuthority {authority : List Char}
    (checked : checkAuthority authority = .ok ()) : Ascii authority := by
  obtain ⟨scan, scanned, -⟩ := bind_eq_ok_iff.mp checked
  exact authority_ascii scanned

/-- The strict reading takes the characters of a path that the lenient one takes, up to ASCII. -/
theorem isPathChar_strict (c : Char) :
    isPathChar .strict c = (isPathChar .lenient c && decide (c.toNat < 0x7f)) := by
  rw [Bool.eq_iff_iff]
  simp only [isPathChar, isSharedChar, Bool.and_eq_true, Bool.or_eq_true, decide_eq_true_eq,
    reduceCtorEq, true_and, false_and, or_false]
  omega

theorem isQueryChar_strict (c : Char) :
    isQueryChar .strict c = (isQueryChar .lenient c && decide (c.toNat < 0x7f)) := by
  rw [Bool.eq_iff_iff]
  simp only [isQueryChar, isSharedChar, Bool.and_eq_true, Bool.or_eq_true, decide_eq_true_eq,
    reduceCtorEq, true_and, false_and, or_false]
  omega

end Characters

section Reading

variable {charset : Charset} {s : String} {u : Uri}

namespace WebAddress

/-- The name of the scheme. -/
def scheme (a : WebAddress) : String := if a.secure then "https" else "http"

/-- The address as it is written. -/
def text (a : WebAddress) : List Char :=
  webStart a.secure ++ '/' :: '/' :: (a.authority ++ (a.path ++ a.tail))

/-- The query, without its mark and without the fragment. -/
def query (a : WebAddress) : Option (List Char) :=
  match a.tail with
  | '?' :: more => some (more.takeWhile (· ≠ '#'))
  | _ => none

/-- The parts as a reader reports them. -/
def uri (a : WebAddress) : Uri :=
  ⟨some a.scheme, String.ofList a.authority, String.ofList a.path, a.query.map String.ofList⟩

/-- Path and query hold only characters that they may hold. -/
def admits (charset : Charset) (a : WebAddress) : Bool :=
  a.path.all (isPathChar charset) && (a.query.getD []).all (isQueryChar charset)

/-- What the reader makes of the parts. -/
def read (charset : Charset) (a : WebAddress) : Except UriFault Uri :=
  if maxBytes < Text.byteLength a.text then .error .tooLong
  else do
    checkAuthority a.authority
    if a.authority = [] then .error .format
    else if a.admits charset then .ok a.uri
    else .error .character

/-- What follows the scheme is cut where the authority and the path end. -/
def ofRest (secure : Bool) (rest : List Char) : WebAddress where
  secure := secure
  authority := rest.takeWhile (!endsAuthority ·)
  path := (rest.dropWhile (!endsAuthority ·)).takeWhile (!isMark ·)
  tail := (rest.dropWhile (!endsAuthority ·)).dropWhile (!isMark ·)
  authority_unended c member := by simpa using List.mem_takeWhile_imp member
  path_rooted c first := by
    have ends := head?_dropWhile_stop (!endsAuthority ·) rest
    have unmarked : isMark c = false := by
      simpa using List.mem_takeWhile_imp (List.mem_of_mem_head? first)
    rw [List.head?_takeWhile] at first
    have ended := ends c (Option.filter_eq_some_iff.mp first).1
    simpa [endsAuthority_eq, unmarked] using ended
  path_unmarked c member := by simpa using List.mem_takeWhile_imp member
  tail_marked c first := by
    simpa using head?_dropWhile_stop (!isMark ·) (rest.dropWhile (!endsAuthority ·)) c first

theorem text_ofRest (secure : Bool) (rest : List Char) :
    (ofRest secure rest).text = webStart secure ++ '/' :: '/' :: rest := by
  simp only [text, ofRest, List.takeWhile_append_dropWhile]

variable {a : WebAddress}

theorem splitScheme_text (a : WebAddress) :
    splitScheme a.text = .ok (some a.scheme, a.authority ++ (a.path ++ a.tail)) := by
  unfold splitScheme text scheme webStart
  cases a.secure <;> rfl

/-- What follows the authority ends it. -/
theorem ends_of_head? (a : WebAddress) :
    ∀ c ∈ (a.path ++ a.tail).head?, endsAuthority c = true := by
  intro c first
  rw [List.head?_append, Option.mem_def, Option.or_eq_some_iff] at first
  rcases first with root | ⟨-, mark⟩
  · rw [a.path_rooted c root]
    rfl
  · rw [endsAuthority_eq, a.tail_marked c mark, Bool.or_true]

theorem query_of_question {more : List Char} (tail : a.tail = '?' :: more) :
    a.query = some (more.takeWhile (· ≠ '#')) := by
  unfold query
  rw [tail]
  rfl

theorem query_of_no_question (tail : ∀ more, a.tail ≠ '?' :: more) : a.query = none := by
  unfold query
  split
  · next more mark => exact absurd mark (tail more)
  · rfl

theorem splitPath_parts (a : WebAddress) :
    splitPath charset (a.path ++ a.tail) =
      if a.admits charset then .ok (a.path, a.query) else .error .character := by
  have inside : ∀ c ∈ a.path, (!isMark c) = true :=
    fun c member => by rw [a.path_unmarked c member, Bool.not_false]
  have outside : ∀ c ∈ a.tail.head?, (!isMark c) = false :=
    fun c first => by rw [a.tail_marked c first, Bool.not_true]
  unfold splitPath admits
  simp only [delimits_eq, takeWhile_append_stop inside outside, List.drop_left]
  cases path : a.path.all (isPathChar charset) with
  | false => rfl
  | true =>
    simp only [Bool.not_true, Bool.false_eq_true, if_false, Bool.true_and]
    split
    · next tail => rw [query_of_question tail, Option.getD_some]
    · next tail =>
      rw [query_of_no_question tail]
      rfl

/-- A web address is neither empty nor a bare path. -/
theorem head?_text (a : WebAddress) : a.text.head? = some 'h' := by
  unfold text webStart
  cases a.secure <;> rfl

/-- A web address is read part by part. -/
theorem parse_text (written : s.toList = a.text) : parse charset s = a.read charset := by
  have inside : ∀ c ∈ a.authority, (!endsAuthority c) = true :=
    fun c member => by rw [a.authority_unended c member, Bool.not_false]
  have outside : ∀ c ∈ (a.path ++ a.tail).head?, (!endsAuthority c) = false :=
    fun c first => by rw [a.ends_of_head? c first, Bool.not_true]
  have start := a.head?_text
  unfold parse read
  rw [written]
  by_cases long : maxBytes < Text.byteLength a.text
  · simp only [long, if_true]
  simp only [long, if_false]
  split
  · next empty => simp [empty] at start
  · next bare => simp [bare] at start
  · rw [splitScheme_text]
    change ((checkAuthority _).bind _) = ((checkAuthority _).bind _)
    rw [takeWhile_append_stop inside outside]
    simp only [List.drop_left, splitPath_parts]
    congr 1
    funext _
    split_ifs <;> rfl

/-- An address that is read is reported as it is written, and it has an authority. -/
theorem uri_of_read (success : a.read charset = .ok u) : u = a.uri ∧ a.authority ≠ [] := by
  unfold read at success
  split at success
  · nomatch success
  obtain ⟨-, -, decided⟩ := bind_eq_ok_iff.mp success
  split_ifs at decided with missing admitted
  exact ⟨(Except.ok.inj decided).symm, missing⟩

/-- Of the tail, the query stands before the fragment. -/
theorem plain_tail_iff (a : WebAddress) :
    Plain a.tail ↔ Ascii (a.query.getD []) := by
  have marked := a.tail_marked
  cases tail : a.tail with
  | nil =>
    rw [query_of_no_question (by simp [tail])]
    simp [Plain, Ascii, beforeFragment]
  | cons mark more =>
    rw [tail] at marked
    have mark_cases : mark = '?' ∨ mark = '#' := by simpa [isMark] using marked mark rfl
    rcases mark_cases with rfl | rfl
    · rw [query_of_question tail]
      simp [Plain, Ascii, beforeFragment]
    · rw [query_of_no_question (by simp [tail])]
      simp [Plain, Ascii, beforeFragment]

/-- Before the fragment stand the authority, the path and the query, and signs of ASCII. -/
theorem plain_text_iff (a : WebAddress) :
    Plain a.text ↔ Ascii a.authority ∧ Ascii a.path ∧ Ascii (a.query.getD []) := by
  have start : Ascii (webStart a.secure ++ ['/', '/']) := by cases a.secure <;> decide
  have scheme : ∀ c ∈ webStart a.secure ++ ['/', '/'], decide (c ≠ '#') = true :=
    List.all_eq_true.mp (by cases a.secure <;> rfl)
  have authority : ∀ c ∈ a.authority, decide (c ≠ '#') = true :=
    fun c member => ne_hash_of_unmarked (unmarked_of_unended (a.authority_unended c member))
  have path : ∀ c ∈ a.path, decide (c ≠ '#') = true :=
    fun c member => ne_hash_of_unmarked (a.path_unmarked c member)
  have whole : beforeFragment a.text =
      webStart a.secure ++ ['/', '/'] ++ (a.authority ++ (a.path ++ beforeFragment a.tail)) := by
    have apart : a.text =
        webStart a.secure ++ ['/', '/'] ++ (a.authority ++ (a.path ++ a.tail)) := by
      simp [text]
    rw [apart, beforeFragment, List.takeWhile_append_of_pos scheme,
      List.takeWhile_append_of_pos authority, List.takeWhile_append_of_pos path, beforeFragment]
  rw [← plain_tail_iff, Plain, Plain, whole, ascii_append, and_iff_right start, ascii_append,
    ascii_append]

theorem admits_strict_iff (a : WebAddress) :
    a.admits .strict = true ↔
      a.admits .lenient = true ∧ Ascii a.path ∧ Ascii (a.query.getD []) := by
  simp only [admits, Ascii, Bool.and_eq_true, List.all_eq_true, isPathChar_strict,
    isQueryChar_strict, decide_eq_true_eq, forall_and]
  tauto

/-- The strict reading is the lenient one and refuses what is not plain. -/
theorem read_strict (a : WebAddress) :
    a.read .strict = a.read .lenient >>= fun u =>
      if Plain a.text then .ok u else .error .character := by
  unfold read
  by_cases long : maxBytes < Text.byteLength a.text
  · simp only [long, if_true]
    rfl
  simp only [long, if_false]
  cases checked : checkAuthority a.authority with
  | error fault => rfl
  | ok _ =>
    by_cases missing : a.authority = []
    · simp only [missing, if_true]
      rfl
    have plain : a.admits .strict = true ↔ a.admits .lenient = true ∧ Plain a.text := by
      rw [admits_strict_iff, plain_text_iff, and_iff_right (ascii_of_checkAuthority checked)]
    simp only [missing, if_false, plain]
    change (if _ then _ else _) = (if _ then _ else _ : Except UriFault Uri).bind _
    by_cases admitted : a.admits .lenient = true
    · simp only [admitted, true_and, if_true]
      rfl
    · rw [if_neg admitted, if_neg fun both => admitted both.1]
      rfl

end WebAddress

/-- The strict reading of a web address, from the lenient one. -/
theorem parse_strict {a : WebAddress} (written : s.toList = a.text) :
    parse .strict s = parse .lenient s >>= fun u =>
      if Plain s.toList then .ok u else .error .character := by
  rw [WebAddress.parse_text written, WebAddress.parse_text written, written, a.read_strict]

theorem toLower_ne_slash {c : Char} (other : c ≠ '/') : c.toLower ≠ '/' := by
  rcases Text.toLower_cases c with same | ⟨-, lower⟩
  · rwa [same]
  · intro slash
    rw [slash] at lower
    nomatch lower

/-- One slash after the colon sets off no scheme. -/
theorem splitScheme_lone_slash (secure : Bool) {rest : List Char} (lone : '/' ∉ rest.head?) :
    splitScheme (webStart secure ++ '/' :: rest) = .ok (none, webStart secure ++ '/' :: rest) := by
  cases rest with
  | nil => cases secure <;> rfl
  | cons c more =>
    have other : c ≠ '/' := by simpa using lone
    have lower := toLower_ne_slash other
    have known : startsWithFold "http://".toList (webStart secure ++ '/' :: c :: more) = false ∧
        startsWithFold "https://".toList (webStart secure ++ '/' :: c :: more) = false := by
      unfold startsWithFold webStart
      cases secure <;> simp [lower]
    have left : (webStart secure ++ '/' :: c :: more).drop
        ((webStart secure ++ '/' :: c :: more).takeWhile isSchemeChar).length =
          ':' :: '/' :: c :: more := by
      cases secure <;> rfl
    unfold splitScheme
    rw [known.1, known.2, if_neg Bool.false_ne_true, if_neg Bool.false_ne_true]
    simp only [left]
    split
    · next slashes => simp [other] at slashes
    · rfl

/-- An address that has a web scheme and a single slash cannot be read. -/
theorem parse_lone_slash {secure : Bool} {rest : List Char} (lone : '/' ∉ rest.head?)
    (written : s.toList = webStart secure ++ '/' :: rest) : parse charset s ≠ .ok u := by
  intro success
  have start : (webStart secure ++ '/' :: rest).head? = some 'h' := by cases secure <;> rfl
  have host : ∀ c ∈ webStart secure, (!endsAuthority c) = true :=
    List.all_eq_true.mp (by cases secure <;> rfl)
  have slash : ∀ c ∈ ('/' :: rest).head?, (!endsAuthority c) = false := by
    rintro c ⟨⟩
    rfl
  unfold parse at success
  simp only [written] at success
  split at success
  · nomatch success
  split at success
  · next empty => simp [empty] at start
  · next bare => simp [bare] at start
  · rw [splitScheme_lone_slash secure lone] at success
    obtain ⟨_, ⟨⟩, success⟩ := bind_eq_ok_iff.mp success
    obtain ⟨-, -, decided⟩ := bind_eq_ok_iff.mp success
    simp only [takeWhile_append_stop host slash, List.drop_left, reduceCtorEq, if_false] at decided

end Reading

end EventRelay.Uri
