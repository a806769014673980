import EventRelay.Demo.Arguments
import Mathlib.Data.List.Basic

/-!
# The grammar of the command line

A command line gives options with values, each in one of a few spellings, and may end with two
dashes. It is accepted exactly if it has this form, gives no option twice and every number of turns
can be read; what it says is the same whatever the order and the spellings of the options.
-/

namespace EventRelay.Demo

/-! ## Options -/

/-- An option with its value, as it stands among the arguments. -/
inductive Given : ArgumentName → String → List String → Prop
  /-- Behind the long spelling and an equals sign. -/
  | long {name : ArgumentName} {value : String} : Given name value [name.spelling ++ "=" ++ value]
  /-- As the argument after the long spelling. -/
  | apart {name : ArgumentName} {value : String} (plain : Argument.isValue value = true) :
    Given name value [name.spelling, value]
  /-- Behind the short spelling and an equals sign. -/
  | short {value : String} : Given .requests value ["-n=" ++ value]
  /-- At once behind the short spelling. -/
  | joined {value : String} {c : Char} (first : value.toList.head? = some c) (other : c ≠ '=') :
    Given .requests value ["-n" ++ value]
  /-- As the argument after the short spelling. -/
  | shortApart {value : String} (plain : Argument.isValue value = true) :
    Given .requests value ["-n", value]

namespace Argument

variable {name : ArgumentName} {text value : String}

theorem ofKey?_eq_some_iff {key : String} :
    ArgumentName.ofKey? key = some name ↔ key = name.key := by
  constructor
  · intro found
    rw [ArgumentName.ofKey?] at found
    have same := List.find?_some found
    exact (of_decide_eq_true same).symm
  · rintro rfl
    cases name <;> rfl

/-- No key has an equals sign in it. -/
theorem notMem_key (name : ArgumentName) : ∀ c ∈ name.key.toList, decide (c ≠ '=') = true := by
  have plain : name.key.toList.all (fun c => decide (c ≠ '=')) = true := by cases name <;> rfl
  exact List.all_eq_true.mp plain

theorem ofLong_key_value (name : ArgumentName) (value : List Char) :
    ofLong (name.key.toList ++ '=' :: value) = .option name (some (String.ofList value)) := by
  have found := ofKey?_eq_some_iff.mpr (rfl : name.key = name.key)
  simp only [ofLong, List.takeWhile_append_of_pos (notMem_key name),
    List.dropWhile_append_of_pos (notMem_key name)]
  simp [found]

/-- What reads as a long option is its key, perhaps with a value behind an equals sign. -/
theorem eq_of_ofLong {cs : List Char} {given : Option String}
    (read : ofLong cs = .option name given) :
    (given = none ∧ cs = name.key.toList) ∨
      ∃ value, given = some value ∧ cs = name.key.toList ++ '=' :: value.toList := by
  have whole : cs.takeWhile (· ≠ '=') ++ cs.dropWhile (· ≠ '=') = cs :=
    List.takeWhile_append_dropWhile
  have behind := List.head?_dropWhile_not (· ≠ '=') cs
  rw [ofLong] at read
  split at read
  · next found =>
    have key := ofKey?_eq_some_iff.mp found
    cases read
    rw [← key, String.toList_ofList]
    cases rest : cs.dropWhile (· ≠ '=') with
    | nil => exact .inl ⟨rfl, by rw [← List.append_nil (List.takeWhile _ cs), ← rest, whole]⟩
    | cons c value =>
      rw [rest] at behind whole
      obtain rfl : c = '=' := by simpa using behind
      exact .inr ⟨_, rfl, by rw [String.toList_ofList, whole]⟩
  · split at read <;> split at read <;> cases read

/-! ### All spellings -/

theorem ofText_spelling (name : ArgumentName) : ofText name.spelling = .option name none := by
  cases name <;> rfl

theorem ofText_spelling_value (name : ArgumentName) (value : String) :
    ofText (name.spelling ++ "=" ++ value) = .option name (some value) := by
  have chars : (name.spelling ++ "=" ++ value).toList =
      '-' :: '-' :: (name.key.toList ++ '=' :: value.toList) := by
    rw [ArgumentName.spelling]
    simp
  have long : ofText (name.spelling ++ "=" ++ value) =
      ofLong (name.key.toList ++ '=' :: value.toList) := by
    rw [ofText, chars]
    cases name <;> rfl
  rw [long, ofLong_key_value, String.ofList_toList]

theorem eq_append_of_toList {start : String} {rest : List Char}
    (chars : text.toList = start.toList ++ rest) : text = start ++ String.ofList rest := by
  rw [← String.toList_inj, chars]
  simp

/-- What reads as an option is one of its spellings, perhaps with a value. -/
theorem eq_of_ofText {given : Option String} (read : ofText text = .option name given) :
    (given = none ∧ (text = name.spelling ∨ name = .requests ∧ text = "-n")) ∨
      ∃ value, given = some value ∧ Given name value [text] := by
  unfold ofText at read
  split at read
  · cases read
  · next cs _ chars =>
    have spelled {t : List Char} (h : cs = name.key.toList ++ t) :
        text = name.spelling ++ String.ofList t := by
      rw [← String.toList_inj, chars, h, ArgumentName.spelling]
      simp
    rcases eq_of_ofLong read with ⟨none, h⟩ | ⟨value, some, h⟩
    · refine .inl ⟨none, .inl ?_⟩
      rw [spelled (t := []) (by rw [h, List.append_nil])]
      simp
    · refine .inr ⟨value, some, ?_⟩
      have same : text = name.spelling ++ "=" ++ value := by
        rw [spelled h, ← String.toList_inj]
        simp
      rw [same]
      exact .long
  · next chars =>
    cases read
    exact .inl ⟨rfl, .inr ⟨rfl, by rw [← String.toList_inj, chars]; rfl⟩⟩
  · next cs chars =>
    cases read
    refine .inr ⟨_, rfl, ?_⟩
    have same : text = "-n=" ++ String.ofList cs := eq_append_of_toList chars
    rw [same]
    exact .short
  · next cs some plain chars =>
    cases read
    refine .inr ⟨_, rfl, ?_⟩
    have same : text = "-n" ++ String.ofList cs := eq_append_of_toList chars
    rw [same]
    match cs with
    | [] => exact (some rfl).elim
    | c :: value =>
      refine .joined (by rw [String.toList_ofList, List.head?_cons]) ?_
      rintro rfl
      exact plain value rfl
  · cases read
  · cases read

theorem eq_of_endOfOptions (read : ofText text = .endOfOptions) : text = "--" := by
  unfold ofText at read
  split at read
  · next chars => rw [← String.toList_inj, chars]; rfl
  · next cs _ chars =>
    rw [ofLong] at read
    split at read
    · cases read
    · split at read <;> split at read <;> cases read
  all_goals cases read

/-- Every spelling with a value is read as the option with this value. -/
theorem ofText_of_given (given : Given name value [text]) :
    ofText text = .option name (some value) := by
  generalize single : [text] = texts at given
  cases given with
  | long =>
    cases single
    exact ofText_spelling_value name value
  | apart => cases single
  | short =>
    cases single
    simp [ofText]
  | @joined value c first other =>
    cases single
    obtain ⟨rest, whole⟩ := List.head?_eq_some_iff.mp first
    rw [← String.ofList_toList (s := value), whole]
    simp [ofText, other]
  | shortApart => cases single

end Argument

/-! ## Values -/

namespace Arguments

variable {a b c : Arguments} {name other : ArgumentName} {value : String}
  {gs : List (ArgumentName × String)}

/-- The arguments hold a value for an option. -/
def Holds (a : Arguments) (value : String) : ArgumentName → Prop
  | .requests => readTurns value = some a.turns
  | .collectorUrl => a.collectorUrl = some value
  | .conversation => a.conversation = value

/-- Two arguments agree in an option. -/
def Agree (a b : Arguments) : ArgumentName → Prop
  | .requests => a.turns = b.turns
  | .collectorUrl => a.collectorUrl = b.collectorUrl
  | .conversation => a.conversation = b.conversation

/-- What options leave of arguments: those that are given have their values, and the others are left
as they were. -/
def Sets (gs : List (ArgumentName × String)) (a b : Arguments) : Prop :=
  ∀ name, (∀ value, (name, value) ∈ gs → b.Holds value name) ∧
    ((∀ value, (name, value) ∉ gs) → a.Agree b name)

theorem Agree.refl (a : Arguments) (name : ArgumentName) : a.Agree a name := by
  cases name <;> rfl

theorem Agree.symm (h : a.Agree b name) : b.Agree a name := by
  cases name <;> exact Eq.symm h

theorem Agree.trans (h : a.Agree b name) (h' : b.Agree c name) : a.Agree c name := by
  cases name <;> exact Eq.trans h h'

theorem eq_of_agree (h : ∀ name, a.Agree b name) : a = b := by
  obtain ⟨turns, collectorUrl, conversation⟩ := a
  obtain ⟨_, _, _⟩ := b
  have turns : turns = _ := h .requests
  have collectorUrl : collectorUrl = _ := h .collectorUrl
  have conversation : conversation = _ := h .conversation
  rw [turns, collectorUrl, conversation]

/-- What one of two arguments holds, the other holds too where they agree. -/
theorem Holds.of_agree (h : a.Holds value name) (same : a.Agree b name) : b.Holds value name := by
  cases name with
  | requests => exact h.trans (congrArg some same)
  | collectorUrl => exact Eq.trans same.symm h
  | conversation => exact Eq.trans same.symm h

/-- Arguments that hold the same value agree. -/
theorem Holds.agree (h : a.Holds value name) (h' : b.Holds value name) : a.Agree b name := by
  cases name with
  | requests => exact Option.some.inj (h.symm.trans h')
  | collectorUrl => exact h.trans h'.symm
  | conversation => exact h.trans h'.symm

/-- An option gets its value, and all others are left. -/
theorem holds_of_assign (made : a.assign name value = .ok b) :
    b.Holds value name ∧ ∀ other ≠ name, a.Agree b other := by
  cases name with
  | requests =>
    rw [assign] at made
    split at made
    · next turns read =>
      cases made
      refine ⟨read, fun other ne => ?_⟩
      cases other <;> first | contradiction | rfl
    · cases made
  | collectorUrl =>
    cases made
    refine ⟨rfl, fun other ne => ?_⟩
    cases other <;> first | contradiction | rfl
  | conversation =>
    cases made
    refine ⟨rfl, fun other ne => ?_⟩
    cases other <;> first | contradiction | rfl

/-- A value that some arguments hold can be given. -/
theorem exists_assign (a : Arguments) (holds : b.Holds value name) :
    ∃ c, a.assign name value = .ok c := by
  cases name with
  | requests =>
    have read : readTurns value = some b.turns := holds
    exact ⟨{ a with turns := b.turns }, by rw [assign, read]⟩
  | collectorUrl => exact ⟨_, rfl⟩
  | conversation => exact ⟨_, rfl⟩

/-- Gives several options their values, one after the other. -/
def assignAll (a : Arguments) : List (ArgumentName × String) → Except ArgumentFault Arguments
  | [] => .ok a
  | (name, value) :: rest =>
    match a.assign name value with
    | .ok a => a.assignAll rest
    | .error fault => .error fault

/-- What options leave if an option comes first that is not among them. -/
theorem sets_cons_iff (absent : ∀ v, (name, v) ∉ gs) (first : a.assign name value = .ok c) :
    Sets ((name, value) :: gs) a b ↔ Sets gs c b := by
  obtain ⟨own, others⟩ := holds_of_assign first
  constructor
  · intro sets other
    by_cases same : other = name
    · subst same
      have holds := (sets other).1 value List.mem_cons_self
      exact ⟨fun v member => absurd member (absent v), fun _ => own.agree holds⟩
    · refine ⟨fun v member => (sets other).1 v (List.mem_cons_of_mem _ member), fun none => ?_⟩
      refine (others other same).symm.trans ((sets other).2 fun v member => ?_)
      rcases List.mem_cons.mp member with h | h
      · cases h
        contradiction
      · exact none v h
  · intro rest other
    by_cases same : other = name
    · subst same
      refine ⟨fun v member => ?_, fun none => absurd List.mem_cons_self (none value)⟩
      rcases List.mem_cons.mp member with h | h
      · cases h
        exact own.of_agree ((rest other).2 absent)
      · exact absurd h (absent v)
    · refine ⟨fun v member => ?_, fun none => ?_⟩
      · rcases List.mem_cons.mp member with h | h
        · cases h
          contradiction
        · exact (rest other).1 v h
      · exact (others other same).trans
          ((rest other).2 fun v member => none v (List.mem_cons_of_mem _ member))

/-- Options that are given once each all get their values, whatever their order. -/
theorem assignAll_eq_ok_iff (once : (gs.map Prod.fst).Nodup) :
    a.assignAll gs = .ok b ↔ Sets gs a b := by
  induction gs generalizing a with
  | nil =>
    constructor
    · intro made
      obtain rfl : a = b := Except.ok.inj made
      exact fun name => ⟨fun _ member => absurd member List.not_mem_nil, fun _ => Agree.refl a name⟩
    · intro sets
      exact congrArg Except.ok (eq_of_agree fun name => (sets name).2 fun _ => List.not_mem_nil)
  | cons g gs ih =>
    obtain ⟨name, value⟩ := g
    obtain ⟨fresh, once⟩ := List.nodup_cons.mp once
    have absent (v : String) : (name, v) ∉ gs :=
      fun member => fresh (List.mem_map.mpr ⟨_, member, rfl⟩)
    constructor
    · intro made
      rw [assignAll] at made
      split at made
      · next c first => exact (sets_cons_iff absent first).mpr ((ih once).mp made)
      · cases made
    · intro sets
      obtain ⟨c, first⟩ := exists_assign a ((sets name).1 value List.mem_cons_self)
      rw [assignAll, first]
      exact (ih once).mpr ((sets_cons_iff absent first).mp sets)

end Arguments

/-! ## Command lines -/

/-- Options with their values, as they stand in a command line; two dashes may end it. -/
inductive CommandLine : List (ArgumentName × String) → List String → Prop
  /-- There is nothing more. -/
  | done : CommandLine [] []
  /-- Two dashes come last. -/
  | dashes : CommandLine [] ["--"]
  /-- An option comes first. -/
  | given {name : ArgumentName} {value : String} {head texts : List String}
    {gs : List (ArgumentName × String)} (first : Given name value head)
    (later : CommandLine gs texts) : CommandLine ((name, value) :: gs) (head ++ texts)

namespace Arguments

variable {a b : Arguments} {seen : List ArgumentName} {name : ArgumentName}
  {text next value : String} {texts : List String}

/-- The rest of a command line is read after an option has got its value. -/
def proceed (a : Arguments) (seen : List ArgumentName) (name : ArgumentName) (value : String)
    (texts : List String) : Except ArgumentFault Arguments :=
  if seen.contains name then .error (.repeated name.spelling)
  else
    match a.assign name value with
    | .ok a => a.readAll (name :: seen) texts
    | .error fault => .error fault

theorem readAll_of_value (read : Argument.ofText text = .option name (some value)) :
    a.readAll seen (text :: texts) = a.proceed seen name value texts := by
  cases texts with
  | nil =>
    rw [readAll, read, proceed]
    dsimp only
    cases a.assign name value <;> rfl
  | cons next texts =>
    rw [readAll, read]
    rfl

theorem readAll_of_next (read : Argument.ofText text = .option name none)
    (plain : Argument.isValue next = true) :
    a.readAll seen (text :: next :: texts) = a.proceed seen name next texts := by
  rw [readAll, read]
  dsimp only
  rw [if_pos plain]
  rfl

theorem proceed_eq_ok_iff : a.proceed seen name value texts = .ok b ↔
    name ∉ seen ∧ ∃ c, a.assign name value = .ok c ∧ c.readAll (name :: seen) texts = .ok b := by
  rw [proceed]
  split
  · next found =>
    have member : name ∈ seen := by simpa using found
    exact iff_of_false nofun fun h => h.1 member
  · next absent =>
    have fresh : name ∉ seen := by simpa using absent
    split
    · next c first => simp [fresh, first]
    · next fault first => simp [first]

/-- An option with a value is read, and the rest after it. -/
theorem readAll_of_given {head : List String} (given : Given name value head) :
    a.readAll seen (head ++ texts) = a.proceed seen name value texts := by
  cases given with
  | apart plain => exact readAll_of_next (Argument.ofText_spelling name) plain
  | shortApart plain => exact readAll_of_next rfl plain
  | long => exact readAll_of_value (Argument.ofText_of_given .long)
  | short => exact readAll_of_value (Argument.ofText_of_given .short)
  | joined first other => exact readAll_of_value (Argument.ofText_of_given (.joined first other))

/-- A command line is accepted exactly if no option is given twice and their values can be read. -/
theorem readAll_eq_ok_iff {gs : List (ArgumentName × String)} (line : CommandLine gs texts) :
    a.readAll seen texts = .ok b ↔
      ((∀ g ∈ gs, g.1 ∉ seen) ∧ (gs.map Prod.fst).Nodup) ∧ a.assignAll gs = .ok b := by
  induction line generalizing a seen with
  | done => simp [readAll, assignAll]
  | dashes =>
    have read : a.readAll seen ["--"] = .ok a := rfl
    simp [read, assignAll]
  | @given name value head texts gs first later ih =>
    rw [readAll_of_given first, proceed_eq_ok_iff, List.forall_mem_cons, List.map_cons,
      List.nodup_cons]
    simp only [ih, List.mem_cons, not_or]
    constructor
    · rintro ⟨fresh, c, assigned, ⟨others, once⟩, made⟩
      refine ⟨⟨⟨fresh, fun g member => (others g member).2⟩, fun again => ?_, once⟩, ?_⟩
      · obtain ⟨g, member, same⟩ := List.mem_map.mp again
        exact (others g member).1 same
      · rw [assignAll, assigned]
        exact made
    · rintro ⟨⟨⟨fresh, others⟩, other, once⟩, made⟩
      rw [assignAll] at made
      split at made
      · next c assigned =>
        refine ⟨fresh, c, assigned, ⟨fun g member => ⟨fun same => ?_, others g member⟩, once⟩, made⟩
        exact other (List.mem_map.mpr ⟨g, member, same⟩)
      · cases made

/-- An option that is accepted has its value, behind it or in the next argument. -/
theorem exists_given {given : Option String} (kind : Argument.ofText text = .option name given)
    (read : a.readAll seen (text :: texts) = .ok b) :
    ∃ value head rest, Given name value head ∧ text :: texts = head ++ rest := by
  rcases Argument.eq_of_ofText kind with ⟨rfl, spelled⟩ | ⟨value, rfl, given⟩
  · cases texts with
    | nil =>
      rw [readAll, kind] at read
      dsimp only at read
      split at read <;> cases read
    | cons next rest =>
      by_cases plain : Argument.isValue next = true
      · rcases spelled with rfl | ⟨rfl, rfl⟩
        · exact ⟨next, _, rest, .apart plain, rfl⟩
        · exact ⟨next, _, rest, .shortApart plain, rfl⟩
      · rw [readAll, kind] at read
        dsimp only at read
        rw [if_neg plain] at read
        split at read <;> cases read
  · exact ⟨value, [text], texts, given, rfl⟩

/-- Whatever is accepted is a command line. -/
theorem exists_commandLine (read : a.readAll seen texts = .ok b) :
    ∃ gs, CommandLine gs texts := by
  -- An option takes one argument or two, so the induction is on their number.
  induction count : texts.length using Nat.strongRecOn generalizing a seen texts with
  | _ n ih =>
    match texts with
    | [] => exact ⟨[], .done⟩
    | text :: rest =>
      cases kind : Argument.ofText text with
      | option name value =>
        obtain ⟨value, head, later, given, parts⟩ := exists_given kind read
        rw [parts] at read count ⊢
        rw [readAll_of_given given] at read
        obtain ⟨-, c, -, made⟩ := proceed_eq_ok_iff.mp read
        have fewer : later.length < n := by
          have some : 0 < head.length := by cases given <;> exact Nat.succ_pos _
          rw [List.length_append] at count
          omega
        obtain ⟨gs, line⟩ := ih _ fewer made rfl
        exact ⟨_, .given given line⟩
      | usage => cases rest <;> (rw [readAll, kind] at read; cases read)
      | endOfOptions =>
        cases rest with
        | nil =>
          obtain rfl := Argument.eq_of_endOfOptions kind
          exact ⟨[], .dashes⟩
        | cons next rest =>
          rw [readAll, kind] at read
          cases read
      | other text => cases rest <;> (rw [readAll, kind] at read; cases read)

/-- Arguments are accepted exactly if they are a command line in which no option is given twice and
every number of turns can be read. Each option that is given then has its value, and the others have
their standard values. -/
theorem ofList_eq_ok_iff : ofList texts = .ok a ↔
    ∃ gs, CommandLine gs texts ∧ (gs.map Prod.fst).Nodup ∧ Sets gs {} a := by
  constructor
  · intro read
    obtain ⟨gs, line⟩ := exists_commandLine read
    obtain ⟨⟨-, once⟩, made⟩ := (readAll_eq_ok_iff line).mp read
    exact ⟨gs, line, once, (assignAll_eq_ok_iff once).mp made⟩
  · rintro ⟨gs, line, once, sets⟩
    exact (readAll_eq_ok_iff line).mpr
      ⟨⟨fun _ _ => List.not_mem_nil, once⟩, (assignAll_eq_ok_iff once).mpr sets⟩

theorem le_of_readTurns {turns : Nat} (read : readTurns value = some turns) : turns ≤ maxTurns := by
  unfold readTurns at read
  split at read
  · split at read
    · next bounds =>
      cases read
      omega
    · cases read
  · cases read

/-- However many turns are asked for, there is a largest number of them. -/
theorem turns_le (read : ofList texts = .ok a) : a.turns ≤ maxTurns := by
  obtain ⟨gs, -, -, sets⟩ := ofList_eq_ok_iff.mp read
  obtain ⟨given, standard⟩ := sets .requests
  by_cases told : ∃ value, (.requests, value) ∈ gs
  · obtain ⟨value, member⟩ := told
    exact le_of_readTurns (given value member)
  · have same : 5 = a.turns := standard (not_exists.mp told)
    rw [← same]
    decide

/-- Neither the order of the options nor the way in which they are spelled matters. -/
theorem ofList_eq_ok_of_perm {others : List String} {gs hs : List (ArgumentName × String)}
    (line : CommandLine gs texts) (other : CommandLine hs others) (same : gs.Perm hs)
    (read : ofList texts = .ok a) : ofList others = .ok a := by
  obtain ⟨⟨-, once⟩, made⟩ := (readAll_eq_ok_iff line).mp read
  have sets := (assignAll_eq_ok_iff once).mp made
  refine ofList_eq_ok_iff.mpr ⟨hs, other, (same.map Prod.fst).nodup_iff.mp once, fun name => ?_⟩
  simp only [← same.mem_iff]
  exact sets name

end Arguments

end EventRelay.Demo
