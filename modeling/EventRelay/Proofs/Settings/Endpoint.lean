import EventRelay.Collector
import EventRelay.Proofs.Uri.WebAddress
import EventRelay.Publisher

/-!
# The batch endpoint of settings

The base address and the path are joined as texts, and the result is read as an address. Where the
base has neither a query nor a fragment the path is added to its path; otherwise it falls into the
query or the fragment. The settings are checked with the lenient reading and the collector is made
with the strict one, so that settings which pass the check make a collector exactly if their
endpoint is plain.
-/

namespace EventRelay

namespace Uri

/-- A text without the slashes at its end. -/
def dropSlashes (cs : List Char) : List Char := cs.rdropWhile (· = '/')

section Slashes

variable {cs front : List Char}

theorem dropSlashes_isPrefix (cs : List Char) : dropSlashes cs <+: cs := List.rdropWhile_prefix ..

theorem mem_of_mem_dropSlashes {c : Char} (member : c ∈ dropSlashes cs) : c ∈ cs :=
  (dropSlashes_isPrefix cs).subset member

theorem head?_of_dropSlashes : ∀ c ∈ (dropSlashes cs).head?, c ∈ cs.head? := by
  intro c first
  obtain ⟨slashes, whole⟩ := dropSlashes_isPrefix cs
  rw [← whole, List.head?_append, Option.mem_def.mp first]
  rfl

theorem dropSlashes_eq_nil_iff : dropSlashes cs = [] ↔ ∀ c ∈ cs, c = '/' := by
  simp [dropSlashes]

/-- Nothing is dropped of a text that does not end with a slash. -/
theorem dropSlashes_eq_self (solid : '/' ∉ cs.getLast?) : dropSlashes cs = cs := by
  refine List.rdropWhile_eq_self_iff.mpr fun nonempty slash => solid ?_
  rw [List.getLast?_eq_some_getLast nonempty, of_decide_eq_true slash]
  rfl

/-- Slashes are dropped of what stands last, as long as it is not all slashes. -/
theorem dropSlashes_append (kept : dropSlashes cs ≠ []) :
    dropSlashes (front ++ cs) = front ++ dropSlashes cs := by
  unfold dropSlashes List.rdropWhile at *
  rw [List.reverse_append, List.dropWhile_append, if_neg, List.reverse_append, List.reverse_reverse]
  intro empty
  exact kept (by rw [List.isEmpty_iff.mp empty, List.reverse_nil])

theorem dropSlashes_append_of_nil (gone : dropSlashes cs = []) :
    dropSlashes (front ++ cs) = dropSlashes front := by
  unfold dropSlashes List.rdropWhile at *
  rw [List.reverse_append, List.dropWhile_append, if_pos]
  rw [List.reverse_eq_nil_iff.mp gone, List.isEmpty_nil]

theorem dropSlashes_append_of_solid (solid : '/' ∉ front.getLast?) :
    dropSlashes (front ++ cs) = front ++ dropSlashes cs := by
  by_cases gone : dropSlashes cs = []
  · rw [dropSlashes_append_of_nil gone, dropSlashes_eq_self solid, gone, List.append_nil]
  · exact dropSlashes_append gone

end Slashes

namespace WebAddress

/-- A tail starts with its mark, which is no slash. -/
theorem dropSlashes_tail_ne_nil {a : WebAddress} (tail : a.tail ≠ []) :
    dropSlashes a.tail ≠ [] := by
  intro gone
  obtain ⟨c, more, start⟩ := List.exists_cons_of_ne_nil tail
  have marked := a.tail_marked c (by rw [start, List.head?_cons]; rfl)
  rw [dropSlashes_eq_nil_iff.mp gone c (by simp [start])] at marked
  nomatch marked

/-- A text is put behind an address, with one slash between them. -/
def join (base : WebAddress) (added : List Char) : WebAddress :=
  if missing : base.tail = [] then
    { base with
      path := dropSlashes base.path ++ '/' :: added.takeWhile (!isMark ·)
      tail := added.dropWhile (!isMark ·)
      path_rooted := by
        intro c first
        rw [List.head?_append, Option.mem_def, Option.or_eq_some_iff] at first
        rcases first with root | ⟨-, ⟨⟩⟩
        · exact base.path_rooted c (head?_of_dropSlashes c root)
        · rfl
      path_unmarked := by
        rw [Unmarked, List.forall_mem_append, List.forall_mem_cons]
        exact ⟨fun c member => base.path_unmarked c (mem_of_mem_dropSlashes member), rfl,
          fun c member => by simpa using List.mem_takeWhile_imp member⟩
      tail_marked := by
        simpa using head?_dropWhile_stop (!isMark ·) added }
  else
    { base with
      tail := dropSlashes base.tail ++ '/' :: added
      tail_marked := by
        intro c first
        rw [List.head?_append, Option.mem_def, Option.or_eq_some_iff] at first
        rcases first with mark | ⟨none, -⟩
        · exact base.tail_marked c (head?_of_dropSlashes c mark)
        · exact absurd (List.head?_eq_none_iff.mp none) (dropSlashes_tail_ne_nil missing) }

variable {base : WebAddress}

theorem join_of_tail_nil (missing : base.tail = []) (added : List Char) :
    (base.join added).path = dropSlashes base.path ++ '/' :: added.takeWhile (!isMark ·) ∧
      (base.join added).tail = added.dropWhile (!isMark ·) := by
  rw [join, dif_pos missing]
  exact ⟨rfl, rfl⟩

theorem join_of_tail_ne_nil (tail : base.tail ≠ []) (added : List Char) :
    (base.join added).path = base.path ∧
      (base.join added).tail = dropSlashes base.tail ++ '/' :: added := by
  rw [join, dif_neg tail]
  exact ⟨rfl, rfl⟩

/-- Scheme and authority are those of the base address. -/
theorem join_front (base : WebAddress) (added : List Char) :
    (base.join added).secure = base.secure ∧ (base.join added).authority = base.authority := by
  unfold join
  split <;> exact ⟨rfl, rfl⟩

/-- Joining joins the texts, if there is an authority that keeps the slashes of the scheme. -/
theorem text_join (present : base.authority ≠ []) (added : List Char) :
    (base.join added).text = dropSlashes base.text ++ '/' :: added := by
  have solid : '/' ∉ (webStart base.secure ++ ['/', '/'] ++ base.authority).getLast? := by
    intro slash
    rw [List.getLast?_append_of_ne_nil _ present] at slash
    nomatch base.authority_unended '/' (List.mem_of_getLast? slash)
  have apart : base.text =
      (webStart base.secure ++ ['/', '/'] ++ base.authority) ++ (base.path ++ base.tail) := by
    simp [text]
  obtain ⟨secure, authority⟩ := base.join_front added
  have joined : (base.join added).text = (webStart base.secure ++ ['/', '/'] ++ base.authority) ++
      ((base.join added).path ++ (base.join added).tail) := by
    simp [text, secure, authority]
  rw [apart, joined, dropSlashes_append_of_solid solid]
  by_cases missing : base.tail = []
  · obtain ⟨path, tail⟩ := join_of_tail_nil missing added
    simp [path, tail, missing]
  · obtain ⟨path, tail⟩ := join_of_tail_ne_nil missing added
    simp [path, tail, dropSlashes_append (dropSlashes_tail_ne_nil missing)]

/-- An address with a scheme asks for its path, or for the root. -/
theorem requestPath_uri (a : WebAddress) :
    a.uri.requestPath = if a.path = [] then "/" else String.ofList a.path := by
  have empty : String.ofList a.path = "" ↔ a.path = [] := String.ofList_eq_empty_iff
  simp only [requestPath, uri, empty, Option.isNone_some, Bool.false_and, Bool.false_eq_true,
    if_false]

end WebAddress

end Uri

namespace Settings

open Uri

variable {s : Settings} {url : String}

/-- The path of the settings without the slashes at its start. -/
def addedPath (s : Settings) : List Char := s.collectorPath.toList.dropWhile (· = '/')

theorem slash_notMem_addedPath (s : Settings) : '/' ∉ s.addedPath.head? := by
  intro first
  nomatch head?_dropWhile_stop (decide <| · = '/') s.collectorPath.toList '/' first

/-- A path without marks is added as a whole. -/
theorem addedPath_unmarked (s : Settings) (unmarked : Unmarked s.collectorPath.toList) :
    s.addedPath.takeWhile (!isMark ·) = s.addedPath := by
  refine List.takeWhile_eq_self_iff.mpr fun m member => ?_
  rw [unmarked m ((List.dropWhile_suffix _).subset member), Bool.not_false]

theorem endpoint_eq (present : s.collectorUrl = some url) :
    s.endpoint = some (String.ofList (dropSlashes url.toList ++ '/' :: s.addedPath)) := by
  rw [endpoint, present]
  rfl

theorem exists_of_hasScheme (known : hasScheme url = true) :
    ∃ base : WebAddress, url.toList = base.text := by
  rcases Bool.or_eq_true_iff.mp known with start | start
  · obtain ⟨rest, whole⟩ := List.isPrefixOf_iff_prefix.mp start
    exact ⟨.ofRest false rest, whole.symm.trans (WebAddress.text_ofRest false rest).symm⟩
  · obtain ⟨rest, whole⟩ := List.isPrefixOf_iff_prefix.mp start
    exact ⟨.ofRest true rest, whole.symm.trans (WebAddress.text_ofRest true rest).symm⟩

/-- Without an authority the endpoint cannot be read: it has lost the slashes of its scheme, or what
follows them ends the authority at once. -/
theorem parse_endpoint_of_no_authority {charset : Charset} {base : WebAddress} {text : String}
    {u : Uri} (missing : base.authority = [])
    (joined : text.toList = dropSlashes base.text ++ '/' :: s.addedPath) :
    parse charset text ≠ .ok u := by
  have apart : base.text = (webStart base.secure ++ ['/', '/']) ++ (base.path ++ base.tail) := by
    simp [WebAddress.text, missing]
  by_cases gone : dropSlashes (base.path ++ base.tail) = []
  · have lone : text.toList = webStart base.secure ++ '/' :: s.addedPath := by
      rw [joined, apart, dropSlashes_append_of_nil gone]
      cases base.secure <;> rfl
    exact parse_lone_slash s.slash_notMem_addedPath lone
  · intro success
    have written : text.toList = (WebAddress.ofRest base.secure
        (dropSlashes (base.path ++ base.tail) ++ '/' :: s.addedPath)).text := by
      rw [joined, apart, dropSlashes_append gone, WebAddress.text_ofRest]
      simp
    rw [WebAddress.parse_text written] at success
    refine (WebAddress.uri_of_read success).2 (takeWhile_stop fun c first => ?_)
    rw [List.head?_append, Option.mem_def, Option.or_eq_some_iff] at first
    rcases first with inner | ⟨-, ⟨⟩⟩
    · rw [base.ends_of_head? c (head?_of_dropSlashes c inner), Bool.not_true]
    · rfl

/-! ## Settings that pass the check -/

theorem checkCollector_of_validate (checked : s.validate = .ok ()) : s.checkCollector = .ok () := by
  unfold validate at checked
  split_ifs at checked
  exact checked

/-- Enabled settings that pass the check have a collector address. -/
theorem exists_url_of_enabled (checked : s.validate = .ok ()) (enabled : s.enabled = true) :
    ∃ url, s.collectorUrl = some url := by
  have passed := checkCollector_of_validate checked
  cases present : s.collectorUrl with
  | none =>
    rw [checkCollector, present, enabled] at passed
    nomatch passed
  | some url => exact ⟨url, rfl⟩

/-- Settings that pass the check have a web address as their base, and the lenient reading takes the
endpoint that is joined to it. -/
theorem endpoint_of_validate (checked : s.validate = .ok ()) (present : s.collectorUrl = some url) :
    ∃ (base : WebAddress) (text : String), url.toList = base.text ∧ s.endpoint = some text ∧
      text.toList = (base.join s.addedPath).text ∧
      parse .lenient text = .ok (base.join s.addedPath).uri := by
  have passed := checkCollector_of_validate checked
  unfold checkCollector at passed
  rw [present, endpoint_eq present, Option.getD_some] at passed
  simp only at passed
  split_ifs at passed with unknown
  obtain ⟨base, written⟩ := exists_of_hasScheme (by simpa using unknown)
  rw [written] at passed
  split at passed
  · next u read =>
    have joined : (String.ofList (dropSlashes base.text ++ '/' :: s.addedPath)).toList =
        dropSlashes base.text ++ '/' :: s.addedPath := String.toList_ofList
    have authority : base.authority ≠ [] :=
      fun missing => parse_endpoint_of_no_authority missing joined read
    rw [← WebAddress.text_join authority] at joined read
    refine ⟨base, _, written, ?_, joined, ?_⟩
    · rw [endpoint_eq present, written, WebAddress.text_join authority]
    · rw [WebAddress.parse_text joined] at read ⊢
      rw [read, (WebAddress.uri_of_read read).1]
  · nomatch passed

/-- The endpoint holds no character beyond ASCII before its fragment. -/
def PlainEndpoint (s : Settings) : Prop := ∀ text ∈ s.endpoint, Plain text.toList

/-- How a collector is refused for the sake of a character of its endpoint. -/
def characterRefused : PublisherError :=
  .transport ("invalid collector endpoint: " ++ UriFault.character.message)

/-- Settings that pass the check make a collector for the joined address if that is plain. -/
theorem collector_of_validate (checked : s.validate = .ok ())
    (present : s.collectorUrl = some url) :
    ∃ base : WebAddress, url.toList = base.text ∧
      (s.PlainEndpoint →
        Collector.ofSettings s = .ok ⟨(base.join s.addedPath).uri, s.authToken⟩) ∧
      (¬s.PlainEndpoint → Collector.ofSettings s = .error characterRefused) := by
  obtain ⟨base, text, written, named, joined, lenient⟩ := endpoint_of_validate checked present
  have strict := parse_strict joined
  rw [lenient] at strict
  refine ⟨base, written, fun plain => ?_, fun other => ?_⟩
  · have read : parse .strict text = .ok (base.join s.addedPath).uri :=
      strict.trans (if_pos (plain text named))
    simp only [Collector.ofSettings, named, read]
  · have marked : ¬Plain text.toList := by simpa [PlainEndpoint, named] using other
    have read : parse .strict text = .error .character := strict.trans (if_neg marked)
    simp only [Collector.ofSettings, named, read, characterRefused]

/-- For all settings that pass the check and make a collector, and whose path has neither a question
mark nor a number sign. If the base address has neither of them as well, the path of the endpoint is
that of the base with the path of the settings added. Otherwise the endpoint asks for the path of
the base address alone. -/
theorem path_extends_base_without_marks {c : Collector} (checked : s.validate = .ok ())
    (made : Collector.ofSettings s = .ok c)
    (unmarked : Unmarked s.collectorPath.toList) :
    ∃ (url : String) (base : WebAddress), s.collectorUrl = some url ∧ url.toList = base.text ∧
      c.endpoint.authority = String.ofList base.authority ∧
      (base.tail = [] →
        c.endpoint.requestPath.toList = dropSlashes base.path ++ '/' :: s.addedPath) ∧
      (base.tail ≠ [] → c.endpoint.requestPath = base.uri.requestPath) := by
  cases present : s.collectorUrl with
  | none =>
    rw [Collector.ofSettings, endpoint, present] at made
    nomatch made
  | some url =>
    obtain ⟨base, written, accepted, refused⟩ := collector_of_validate checked present
    have plain : s.PlainEndpoint := by
      by_contra other
      nomatch made.symm.trans (refused other)
    cases made.symm.trans (accepted plain)
    refine ⟨url, base, rfl, written, ?_, fun missing => ?_, fun tail => ?_⟩
    · exact congrArg String.ofList (base.join_front s.addedPath).2
    · have path : (base.join s.addedPath).path = dropSlashes base.path ++ '/' :: s.addedPath := by
        rw [(WebAddress.join_of_tail_nil missing s.addedPath).1, s.addedPath_unmarked unmarked]
      rw [WebAddress.requestPath_uri, path, if_neg (by simp), String.toList_ofList]
    · rw [WebAddress.requestPath_uri, WebAddress.requestPath_uri,
        (WebAddress.join_of_tail_ne_nil tail s.addedPath).1]

/-- A base address with a path that ends with slashes. -/
def slashedBase : Settings := .forCollector "https://h/a//"

/-- The path of the base address keeps its name and one slash. -/
theorem slashed_base_is_extended :
    ∃ c, slashedBase.validate = .ok () ∧ Collector.ofSettings slashedBase = .ok c ∧
      c.endpoint.requestPath = "/a/v1/events/batch" ∧
      ∃ (url : String) (base : WebAddress), slashedBase.collectorUrl = some url ∧
        url.toList = base.text ∧ c.endpoint.authority = String.ofList base.authority := by
  have checked : slashedBase.validate = .ok () := by decide +kernel
  have made : Collector.ofSettings slashedBase =
      .ok ⟨⟨some "https", "h", "/a/v1/events/batch", none⟩, none⟩ := by decide +kernel
  obtain ⟨url, base, present, written, authority, -⟩ :=
    path_extends_base_without_marks checked made (by decide +kernel)
  exact ⟨_, checked, made, rfl, url, base, present, written, authority⟩

/-- A base address with a query. -/
def queriedBase : Settings := .forCollector "http://h?q=1"

/-- The path of the settings falls into the query, and the endpoint asks for the root. -/
theorem queried_base_swallows_path :
    queriedBase.validate = .ok () ∧
      Unmarked queriedBase.collectorPath.toList ∧
      Collector.ofSettings queriedBase =
        .ok ⟨⟨some "http", "h", "", some "q=1/v1/events/batch"⟩, none⟩ ∧
      requestPath ⟨some "http", "h", "", some "q=1/v1/events/batch"⟩ = "/" ∧
      ¬('/' :: queriedBase.addedPath <:+ "/".toList) := by
  decide +kernel

/-- For all settings. Settings with a collector address that pass the check make a collector exactly
if their endpoint is plain. A publisher of enabled settings is refused exactly if the check refuses
them or their endpoint is not plain. -/
theorem checked_settings_make_collector_iff_plain (s : Settings) :
    (∀ url, s.collectorUrl = some url → s.validate = .ok () →
        (s.PlainEndpoint → ∃ c, Collector.ofSettings s = .ok c) ∧
          (¬s.PlainEndpoint → Collector.ofSettings s = .error characterRefused)) ∧
      ∀ reach tosses e, s.enabled = true →
        (Publisher.ofSettings s reach tosses = .error e ↔
          (∃ r, s.validate = .error r ∧ e = .settings r) ∨
            s.validate = .ok () ∧ ¬s.PlainEndpoint ∧ e = characterRefused) := by
  constructor
  · intro url present checked
    obtain ⟨base, -, accepted, refused⟩ := collector_of_validate checked present
    exact ⟨fun plain => ⟨_, accepted plain⟩, refused⟩
  intro reach tosses e enabled
  unfold Publisher.ofSettings
  cases checked : s.validate with
  | error r =>
    simp only [Except.error.injEq, reduceCtorEq, false_and, or_false, exists_eq_left']
    exact eq_comm
  | ok _ =>
    obtain ⟨url, present⟩ := exists_url_of_enabled checked enabled
    obtain ⟨base, -, accepted, refused⟩ := collector_of_validate checked present
    by_cases plain : s.PlainEndpoint
    · simp [enabled, accepted plain, plain]
    · simp [enabled, refused plain, plain, eq_comm]

/-- A base address whose fragment holds a letter beyond ASCII. -/
def annotatedBase : Settings := .forCollector "http://h/a#é"

/-- The fragment is not looked at, so there is a collector. -/
theorem annotated_base_makes_collector :
    annotatedBase.validate = .ok () ∧ annotatedBase.PlainEndpoint ∧
      ∃ c, Collector.ofSettings annotatedBase = .ok c := by
  have checked : annotatedBase.validate = .ok () := by decide +kernel
  have plain : annotatedBase.PlainEndpoint := by
    rintro text ⟨⟩
    decide +kernel
  have laws := checked_settings_make_collector_iff_plain annotatedBase
  exact ⟨checked, plain, (laws.1 _ rfl checked).1 plain⟩

/-- A base address whose path holds a letter beyond ASCII. -/
def accentedBase : Settings := .forCollector "http://h/é"

/-- The check takes the letter; the collector and with it the publisher are refused. -/
theorem accented_base_is_taken_and_refused :
    accentedBase.enabled = true ∧ accentedBase.validate = .ok () ∧
      Collector.ofSettings accentedBase = .error characterRefused ∧
      ∀ reach tosses, Publisher.ofSettings accentedBase reach tosses = .error characterRefused := by
  have checked : accentedBase.validate = .ok () := by decide +kernel
  have refused : Collector.ofSettings accentedBase = .error characterRefused := by decide +kernel
  refine ⟨rfl, checked, refused, fun reach tosses => ?_⟩
  rw [Publisher.ofSettings, checked, refused]
  rfl

end Settings

end EventRelay
