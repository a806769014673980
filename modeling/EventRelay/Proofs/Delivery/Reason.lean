import EventRelay.Delivery
import EventRelay.Proofs.Text.Lossy

/-!
# The reason of a failure

Of the body of a failure only the bytes count that come before it ends or breaks off, and of these
the first 256. They are read without failing, and the reason is the longest part of this text from
its start that ends between two characters and takes at most 256 bytes. How the bytes are split into
chunks does not matter, and no step on the way can go wrong.
-/

namespace EventRelay.Delivery

open Text

/-- The bytes that come before the body ends or cannot be read any further. -/
def received : List Piece → List UInt8
  | [] => []
  | .chunk bytes :: rest => bytes ++ received rest
  | .fault :: _ => []

/-- What does not fit the limit is cut off in any case. -/
private theorem take_filled {limit : Nat} {head : List UInt8} (start : head.length ≤ limit)
    (bytes rest : List UInt8) :
    (head ++ bytes.take (min bytes.length (limit - head.length)) ++ rest).take limit =
      (head ++ (bytes ++ rest)).take limit := by
  rcases Nat.le_total bytes.length (limit - head.length) with whole | part
  · rw [Nat.min_eq_left whole, List.take_length, List.append_assoc]
  · have filled : (head ++ bytes.take (limit - head.length)).length = limit := by
      rw [List.length_append, List.length_take, Nat.min_eq_left part]
      omega
    rw [Nat.min_eq_right part, List.take_left' filled, List.take_append,
      List.take_of_length_le start, List.take_append_of_le_length part]

/-- No difference is negative and no chunk too short while a body is read, and what is read are its
first bytes. -/
theorem readOn?_eq {head : List UInt8} (start : head.length ≤ reasonLimit) (body : List Piece) :
    readOn? head body = some ((head ++ received body).take reasonLimit) := by
  induction body generalizing head with
  | nil => rw [readOn?, received, List.append_nil, List.take_of_length_le start]
  | cons piece rest ih =>
    by_cases room : head.length < reasonLimit
    · cases piece with
      | chunk bytes =>
        have enough : min bytes.length (reasonLimit - head.length) ≤ bytes.length :=
          Nat.min_le_left ..
        have fits : (head ++ bytes.take (min bytes.length (reasonLimit - head.length))).length ≤
            reasonLimit := by
          rw [List.length_append, List.length_take]
          omega
        simp only [readOn?, if_pos room, minus?, if_pos start, first?, if_pos enough,
          Option.bind_eq_bind, Option.bind_some]
        rw [ih fits, received, take_filled start]
      | fault =>
        simp only [readOn?, if_pos room]
        rw [received, List.append_nil, List.take_of_length_le start]
    · have whole : reasonLimit = head.length := by omega
      simp only [readOn?, if_neg room]
      rw [whole, List.take_left]

/-- A text is cut without failing. -/
theorem cut?_eq (cs : List Char) : cut? cs = some (takeBytes reasonLimit cs) := by
  rw [cut?]
  split
  · simp only [boundaryBefore?_encode, Option.bind_eq_bind, Option.bind_some, truncate?_takeBytes]
  · next fits => rw [takeBytes_of_le (Nat.le_of_not_lt fits)]

/-- The reason of a body is cut off the text that its first bytes are read as. -/
theorem reason?_eq (body : List Piece) : reason? body =
    some (String.ofList
      (takeBytes reasonLimit (decodeLossy ((received body).take reasonLimit)))) := by
  have empty : ([] : List UInt8).length ≤ reasonLimit := Nat.zero_le reasonLimit
  have read : readOn? [] body = some ((received body).take reasonLimit) := readOn?_eq empty body
  simp only [reason?, read, cut?_eq, Option.bind_eq_bind, Option.bind_some, Option.pure_def]

/-- For every body, whether it ends or breaks off. There always is a reason: no difference is
negative, no chunk is too short, the search for a boundary does not go below zero and nothing is cut
inside a character. The first 256 bytes before the end or the fault are read as one text and no
other. The reason starts this text, ends at a boundary of it and takes at most 256 bytes, and no
boundary of the text lies between its end and this limit. It depends on these 256 bytes alone. -/
theorem reason_is_longest_prefix (body : List Piece) :
    ∃ text kept, (∀ other, Lossy ((received body).take 256) other ↔ other = text) ∧
      reason? body = some (String.ofList kept) ∧ reason body = String.ofList kept ∧
      kept <+: text ∧ encode kept <+: encode text ∧
      isBoundary (encode text) (encode kept).length = true ∧ (encode kept).length ≤ 256 ∧
      (∀ index ≤ 256, isBoundary (encode text) index = true → index ≤ (encode kept).length) ∧
      (∀ other, other <+: text → (encode other).length ≤ 256 → other <+: kept) ∧
      ∀ other, (received other).take 256 = (received body).take 256 →
        reason? other = reason? body := by
  let text := decodeLossy ((received body).take 256)
  have found : reason? body = some (String.ofList (takeBytes 256 text)) := reason?_eq body
  have start : takeBytes 256 text <+: text := takeBytes_isPrefix 256 text
  have fits : byteLength (takeBytes 256 text) ≤ 256 := byteLength_takeBytes_le 256 text
  refine ⟨text, takeBytes 256 text, fun _ => lossy_iff.trans eq_comm, found, ?_, start, ?_, ?_, ?_,
    ?_, ?_, ?_⟩
  · rw [reason, found, Option.getD_some]
  · obtain ⟨rest, parts⟩ := start
    exact ⟨encode rest, by rw [← encode_append, parts]⟩
  · rw [length_encode, isBoundary_encode_iff, takeBytes_of_fits fits (Nat.le_refl _)]
  · rwa [length_encode]
  · intro index low boundary
    have shorter := prefix_takeBytes (takeBytes_isPrefix index text)
      (Nat.le_trans (byteLength_takeBytes_le index text) low)
    obtain ⟨rest, parts⟩ := shorter
    rw [← parts, encode_append, List.length_append, length_encode,
      (isBoundary_encode_iff text index).mp boundary]
    exact Nat.le_add_right ..
  · intro other first short
    exact prefix_takeBytes first (length_encode other ▸ short)
  · intro other same
    rw [reason?_eq, reason?_eq]
    exact congrArg
      (fun bytes => some (String.ofList (takeBytes reasonLimit (decodeLossy bytes)))) same

/-- A character that is split between two chunks is read, and a broken one is replaced. -/
example : reason [.chunk [0xe2, 0x82], .chunk [], .chunk [0xac, 0xc3], .fault, .chunk [0xa9]] =
    "€\ufffd" := rfl

end EventRelay.Delivery
