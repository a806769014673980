import EventRelay.Duration
import EventRelay.Event
import EventRelay.Text.Quoted
import EventRelay.Text.Utf8

/-!
# Deliveries and their failures

A delivery attempt succeeds, or fails with a status of the collector, a fault of the transport or a
timeout. Of the body of a failure only the first 256 bytes are read; they are decoded without
failing and cut again to 256 bytes between two characters.
-/

namespace EventRelay

open Text (byteLength boundaryBefore? decodeLossy encode truncate?)

/-- Why a delivery attempt failed. That a batch has no text is no reason: every envelope has one,
since all names of members are fixed and a score that is no number is written as null. -/
inductive DeliveryError
  /-- The attempt took longer than the limit, in milliseconds. -/
  | timeout (limit : Nat)
  /-- The collector answered with a status other than success. -/
  | status (code : Nat) (reason : String)
  /-- The request could not be made or was cut off. -/
  | transport (reason : String)
  deriving DecidableEq, Repr

namespace DeliveryError

/-- The explanation given to a reader. -/
def message : DeliveryError → String
  | .timeout limit => "delivery timed out after " ++ Duration.debug limit
  | .status code reason => s!"collector returned {code}: {reason}"
  | .transport reason => s!"collector transport error: {reason}"

/-- The failure as logs show it. -/
def debug : DeliveryError → String
  | .timeout limit => "Timeout(" ++ Duration.debug limit ++ ")"
  | .status code reason =>
    "Status \x7b status: " ++ toString code ++ ", reason: " ++ Text.quoted reason ++ " \x7d"
  | .transport reason => "Transport \x7b reason: " ++ Text.quoted reason ++ " \x7d"

end DeliveryError

/-- What comes of a body. -/
inductive Piece
  /-- Some bytes, possibly none. -/
  | chunk (bytes : List UInt8)
  /-- The body cannot be read any further. -/
  | fault
  deriving DecidableEq, Repr

namespace Delivery

/-- How much of the body of a failure is read, in bytes. -/
def reasonLimit : Nat := 256

/-- The difference of two numbers; `none` if it is negative. -/
def minus? (a b : Nat) : Option Nat := if b ≤ a then some (a - b) else none

/-- The first bytes of a chunk; `none` if there are fewer of them. -/
def first? (count : Nat) (bytes : List UInt8) : Option (List UInt8) :=
  if count ≤ bytes.length then some (bytes.take count) else none

/-- Reads on until the limit is reached, the body ends or it cannot be read any further. -/
def readOn? (head : List UInt8) : List Piece → Option (List UInt8)
  | [] => some head
  | piece :: rest =>
    if head.length < reasonLimit then
      match piece with
      | .chunk bytes => do
        let room ← minus? reasonLimit head.length
        let taken ← first? (min bytes.length room) bytes
        readOn? (head ++ taken) rest
      | .fault => some head
    else some head

/-- Cuts a text to the limit, at the last boundary. -/
def cut? (cs : List Char) : Option (List Char) :=
  if reasonLimit < byteLength cs then do
    let index ← boundaryBefore? (encode cs) reasonLimit
    truncate? cs index
  else some cs

/-- The reason shown for a failure with the given body; `none` if a difference is negative, a chunk
too short or a text cut inside a character. -/
def reason? (body : List Piece) : Option String := do
  let head ← readOn? [] body
  let kept ← cut? (decodeLossy head)
  return String.ofList kept

/-- The reason shown for a failure with the given body. -/
def reason (body : List Piece) : String := (reason? body).getD ""

end Delivery

end EventRelay
