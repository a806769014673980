/-!
# Durations

Durations are whole milliseconds. Logs show seconds with as many decimals as needed, shorter
durations in milliseconds and no duration in nanoseconds.
-/

namespace EventRelay.Duration

/-- The decimals of a part of a second given in milliseconds, without trailing zeros. -/
def decimals (millis : Nat) : List Char :=
  let digits := Nat.toDigits 10 (1000 + millis)
  ((digits.drop 1).reverse.dropWhile (· = '0')).reverse

/-- A duration as logs show it. -/
def debug (millis : Nat) : String :=
  let seconds := millis / 1000
  let rest := millis % 1000
  if 0 < seconds then
    if rest = 0 then s!"{seconds}s" else s!"{seconds}." ++ String.ofList (decimals rest) ++ "s"
  else if 0 < rest then s!"{rest}ms"
  else "0ns"

example : debug 61001 = "61.001s" := rfl

example : debug 1500 = "1.5s" := rfl

end EventRelay.Duration
