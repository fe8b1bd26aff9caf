/-! # Durations

Spans of time in whole milliseconds, and their text: milliseconds below one second, otherwise seconds
with up to three decimals of which trailing zeros are dropped. -/

namespace DebugHost

/-- A span of time in whole milliseconds. -/
structure Duration where
  /-- Number of milliseconds. -/
  millis : Nat
deriving DecidableEq, Repr, Inhabited

/-- The decimals of a fraction of `k` places, without trailing zeros. -/
def Duration.decimals : Nat → Nat → List Char
  | 0, _ => []
  | k + 1, n =>
    if n = 0 then []
    else Char.ofNat (n / Nat.pow 10 k + '0'.toNat) :: Duration.decimals k (n % Nat.pow 10 k)

/-- The text of a duration. -/
def Duration.text (d : Duration) : String :=
  if d.millis = 0 then "0ns"
  else if d.millis < 1000 then toString d.millis ++ "ms"
  else
    let whole := toString (d.millis / 1000)
    match Duration.decimals 3 (d.millis % 1000) with
    | [] => whole ++ "s"
    | ds => whole ++ "." ++ String.ofList ds ++ "s"

example : (Duration.mk 1010).text = "1.01s" := by decide +kernel
example : (Duration.mk 999).text = "999ms" := by decide +kernel

end DebugHost
