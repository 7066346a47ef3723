import PluginRegistry.Models

namespace PluginRegistry

def seconds (n : Nat) : Time := n * 1000000

private def padded (width n : Nat) : String :=
  let digits := toString n
  String.ofList (List.replicate (width - digits.length) '0') ++ digits

private def civil (day : Nat) : Nat × Nat × Nat :=
  let z := day + 719468
  let doe := z % 146097
  let yoe := (doe - doe / 1460 + doe / 36524 - doe / 146096) / 365
  let doy := doe - (365 * yoe + yoe / 4 - yoe / 100)
  let mp := (5 * doy + 2) / 153
  let month := if mp < 10 then mp + 3 else mp - 9
  let year := yoe + z / 146097 * 400 + (if month ≤ 2 then 1 else 0)
  (year, month, doy - (153 * mp + 2) / 5 + 1)

/-- `datetime.isoformat()` of a UTC timestamp. -/
def isoformat (t : Time) : String :=
  let micro := t % 1000000
  let s := t / 1000000
  let (year, month, day) := civil (s / 86400)
  padded 4 year ++ "-" ++ padded 2 month ++ "-" ++ padded 2 day ++ "T" ++
    padded 2 (s / 3600 % 24) ++ ":" ++ padded 2 (s / 60 % 60) ++ ":" ++ padded 2 (s % 60) ++
    (if micro = 0 then "" else "." ++ padded 6 micro) ++ "+00:00"

example : isoformat (seconds 1709210096 + 25) = "2024-02-29T12:34:56.000025+00:00" := by
  decide +kernel

end PluginRegistry
