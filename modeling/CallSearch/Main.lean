import Std.Time.Zoned
import CallSearch.CommandLine.Commands
import CallSearch.Json.Printer

namespace CallSearch

namespace Printed

def line (cells : List String) : String := "\t".intercalate cells

def toText : CommandLine.Printed → String
  | .text s => s
  | .document value => String.ofList (Json.chars Json.spacedStyle value)
  | .table title columns rows => "\n".intercalate (title :: line columns :: rows.map line)

end Printed

def variableNames : List String :=
  Configuration.standard.toJson.members.map fun member =>
    (String.ofList (Configuration.variablePrefix ++ member.1.toList)).toUpper

def presentTime : IO Timestamp := do
  let now ← Std.Time.PlainDateTime.now
  let date := Date.of? now.date.year.toInt.toNat now.date.month.toInt.toNat now.date.day.toInt.toNat
  let time := now.time
  match Timestamp.make (date.getD default) time.hour.toInt.toNat time.minute.toInt.toNat
      time.second.toInt.toNat (time.nanosecond.toInt.toNat / 1000) with
  | .ok timestamp => return timestamp
  | .error _ => return default

def presentEnvironment : IO (List (String × String)) := do
  let pairs ← variableNames.mapM fun name =>
    return (← IO.getEnv name).map fun value => (name, value)
  return pairs.filterMap id

def freshStart : IO IdSupply := do
  let bytes ← IO.getRandomBytes 16
  return ⟨bytes.foldl (fun n byte => n * 256 + byte.toNat) 0⟩

end CallSearch

open CallSearch in
def main (arguments : List String) : IO UInt32 := do
  match Configuration.readFrom (.obj []) (← presentEnvironment) with
  | .refused findings =>
    for finding in findings do
      IO.eprintln (".".intercalate finding.path ++ ": " ++ finding.problem.name)
    return 1
  | .value configuration =>
    let clock : Clock := ⟨← presentTime, .int ((← IO.monoMsNow) / 1000 : Nat)⟩
    let action := CommandLine.run {} "sqlite:///:memory:" clock configuration arguments
    let (printed, code) := (action.run (← freshStart)).1
    for item in printed do
      IO.println (Printed.toText item)
    return code.toUInt32
