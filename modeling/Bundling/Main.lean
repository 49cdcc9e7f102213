import Bundling.CommandLine.Outcome
import Bundling.Instant

/-!
The tool as a process: it reads the environment, the clock and the file that is asked for, and
writes what `CommandLine.outcome` says.
-/

set_option autoImplicit false
set_option relaxedAutoImplicit false

namespace Bundling.CommandLine.Tool

/-- What is found at a path; a path that cannot be read as a file holds nothing. -/
def contentAt (path : String) : IO FileContent := do
  try
    let bytes ← IO.FS.readBinFile path
    match String.fromUTF8? bytes with
    | some s => return .text s
    | none => return .bytes
  catch _ => return .none

/-- The variables of the environment. One that is no text is passed over. -/
def environment : IO Environment := do
  let bytes ← IO.FS.readBinFile "/proc/self/environ"
  return (bytes.toList.splitOn 0).filterMap fun entry ↦ do
    let text ← String.fromUTF8? ⟨entry.toArray⟩
    match text.toList.span (· != '=') with
    | (name, _ :: value) => some (String.ofList name, String.ofList value)
    | (_, []) => none

/-- The number that stands behind a word in a text with blanks between words. -/
def numberBehind (word : String) (words : List String) : Nat :=
  ((words.dropWhile (· != word)).drop 1).head?.bind (Decimal.toNat? ·.toList) |>.getD 0

/-- The time of the clock, from the time of the start and the time since then. -/
def now : IO Instant := do
  try
    let start := numberBehind "btime" (((← IO.FS.readFile "/proc/stat").splitOn "\n").flatMap
      (·.splitOn " "))
    let up := ((← IO.FS.readFile "/proc/uptime").splitOn " ").headD ""
    let hundredths := (Decimal.toNat? (up.toList.filter (· != '.'))).getD 0
    return ⟨start + hundredths / 100, hundredths % 100 * 10000⟩
  catch _ => return ⟨0, 0⟩

def run (args : List String) : IO UInt32 := do
  let content ← match read args with
    | .ok { path := some path, .. } => contentAt path
    | _ => pure .none
  let time := (← now).text
  let o := outcome args (fun _ ↦ content) (← environment) time
  for line in o.output do
    IO.println line
  for line in o.errors do
    IO.eprintln line
  return o.code.toUInt32

end Bundling.CommandLine.Tool

def main (args : List String) : IO UInt32 := Bundling.CommandLine.Tool.run args
