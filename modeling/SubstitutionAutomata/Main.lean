import SubstitutionAutomata.Command.Session
import SubstitutionAutomata.Inspection.Time
import SubstitutionAutomata.Render.Gif
import Std.Time.DateTime.Timestamp

/-! The program: performs the script of its command line. -/

namespace SubstitutionAutomata.Command

/-- The refusal of a file operation; reasons without a name of their own keep the system's words. -/
def fileError (path : String) : IO.Error → FileError
  | .noFileOrDirectory .. => .missing path
  | .alreadyExists .. => .occupied path
  | .permissionDenied .. => ⟨13, "Permission denied", path⟩
  | .inappropriateType .. => .directory path
  | e => ⟨5, toString e, path⟩

def contentBytes : Content → ByteArray
  | .text s => s.toUTF8
  | .animation frames => ⟨(Gif.encode frames).toArray⟩

/-- Writes a file, after the directories that lead to it. -/
def writeContent (path : String) (content : Content) : BaseIO (Option FileError) := do
  let parent := Path.parent path
  match ← (IO.FS.createDirAll parent).toBaseIO with
  | .error e => return some (fileError parent e)
  | .ok () => match ← (IO.FS.writeBinFile path (contentBytes content)).toBaseIO with
    | .error e => return some (fileError path e)
    | .ok () => return none

/-- Saves frames as an animation; on this system its name ends in .gif. -/
def saveFramesAs (path : String) (frames : List Image) : BaseIO (Option Failure) := do
  if Path.extension path = ".gif" then
    let refusal ← writeContent path (.animation (Image.mergeRepeats frames))
    return refusal.map .file
  else return some (.fileExtension (Path.extension path))

def crash (failure : Failure) : IO UInt32 := do
  IO.eprintln failure.message
  return 1

def perform : Script → IO UInt32
  | .exit code => return code.toUInt32
  | .crash failure => crash failure
  | .print text next => do
    let out ← IO.getStdout
    out.putStr text
    out.flush
    perform (next ())
  | .log line next => do
    IO.eprint line
    perform (next ())
  | .pause duration next => do
    IO.sleep duration.milliseconds.toUInt32
    perform (next false)
  | .read path next => do
    let result ← (IO.FS.readBinFile path).toBaseIO
    perform (next ((result.map fun bytes => bytes.toList).mapError (fileError path)))
  | .write path content next => do
    let refusal ← writeContent path content
    perform (next refusal)
  | .save path frames next => do
    match ← saveFramesAs path frames with
    | some failure => crash failure
    | none => perform (next ())
  | .time next => do
    let now ← Std.Time.Timestamp.now
    perform (next (timeText now.toSecondsSinceUnixEpoch.val.toNat))

end SubstitutionAutomata.Command

def main (arguments : List String) : IO UInt32 :=
  SubstitutionAutomata.Command.perform (SubstitutionAutomata.Command.script arguments)
