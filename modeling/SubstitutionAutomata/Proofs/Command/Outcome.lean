import SubstitutionAutomata.Command.Session
import Mathlib.Data.Nat.Notation

/-! # What the steps of a script do -/

namespace SubstitutionAutomata.Command

open Script Text

/-- The transcript after a line of the log, if one is asked for. -/
def Transcript.debugged (t : Transcript) (verbose : Bool) (source line : String) : Transcript :=
  if verbose then { t with log := t.log ++ s!"DEBUG regex_automata.{source}: {line}\n" } else t

namespace Transcript

variable (t : Transcript) (verbose : Bool) (source line : String)

@[simp]
theorem output_debugged : (t.debugged verbose source line).output = t.output := by
  cases verbose <;> rfl

@[simp]
theorem store_debugged : (t.debugged verbose source line).store = t.store := by
  cases verbose <;> rfl

@[simp]
theorem pauses_debugged : (t.debugged verbose source line).pauses = t.pauses := by
  cases verbose <;> rfl

end Transcript

namespace Script

variable {φ : Type} (system : System φ) (t : Transcript)

theorem run_debug (verbose : Bool) (source line : String) (next : Unit → Script) :
    (debug verbose source line next).run system t =
      (next ()).run system (t.debugged verbose source line) := by
  cases verbose <;> rfl

theorem run_fail (line : String) :
    (fail line).run system t = ({ t with output := t.output ++ (line ++ "\n") }, .exit 1) := rfl

/-- A file that is there is decoded, and only bytes that are no text end the command. -/
theorem run_readText {path : String} {bytes : List UInt8} (h : t.store.read path = .ok bytes)
    (refused : FileError → Script) (next : String → Script) :
    (readText path refused next).run system t =
      match decodeUtf8 bytes with
      | .error fault => (t, .crash (.own (.encoding fault)))
      | .ok text => (next text).run system t := by
  rw [readText, run, h]
  cases hdecode : decodeUtf8 bytes <;> simp only [hdecode, run]

theorem run_readText_of_error {path : String} {e : FileError} (h : t.store.read path = .error e)
    (refused : FileError → Script) (next : String → Script) :
    (readText path refused next).run system t = (refused e).run system t := by
  rw [readText, run, h]

/-- A pause that is interrupted leaves an empty line, and one that is refused ends the script. -/
theorem run_pauseIf (duration : Seconds) (interrupted next : Unit → Script) :
    (pauseIf duration interrupted next).run system t =
      if duration.isZero then (next ()).run system t
      else match system.pause (t.pauses + 1) duration with
        | .elapsed => (next ()).run system { t with pauses := t.pauses + 1 }
        | .interrupted =>
          (interrupted ()).run system
            { t with output := t.output ++ "\n", pauses := t.pauses + 1 }
        | .refused reason => ({ t with pauses := t.pauses + 1 }, .crash (.system reason)) := by
  rw [pauseIf]
  split
  · rfl
  · rw [run]
    cases system.pause (t.pauses + 1) duration <;> rfl

end Script

/-! ## One file -/

theorem Path.parts_f : Path.parts "f" = ["f"] := by
  have hsplit : "f".splitOn "/" = ["f"] := by
    rw [String.splitOn, if_neg (by decide), String.splitOnAux, if_neg (by decide),
      if_neg (by decide), String.splitOnAux, if_pos (by decide)]
    decide
  rw [Path.parts, hsplit]
  decide

/-- Nothing done yet, beside a file named f. -/
def Transcript.ofFile (bytes : List UInt8) : Transcript := ⟨"", "", 0, [(["f"], .bytes bytes)]⟩

theorem Transcript.read_ofFile (bytes : List UInt8) :
    (ofFile bytes).store.read "f" = .ok bytes := by
  have hslash : "f".endsWith "/" = false := by decide +kernel
  have hempty : "f".isEmpty = false := by decide
  simp [Store.read, Path.parts_f, hslash, hempty, ofFile, Store.blocked, Store.isFile,
    Store.isDirectory, Store.content, List.range_succ]

end SubstitutionAutomata.Command
