import SpaMigration.Conversion

/-!
# What a command comes to

A command prints lines, may change the disk, and may fail. Commands are put together from steps; the steps
behind a failure do not happen, and what was printed before stays.
-/
namespace SpaMigration.Cli

/-- Why a command failed. -/
inductive Failure where
  /-- The arguments cannot be understood. -/
  | usage
  | unreadableOptions (path : String)
  | invalidOptions (path : String)
  | conversion (cause : ConversionError)
  | unreadableFile (cause : ReadError)
  deriving DecidableEq, Repr

namespace Failure

/-- The failure for the reader. -/
def message : Failure → String
  | .usage => "invalid arguments"
  | .unreadableOptions path => "Failed to read " ++ path
  | .invalidOptions path => "Invalid options in " ++ path
  | .conversion cause => cause.message
  | .unreadableFile cause => cause.message

/-- The exit status that announces the failure. -/
def exitCode : Failure → Nat
  | .usage => 2
  | _ => 1

end Failure

/-- What a command printed, how it left the disk, and why it stopped if it did. -/
structure Outcome where
  lines : List String := []
  disk : Disk
  failure : Option Failure := none

namespace Outcome

/-- Only prints. -/
def print (lines : List String) (disk : Disk) : Outcome := { lines, disk }

/-- Only fails. -/
def fail (failure : Failure) (disk : Disk) : Outcome := { disk, failure := some failure }

/-- One step after another, the second on the disk that the first left. -/
def andThen (first : Outcome) (next : Disk → Outcome) : Outcome :=
  match first.failure with
  | some _ => first
  | none => { next first.disk with lines := first.lines ++ (next first.disk).lines }

/-- A step that needs a value, which may be missing for a reason. -/
def require {α : Type} (value : Except Failure α) (next : α → Disk → Outcome) (disk : Disk) : Outcome :=
  match value with
  | .ok a => next a disk
  | .error failure => fail failure disk

/-- Everything that was printed. -/
def text (outcome : Outcome) : String := String.join (outcome.lines.map (· ++ "\n"))

/-- The exit status: zero unless the command failed. -/
def exitCode (outcome : Outcome) : Nat := (outcome.failure.map Failure.exitCode).getD 0

/-- Nothing happens behind a failure. -/
@[simp] theorem fail_andThen (failure : Failure) (disk : Disk) (next : Disk → Outcome) :
    (fail failure disk).andThen next = fail failure disk := rfl

/-- What is printed in front of a step stands in front of what the step prints. -/
@[simp] theorem lines_print_andThen (lines : List String) (disk : Disk) (next : Disk → Outcome) :
    ((print lines disk).andThen next).lines = lines ++ (next disk).lines := rfl

end Outcome

end SpaMigration.Cli
