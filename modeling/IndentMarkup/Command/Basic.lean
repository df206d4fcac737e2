import IndentMarkup.Batch
import IndentMarkup.Command.Arguments
import IndentMarkup.Log.Level
import IndentMarkup.Window.Desk

/-!
# Commands

A command gets the rest of the arguments and works on the files and the supply of digits. It answers with
what it prints, its reports and an exit code, or it ends with a fault that it does not handle.
-/

namespace IndentMarkup.Command

inductive Fault where
  | file (f : FileFault)
  | encoding (f : Utf8.Fault)
  | kind (f : KindFault)
  | levels (f : Log.LevelFault)
  | window (f : Failure)

def Fault.message : Fault → Text
  | file f => f.message
  | encoding f => f.message
  | kind f => f.message
  | levels f => f.message
  | window f => f.message

structure Reply where
  files : FileSystem
  supply : DigitSupply
  output : Text
  records : List Log.Record
  ending : Except Fault Nat

structure Resources where
  settings : Settings
  files : FileSystem
  supply : DigitSupply

namespace Resources

def reply (r : Resources) (lines : List Text) (exit : Nat) : Reply :=
  { files := r.files, supply := r.supply, output := lines.flatMap fun s => s ++ ['\n'], records := [],
    ending := .ok exit }

def stop (r : Resources) (f : Fault) : Reply :=
  { files := r.files, supply := r.supply, output := [], records := [], ending := .error f }

def refuse (r : Resources) (help : List String) : Refusal → Reply
  | .help => r.reply (help.map String.toList) 1
  | .misuse => r.reply [] 1

end Resources

def failureLine (message : Text) : Text := "❌ ".toList ++ message

def rootCount (roots : Nat) : Text := " (".toList ++ natText roots ++ " root element(s))".toList

end IndentMarkup.Command
