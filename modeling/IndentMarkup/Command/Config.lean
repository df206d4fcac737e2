import IndentMarkup.Command.Basic

/-!
# The command `config`

Shows the settings, or one of them.
-/

namespace IndentMarkup.Command

def configUsage : List String := [
  "  config list                Show the effective configuration as JSON.",
  "  config get <key>           Show one value (e.g., builder.attribute_separator)."]

def showSetting (r : Resources) (key : Text) : Reply :=
  match r.settings.value? key with
  | some v => r.reply [v.indented] 0
  | none => r.reply [failureLine ("Unknown config key '".toList ++ key ++ "'.".toList)] 1

def config (r : Resources) (arguments : List Text) : Reply :=
  match arguments with
  | [] => r.reply (configUsage.map String.toList) 1
  | word :: rest =>
    match String.ofList word, rest with
    | "list", _ => r.reply [(Json.obj r.settings).indented] 0
    | "get", [key] => showSetting r key
    | "get", _ => r.reply ["Usage: config get <key>".toList] 1
    | _, _ => r.reply ["Unknown command: 'config ".toList ++ word ++ "'.".toList] 1

end IndentMarkup.Command
