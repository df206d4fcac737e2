import IndentMarkup.Number.Notation

/-!
# Log records

What the program reports while it works. A record has a level, the name of the logger it is reported by,
and a message.
-/

namespace IndentMarkup.Log

def debug : Int := 10

def info : Int := 20

def warning : Int := 30

def error : Int := 40

def critical : Int := 50

structure Record where
  level : Int
  logger : Text
  message : Text
  deriving DecidableEq, Repr

/-- The name of a level. A level between the named ones is shown by its number. -/
def levelName (level : Int) : Text :=
  if level = 0 then "NOTSET".toList
  else if level = debug then "DEBUG".toList
  else if level = info then "INFO".toList
  else if level = warning then "WARNING".toList
  else if level = error then "ERROR".toList
  else if level = critical then "CRITICAL".toList
  else "Level ".toList ++ intText level

def Record.line (r : Record) : Text :=
  let name := levelName r.level
  name ++ List.replicate (8 - name.length) ' ' ++ ' ' :: r.logger ++ ':' :: ' ' :: r.message

end IndentMarkup.Log
