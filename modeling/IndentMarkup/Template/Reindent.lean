import IndentMarkup.Text.Basic

/-!
# Re-indenting a template

To nest a template under a line of another one, every line of it gets further markers. Blank lines and the
white space around lines are dropped, except that a template which is not moved at all is only trimmed.
-/

namespace IndentMarkup

def reindent (marker : Text) (levels : Nat) (template : Text) : Text :=
  if levels = 0 then template.trim
  else
    let lines := ((Text.lines template.trim).map Text.trim).filter fun line => !line.isEmpty
    Text.trim (Text.join ['\n'] (lines.map ((List.replicate levels marker).flatten ++ ·)))

end IndentMarkup
