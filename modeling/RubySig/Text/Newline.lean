/-!
# Line ends

Texts are read with one kind of line end: a carriage return, alone or before a line feed, becomes
a line feed.
-/

namespace RubySig.Text

/-- Write every line end as a line feed. `afterReturn` says that a carriage return came before. -/
def unifyFrom (afterReturn : Bool) : List Char → List Char
  | [] => []
  | c :: rest =>
    if c = '\r' then '\n' :: unifyFrom true rest
    else if c = '\n' && afterReturn then unifyFrom false rest
    else c :: unifyFrom false rest

/-- Write every line end of a text as a line feed. -/
def unifyNewlines (s : String) : String :=
  String.ofList (unifyFrom false s.toList)

end RubySig.Text
