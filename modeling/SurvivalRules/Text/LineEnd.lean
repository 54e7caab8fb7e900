/-!
# Line ends

A text that is read from a file has one line feed for each line end, however the file writes them.
-/
namespace SurvivalRules.Text

/-- A carriage return ends a line, together with a line feed that follows it. -/
def lineFeeds : List Char → List Char
  | '\r' :: '\n' :: rest => '\n' :: lineFeeds rest
  | '\r' :: rest => '\n' :: lineFeeds rest
  | c :: rest => c :: lineFeeds rest
  | [] => []

def withLineFeeds (s : String) : String := String.ofList (lineFeeds s.toList)

/-- No carriage return is left. -/
theorem not_mem_lineFeeds (cs : List Char) : '\r' ∉ lineFeeds cs := by
  fun_induction lineFeeds cs with
  | case3 c rest _ hc ih => simpa [ih] using fun h => hc h.symm
  | _ => simp_all

end SurvivalRules.Text
