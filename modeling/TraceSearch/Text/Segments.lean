/-!
# Segments

A path is cut at its slashes, so that its segments with slashes between them are the path again and
nothing is lost, not even an empty segment at either end.
-/

namespace TraceSearch.Text

def segments : List Char → List (List Char)
  | [] => [[]]
  | c :: rest =>
    if c = '/' then [] :: segments rest
    else
      match segments rest with
      | [] => [[c]]
      | first :: others => (c :: first) :: others

end TraceSearch.Text
