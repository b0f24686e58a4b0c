/-!
# Pieces of a text

* `Split.pieces` — the pieces of a text between separators.
* `Split.cut` — a text cut at the first place where a character stands.
-/

namespace Interchange.Split

/-- The pieces of a text between the separators; there is one more piece than separators. -/
def pieces (separator : Char) : List Char → List (List Char)
  | [] => [[]]
  | c :: rest =>
    if c = separator then [] :: pieces separator rest
    else
      match pieces separator rest with
      | [] => [[c]]
      | piece :: others => (c :: piece) :: others

/-- What stands in front of the first separator, and what stands behind it if there is one. -/
def cut (separator : Char) : List Char → List Char × Option (List Char)
  | [] => ([], none)
  | c :: rest =>
    if c = separator then ([], some rest)
    else ((c :: (cut separator rest).1), (cut separator rest).2)

end Interchange.Split
