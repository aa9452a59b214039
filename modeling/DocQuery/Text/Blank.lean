set_option autoImplicit false

/-! # Blank characters

The blank characters are those with the standard's white space property. Texts are trimmed of them
and cut at them. -/

namespace DocQuery

/-- The character is white space. -/
def isBlank (c : Char) : Bool :=
  let code := c.toNat
  (0x09 ≤ code && code ≤ 0x0d) || (0x2000 ≤ code && code ≤ 0x200a) ||
    [0x20, 0x85, 0xa0, 0x1680, 0x2028, 0x2029, 0x202f, 0x205f, 0x3000].contains code

/-- Drop the blanks in front. -/
def trimBlankStart (chars : List Char) : List Char :=
  chars.dropWhile isBlank

/-- Drop the blanks in front and at the end. -/
def trimBlank (chars : List Char) : List Char :=
  ((chars.dropWhile isBlank).reverse.dropWhile isBlank).reverse

/-- The pieces of a text between the characters that satisfy `isCut`, empty ones included. -/
def pieces (isCut : Char → Bool) : List Char → List (List Char)
  | [] => [[]]
  | c :: rest =>
    if isCut c then [] :: pieces isCut rest
    else
      match pieces isCut rest with
      | [] => [[c]]
      | piece :: later => (c :: piece) :: later

/-- The runs of characters between blanks. -/
def words (chars : List Char) : List (List Char) :=
  (pieces isBlank chars).filter (fun piece => piece ≠ [])

end DocQuery
