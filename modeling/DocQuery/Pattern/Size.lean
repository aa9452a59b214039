import DocQuery.Number.Double
import DocQuery.Pattern.Basic

set_option autoImplicit false

/-! # The size of a pattern

To search for a pattern takes two automata over the bytes of a text, one that reads forwards and
finds the end of a match and one that reads backwards and finds its start. A pattern for which one
of them is larger than ten mebibytes is refused.

A character takes a node for each of its bytes in UTF-8. The wildcards are larger, since a character
other than a line feed can be any of the well-formed sequences of one to four bytes: read forwards,
sequences share their ends and a node may have several edges, read backwards they do not.

The sizes below are not part of what a library for patterns promises. They are those of `regex` from
version 1.10 on, which builds its automata with version 0.4 of `regex-automata`, on machines with
words of 64 bits; another version may count other sizes. -/

namespace DocQuery

/-- What an automaton is made of: nodes, edges that are labelled with a range of bytes, and edges to
    choose from without reading. -/
structure AutomatonSize where
  nodes : Nat
  edges : Nat := 0
  choices : Nat := 0

/-- The size in bytes. -/
def AutomatonSize.bytes (size : AutomatonSize) : Nat :=
  32 * size.nodes + 8 * size.edges + 4 * size.choices

namespace Atom

/-- What the atom takes in the automaton that reads forwards. -/
def forwardSize : Atom → AutomatonSize
  | .char c => ⟨c.utf8Size, 0, 0⟩
  | .any => ⟨9, 17, 0⟩
  | .anyRun => ⟨10, 17, 2⟩
  | .start | .finish => ⟨1, 0, 0⟩

/-- What the atom takes in the automaton that reads backwards. -/
def backwardSize : Atom → AutomatonSize
  | .char c => ⟨c.utf8Size, 0, 0⟩
  | .any => ⟨30, 0, 10⟩
  | .anyRun => ⟨31, 0, 12⟩
  | .start | .finish => ⟨1, 0, 0⟩

/-- The atom is an anchor. -/
def isAnchor (atom : Atom) : Bool :=
  atom = .start ∨ atom = .finish

end Atom

namespace Pattern

/-- What stands in front of a pattern: nothing if it can match at one place only, else a loop over
    the bytes before a match. -/
def leadSize (anchored : Bool) : AutomatonSize :=
  if anchored then ⟨1, 0, 0⟩ else ⟨3, 1, 2⟩

/-- The anchors in front of the pattern have the start of the text among them. -/
def isAnchoredAtStart (atoms : List Atom) : Bool :=
  (atoms.takeWhile Atom.isAnchor).contains .start

/-- The anchors at the end of the pattern have the end of the text among them. -/
def isAnchoredAtFinish (atoms : List Atom) : Bool :=
  (atoms.reverse.takeWhile Atom.isAnchor).contains .finish

/-- The bytes of the automaton that reads forwards. Besides the atoms it marks where a match starts,
    where it ends, and that there is one. -/
def forwardBytes (atoms : List Atom) : Nat :=
  (leadSize (isAnchoredAtStart atoms)).bytes + (atoms.map (·.forwardSize.bytes)).foldr (· + ·) 0 +
    AutomatonSize.bytes ⟨3, 0, 0⟩

/-- The bytes of the automaton that reads backwards. Besides the atoms it marks that there is a
    match. -/
def backwardBytes (atoms : List Atom) : Nat :=
  (leadSize (isAnchoredAtFinish atoms)).bytes + (atoms.map (·.backwardSize.bytes)).foldr (· + ·) 0 +
    AutomatonSize.bytes ⟨1, 0, 0⟩

/-- How many bytes an automaton may take. -/
def maxBytes : Nat := 10 * 2 ^ 20

/-- The pattern is not too large to search for. -/
def fits (atoms : List Atom) : Bool :=
  forwardBytes atoms ≤ maxBytes && backwardBytes atoms ≤ maxBytes

/-- Read the written form of a pattern that is not too large. -/
def usable? (text : String) : Option (List Atom) :=
  (ofText? text).filter fits

end Pattern

end DocQuery
