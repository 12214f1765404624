import Mathlib.Data.List.Infix

/-!
# Elements found by pattern

The pattern `<name\b([^>]*)>([\s\S]*?)</name>` with the flags `g` and `i` finds elements without
parsing the document: an opening tag is the first text that looks like one, and its element ends at
the first closing tag after it.
-/

namespace Markup

variable (same : Char → Char → Bool) (word : Char → Bool)

/-- The rest of the text after a literal, compared character by character. -/
def dropLiteral : List Char → List Char → Option (List Char)
  | [], text => some text
  | _ :: _, [] => none
  | c :: literal, d :: text => if same c d then dropLiteral literal text else none

/-- An opening tag at the start of the text: the text between its name and `>`, and what follows. -/
def openingTag (name text : List Char) : Option (List Char × List Char) :=
  match dropLiteral same ('<' :: name) text with
  | none => none
  | some rest =>
    if rest.head?.any word then none
    else
      match rest.dropWhile (· ≠ '>') with
      | [] => none
      | _ :: body => some (rest.takeWhile (· ≠ '>'), body)

/-- The text before the first occurrence of a literal, and what follows it. -/
def untilLiteral (literal : List Char) : List Char → Option (List Char × List Char)
  | [] => (dropLiteral same literal []).map fun rest => ([], rest)
  | c :: text =>
    match dropLiteral same literal (c :: text) with
    | some rest => some ([], rest)
    | none => (untilLiteral literal text).map fun found => (c :: found.1, found.2)

/-- An element at the start of the text: its attributes, its body, and what follows it. -/
def elementAt (name text : List Char) : Option (List Char × List Char × List Char) :=
  match openingTag same word name text with
  | none => none
  | some (attributes, rest) =>
    (untilLiteral same ('<' :: '/' :: (name ++ ['>'])) rest).map fun found =>
      (attributes, found.1, found.2)

/-- The elements of the text from left to right, past the given number of characters. -/
def elementsFrom (name : List Char) : Nat → List Char → List (List Char × List Char)
  | _, [] => []
  | skip + 1, _ :: text => elementsFrom name skip text
  | 0, c :: text =>
    match elementAt same word name (c :: text) with
    | none => elementsFrom name 0 text
    | some (attributes, body, rest) =>
      (attributes, body) :: elementsFrom name (text.length - rest.length) text

/-- The attributes and bodies of all elements of this name. -/
def elements (name text : List Char) : List (List Char × List Char) :=
  elementsFrom same word name 0 text

end Markup
