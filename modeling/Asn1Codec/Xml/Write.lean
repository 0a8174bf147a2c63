/-
Asn1Codec/Xml/Write.lean

Serialising an XML tree without indentation or line breaks.

Character data and attribute values are escaped, a CDATA section is split where
its content would end it, an element without children is written as one empty
tag, and a document that carries no declaration is given one.
-/
import Asn1Codec.Xml.Location

namespace Xml

/-! ### Escaping -/

/-- A control character as a decimal character reference of two digits. -/
def controlRef (c : Char) : List Char :=
  ['&', '#', Char.ofNat (48 + c.toNat / 10), Char.ofNat (48 + c.toNat % 10), ';']

/-- One character of character data. -/
def escapeTextChar (c : Char) : List Char :=
  if c = '&' then ['&', 'a', 'm', 'p', ';']
  else if c = '<' then ['&', 'l', 't', ';']
  else if c = '>' then ['&', 'g', 't', ';']
  else if c.toNat < 32 ∧ c ≠ '\t' ∧ c ≠ '\n' ∧ c ≠ '\r' then controlRef c
  else [c]

/-- One character of an attribute value. -/
def escapeAttrChar (c : Char) : List Char :=
  if c = '&' then ['&', 'a', 'm', 'p', ';']
  else if c = '<' then ['&', 'l', 't', ';']
  else if c = '"' then ['&', 'q', 'u', 'o', 't', ';']
  else if c.toNat < 32 then controlRef c
  else [c]

def escapeText (s : String) : String := String.ofList (s.toList.flatMap escapeTextChar)

def escapeAttr (s : String) : String := String.ofList (s.toList.flatMap escapeAttrChar)

/-- The content of a CDATA section; `]]>` is spread over two sections. -/
def cdataChars : List Char → List Char
  | ']' :: ']' :: '>' :: cs =>
    [']', ']', ']', ']', '>', '<', '!', '[', 'C', 'D', 'A', 'T', 'A', '[', '>'] ++ cdataChars cs
  | c :: cs => c :: cdataChars cs
  | [] => []

def printCdata (s : String) : String :=
  "<![CDATA[" ++ String.ofList (cdataChars s.toList) ++ "]]>"

def printAttrs : List Attr → String
  | [] => ""
  | a :: as => " " ++ a.1 ++ "=\"" ++ escapeAttr a.2 ++ "\"" ++ printAttrs as

/-! ### Printing a node -/

namespace Node

mutual

/-- A node as text. -/
def print : Node → String
  | document cs => printAll cs
  | element s as cs =>
    match cs with
    | [] => "<" ++ s ++ printAttrs as ++ "/>"
    | c :: cs =>
      "<" ++ s ++ printAttrs as ++ ">" ++ (c.print ++ printAll cs) ++ "</" ++ s ++ ">"
  | pcdata v => escapeText v
  | cdata v => printCdata v
  | declaration as => "<?xml" ++ printAttrs as ++ "?>"
  | doctype v => "<!DOCTYPE " ++ v ++ ">"

/-- The nodes of a list as text, one after the other. -/
def printAll : List Node → String
  | [] => ""
  | n :: ns => n.print ++ printAll ns

end

/-- A declaration that stands before the first element. -/
def hasDeclaration : List Node → Bool
  | [] => false
  | declaration _ :: _ => true
  | element .. :: _ => false
  | _ :: ns => hasDeclaration ns

/-- The nodes of a document as they are written: a declaration is added where
there is none. -/
def declared (ns : List Node) : List Node :=
  if hasDeclaration ns then ns else declaration [("version", "1.0")] :: ns

/-- A whole document as text. -/
def save (d : Node) : String :=
  (if hasDeclaration d.children then "" else "<?xml version=\"1.0\"?>") ++ printAll d.children

/-- The added declaration is written as one that was there. -/
theorem save_eq_printAll (d : Node) : d.save = printAll (declared d.children) := by
  rw [save, declared]
  split
  · exact String.empty_append
  · rfl

theorem hasDeclaration_declared (ns : List Node) : hasDeclaration (declared ns) = true := by
  rw [declared]
  split
  · assumption
  · rfl

/-- A saved document is never empty: it has at least its declaration. -/
theorem save_ne_empty (d : Node) : d.save ≠ "" := by
  have hdecl : ∀ ns : List Node, hasDeclaration ns = true → printAll ns ≠ "" := by
    intro ns
    induction ns with
    | nil => simp [hasDeclaration]
    | cons n ns ih =>
      intro h
      cases n with
      | declaration as => simp [printAll, print]
      | element s as cs => simp [hasDeclaration] at h
      | _ => simp_all [hasDeclaration, printAll]
  rw [save_eq_printAll]
  exact hdecl _ (hasDeclaration_declared d.children)

end Node

end Xml
