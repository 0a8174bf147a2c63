/-
Asn1Codec/Xml/Search.lean

Searching the text of a tree for a word.

In the text of a tree its names, attribute values and character data lie side
by side, between the characters that markup is made of.  A word of letters and
digits that is longer than any in the markup occurs in the text exactly when it
occurs inside one of the strings of the tree: a name, an attribute value, or a
run of character data that no markup interrupts (`infix_print`).

Every step of the proof cuts a text at a character that the word does not have
(`infix_cut`).
-/
import Asn1Codec.Xml.Write
import Mathlib.Data.List.Infix

namespace Xml

namespace Node

/-! ### The strings of a tree -/

mutual

/-- A tree of elements and character data. -/
def IsTree : Node → Prop
  | element _ _ cs => AllTrees cs
  | pcdata _ => True
  | cdata _ => True
  | _ => False

def AllTrees : List Node → Prop
  | [] => True
  | n :: ns => n.IsTree ∧ AllTrees ns

end

mutual

/-- The names of the elements of a tree. -/
def elementNames : Node → List String
  | element s _ cs => s :: elementNamesAll cs
  | document cs => elementNamesAll cs
  | _ => []

def elementNamesAll : List Node → List String
  | [] => []
  | n :: ns => n.elementNames ++ elementNamesAll ns

end

/-- The names and the values of attributes. -/
def attrStrings (as : List Attr) : List String := as.flatMap fun a => [a.1, a.2]

mutual

/-- The names and attribute values of a tree, and the character data in it. -/
def strings : Node → List String
  | element s as cs => s :: (attrStrings as ++ stringsAll "" cs)
  | pcdata v => [v]
  | cdata v => [v]
  | _ => []

/-- The strings of some siblings that follow the character data `run`: text
nodes side by side make one string. -/
def stringsAll (run : String) : List Node → List String
  | [] => [run]
  | pcdata v :: ns => stringsAll (run ++ v) ns
  | n :: ns => run :: (n.strings ++ stringsAll "" ns)

end

/-- Anything but character data ends the run. -/
theorem stringsAll_cons (run : String) {n : Node} (h : ∀ v, n ≠ pcdata v) (ns : List Node) :
    stringsAll run (n :: ns) = run :: (n.strings ++ stringsAll "" ns) := by
  cases n with
  | pcdata v => exact absurd rfl (h v)
  | _ => rfl

mutual

/-- A name of an element is one of the strings. -/
theorem elementNames_subset : ∀ n : Node, n.IsTree → n.elementNames ⊆ n.strings
  | element s as cs, h => by
    intro t ht
    rw [elementNames, List.mem_cons] at ht
    rw [strings, List.mem_cons, List.mem_append]
    exact ht.imp id fun ht => Or.inr (elementNamesAll_subset cs h "" ht)
  | pcdata _, _ => List.nil_subset _
  | cdata _, _ => List.nil_subset _

theorem elementNamesAll_subset : ∀ ns : List Node, AllTrees ns → ∀ run : String,
    elementNamesAll ns ⊆ stringsAll run ns
  | [], _, _ => List.nil_subset _
  | n :: ns, h, run => by
    by_cases hn : ∃ v, n = pcdata v
    · obtain ⟨v, rfl⟩ := hn
      exact elementNamesAll_subset ns h.2 (run ++ v)
    · rw [stringsAll_cons run fun v hv => hn ⟨v, hv⟩]
      intro t ht
      rw [elementNamesAll, List.mem_append] at ht
      rw [List.mem_cons, List.mem_append]
      exact Or.inr (ht.imp (fun ht => elementNames_subset n h.1 ht)
        fun ht => elementNamesAll_subset ns h.2 "" ht)

end

end Node

/-! ### Cutting a list -/

section Cut

variable {α : Type*} {w : List α} {d : α}

/-- A list that does not have `d` lies on one side of it. -/
theorem infix_cut (hd : d ∉ w) (p q : List α) :
    w <:+: p ++ d :: q ↔ w <:+: p ∨ w <:+: q := by
  constructor
  · intro h
    rcases List.infix_append_iff.mp h with h | h | ⟨l₁, l₂, rfl, hl₁, hl₂⟩
    · exact Or.inl h
    · -- it begins with `d`, or it lies behind it
      rcases List.infix_cons_iff.mp h with h | h
      · rcases List.prefix_cons_iff.mp h with rfl | ⟨t, rfl, -⟩
        · exact Or.inl List.nil_infix
        · exact absurd List.mem_cons_self hd
      · exact Or.inr h
    · -- it reaches from one side to the other, over `d`
      rcases List.prefix_cons_iff.mp hl₂ with rfl | ⟨t, rfl, -⟩
      · rw [List.append_nil]
        exact Or.inl hl₁.isInfix
      · exact absurd (List.mem_append_right l₁ List.mem_cons_self) hd
  · rintro (h | h)
    · exact h.trans List.infix_append_left
    · exact (List.infix_cons h).trans List.infix_append_right

end Cut

/-! ### Words -/

/-- A word that markup has no part in: letters and digits, and more of them than
stand together anywhere in markup. -/
structure Word (w : List Char) : Prop where
  plain : ∀ c ∈ w, c.isAlphanum = true
  long : 5 < w.length

namespace Word

variable {w : List Char}

theorem notMem (hw : Word w) {d : Char} (hd : d.isAlphanum = false) : d ∉ w := by
  intro h
  exact absurd (hw.plain d h) (by simp [hd])

theorem cut (hw : Word w) (d : Char) (hd : d.isAlphanum = false) (p q : List Char) :
    w <:+: p ++ d :: q ↔ w <:+: p ∨ w <:+: q :=
  infix_cut (hw.notMem hd) p q

/-- Markup between two other characters is too short for a word. -/
theorem not_infix_short (hw : Word w) {m : List Char} (hm : m.length ≤ 5) : ¬ w <:+: m := by
  intro h
  have hle := h.length_le
  have hlong := hw.long
  omega

theorem not_infix_nil (hw : Word w) : ¬ w <:+: [] := hw.not_infix_short (Nat.zero_le 5)

/-- A character that is no letter or digit can be passed over. -/
theorem skip (hw : Word w) (d : Char) (hd : d.isAlphanum = false) (q : List Char) :
    w <:+: d :: q ↔ w <:+: q := by
  show w <:+: [] ++ d :: q ↔ w <:+: q
  rw [hw.cut d hd, or_iff_right hw.not_infix_nil]

/-! ### Escaped text -/

/-- Every character stands for itself or is written as a reference. -/
def Escapes (f : Char → List Char) : Prop :=
  ∀ c, f c = [c] ∨ c.isAlphanum = false ∧ ∃ m, m.length ≤ 5 ∧ f c = '&' :: (m ++ [';'])

theorem isAlphanum_control {c : Char} (hc : c.toNat < 32) : c.isAlphanum = false := by
  have hcontrol : ∀ n : Fin 32, (Char.ofNat n).isAlphanum = false := by decide
  simpa using hcontrol ⟨c.toNat, hc⟩

/-- The reference of a control character is made of five characters at most. -/
theorem controlRef_short (c : Char) : ∃ m, m.length ≤ 5 ∧ controlRef c = '&' :: (m ++ [';']) :=
  ⟨['#', Char.ofNat (48 + c.toNat / 10), Char.ofNat (48 + c.toNat % 10)],
    Nat.le_of_ble_eq_true rfl, rfl⟩

theorem escapes_text : Escapes escapeTextChar := by
  intro c
  by_cases hamp : c = '&'
  · subst hamp
    exact Or.inr ⟨rfl, ['a', 'm', 'p'], Nat.le_of_ble_eq_true rfl, rfl⟩
  by_cases hlt : c = '<'
  · subst hlt
    exact Or.inr ⟨rfl, ['l', 't'], Nat.le_of_ble_eq_true rfl, rfl⟩
  by_cases hgt : c = '>'
  · subst hgt
    exact Or.inr ⟨rfl, ['g', 't'], Nat.le_of_ble_eq_true rfl, rfl⟩
  by_cases hcontrol : c.toNat < 32 ∧ c ≠ '\t' ∧ c ≠ '\n' ∧ c ≠ '\r'
  · rw [escapeTextChar, if_neg hamp, if_neg hlt, if_neg hgt, if_pos hcontrol]
    exact Or.inr ⟨isAlphanum_control hcontrol.1, controlRef_short c⟩
  · apply Or.inl
    rw [escapeTextChar, if_neg hamp, if_neg hlt, if_neg hgt, if_neg hcontrol]

theorem escapes_attr : Escapes escapeAttrChar := by
  intro c
  by_cases hamp : c = '&'
  · subst hamp
    exact Or.inr ⟨rfl, ['a', 'm', 'p'], Nat.le_of_ble_eq_true rfl, rfl⟩
  by_cases hlt : c = '<'
  · subst hlt
    exact Or.inr ⟨rfl, ['l', 't'], Nat.le_of_ble_eq_true rfl, rfl⟩
  by_cases hquot : c = '"'
  · subst hquot
    exact Or.inr ⟨rfl, ['q', 'u', 'o', 't'], Nat.le_of_ble_eq_true rfl, rfl⟩
  by_cases hcontrol : c.toNat < 32
  · rw [escapeAttrChar, if_neg hamp, if_neg hlt, if_neg hquot, if_pos hcontrol]
    exact Or.inr ⟨isAlphanum_control hcontrol, controlRef_short c⟩
  · apply Or.inl
    rw [escapeAttrChar, if_neg hamp, if_neg hlt, if_neg hquot, if_neg hcontrol]

/-- Escaping neither makes a word nor breaks one. -/
theorem infix_flatMap (hw : Word w) {f : Char → List Char} (hf : Escapes f) (p cs : List Char) :
    w <:+: p ++ cs.flatMap f ↔ w <:+: p ++ cs := by
  induction cs generalizing p with
  | nil => rfl
  | cons c cs ih =>
    rw [List.flatMap_cons]
    rcases hf c with hc | ⟨hc, m, hm, hesc⟩
    · have h := ih (p ++ [c])
      rw [hc]
      simpa using h
    · -- the reference separates what stands before it from what follows
      have htail : w <:+: cs.flatMap f ↔ w <:+: cs := ih []
      calc w <:+: p ++ (f c ++ cs.flatMap f)
          ↔ w <:+: p ++ '&' :: (m ++ ';' :: cs.flatMap f) := by rw [hesc]; simp
        _ ↔ w <:+: p ∨ w <:+: m ∨ w <:+: cs.flatMap f := by
            rw [hw.cut '&' rfl, hw.cut ';' rfl]
        _ ↔ w <:+: p ∨ w <:+: cs := by rw [or_iff_right (hw.not_infix_short hm), htail]
        _ ↔ w <:+: p ++ c :: cs := (hw.cut c hc p cs).symm

theorem infix_escapeText (hw : Word w) (s : String) :
    w <:+: (escapeText s).toList ↔ w <:+: s.toList := by
  rw [escapeText, String.toList_ofList]
  exact hw.infix_flatMap escapes_text [] s.toList

theorem infix_escapeAttr (hw : Word w) (s : String) :
    w <:+: (escapeAttr s).toList ↔ w <:+: s.toList := by
  rw [escapeAttr, String.toList_ofList]
  exact hw.infix_flatMap escapes_attr [] s.toList

/-- Splitting a CDATA section neither makes a word nor breaks one. -/
theorem infix_cdataChars (hw : Word w) (p cs : List Char) :
    w <:+: p ++ cdataChars cs ↔ w <:+: p ++ cs := by
  induction cs using cdataChars.induct generalizing p with
  | case1 cs ih =>
    have htail : w <:+: cdataChars cs ↔ w <:+: cs := ih []
    have hword : ¬ w <:+: ['C', 'D', 'A', 'T', 'A'] :=
      hw.not_infix_short (Nat.le_of_ble_eq_true rfl)
    have hsplit : w <:+: p ++ cdataChars (']' :: ']' :: '>' :: cs) ↔ w <:+: p ∨ w <:+: cs := by
      rw [cdataChars]
      show w <:+: p ++ ']' :: ']' :: ']' :: ']' :: '>' :: '<' :: '!' :: '[' ::
        (['C', 'D', 'A', 'T', 'A'] ++ '[' :: '>' :: cdataChars cs) ↔ _
      rw [hw.cut ']' rfl, hw.skip ']' rfl, hw.skip ']' rfl, hw.skip ']' rfl, hw.skip '>' rfl,
        hw.skip '<' rfl, hw.skip '!' rfl, hw.skip '[' rfl, hw.cut '[' rfl, hw.skip '>' rfl,
        or_iff_right hword, htail]
    rw [hsplit, hw.cut ']' rfl, hw.skip ']' rfl, hw.skip '>' rfl]
  | case2 c cs hne ih =>
    have h := ih (p ++ [c])
    rw [cdataChars]
    · simpa using h
    · exact hne
  | case3 => rfl

/-! ### Attributes -/

theorem toList_printAttrs_cons (a : Attr) (as : List Attr) :
    (printAttrs (a :: as)).toList = ' ' :: (a.1.toList ++
      '=' :: '"' :: ((escapeAttr a.2).toList ++ '"' :: (printAttrs as).toList)) := by
  simp [printAttrs]

/-- A word in the attributes is inside a name or a value. -/
theorem infix_printAttrs (hw : Word w) (p : List Char) (as : List Attr) :
    w <:+: p ++ (printAttrs as).toList ↔ w <:+: p ∨ ∃ t ∈ Node.attrStrings as, w <:+: t.toList := by
  induction as generalizing p with
  | nil => simp [printAttrs, Node.attrStrings]
  | cons a as ih =>
    have htail := ih []
    rw [List.nil_append, or_iff_right hw.not_infix_nil] at htail
    rw [toList_printAttrs_cons, hw.cut ' ' rfl, hw.cut '=' rfl, hw.skip '"' rfl, hw.cut '"' rfl,
      hw.infix_escapeAttr, htail]
    simp [Node.attrStrings]

end Word

namespace Node

/-! ### The text of a tree -/

theorem toList_print_empty (s : String) (as : List Attr) :
    (element s as []).print.toList =
      '<' :: ((s.toList ++ (printAttrs as).toList) ++ '/' :: ['>']) := by
  simp [print]

theorem toList_print_cons (s : String) (as : List Attr) (c : Node) (cs : List Node) :
    (element s as (c :: cs)).print.toList = '<' :: ((s.toList ++ (printAttrs as).toList) ++
      '>' :: ((printAll (c :: cs)).toList ++ '<' :: '/' :: (s.toList ++ ['>']))) := by
  simp [print, printAll]

/-- Whatever is not character data stands between angle brackets. -/
theorem toList_print_bracketed {n : Node} (hn : n.IsTree) (h : ∀ v, n ≠ pcdata v) :
    ∃ m, n.print.toList = '<' :: (m ++ ['>']) := by
  rcases n with cs | ⟨s, as, - | ⟨c, cs⟩⟩ | v | v | as | v
  · exact absurd hn (by simp [IsTree])
  · refine ⟨s.toList ++ (printAttrs as).toList ++ ['/'], ?_⟩
    simp [toList_print_empty]
  · refine ⟨(s.toList ++ (printAttrs as).toList) ++
      '>' :: ((printAll (c :: cs)).toList ++ '<' :: '/' :: s.toList), ?_⟩
    simp [toList_print_cons]
  · exact absurd rfl (h v)
  · refine ⟨"![CDATA[".toList ++ cdataChars v.toList ++ "]]".toList, ?_⟩
    simp [print, printCdata]
  · exact absurd hn (by simp [IsTree])
  · exact absurd hn (by simp [IsTree])

/-- Text between angle brackets is cut off from what stands beside it. -/
theorem infix_bracketed {w : List Char} (hw : Word w) (p m q : List Char) :
    w <:+: p ++ ('<' :: (m ++ ['>']) ++ q) ↔
      w <:+: p ∨ w <:+: '<' :: (m ++ ['>']) ∨ w <:+: q := by
  have hright : w <:+: '<' :: (m ++ ['>']) ↔ w <:+: m := by
    rw [hw.skip '<' rfl, hw.cut '>' rfl, or_iff_left hw.not_infix_nil]
  show w <:+: p ++ '<' :: (m ++ ['>'] ++ q) ↔ _
  rw [hright, hw.cut '<' rfl, List.append_assoc]
  show _ ∨ w <:+: m ++ '>' :: q ↔ _
  rw [hw.cut '>' rfl]

/-- A word in a CDATA section is inside its text. -/
theorem infix_printCdata {w : List Char} (hw : Word w) (v : String) :
    w <:+: (printCdata v).toList ↔ w <:+: v.toList := by
  have htext : (printCdata v).toList = '<' :: '!' :: '[' ::
      (['C', 'D', 'A', 'T', 'A'] ++ '[' :: (cdataChars v.toList ++ ']' :: [']', '>'])) := by
    simp [printCdata]
  have hword : ¬ w <:+: ['C', 'D', 'A', 'T', 'A'] :=
    hw.not_infix_short (Nat.le_of_ble_eq_true rfl)
  have hend : ¬ w <:+: [']', '>'] := hw.not_infix_short (Nat.le_of_ble_eq_true rfl)
  rw [htext, hw.skip '<' rfl, hw.skip '!' rfl, hw.skip '[' rfl, hw.cut '[' rfl, hw.cut ']' rfl,
    or_iff_right hword, or_iff_left hend]
  exact hw.infix_cdataChars [] v.toList

theorem escapeText_empty : escapeText "" = "" := by simp [escapeText]

theorem exists_strings_element (s : String) (as : List Attr) (cs : List Node)
    (P : String → Prop) : (∃ t ∈ (element s as cs).strings, P t) ↔
      (P s ∨ ∃ t ∈ attrStrings as, P t) ∨ ∃ t ∈ stringsAll "" cs, P t := by
  rw [strings]
  simp only [List.exists_mem_cons_iff, List.mem_append, or_and_right, exists_or, or_assoc]

mutual

/-- **A word occurs in the text of a tree** exactly when it occurs inside one of
the strings of the tree. -/
theorem infix_print {w : List Char} (hw : Word w) : ∀ n : Node, n.IsTree →
    (w <:+: n.print.toList ↔ ∃ t ∈ n.strings, w <:+: t.toList)
  | element s as [], _ => by
    rw [toList_print_empty, hw.skip '<' rfl, hw.cut '/' rfl,
      or_iff_left (hw.not_infix_short (Nat.le_of_ble_eq_true rfl)), hw.infix_printAttrs]
    -- without children there is one more string, the empty run
    have hempty : ¬ ∃ t ∈ stringsAll "" [], w <:+: t.toList := by
      rintro ⟨t, ht, h⟩
      obtain rfl := List.mem_singleton.mp ht
      exact hw.not_infix_nil h
    rw [exists_strings_element, or_iff_left hempty]
  | element s as (c :: cs), h => by
    have hcs := infix_printAll hw (c :: cs) h ""
    rw [escapeText_empty, String.toList_empty, List.nil_append] at hcs
    have hend : w <:+: s.toList ++ ['>'] ↔ w <:+: s.toList := by
      rw [hw.cut '>' rfl, or_iff_left hw.not_infix_nil]
    rw [toList_print_cons, hw.skip '<' rfl, hw.cut '>' rfl, hw.infix_printAttrs,
      hw.cut '<' rfl, hw.skip '/' rfl, hend, hcs]
    -- the name of the end tag is that of the start tag
    rw [exists_strings_element, ← or_assoc]
    exact or_iff_left_of_imp fun hs => Or.inl (Or.inl hs)
  | pcdata v, _ => by
    show w <:+: (escapeText v).toList ↔ _
    rw [hw.infix_escapeText]
    simp [strings]
  | cdata v, _ => by
    show w <:+: (printCdata v).toList ↔ _
    rw [infix_printCdata hw]
    simp [strings]

/-- The same for siblings that follow the character data `run`. -/
theorem infix_printAll {w : List Char} (hw : Word w) : ∀ ns : List Node, AllTrees ns →
    ∀ run : String, (w <:+: (escapeText run).toList ++ (printAll ns).toList ↔
      ∃ t ∈ stringsAll run ns, w <:+: t.toList)
  | [], _, run => by
    rw [printAll, String.toList_empty, List.append_nil, hw.infix_escapeText]
    simp [stringsAll]
  | n :: ns, h, run => by
    by_cases hn : ∃ v, n = pcdata v
    · -- the character data continues
      obtain ⟨v, rfl⟩ := hn
      have hjoin : (escapeText run).toList ++ (printAll (pcdata v :: ns)).toList =
          (escapeText (run ++ v)).toList ++ (printAll ns).toList := by
        simp [printAll, print, escapeText]
      rw [hjoin]
      exact infix_printAll hw ns h.2 (run ++ v)
    · -- markup ends it
      have hn' : ∀ v, n ≠ pcdata v := fun v hv => hn ⟨v, hv⟩
      obtain ⟨m, hm⟩ := toList_print_bracketed h.1 hn'
      have hprint := infix_print hw n h.1
      have htail := infix_printAll hw ns h.2 ""
      rw [escapeText_empty, String.toList_empty, List.nil_append] at htail
      rw [hm] at hprint
      rw [printAll, String.toList_append, hm, infix_bracketed hw, hw.infix_escapeText,
        hprint, htail, stringsAll_cons run hn']
      simp only [List.exists_mem_cons_iff, List.mem_append, or_and_right, exists_or]

end

end Node

end Xml
