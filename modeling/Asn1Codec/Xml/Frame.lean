/-
Asn1Codec/Xml/Frame.lean

What an edit of a document changes, as a relation between the node before and
the node after: `OnlyChild s R` says that the first child of the name `s` is
replaced by one that stands in `R` to it, `OnlyText v` that the first text is
replaced by `v`, and both that nothing else is.  The lists of children are
written out, so the relations do not depend on the functions that edit.

`OnlyTexts` is a sequence of such replacements.  No text decides what a path of
names leads to (`isSome_descend_setText`).
-/
import Asn1Codec.Xml.Location

namespace Xml

namespace Node

/-! ### The relations -/

/-- Only the first child of the name `s` is replaced, if there is one. -/
def OnlyChild (s : String) (R : Node → Node → Prop) (n n' : Node) : Prop :=
  n.child s = none ∧ n' = n ∨
  ∃ before m after m', n.children = before ++ m :: after ∧ (∀ x ∈ before, x.named s = false) ∧
    m.named s = true ∧ R m m' ∧ n' = n.withChildren (before ++ m' :: after)

/-- Only the first text is replaced; where there is none, it is appended. -/
def OnlyText (v : String) (n n' : Node) : Prop :=
  (∀ x ∈ n.children, x.isText = false) ∧ n' = n.withChildren (n.children ++ [pcdata v]) ∨
  ∃ before t after, n.children = before ++ t :: after ∧ (∀ x ∈ before, x.isText = false) ∧
    t.isText = true ∧ n' = n.withChildren (before ++ t.withValue v :: after)

/-- Only the texts of the first children of some names are replaced. -/
def OnlyTexts : List (String × String) → Node → Node → Prop
  | [], n, n' => n' = n
  | (s, v) :: fields, n, n' => ∃ m, OnlyChild s (OnlyText v) n m ∧ OnlyTexts fields m n'

/-! ### The edits stand in them -/

theorem mapFirst_of_forall_not {p : Node → Bool} {f : Node → Node} {ns : List Node}
    (h : ∀ n ∈ ns, p n = false) : mapFirst p f ns = ns := by
  induction ns with
  | nil => rfl
  | cons n ns ih =>
    rw [mapFirst, if_neg (by simp [h n List.mem_cons_self]),
      ih fun m hm => h m (List.mem_cons_of_mem n hm)]

theorem mapFirst_append_cons {p : Node → Bool} {f : Node → Node} {before : List Node} {m : Node}
    (hbefore : ∀ n ∈ before, p n = false) (hm : p m = true) (after : List Node) :
    mapFirst p f (before ++ m :: after) = before ++ f m :: after := by
  induction before with
  | nil => simp [mapFirst, hm]
  | cons n before ih =>
    rw [List.cons_append, mapFirst, if_neg (by simp [hbefore n List.mem_cons_self]),
      ih fun x hx => hbefore x (List.mem_cons_of_mem n hx), List.cons_append]

theorem onlyChild_mapChild {s : String} {R : Node → Node → Prop} {f : Node → Node} {n : Node}
    (h : ∀ c, n.child s = some c → R c (f c)) : OnlyChild s R n (n.mapChild s f) := by
  rcases hchild : n.child s with - | c
  · refine .inl ⟨hchild, ?_⟩
    have hnone : ∀ x ∈ n.children, x.named s = false := fun x hx => by
      simpa using List.find?_eq_none.mp hchild x hx
    rw [mapChild, mapFirst_of_forall_not hnone, withChildren_children]
  · obtain ⟨hc, before, after, hchildren, hbefore⟩ := List.find?_eq_some_iff_append.mp hchild
    have hbefore : ∀ x ∈ before, x.named s = false := fun x hx => by simpa using hbefore x hx
    refine .inr ⟨before, c, after, f c, hchildren, hbefore, hc, h c hchild, ?_⟩
    rw [mapChild, hchildren, mapFirst_append_cons hbefore hc]

theorem onlyText_setText (v : String) (n : Node) : OnlyText v n (n.setText v) := by
  have key (ns : List Node) :
      (∀ x ∈ ns, x.isText = false) ∧ setFirstText v ns = ns ++ [pcdata v] ∨
      ∃ before t after, ns = before ++ t :: after ∧ (∀ x ∈ before, x.isText = false) ∧
        t.isText = true ∧ setFirstText v ns = before ++ t.withValue v :: after := by
    induction ns with
    | nil => exact .inl ⟨by simp, rfl⟩
    | cons n ns ih =>
      rcases hn : n.isText with - | -
      · rcases ih with ⟨hall, hset⟩ | ⟨before, t, after, rfl, hbefore, ht, hset⟩
        · exact .inl ⟨by simpa [hn] using hall, by simp [setFirstText, hn, hset]⟩
        · exact .inr ⟨n :: before, t, after, rfl, by simpa [hn] using hbefore, ht,
            by simp [setFirstText, hn, hset]⟩
      · exact .inr ⟨[], n, ns, rfl, by simp, hn, by simp [setFirstText, hn]⟩
  rcases key n.children with ⟨hall, hset⟩ | ⟨before, t, after, hchildren, hbefore, ht, hset⟩
  · exact .inl ⟨hall, by rw [setText, hset]⟩
  · exact .inr ⟨before, t, after, hchildren, hbefore, ht, by rw [setText, hset]⟩

/-- One more text, set in the first child of a name. -/
theorem onlyTexts_mapChild {s v : String} {fields : List (String × String)} {n n' : Node}
    (h : OnlyTexts fields (n.mapChild s (setText v)) n') :
    OnlyTexts ((s, v) :: fields) n n' :=
  ⟨_, onlyChild_mapChild fun c _ => onlyText_setText v c, h⟩

/-! ### Where a path leads -/

theorem child_setText (v s : String) (n : Node) : (n.setText v).child s = n.child s := by
  cases n <;> simp [setText, child, withChildren, children, find?_named_setFirstText]

theorem named_mapPath {s : String} {f : Node → Node} (hf : ∀ n, (f n).named s = n.named s)
    (path : List String) (n : Node) : (mapPath f path n).named s = n.named s := by
  rcases path with - | ⟨t, path⟩
  · rw [mapPath]
    exact hf n
  · rw [mapPath, named_mapChild]

/-- A path that goes through the place of an edit. -/
theorem descend_mapPath {f : Node → Node} (hf : ∀ s n, (f n).named s = n.named s)
    (path rest : List String) (n : Node) :
    (mapPath f path n).descend (path ++ rest) =
      (n.descend path).bind fun m => (f m).descend rest := by
  induction path generalizing n with
  | nil => simp [mapPath]
  | cons s path ih =>
    rw [mapPath, List.cons_append, descend_cons, descend_cons,
      child_mapChild s _ fun m => named_mapPath (hf s) path m]
    rcases n.child s with - | c
    · rfl
    · exact ih c

/-- Setting a text leaves what any path leads to, or that it leads nowhere. -/
theorem isSome_descend_setText (v : String) (path q : List String) (n : Node) :
    ((mapPath (setText v) path n).descend q).isSome = (n.descend q).isSome := by
  induction path generalizing n q with
  | nil =>
    rcases q with - | ⟨t, q⟩
    · simp
    · rw [mapPath, descend_cons, descend_cons, child_setText]
  | cons s path ih =>
    have hnamed (t : String) (m : Node) : (mapPath (setText v) path m).named t = m.named t :=
      named_mapPath (fun n => named_setText t v n) path m
    rcases q with - | ⟨t, q⟩
    · simp
    · rw [mapPath, descend_cons, descend_cons]
      rcases eq_or_ne s t with rfl | hst
      · rw [child_mapChild s _ (hnamed s)]
        rcases n.child s with - | c
        · rfl
        · exact ih q c
      · rw [child_mapChild_of_ne hst _ (hnamed t)]

end Node

end Xml
