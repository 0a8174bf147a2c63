/-
Asn1Codec/Xml/Node.lean

XML documents as trees, with the small set of edits a document object model
offers: find the first child of a name, read and set the text of an element,
append and remove children.

The tree holds what a parser keeps that is told to drop comments and
processing instructions: elements, character data, CDATA sections, and at the
top level a declaration and a doctype.  Every edit is total.  An edit aimed at
a child that does not exist changes nothing, which is how an operation on a
null node handle behaves.

The laws that matter later are about edits of *different* children of one
node: they commute (`mapFirst_comm`), and a later edit of the same child absorbs
an earlier one (`mapFirst_mapFirst`).
-/
import Mathlib.Data.List.Basic
import Mathlib.Order.Basic

namespace Xml

/-- An attribute: its name and its value. -/
abbrev Attr := String × String

/-- A node of an XML document. -/
inductive Node where
  | document (children : List Node)
  | element (name : String) (attrs : List Attr) (children : List Node)
  | pcdata (value : String)
  | cdata (value : String)
  | declaration (attrs : List Attr)
  | doctype (value : String)
  deriving Inhabited

namespace Node

/-! ### Reading a node -/

/-- The name of an element; nodes of the other kinds have none. -/
def name : Node → String
  | element s _ _ => s
  | _ => ""

/-- `n.named s`: `n` is an element with the name `s`. -/
def named (s : String) : Node → Bool
  | element t _ _ => t == s
  | _ => false

def children : Node → List Node
  | document cs => cs
  | element _ _ cs => cs
  | _ => []

/-- Character data, whether escaped or in a CDATA section. -/
def isText : Node → Bool
  | pcdata _ => true
  | cdata _ => true
  | _ => false

/-- The text a text node holds. -/
def value : Node → String
  | pcdata v => v
  | cdata v => v
  | _ => ""

/-- The first child of the name `s`. -/
def child (n : Node) (s : String) : Option Node := n.children.find? (named s)

/-- The text of an element: the value of its first text child, if it has one. -/
def text? (n : Node) : Option String := (n.children.find? isText).map value

/-- The text of the first child of the name `s`, if both exist. -/
def childText? (n : Node) (s : String) : Option String := (n.child s).bind text?

theorem isSome_child_of_childText? {n : Node} {s v : String} (h : n.childText? s = some v) :
    (n.child s).isSome = true := by
  obtain ⟨c, hc, -⟩ := Option.bind_eq_some_iff.mp h
  rw [hc]
  rfl

/-! ### Editing a node -/

/-- Replace the children; a node that cannot have any stays as it is. -/
def withChildren : Node → List Node → Node
  | document _, cs => document cs
  | element s as _, cs => element s as cs
  | n, _ => n

/-- Replace the value of a text node. -/
def withValue (v : String) : Node → Node
  | pcdata _ => pcdata v
  | cdata _ => cdata v
  | n => n

/-- Apply `f` to the first element of a list that satisfies `p`. -/
def mapFirst (p : Node → Bool) (f : Node → Node) : List Node → List Node
  | [] => []
  | n :: ns => if p n then f n :: ns else n :: mapFirst p f ns

/-- Set the value of the first text node of a list; where there is none, a new
one is appended. -/
def setFirstText (v : String) : List Node → List Node
  | [] => [pcdata v]
  | n :: ns => if n.isText then n.withValue v :: ns else n :: setFirstText v ns

/-- Set the text of an element. -/
def setText (v : String) (n : Node) : Node := n.withChildren (setFirstText v n.children)

/-- Apply `f` to the first child of the name `s`. -/
def mapChild (s : String) (f : Node → Node) (n : Node) : Node :=
  n.withChildren (mapFirst (named s) f n.children)

def appendChild (n c : Node) : Node := n.withChildren (n.children ++ [c])

/-- Remove the first child of the name `s`. -/
def removeChild (s : String) (n : Node) : Node :=
  n.withChildren (n.children.eraseP (named s))

/-- Append an empty element of the name `s` unless a child of that name exists. -/
def ensureChild (s : String) (n : Node) : Node :=
  if (n.child s).isNone then n.appendChild (element s [] []) else n

/-! ### What an edit leaves alone -/

@[simp] theorem named_withChildren (s : String) (n : Node) (cs : List Node) :
    (n.withChildren cs).named s = n.named s := by
  cases n <;> rfl

@[simp] theorem withChildren_withChildren (n : Node) (cs ds : List Node) :
    (n.withChildren cs).withChildren ds = n.withChildren ds := by
  cases n <;> rfl

@[simp] theorem withChildren_children (n : Node) : n.withChildren n.children = n := by
  cases n <;> rfl

@[simp] theorem named_setText (s v : String) (n : Node) :
    (n.setText v).named s = n.named s := named_withChildren ..

@[simp] theorem named_mapChild (s t : String) (f : Node → Node) (n : Node) :
    (n.mapChild t f).named s = n.named s := named_withChildren ..

theorem children_withChildren_of_named {s : String} {n : Node} (h : n.named s)
    (cs : List Node) : (n.withChildren cs).children = cs := by
  cases n <;> first | rfl | simp [named] at h

/-- A node that can be found by name is an element. -/
theorem named_iff {s : String} {n : Node} :
    n.named s = true ↔ ∃ as cs, n = element s as cs := by
  cases n with
  | element t as cs =>
    simp only [named, beq_iff_eq, element.injEq]
    exact ⟨fun h => ⟨as, cs, h, rfl, rfl⟩, fun ⟨_, _, h, _, _⟩ => h⟩
  | _ => simp [named]

theorem name_of_named {s : String} {n : Node} (h : n.named s = true) : n.name = s := by
  obtain ⟨as, cs, rfl⟩ := named_iff.mp h
  rfl

/-- The children after an edit, for any kind of node: an edit that keeps the
empty list of children keeps the leaves. -/
theorem children_withChildren {n : Node} {f : List Node → List Node} (h : f [] = []) :
    (n.withChildren (f n.children)).children = f n.children := by
  cases n <;> simp [withChildren, children, h]

theorem named_of_isText {n : Node} (h : n.isText = true) (s : String) : n.named s = false := by
  cases n <;> simp_all [isText, named]

@[simp] theorem isText_withValue (v : String) (n : Node) :
    (n.withValue v).isText = n.isText := by
  cases n <;> rfl

@[simp] theorem withValue_withValue (v w : String) (n : Node) :
    (n.withValue v).withValue w = n.withValue w := by
  cases n <;> rfl

@[simp] theorem named_withValue (s v : String) (n : Node) :
    (n.withValue v).named s = n.named s := by
  cases n <;> rfl

/-! ### Two edits of one list of children -/

section Lists

variable {p q : Node → Bool} {f g : Node → Node}

theorem find?_mapFirst (hf : ∀ n, p n = true → p (f n) = true) (ns : List Node) :
    (mapFirst p f ns).find? p = (ns.find? p).map f := by
  induction ns with
  | nil => rfl
  | cons n ns ih =>
    rcases h : p n with - | -
    · simp [mapFirst, h, ih]
    · simp [mapFirst, h, hf n h]

/-- An edit of the first `p` does not change what the first `q` is, when it
keeps every node on its side of `q`. -/
theorem find?_mapFirst_of_ne (hpq : ∀ n, p n = true → q n = false)
    (hf : ∀ n, q (f n) = q n) (ns : List Node) :
    (mapFirst p f ns).find? q = ns.find? q := by
  induction ns with
  | nil => rfl
  | cons n ns ih =>
    rcases h : p n with - | -
    · simp [mapFirst, h, List.find?_cons, ih]
    · simp [mapFirst, h, hf, hpq n h]

/-- The second of two edits of the same child absorbs the first. -/
theorem mapFirst_mapFirst (hf : ∀ n, p n = true → p (f n) = true) (ns : List Node) :
    mapFirst p g (mapFirst p f ns) = mapFirst p (g ∘ f) ns := by
  induction ns with
  | nil => rfl
  | cons n ns ih =>
    rcases h : p n with - | -
    · simp [mapFirst, h, ih]
    · simp [mapFirst, h, hf n h]

/-- Edits of different children commute. -/
theorem mapFirst_comm (hpq : ∀ n, p n = true → q n = false)
    (hf : ∀ n, q (f n) = q n) (hg : ∀ n, p (g n) = p n) (ns : List Node) :
    mapFirst p f (mapFirst q g ns) = mapFirst q g (mapFirst p f ns) := by
  induction ns with
  | nil => rfl
  | cons n ns ih =>
    rcases hp : p n with - | - <;> rcases hq : q n with - | -
    · simp [mapFirst, hp, hq, ih]
    · simp [mapFirst, hp, hq, hg]
    · simp [mapFirst, hp, hq, hf]
    · simp [hpq n hp] at hq

theorem getElem?_mapFirst_of_not {p : Node → Bool} {f : Node → Node} {ns : List Node} {i : ℕ}
    {n : Node} (hn : ns[i]? = some n) (hp : p n = false) : (mapFirst p f ns)[i]? = some n := by
  induction ns generalizing i with
  | nil => simp at hn
  | cons m ns ih =>
    rcases i with - | i
    · obtain rfl := Option.some.inj hn
      simp [mapFirst, hp]
    · rcases h : p m with - | -
      · simpa [mapFirst, h] using ih hn
      · simpa [mapFirst, h] using hn

/-- A second text setting absorbs the first. -/
theorem setFirstText_setFirstText (v w : String) (ns : List Node) :
    setFirstText w (setFirstText v ns) = setFirstText w ns := by
  induction ns with
  | nil => rfl
  | cons n ns ih =>
    rcases h : n.isText with - | -
    · simp [setFirstText, h, ih]
    · simp [setFirstText, h]

theorem find?_named_setFirstText (s v : String) (ns : List Node) :
    (setFirstText v ns).find? (named s) = ns.find? (named s) := by
  induction ns with
  | nil => rfl
  | cons n ns ih =>
    rcases h : n.isText with - | -
    · simp [setFirstText, h, List.find?_cons, ih]
    · simp [setFirstText, h, named_of_isText h]

theorem find?_isText_setFirstText (v : String) (ns : List Node) :
    ((setFirstText v ns).find? isText).map value = some v := by
  induction ns with
  | nil => rfl
  | cons n ns ih =>
    cases n <;> simp_all [setFirstText, isText, withValue, value]

end Lists

/-! ### Edits of one node -/

/-- An element has the text it was given. -/
theorem text?_setText {s : String} {n : Node} (h : n.named s) (v : String) :
    (n.setText v).text? = some v := by
  rw [text?, setText, children_withChildren_of_named h, find?_isText_setFirstText]

@[simp] theorem setText_setText (v w : String) (n : Node) :
    (n.setText v).setText w = n.setText w := by
  cases n <;> simp [setText, withChildren, children, setFirstText_setFirstText]

theorem child_named {n c : Node} {s : String} (h : n.child s = some c) : c.named s = true :=
  List.find?_some h

@[simp] theorem child_mapChild (s : String) (f : Node → Node)
    (hf : ∀ n, (f n).named s = n.named s) (n : Node) :
    (n.mapChild s f).child s = (n.child s).map f := by
  rw [child, mapChild, children_withChildren rfl, find?_mapFirst fun m hm => (hf m).trans hm]
  rfl

theorem named_ne {s t : String} (h : s ≠ t) (n : Node) (hn : n.named s = true) :
    n.named t = false := by
  obtain ⟨as, cs, rfl⟩ := named_iff.mp hn
  simpa [named] using h

theorem child_mapChild_of_ne {s t : String} (hst : s ≠ t) (f : Node → Node)
    (hf : ∀ n, (f n).named t = n.named t) (n : Node) :
    (n.mapChild s f).child t = n.child t := by
  rw [child, mapChild, children_withChildren rfl, find?_mapFirst_of_ne (named_ne hst) hf]
  rfl

theorem mapChild_mapChild (s : String) (f g : Node → Node)
    (hf : ∀ n, (f n).named s = n.named s) (n : Node) :
    (n.mapChild s f).mapChild s g = n.mapChild s (g ∘ f) := by
  rw [mapChild, mapChild, children_withChildren rfl, withChildren_withChildren,
    mapFirst_mapFirst fun m hm => (hf m).trans hm]
  rfl

theorem mapChild_comm {s t : String} (hst : s ≠ t) (f g : Node → Node)
    (hf : ∀ n, (f n).named t = n.named t) (hg : ∀ n, (g n).named s = n.named s) (n : Node) :
    (n.mapChild t g).mapChild s f = (n.mapChild s f).mapChild t g := by
  simp only [mapChild, children_withChildren (f := mapFirst _ _) rfl, withChildren_withChildren]
  rw [mapFirst_comm (named_ne hst) hf hg]

/-- Of two texts set in one child, the later stays. -/
theorem mapChild_setText_setText (s v w : String) (n : Node) :
    (n.mapChild s (setText v)).mapChild s (setText w) = n.mapChild s (setText w) := by
  have hfun : setText w ∘ setText v = setText w := funext (setText_setText v w)
  rw [mapChild_mapChild s _ _ fun m => named_setText s v m, hfun]

/-- Texts set in different children can be set in any order. -/
theorem mapChild_setText_comm {s t : String} (hst : s ≠ t) (v w : String) (n : Node) :
    (n.mapChild t (setText v)).mapChild s (setText w) =
      (n.mapChild s (setText w)).mapChild t (setText v) :=
  mapChild_comm hst _ _ (fun m => named_setText t w m) (fun m => named_setText s v m) n

theorem mapChild_congr {s : String} {f g : Node → Node} {n : Node}
    (h : ∀ c, n.child s = some c → f c = g c) : n.mapChild s f = n.mapChild s g := by
  have key : ∀ ns : List Node, (∀ c, ns.find? (named s) = some c → f c = g c) →
      mapFirst (named s) f ns = mapFirst (named s) g ns := by
    intro ns
    induction ns with
    | nil => intro _; rfl
    | cons m ns ih =>
      intro hm
      rcases e : m.named s with - | -
      · simp only [mapFirst, e, Bool.false_eq_true, if_false]
        rw [ih fun c hc => hm c (by simpa [List.find?_cons, e] using hc)]
      · simp [mapFirst, e, hm m (by simp [e])]
  rw [mapChild, mapChild, key n.children h]

end Node

end Xml
