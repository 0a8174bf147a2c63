/-
Asn1Codec/Xml/Retain.lean

Edits that retain a property of the node a path leads to.

A path query finds the first match in document order, so an edit of some other
node can only matter by changing what is found.  `Retains` says that it does not:
the query succeeds after the edit exactly if it did before, and a property of the
node found is not lost.  The rules follow the edits by child name, from the node
that is changed outwards; an edit of a child beside the path is one that lies
apart from it.
-/
import Asn1Codec.Xml.Apart

namespace Xml

namespace Node

/-- The node that a path leads to, if there is one, has a property. -/
def Along (P : Node → Prop) (path : List String) (n : Node) : Prop :=
  ∀ d, select path n = some d → P d

/-- An edit that retains `P` along a path. -/
structure Retains (P : Node → Prop) (path : List String) (f : Node → Node) : Prop where
  named : ∀ s n, (f n).named s = n.named s
  found : ∀ n, (select path (f n)).isSome = (select path n).isSome
  along : ∀ n, Along P path n → Along P path (f n)

namespace Retains

variable {P : Node → Prop} {path : List String} {f g : Node → Node}

/-- An edit of the node itself. -/
theorem nil (hnamed : ∀ s n, (f n).named s = n.named s) (hP : ∀ n, P n → P (f n)) :
    Retains P [] f where
  named := hnamed
  found n := by simp
  along n h := by
    intro d hd
    obtain rfl : f n = d := by simpa using hd
    exact hP n (h n (select_nil n))

theorem comp (hf : Retains P path f) (hg : Retains P path g) : Retains P path (g ∘ f) where
  named s n := (hg.named s (f n)).trans (hf.named s n)
  found n := (hg.found (f n)).trans (hf.found n)
  along n h := hg.along (f n) (hf.along n h)

/-- An edit of the first child of the next name on the path. -/
theorem mapChild (h : Retains P path f) (s : String) :
    Retains P (s :: path) (Node.mapChild s f) := by
  let k : Node → Option Node := fun c => if c.named s then select path c else none
  have hchildren (n : Node) : select (s :: path) (n.mapChild s f) =
      (mapFirst (Node.named s) f n.children).findSome? k := by
    rw [select_cons, Node.mapChild, children_withChildren rfl]
  -- the other matches stand behind the first child of the name
  have key : ∀ ns : List Node,
      ((mapFirst (Node.named s) f ns).findSome? k).isSome = (ns.findSome? k).isSome ∧
        ((∀ d, ns.findSome? k = some d → P d) →
          ∀ d, (mapFirst (Node.named s) f ns).findSome? k = some d → P d) := by
    intro ns
    induction ns with
    | nil => exact ⟨rfl, fun h => h⟩
    | cons c ns ih =>
      rcases hc : c.named s with - | -
      · simpa [mapFirst, k, hc] using ih
      · have hfc : (f c).named s = true := (h.named s c).trans hc
        have hfound := h.found c
        have halong := h.along c
        rcases hd : select path c with - | d
        · rw [hd] at hfound
          have hnone : select path (f c) = none := by simpa using hfound
          simp [mapFirst, k, hc, hfc, hd, hnone]
        · rw [hd] at hfound
          obtain ⟨d', hd'⟩ := Option.isSome_iff_exists.mp hfound
          refine ⟨by simp [mapFirst, k, hc, hfc, hd, hd'], fun hP e he => ?_⟩
          have hPd : P d := hP d (by simp [k, hc, hd])
          obtain rfl : d' = e := by simpa [mapFirst, k, hc, hfc, hd'] using he
          exact halong (fun e he => Option.some.inj (hd.symm.trans he) ▸ hPd) d' hd'
  refine ⟨fun t n => named_mapChild t s f n, fun n => ?_, fun n hn => ?_⟩
  · rw [hchildren, select_cons]
    exact (key n.children).1
  · intro d hd
    rw [hchildren] at hd
    exact (key n.children).2 (fun e he => hn e (by rw [select_cons]; exact he)) d hd

/-- An edit of a child that is not on the path. -/
theorem mapChild_of_ne (hnamed : ∀ s n, (f n).named s = n.named s) {s t : String} (hst : s ≠ t) :
    Retains P (t :: path) (Node.mapChild s f) := by
  have hsame (n : Node) : select (t :: path) (n.mapChild s f) = select (t :: path) n := by
    apply ((Edits.whole hnamed).mapChild (by simp) s).apart
    simpa using Apart.of_ne hst [] path
  refine ⟨fun u n => named_mapChild u s f n, fun n => ?_, fun n hn => ?_⟩
  · rw [hsame]
  · rw [Along, hsame]
    exact hn

end Retains

/-- Writing a tree and reading it back retains what it does not change. -/
theorem retains_reload {P : Node → Prop} {o : ParseOptions}
    (hP : ∀ n, P n → P (reload o n)) (path : List String) : Retains P path (reload o) where
  named s n := named_reload s n
  found n := by rw [select_reload, Option.isSome_map]
  along n h := by
    intro d hd
    rw [select_reload, Option.map_eq_some_iff] at hd
    obtain ⟨e, he, rfl⟩ := hd
    exact hP e (h e he)

end Node

end Xml
