/-
Asn1Codec/Xml/Descend.lean

Following first children, against the search along a path.

`descend` takes the first child of each name and gives up where one is missing;
`locate` goes on to later children.  Where the first children lead all the way,
both lead to the same place (`descend_of_locate`).  An edit at some depth that
keeps names leaves how far first children lead (`isSome_descend_mapAt`).
-/
import Asn1Codec.Xml.Reload

namespace Xml

namespace Node

theorem descend_append (n : Node) (path rest : List String) :
    n.descend (path ++ rest) = (n.descend path).bind fun m => m.descend rest := by
  induction path generalizing n with
  | nil => simp
  | cons s path ih =>
    rw [List.cons_append, descend_cons, descend_cons, Option.bind_assoc]
    exact Option.bind_congr fun c _ => ih c

theorem descend_singleton (n : Node) (s : String) : n.descend [s] = n.child s := by
  rw [descend_cons]
  simp

/-! ### Both ways -/

/-- A search that succeeds in the first child of a name ends there. -/
theorem locate_cons_of_child {s : String} {path : List String} {n c : Node} {q : Loc}
    (h : n.child s = some c) (hq : locate path c = some q) :
    ∃ i, locate (s :: path) n = some (i :: q) ∧ n.children[i]? = some c := by
  have key : ∀ ns : List Node, ns.find? (named s) = some c →
      ns.findSome? (matchIn s (locate path)) = some (c, q) := by
    intro ns
    induction ns with
    | nil => intro hns; simp at hns
    | cons m ns ih =>
      intro hns
      rcases hm : m.named s with - | -
      · rw [List.find?_cons_of_neg (by simp [hm])] at hns
        simpa [matchIn, hm] using ih hns
      · -- this is the child that child() gives, and the path goes on in it
        rw [List.find?_cons_of_pos hm] at hns
        obtain rfl := Option.some.inj hns
        simp [matchIn, hm, hq]
  obtain ⟨i, hi, hloc⟩ := locateIn_of_findSome? (key n.children h) 0
  rw [Nat.zero_add] at hloc
  exact ⟨i, hloc, hi⟩

theorem exists_locate_of_descend {path : List String} {n : Node}
    (h : (n.descend path).isSome = true) : ∃ q, locate path n = some q := by
  induction path generalizing n with
  | nil => exact ⟨[], rfl⟩
  | cons s path ih =>
    rw [descend_cons] at h
    rcases hc : n.child s with - | c
    · rw [hc] at h
      cases h
    rw [hc] at h
    obtain ⟨q, hq⟩ := ih h
    obtain ⟨i, hi, -⟩ := locate_cons_of_child hc hq
    exact ⟨i :: q, hi⟩

/-- The parent of what is found is where the first children lead. -/
theorem descend_of_locate {path : List String} {s : String} {n : Node} {p : Loc}
    (hp : locate (path ++ [s]) n = some p) (h : (n.descend (path ++ [s])).isSome = true) :
    n.descend path = n.at? p.dropLast := by
  induction path generalizing n p with
  | nil =>
    obtain ⟨i, c, r, rfl, -, -, hr⟩ := locate_cons_some hp
    obtain rfl := Option.some.inj hr
    rw [descend_nil, List.dropLast_singleton, at?_nil]
  | cons t path ih =>
    rw [List.cons_append, descend_cons] at h
    rcases hc : n.child t with - | c
    · rw [hc] at h
      cases h
    rw [hc] at h
    obtain ⟨q, hq⟩ := exists_locate_of_descend h
    obtain ⟨i, hi, hchild⟩ := locate_cons_of_child hc hq
    obtain rfl : i :: q = p := Option.some.inj (hi.symm.trans hp)
    -- a step is left, so the last one of `i :: q` is the last one of `q`
    have hne : q ≠ [] := by
      rintro rfl
      have hlen := length_of_locate hq
      simp at hlen
    rw [descend_cons, hc, Option.bind_some, ih hq h, List.dropLast_cons_of_ne_nil hne, at?_cons,
      hchild, Option.bind_some]

theorem select_of_descend {path : List String} {n : Node} (h : (n.descend path).isSome = true) :
    select path n = n.descend path := by
  induction path generalizing n with
  | nil => simp
  | cons s path ih =>
    rw [descend_cons] at h ⊢
    rcases hc : n.child s with - | c
    · rw [hc] at h
      cases h
    rw [hc] at h
    obtain ⟨q, hq⟩ := exists_locate_of_descend h
    obtain ⟨i, hi, hchild⟩ := locate_cons_of_child hc hq
    rw [select, hi, Option.bind_some, at?_cons, hchild, Option.bind_some, Option.bind_some,
      ← ih h, select, hq, Option.bind_some]

/-! ### Edits further down -/

/-- The first child of a name, after an edit of some child. -/
theorem child_mapAt_cons {f : Node → Node} (hf : ∀ s m, (f m).named s = m.named s) (s : String)
    (i : ℕ) (w : Loc) (n : Node) :
    n.child s = none ∧ (mapAt f (i :: w) n).child s = none ∨
    ∃ c, n.child s = some c ∧ ((mapAt f (i :: w) n).child s = some c ∨
      (mapAt f (i :: w) n).child s = some (mapAt f w c)) := by
  rw [child, child, children_mapAt_cons]
  induction n.children generalizing i with
  | nil => exact .inl ⟨rfl, by simp⟩
  | cons m ns ih =>
    rcases hm : m.named s with - | -
    · have hm' : (mapAt f w m).named s = false := (named_mapAt hf s w m).trans hm
      cases i with
      | zero =>
        rw [List.modify_zero_cons, List.find?_cons_of_neg (by simp [hm]),
          List.find?_cons_of_neg (by simp [hm'])]
        rcases hfind : ns.find? (named s) with - | c
        · exact .inl ⟨rfl, rfl⟩
        · exact .inr ⟨c, rfl, .inl rfl⟩
      | succ i =>
        rw [List.modify_succ_cons, List.find?_cons_of_neg (by simp [hm]),
          List.find?_cons_of_neg (by simp [hm])]
        exact ih i
    · have hm' : (mapAt f w m).named s = true := (named_mapAt hf s w m).trans hm
      cases i with
      | zero =>
        rw [List.modify_zero_cons, List.find?_cons_of_pos hm, List.find?_cons_of_pos hm']
        exact .inr ⟨m, rfl, .inr rfl⟩
      | succ i =>
        rw [List.modify_succ_cons, List.find?_cons_of_pos hm, List.find?_cons_of_pos hm]
        exact .inr ⟨m, rfl, .inl rfl⟩

/-- How far first children lead does not depend on an edit as deep as that. -/
theorem isSome_descend_mapAt {f : Node → Node} (hf : ∀ s m, (f m).named s = m.named s)
    {path : List String} {w : Loc} (hlen : path.length ≤ w.length) (n : Node) :
    ((mapAt f w n).descend path).isSome = (n.descend path).isSome := by
  induction path generalizing w n with
  | nil => simp
  | cons s path ih =>
    rcases w with - | ⟨i, w⟩
    · simp at hlen
    rw [descend_cons, descend_cons]
    rcases child_mapAt_cons hf s i w n with ⟨hc, hc'⟩ | ⟨c, hc, hc' | hc'⟩
    · rw [hc, hc']
    · rw [hc, hc']
    · rw [hc, hc']
      exact ih (by simpa using hlen) c

end Node

end Xml
