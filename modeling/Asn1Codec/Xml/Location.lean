/-
Asn1Codec/Xml/Location.lean

Locations in an XML tree.  A location is the list of child indices from a node
to one of its descendants; it plays the part of a node handle.  `at?` reads the
node at a location and `mapAt` edits it.

Two searches turn names into nodes.  `locate` follows a path of names with
backtracking and returns the first match in document order, which is the
result of a path query; `descend` takes the first child of each name and never
looks back, which is what a chain of child lookups does.

The lemmas are the lens laws of `mapAt` (what is read back at, above, below
and beside the edited location) and `locate_mapAt`: an edit at a depth the
path does not reach cannot change what the path finds.
-/
import Mathlib.Data.List.Forall2
import Asn1Codec.Xml.Node

namespace Xml

/-- A location: child indices, outermost first. -/
abbrev Loc := List ℕ

namespace Node

/-! ### Reading and editing at a location -/

/-- The node at a location. -/
def at? : Node → Loc → Option Node
  | n, [] => some n
  | n, i :: p => n.children[i]?.bind fun c => c.at? p

/-- Edit the node at a location; nothing happens where there is none. -/
def mapAt (f : Node → Node) : Loc → Node → Node
  | [], n => f n
  | i :: p, n => n.withChildren (n.children.modify i (mapAt f p))

/-- Remove the `i`-th child. -/
def eraseChild (i : ℕ) (n : Node) : Node := n.withChildren (n.children.eraseIdx i)

/-- Remove the node at a location other than the root. -/
def eraseAt (q : Loc) (n : Node) : Node :=
  match q.getLast? with
  | none => n
  | some i => mapAt (eraseChild i) q.dropLast n

/-! ### Following a path of names -/

/-- Search `ns`, whose first node has the index `i`, for the first node of the
name `s` below which `k` succeeds. -/
def locateIn (s : String) (k : Node → Option Loc) : ℕ → List Node → Option Loc
  | _, [] => none
  | i, n :: ns =>
    match (if n.named s then k n else none) with
    | some q => some (i :: q)
    | none => locateIn s k (i + 1) ns

/-- The location of the first descendant, in document order, whose ancestors
and itself carry the names of the path. -/
def locate : List String → Node → Option Loc
  | [], _ => some []
  | s :: path, n => locateIn s (locate path) 0 n.children

mutual

/-- The locations of the elements of the name `s`, in document order. -/
def occurrences (s : String) : Node → List Loc
  | element t _ cs => (if t = s then [[]] else []) ++ occurrencesIn s 0 cs
  | document cs => occurrencesIn s 0 cs
  | _ => []

/-- The same for a list of nodes whose first has the index `i`. -/
def occurrencesIn (s : String) : ℕ → List Node → List Loc
  | _, [] => []
  | i, n :: ns => (occurrences s n).map (i :: ·) ++ occurrencesIn s (i + 1) ns

end

/-- Follow the first child of each name in turn. -/
def descend : Node → List String → Option Node
  | n, [] => some n
  | n, s :: path => (n.child s).bind fun c => c.descend path

/-- Edit the node reached by following the first child of each name. -/
def mapPath (f : Node → Node) : List String → Node → Node
  | [], n => f n
  | s :: path, n => n.mapChild s (mapPath f path)

/-! ### The lens laws -/

@[simp] theorem at?_nil (n : Node) : n.at? [] = some n := by
  cases n <;> rfl

theorem at?_cons (n : Node) (i : ℕ) (p : Loc) :
    n.at? (i :: p) = n.children[i]?.bind fun c => c.at? p := by
  cases n <;> rfl

@[simp] theorem mapAt_nil (f : Node → Node) (n : Node) : mapAt f [] n = f n := rfl

theorem mapAt_cons (f : Node → Node) (i : ℕ) (p : Loc) (n : Node) :
    mapAt f (i :: p) n = n.withChildren (n.children.modify i (mapAt f p)) := rfl

theorem children_mapAt_cons (f : Node → Node) (i : ℕ) (p : Loc) (n : Node) :
    (mapAt f (i :: p) n).children = n.children.modify i (mapAt f p) :=
  children_withChildren (f := fun cs => cs.modify i (mapAt f p)) (by simp)

/-- Reading along `p ++ q` is reading along `p`, then along `q` from there. -/
theorem at?_append (n : Node) (p q : Loc) :
    n.at? (p ++ q) = (n.at? p).bind fun m => m.at? q := by
  induction p generalizing n with
  | nil => simp
  | cons i p ih =>
    rw [List.cons_append, at?_cons, at?_cons, Option.bind_assoc]
    exact Option.bind_congr fun c _ => ih c

theorem mapAt_append (f : Node → Node) (p q : Loc) (n : Node) :
    mapAt f (p ++ q) n = mapAt (mapAt f q) p n := by
  induction p generalizing n with
  | nil => rfl
  | cons i p ih =>
    have hfun : mapAt f (p ++ q) = mapAt (mapAt f q) p := funext ih
    rw [List.cons_append, mapAt_cons, mapAt_cons, hfun]

@[simp] theorem at?_mapAt (f : Node → Node) (p : Loc) (n : Node) :
    (mapAt f p n).at? p = (n.at? p).map f := by
  induction p generalizing n with
  | nil => simp
  | cons i p ih =>
    rw [at?_cons, children_mapAt_cons, at?_cons, List.getElem?_modify]
    rcases n.children[i]? with - | c
    · rfl
    · simpa using ih c

/-- Above the edited location, the edit shows further down. -/
theorem at?_mapAt_above (f : Node → Node) (p q : Loc) (n : Node) :
    (mapAt f (p ++ q) n).at? p = (n.at? p).map (mapAt f q) := by
  rw [mapAt_append, at?_mapAt]

/-- Below the edited location, one reads in the edited node. -/
theorem at?_mapAt_below (f : Node → Node) (p q : Loc) (n : Node) :
    (mapAt f p n).at? (p ++ q) = (n.at? p).bind fun m => (f m).at? q := by
  rw [at?_append, at?_mapAt]
  rcases n.at? p with - | m <;> rfl

/-- Beside the edited location nothing changes. -/
theorem at?_mapAt_beside (f : Node → Node) {p q : Loc} (hpq : ¬ p <+: q) (hqp : ¬ q <+: p)
    (n : Node) : (mapAt f p n).at? q = n.at? q := by
  induction p generalizing q n with
  | nil => exact absurd List.nil_prefix hpq
  | cons i p ih =>
    rcases q with - | ⟨j, q⟩
    · exact absurd List.nil_prefix hqp
    · rw [at?_cons, at?_cons, children_mapAt_cons, List.getElem?_modify]
      rcases eq_or_ne i j with rfl | hij
      · have hp : ¬ p <+: q := fun h => hpq (List.cons_prefix_cons.mpr ⟨rfl, h⟩)
        have hq : ¬ q <+: p := fun h => hqp (List.cons_prefix_cons.mpr ⟨rfl, h⟩)
        rcases n.children[i]? with - | c
        · rfl
        · simpa using ih hp hq c
      · rcases n.children[j]? with - | c <;> simp [hij]

/-- An edit of the first child of a name does not show in a child of another. -/
theorem at?_mapAt_mapChild {s : String} {f : Node → Node} {n m : Node} {p : Loc} (hp : p ≠ [])
    (hm : n.at? p = some m) (hname : m.named s = false) :
    (mapAt (mapChild s f) p.dropLast n).at? p = some m := by
  obtain ⟨q, i, rfl⟩ := (List.eq_nil_or_concat p).resolve_left hp
  rw [List.concat_eq_append] at hm ⊢
  rw [at?_append] at hm
  obtain ⟨d, hd, hi⟩ := Option.bind_eq_some_iff.mp hm
  obtain ⟨c, hc, hcm⟩ := Option.bind_eq_some_iff.mp ((at?_cons d i []).symm.trans hi)
  obtain rfl := Option.some.inj ((at?_nil c).symm.trans hcm)
  rw [List.dropLast_concat, at?_mapAt_below, hd, Option.bind_some, at?_cons, mapChild,
    children_withChildren rfl, getElem?_mapFirst_of_not hc hname]
  exact at?_nil c

theorem mapAt_mapAt (f g : Node → Node) (p : Loc) (n : Node) :
    mapAt g p (mapAt f p n) = mapAt (g ∘ f) p n := by
  induction p generalizing n with
  | nil => rfl
  | cons i p ih =>
    have hfun : mapAt g p ∘ mapAt f p = mapAt (g ∘ f) p := funext ih
    rw [mapAt_cons, children_mapAt_cons, List.modify_modify_eq, hfun, mapAt_cons,
      withChildren_withChildren, mapAt_cons]

/-- Edits that agree on the node they meet are equal. -/
theorem mapAt_congr {f g : Node → Node} {p : Loc} {n m : Node} (hm : n.at? p = some m)
    (h : f m = g m) : mapAt f p n = mapAt g p n := by
  induction p generalizing n with
  | nil =>
    obtain rfl := Option.some.inj ((at?_nil n).symm.trans hm)
    exact h
  | cons i p ih =>
    rw [at?_cons] at hm
    obtain ⟨c, hc, hcm⟩ := Option.bind_eq_some_iff.mp hm
    rw [mapAt_cons, mapAt_cons]
    congr 1
    -- only the child on the way to the location is edited
    refine List.ext_getElem? fun j => ?_
    rw [List.getElem?_modify, List.getElem?_modify]
    rcases eq_or_ne i j with rfl | hij
    · simp [hc, ih hcm]
    · simp [hij]

@[simp] theorem mapAt_id (p : Loc) (n : Node) : mapAt id p n = n := by
  induction p generalizing n with
  | nil => rfl
  | cons i p ih =>
    have hfun : mapAt id p = id := funext ih
    rw [mapAt_cons, hfun, List.modify_id, withChildren_children]

theorem mapAt_eq_self {f : Node → Node} {p : Loc} {n m : Node} (hm : n.at? p = some m)
    (h : f m = m) : mapAt f p n = n := by
  rw [mapAt_congr (g := id) hm h, mapAt_id]

/-- An edit above absorbs an edit below it that it overwrites. -/
theorem mapAt_absorb {f g : Node → Node} {p q : Loc} (h : ∀ m, g (mapAt f q m) = g m)
    (n : Node) : mapAt g p (mapAt f (p ++ q) n) = mapAt g p n := by
  rw [mapAt_append, mapAt_mapAt]
  congr 1
  exact funext h

@[simp] theorem named_mapAt_cons (s : String) (f : Node → Node) (i : ℕ) (p : Loc) (n : Node) :
    (mapAt f (i :: p) n).named s = n.named s := named_withChildren ..

theorem named_mapAt {f : Node → Node} (hf : ∀ s m, (f m).named s = m.named s) (s : String)
    (p : Loc) (n : Node) : (mapAt f p n).named s = n.named s := by
  rcases p with - | ⟨i, p⟩
  · exact hf s n
  · exact named_mapAt_cons ..

/-! ### What a path finds -/

theorem locate_cons (s : String) (path : List String) (n : Node) :
    locate (s :: path) n = locateIn s (locate path) 0 n.children := rfl

theorem locateIn_some {s : String} {k : Node → Option Loc} {i : ℕ} {ns : List Node} {q : Loc}
    (h : locateIn s k i ns = some q) :
    ∃ j c r, q = (i + j) :: r ∧ ns[j]? = some c ∧ c.named s = true ∧ k c = some r := by
  induction ns generalizing i with
  | nil => simp [locateIn] at h
  | cons n ns ih =>
    rw [locateIn] at h
    split at h
    · rename_i r hr
      rcases hn : n.named s with - | -
      · simp [hn] at hr
      · rw [if_pos hn] at hr
        exact ⟨0, n, r, (Option.some.inj h).symm, rfl, hn, hr⟩
    · obtain ⟨j, c, r, hq, hc, hs, hr⟩ := ih h
      exact ⟨j + 1, c, r, by rw [hq]; congr 1; omega, by simpa using hc, hs, hr⟩

/-- What `locate` returns is the location of a node with the right names on
the way. -/
theorem locate_cons_some {s : String} {path : List String} {n : Node} {q : Loc}
    (h : locate (s :: path) n = some q) :
    ∃ i c r, q = i :: r ∧ n.children[i]? = some c ∧ c.named s = true ∧
      locate path c = some r := by
  obtain ⟨j, c, r, hq, hc, hs, hr⟩ := locateIn_some h
  exact ⟨j, c, r, by simpa using hq, hc, hs, hr⟩

theorem length_of_locate {path : List String} {n : Node} {q : Loc}
    (h : locate path n = some q) : q.length = path.length := by
  induction path generalizing n q with
  | nil => rw [← Option.some.inj h]; rfl
  | cons s path ih =>
    obtain ⟨i, c, r, rfl, -, -, hr⟩ := locate_cons_some h
    rw [List.length_cons, List.length_cons, ih hr]

/-- A path found splits where the path of names splits. -/
theorem locate_append_some {p₁ p₂ : List String} {n : Node} {q : Loc}
    (h : locate (p₁ ++ p₂) n = some q) :
    ∃ q₁ q₂ m, q = q₁ ++ q₂ ∧ q₁.length = p₁.length ∧ n.at? q₁ = some m ∧
      locate p₂ m = some q₂ ∧ ∀ s, p₁.getLast? = some s → m.named s = true := by
  induction p₁ generalizing n q with
  | nil => exact ⟨[], q, n, rfl, rfl, at?_nil n, h, by simp⟩
  | cons s p₁ ih =>
    obtain ⟨i, c, r, rfl, hc, hs, hr⟩ := locate_cons_some h
    obtain ⟨q₁, q₂, m, rfl, hlen, hm, hq₂, hlast⟩ := ih hr
    refine ⟨i :: q₁, q₂, m, rfl, by simp [hlen], ?_, hq₂, ?_⟩
    · rw [at?_cons, hc]; exact hm
    · intro t ht
      rcases p₁ with - | ⟨s', p₁⟩
      · obtain rfl := Option.some.inj ht
        obtain rfl := List.length_eq_zero_iff.mp hlen
        obtain rfl := Option.some.inj ((at?_nil c).symm.trans hm)
        exact hs
      · exact hlast t (by simpa [List.getLast?_cons_cons] using ht)

theorem at?_of_locate {path : List String} {n : Node} {q : Loc}
    (h : locate path n = some q) :
    ∃ m, n.at? q = some m ∧ ∀ s, path.getLast? = some s → m.named s = true := by
  obtain ⟨q₁, q₂, m, rfl, -, hm, hq₂, hlast⟩ :=
    @locate_append_some path [] n q (by rwa [List.append_nil])
  obtain rfl := Option.some.inj hq₂
  exact ⟨m, by rwa [List.append_nil], hlast⟩

/-- What a path finds carries the last of its names. -/
theorem named_of_locate {path : List String} {n m : Node} {q : Loc} {s : String}
    (h : locate path n = some q) (hm : n.at? q = some m) (hs : path.getLast? = some s) :
    m.named s = true := by
  obtain ⟨m', hm', hnamed⟩ := at?_of_locate h
  obtain rfl := Option.some.inj (hm.symm.trans hm')
  exact hnamed s hs

theorem ne_nil_of_locate {s : String} {path : List String} {n : Node} {q : Loc}
    (h : locate (s :: path) n = some q) : q ≠ [] := by
  obtain ⟨i, c, r, rfl, -⟩ := locate_cons_some h
  exact List.cons_ne_nil i r

theorem locateIn_congr {s : String} {k : Node → Option Loc} {ns ms : List Node} (i : ℕ)
    (h : List.Forall₂ (fun n m => m.named s = n.named s ∧ k m = k n) ns ms) :
    locateIn s k i ms = locateIn s k i ns := by
  induction h generalizing i with
  | nil => rfl
  | cons hnm _ ih => simp only [locateIn, hnm.1, hnm.2, ih]

/-- **An edit deeper than the path reaches does not change what it finds.** -/
theorem locate_mapAt {f : Node → Node} (hf : ∀ s m, (f m).named s = m.named s)
    {path : List String} {w : Loc} (hlen : path.length ≤ w.length) (n : Node) :
    locate path (mapAt f w n) = locate path n := by
  induction path generalizing w n with
  | nil => rfl
  | cons s path ih =>
    rcases w with - | ⟨i, w⟩
    · simp at hlen
    · rw [locate_cons, locate_cons, children_mapAt_cons]
      refine locateIn_congr 0 (List.forall₂_iff_get.mpr ⟨by simp, fun j hj hj' => ?_⟩)
      simp only [List.get_eq_getElem, List.getElem_modify]
      split
      · exact ⟨named_mapAt hf s w _, ih (by simpa using hlen) _⟩
      · exact ⟨rfl, rfl⟩

/-- Nor does an edit at the place it finds, or below it. -/
theorem locate_mapAt_below {f : Node → Node} (hf : ∀ s m, (f m).named s = m.named s)
    {path : List String} {n : Node} {q : Loc} (h : locate path n = some q) (r : Loc) :
    locate path (mapAt f (q ++ r) n) = some q := by
  rw [locate_mapAt hf _ n, h]
  rw [← length_of_locate h, List.length_append]
  exact Nat.le_add_right ..

/-! ### The first child of a name, by its index -/

/-- An edit of the first child of a name is an edit at its location. -/
theorem mapChild_eq_mapAt {s : String} {n c : Node} (h : n.child s = some c) (f : Node → Node) :
    ∃ i, n.mapChild s f = mapAt f [i] n := by
  have key : ∀ ns : List Node, ns.find? (named s) = some c →
      ∃ i, mapFirst (named s) f ns = ns.modify i f := by
    intro ns
    induction ns with
    | nil => intro hns; simp at hns
    | cons m ns ih =>
      intro hns
      rcases e : m.named s with - | -
      · rw [List.find?_cons_of_neg (by simp [e])] at hns
        obtain ⟨i, hi⟩ := ih hns
        exact ⟨i + 1, by simp [mapFirst, e, hi]⟩
      · exact ⟨0, by simp [mapFirst, e]⟩
  obtain ⟨i, hi⟩ := key n.children h
  have hfun : mapAt f [] = f := funext fun _ => rfl
  exact ⟨i, by rw [mapChild, hi, mapAt_cons, hfun]⟩

/-- So is an edit of the first child of a name of a node further down. -/
theorem mapAt_mapChild_eq {s : String} {n m c : Node} {w : Loc} (hm : n.at? w = some m)
    (hc : m.child s = some c) (f : Node → Node) :
    ∃ i, mapAt (mapChild s f) w n = mapAt f (w ++ [i]) n := by
  obtain ⟨i, hi⟩ := mapChild_eq_mapAt hc f
  exact ⟨i, by rw [mapAt_append]; exact mapAt_congr hm hi⟩

/-- An edit below that keeps names keeps what children there are. -/
theorem isSome_child_mapAt {f : Node → Node} (hf : ∀ s m, (f m).named s = m.named s)
    (s : String) (i : ℕ) (n : Node) :
    ((mapAt f [i] n).child s).isSome = (n.child s).isSome := by
  have key : ∀ (ns : List Node) (i : ℕ),
      ((ns.modify i f).find? (named s)).isSome = (ns.find? (named s)).isSome := by
    -- the node keeps its names, so find? stops at the same place
    intro ns
    induction ns with
    | nil => intro i; simp
    | cons m ns ih =>
      intro i
      rcases i with - | i
      · rw [List.modify_zero_cons, List.find?_cons, List.find?_cons, hf]
        rcases m.named s <;> rfl
      · rw [List.modify_succ_cons, List.find?_cons, List.find?_cons]
        rcases m.named s
        · exact ih i
        · rfl
  have hfun : mapAt f [] = f := funext fun _ => rfl
  rw [child, children_mapAt_cons, hfun]
  exact key n.children i

/-! ### All occurrences of a name -/

theorem mem_occurrencesIn {s : String} {w : Loc} {i j : ℕ} {ns : List Node} {n : Node}
    (hn : ns[j]? = some n) (hw : w ∈ occurrences s n) :
    (i + j) :: w ∈ occurrencesIn s i ns := by
  induction ns generalizing i j with
  | nil => simp at hn
  | cons m ns ih =>
    rw [occurrencesIn, List.mem_append]
    rcases j with - | j
    · obtain rfl := Option.some.inj hn
      exact Or.inl (List.mem_map_of_mem hw)
    · refine Or.inr ?_
      have hmem := @ih (i + 1) j hn
      rwa [Nat.add_right_comm] at hmem

theorem mem_occurrences {s : String} {w : Loc} {n m : Node} (hm : n.at? w = some m)
    (hs : m.named s = true) : w ∈ occurrences s n := by
  induction w generalizing n with
  | nil =>
    obtain rfl := Option.some.inj ((at?_nil n).symm.trans hm)
    obtain ⟨as, cs, rfl⟩ := named_iff.mp hs
    simp [occurrences]
  | cons i w ih =>
    rw [at?_cons] at hm
    obtain ⟨c, hc, hcm⟩ := Option.bind_eq_some_iff.mp hm
    -- what occurs in a child occurs in the node
    have hmem : i :: w ∈ occurrencesIn s 0 n.children := by
      have h := @mem_occurrencesIn s w 0 i _ c hc (ih hcm)
      rwa [Nat.zero_add] at h
    cases n with
    | element t as cs => exact List.mem_append_right _ hmem
    | document cs => exact hmem
    | _ => simp [children] at hc

/-! ### Removing a node -/

theorem eraseAt_append (w : Loc) (i : ℕ) (n : Node) :
    eraseAt (w ++ [i]) n = mapAt (eraseChild i) w n := by
  simp [eraseAt]

theorem eraseAt_mapAt (w q : Loc) (hq : q ≠ []) (n : Node) :
    eraseAt (w ++ q) n = mapAt (eraseAt q) w n := by
  obtain ⟨r, i, rfl⟩ := List.eq_nil_or_concat q |>.resolve_left hq
  have hfun : eraseAt (r ++ [i]) = mapAt (eraseChild i) r := funext (eraseAt_append r i)
  rw [List.concat_eq_append, ← List.append_assoc, eraseAt_append, mapAt_append, hfun]

/-- An edit inside a node that is removed does not show. -/
theorem eraseChild_mapAt (f : Node → Node) (i : ℕ) (r : Loc) (n : Node) :
    eraseChild i (mapAt f (i :: r) n) = eraseChild i n := by
  rw [eraseChild, children_mapAt_cons, List.eraseIdx_modify_of_eq, mapAt_cons,
    withChildren_withChildren]
  rfl

/-- A node with a single child, once this is removed and a text set. -/
theorem setText_eraseChild {n c : Node} (h : n.children = [c]) (v : String) :
    setText v (eraseChild 0 n) = n.withChildren [.pcdata v] := by
  cases n <;> simp_all [children, eraseChild, withChildren, setText, setFirstText]

/-! ### Chains of child lookups -/

@[simp] theorem descend_nil (n : Node) : n.descend [] = some n := by
  cases n <;> rfl

theorem descend_cons (n : Node) (s : String) (path : List String) :
    n.descend (s :: path) = (n.child s).bind fun c => c.descend path := by
  cases n <;> rfl

end Node

end Xml
