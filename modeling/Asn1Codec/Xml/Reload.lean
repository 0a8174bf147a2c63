/-
Asn1Codec/Xml/Reload.lean

What a parser makes of a tree that has been written out as text.

Reading back is not the identity.  Neighbouring character data is read as one
node, line ends are normalised, character data that is nothing but white space
is dropped, and, when the parser is asked to, the rest is trimmed.  A CDATA
section comes back as the sections it was spread over, and a document without a
declaration as one with the declaration it was given, if declarations are kept.
Elements and attributes survive.  `reload o` is this map for the parse options
`o`.

Since no element is affected, every search by name finds in the reloaded tree
the reloaded image of what it found before (`select_reload`, `child_reload`),
by way of the images of the nodes that led there (`locate_reload`).
A tree of elements whose texts no parse changes (`Kept`) is a fixed point
(`reload_eq_self`).
-/
import Asn1Codec.Xml.Write

namespace Xml

/-- Parse options on top of a parser's defaults: keep the declaration, keep the
doctype, trim character data. -/
structure ParseOptions where
  parseDeclaration : Bool
  parseDoctype : Bool
  parseTrimPcdata : Bool

/-- The defaults: escapes are expanded, line ends normalised, white space
between elements dropped. -/
def parseDefault : ParseOptions := ⟨false, false, false⟩

/-! ### Text -/

/-- The characters a parser counts as white space. -/
def isSpace (c : Char) : Bool := c == ' ' || c == '\t' || c == '\n' || c == '\r'

/-- Line ends become line feeds. -/
def normalizeEol : List Char → List Char
  | '\r' :: '\n' :: cs => '\n' :: normalizeEol cs
  | '\r' :: cs => '\n' :: normalizeEol cs
  | c :: cs => c :: normalizeEol cs
  | [] => []

def trimChars (cs : List Char) : List Char :=
  ((cs.dropWhile isSpace).reverse.dropWhile isSpace).reverse

/-- A character in front of the first of some texts. -/
def consHead (c : Char) : List (List Char) → List (List Char)
  | [] => [[c]]
  | p :: ps => (c :: p) :: ps

/-- The texts of the sections over which a CDATA section is spread: the `]]` of
a `]]>` ends one, and the `>` begins the next. -/
def cdataSections : List Char → List (List Char)
  | ']' :: ']' :: '>' :: cs => [']', ']'] :: consHead '>' (cdataSections cs)
  | c :: cs => consHead c (cdataSections cs)
  | [] => [[]]

/-- Character data as it is read back; `none` when it is dropped. -/
def readPcdata (o : ParseOptions) (v : String) : Option String :=
  if v.toList.all isSpace then none
  else
    let cs := normalizeEol v.toList
    some (String.ofList (if o.parseTrimPcdata then trimChars cs else cs))

namespace Node

/-! ### The map -/

/-- Neighbouring character data is one run of text. -/
def joinPcdata (n : Node) (ns : List Node) : List Node :=
  match n, ns with
  | pcdata v, pcdata w :: ms => pcdata (v ++ w) :: ms
  | n, ms => n :: ms

/-- A child as it is read back: nothing, if it is not kept, and several nodes
where a CDATA section had to be spread. -/
def readBack (o : ParseOptions) : Node → List Node
  | pcdata v => ((readPcdata o v).map pcdata).toList
  | cdata v => (cdataSections (normalizeEol v.toList)).map fun cs => cdata (String.ofList cs)
  | n => [n]

/-- Outside the root element only what the options ask for is kept, and CDATA. -/
def keepTop (o : ParseOptions) : Node → Bool
  | element .. => true
  | cdata _ => true
  | declaration _ => o.parseDeclaration
  | doctype _ => o.parseDoctype
  | _ => false

mutual

/-- The tree that parsing the written tree yields. -/
def reload (o : ParseOptions) : Node → Node
  | document cs =>
    document (((declared (reloadAll o cs)).filter (keepTop o)).flatMap (readBack o))
  | element s as cs => element s as ((reloadAll o cs).flatMap (readBack o))
  | n => n

/-- The children of a written tree, runs of text joined. -/
def reloadAll (o : ParseOptions) : List Node → List Node
  | [] => []
  | n :: ns => joinPcdata (reload o n) (reloadAll o ns)

end

/-! ### Searching by name -/

def isElement : Node → Bool
  | element .. => true
  | _ => false

theorem isElement_of_named {s : String} {n : Node} (h : n.named s = true) :
    n.isElement = true := by
  obtain ⟨as, cs, rfl⟩ := named_iff.mp h
  rfl

theorem named_of_not_isElement {n : Node} (h : n.isElement = false) (s : String) :
    n.named s = false := by
  rcases e : n.named s with - | -
  · rfl
  · exact absurd (isElement_of_named e) (by simp [h])

/-- The node `locate` finds. -/
def select (path : List String) (n : Node) : Option Node :=
  (locate path n).bind fun q => n.at? q

/-- **An edit no nearer than the path reaches, and not where it leads**, does not
change what is found. -/
theorem select_mapAt {f : Node → Node} (hf : ∀ s m, (f m).named s = m.named s)
    {path : List String} {w : Loc} {n : Node} (hlen : path.length ≤ w.length)
    (hbeside : ∀ q, locate path n = some q → ¬ q <+: w) :
    select path (mapAt f w n) = select path n := by
  rw [select, select, locate_mapAt hf hlen]
  rcases h : locate path n with - | q
  · rfl
  · have hqw : ¬ q <+: w := hbeside q h
    have hwq : ¬ w <+: q := by
      intro habove
      have hle : q.length ≤ w.length := by rwa [length_of_locate h]
      exact hqw (habove.eq_of_length_le hle ▸ List.prefix_refl q)
    exact at?_mapAt_beside f hwq hqw n

@[simp] theorem select_nil (n : Node) : select [] n = some n := at?_nil n

/-- The node at a location whose first index counts from `i`. -/
def atFrom (ns : List Node) (i : ℕ) : Loc → Option Node
  | [] => none
  | j :: r => ns[j - i]?.bind fun c => c.at? r

theorem locateIn_bind_atFrom {s : String} {k : Node → Option Loc}
    (hk : ∀ c r, k c = some r → (c.at? r).isSome) (ns : List Node) (i : ℕ) :
    (locateIn s k i ns).bind (atFrom ns i) =
      ns.findSome? fun c => if c.named s then (k c).bind fun r => c.at? r else none := by
  induction ns generalizing i with
  | nil => rfl
  | cons n ns ih =>
    have hrest : (locateIn s k (i + 1) ns).bind (atFrom (n :: ns) i) =
        (locateIn s k (i + 1) ns).bind (atFrom ns (i + 1)) := by
      rcases hl : locateIn s k (i + 1) ns with - | q
      · rfl
      · obtain ⟨j, c, r, rfl, -, -, -⟩ := locateIn_some hl
        have h1 : i + 1 + j - i = j + 1 := by omega
        have h2 : i + 1 + j - (i + 1) = j := by omega
        simp [atFrom, h1, h2]
    rw [locateIn, List.findSome?_cons]
    rcases hs : n.named s with - | -
    · simpa [hrest] using ih (i + 1)
    · rcases hr : k n with - | r
      · simpa [hr, hrest] using ih (i + 1)
      · obtain ⟨m, hm⟩ := Option.isSome_iff_exists.mp (hk n r hr)
        simp [hm, atFrom]

/-- The search one name at a time. -/
theorem select_cons (s : String) (path : List String) (n : Node) :
    select (s :: path) n =
      n.children.findSome? fun c => if c.named s then select path c else none := by
  have hk : ∀ c r, locate path c = some r → (c.at? r).isSome := by
    intro c r hr
    obtain ⟨m, hm, -⟩ := at?_of_locate hr
    rw [hm]; rfl
  show _ = n.children.findSome? fun c =>
    if c.named s then (locate path c).bind fun r => c.at? r else none
  rw [← locateIn_bind_atFrom hk n.children 0, select, locate_cons]
  rcases hl : locateIn s (locate path) 0 n.children with - | q
  · rfl
  · obtain ⟨j, c, r, rfl, -, -, -⟩ := locateIn_some hl
    simp [atFrom, at?_cons]

/-- A search among children sees their elements only. -/
theorem findSome?_filter_isElement {β : Type} {f : Node → Option β}
    (hf : ∀ n, n.isElement = false → f n = none) (ns : List Node) :
    (ns.filter isElement).findSome? f = ns.findSome? f := by
  induction ns with
  | nil => rfl
  | cons n ns ih =>
    rcases h : n.isElement with - | -
    · simp [h, ih, hf n h]
    · simp [h, List.findSome?_cons, ih]

theorem find?_named_filter_isElement (s : String) (ns : List Node) :
    (ns.filter isElement).find? (named s) = ns.find? (named s) := by
  induction ns with
  | nil => rfl
  | cons n ns ih =>
    rcases h : n.isElement with - | -
    · simp [h, ih, named_of_not_isElement h s]
    · simp [h, List.find?_cons, ih]

/-- An element that is the only one of its name is gone once it is removed. -/
theorem child_eraseIdx {s : String} {ns ms : List Node} {T : Node} {i : ℕ}
    (helements : ns.filter isElement = ms ++ [T]) (hms : ms.find? (named s) = none)
    (hi : ns[i]? = some T) (hT : T.named s = true) : (ns.eraseIdx i).find? (named s) = none := by
  have hcount : ns.countP (named s) = 1 := by
    have hfilter : (ns.filter isElement).countP (named s) = ns.countP (named s) := by
      rw [List.countP_filter]
      refine List.countP_congr fun n _ => ?_
      simp only [Bool.and_eq_true, and_iff_left_iff_imp]
      exact isElement_of_named
    have hnone : ms.countP (named s) = 0 :=
      List.countP_eq_zero.mpr (List.find?_eq_none.mp hms)
    rw [← hfilter, helements, List.countP_append, hnone]
    simp [hT]
  obtain ⟨hlt, hget⟩ := List.getElem?_eq_some_iff.mp hi
  have hsplit : ns = ns.take i ++ T :: ns.drop (i + 1) := by
    rw [← hget, ← List.drop_eq_getElem_cons hlt, List.take_append_drop]
  rw [hsplit, List.countP_append, List.countP_cons_of_pos hT] at hcount
  rw [List.find?_eq_none, ← List.countP_eq_zero, List.eraseIdx_eq_take_drop_succ,
    List.countP_append]
  omega

/-! ### Reloading keeps the elements -/

variable {o : ParseOptions}

@[simp] theorem isElement_reload (n : Node) : (reload o n).isElement = n.isElement := by
  cases n <;> rfl

@[simp] theorem named_reload (s : String) (n : Node) : (reload o n).named s = n.named s := by
  cases n <;> simp [reload, named]

theorem filter_isElement_joinPcdata (n : Node) (ns : List Node) :
    (joinPcdata n ns).filter isElement = (n :: ns).filter isElement := by
  unfold joinPcdata
  split
  · rfl
  · rfl

theorem filter_isElement_reloadAll (ns : List Node) :
    (reloadAll o ns).filter isElement = (ns.filter isElement).map (reload o) := by
  induction ns with
  | nil => rfl
  | cons n ns ih =>
    rw [reloadAll, filter_isElement_joinPcdata, List.filter_cons, List.filter_cons,
      isElement_reload, ih]
    split <;> simp

theorem filter_isElement_readBack (ns : List Node) :
    (ns.flatMap (readBack o)).filter isElement = ns.filter isElement := by
  induction ns with
  | nil => rfl
  | cons n ns ih =>
    rw [List.flatMap_cons, List.filter_append, ih]
    cases n with
    | pcdata v =>
      rcases h : readPcdata o v with - | w <;> simp [readBack, h, isElement]
    | cdata v =>
      -- sections are text, however many there are
      have hnone : (readBack o (cdata v)).filter isElement = [] := by
        rw [readBack, List.filter_map, List.filter_eq_nil_iff.mpr (fun _ _ => by simp [isElement])]
        rfl
      rw [hnone, List.filter_cons]
      rfl
    | _ => simp [readBack, List.filter_cons, isElement]

theorem filter_isElement_declared (ns : List Node) :
    (declared ns).filter isElement = ns.filter isElement := by
  rw [declared]
  split
  · rfl
  · rfl

theorem filter_isElement_keepTop (ns : List Node) :
    (ns.filter (keepTop o)).filter isElement = ns.filter isElement := by
  rw [List.filter_filter]
  refine List.filter_congr fun n _ => ?_
  cases n <;> simp [isElement, keepTop]

/-- The elements among the children of a reloaded node are the reloaded
elements among its children. -/
theorem filter_isElement_children_reload (n : Node) :
    (reload o n).children.filter isElement = (n.children.filter isElement).map (reload o) := by
  cases n with
  | document cs =>
    rw [reload, children, children, filter_isElement_readBack, filter_isElement_keepTop,
      filter_isElement_declared, filter_isElement_reloadAll]
  | element s as cs =>
    rw [reload, children, children, filter_isElement_readBack, filter_isElement_reloadAll]
  | _ => rfl

theorem child_reload (s : String) (n : Node) :
    (reload o n).child s = (n.child s).map (reload o) := by
  rw [child, ← find?_named_filter_isElement, filter_isElement_children_reload, List.find?_map,
    child, ← find?_named_filter_isElement s n.children]
  congr 2
  funext m
  simp

/-- **A search by name finds the reloaded image of what it found before.** -/
theorem select_reload (path : List String) (n : Node) :
    select path (reload o n) = (select path n).map (reload o) := by
  induction path generalizing n with
  | nil => simp
  | cons s path ih =>
    have hf : ∀ m : Node, m.isElement = false →
        (if m.named s then select path m else none) = none := by
      intro m hm
      rw [named_of_not_isElement hm s]
      rfl
    -- text is passed over by the search, and elements have elements as images
    rw [select_cons, select_cons, ← findSome?_filter_isElement hf,
      ← findSome?_filter_isElement hf n.children, filter_isElement_children_reload]
    induction n.children.filter isElement with
    | nil => rfl
    | cons c cs ihc =>
      simp only [List.map_cons, List.findSome?_cons, named_reload, ih]
      rcases hc : c.named s with - | -
      · simpa using ihc
      · rcases select path c with - | m
        · simpa using ihc
        · simp

/-! ### Where a search leads -/

/-- What `locateIn` looks for in one node, with the node. -/
def matchIn (s : String) (k : Node → Option Loc) (c : Node) : Option (Node × Loc) :=
  (if c.named s then k c else none).map fun r => (c, r)

theorem findSome?_of_locateIn {s : String} {k : Node → Option Loc} {i : ℕ} {ns : List Node}
    {q : Loc} (h : locateIn s k i ns = some q) :
    ∃ j c r, q = (i + j) :: r ∧ ns[j]? = some c ∧
      ns.findSome? (matchIn s k) = some (c, r) := by
  induction ns generalizing i with
  | nil => simp [locateIn] at h
  | cons n ns ih =>
    rw [locateIn] at h
    rcases hn : (if n.named s then k n else none) with - | r
    · rw [hn] at h
      obtain ⟨j, c, r, hq, hc, hfirst⟩ := ih h
      refine ⟨j + 1, c, r, ?_, hc, ?_⟩
      · rw [hq, Nat.add_assoc, Nat.add_comm 1 j]
      · rw [List.findSome?_cons, matchIn, hn]
        exact hfirst
    · rw [hn] at h
      refine ⟨0, n, r, (Option.some.inj h).symm, rfl, ?_⟩
      rw [List.findSome?_cons, matchIn, hn]
      rfl

theorem locateIn_of_findSome? {s : String} {k : Node → Option Loc} {ns : List Node} {c : Node}
    {r : Loc} (h : ns.findSome? (matchIn s k) = some (c, r)) (i : ℕ) :
    ∃ j, ns[j]? = some c ∧ locateIn s k i ns = some ((i + j) :: r) := by
  induction ns generalizing i with
  | nil => simp at h
  | cons n ns ih =>
    rw [List.findSome?_cons, matchIn] at h
    rw [locateIn]
    rcases hn : (if n.named s then k n else none) with - | r'
    · rw [hn] at h
      obtain ⟨j, hj, hloc⟩ := ih h (i + 1)
      refine ⟨j + 1, hj, ?_⟩
      rw [hloc, Nat.add_assoc, Nat.add_comm 1 j]
    · rw [hn] at h
      obtain ⟨rfl, rfl⟩ := Prod.mk.inj (Option.some.inj h)
      exact ⟨0, rfl, rfl⟩

/-- A path of one name finds the first child of that name. -/
theorem locate_of_child {s : String} {n c : Node} (h : n.child s = some c) :
    ∃ i, locate [s] n = some [i] ∧ n.children[i]? = some c := by
  have hfirst : n.children.findSome? (matchIn s (locate [])) = some (c, []) := by
    have key : ∀ ns : List Node, ns.find? (named s) = some c →
        ns.findSome? (matchIn s (locate [])) = some (c, []) := by
      intro ns
      induction ns with
      | nil => intro hns; simp at hns
      | cons m ns ih =>
        intro hns
        rcases hm : m.named s with - | -
        · rw [List.find?_cons_of_neg (by simp [hm])] at hns
          simpa [matchIn, hm] using ih hns
        · rw [List.find?_cons_of_pos hm] at hns
          obtain rfl := Option.some.inj hns
          simp [matchIn, hm, locate]
    exact key n.children h
  obtain ⟨i, hi, hloc⟩ := locateIn_of_findSome? hfirst 0
  rw [Nat.zero_add] at hloc
  exact ⟨i, hloc, hi⟩

theorem isSome_locate_reload (path : List String) (n : Node) :
    (locate path (reload o n)).isSome = (locate path n).isSome := by
  have hselect : ∀ m : Node, (select path m).isSome = (locate path m).isSome := by
    intro m
    rcases h : locate path m with - | q
    · simp [select, h]
    · obtain ⟨c, hc, -⟩ := at?_of_locate h
      simp [select, h, hc]
  rw [← hselect, ← hselect, select_reload, Option.isSome_map]

/-- The first node that matches has the first image that matches, where images
match as their nodes do. -/
theorem findSome?_matchIn_map {g : Node → Node} {s : String} {k : Node → Option Loc}
    (hg : ∀ e, (g e).named s = e.named s) (hk : ∀ e, (k (g e)).isSome = (k e).isSome)
    {es : List Node} {c : Node} {r : Loc} (h : es.findSome? (matchIn s k) = some (c, r)) :
    ∃ r', (es.map g).findSome? (matchIn s k) = some (g c, r') ∧ k c = some r ∧
      k (g c) = some r' := by
  induction es with
  | nil => simp at h
  | cons e es ih =>
    rw [List.findSome?_cons, matchIn] at h
    rw [List.map_cons, List.findSome?_cons, matchIn, hg]
    rcases hs : e.named s with - | -
    · rw [hs] at h
      exact ih h
    · rw [hs, if_pos rfl] at h
      rw [if_pos rfl]
      have hsome := hk e
      rcases he : k e with - | r₀
      · rw [he] at h hsome
        have hnone : k (g e) = none := by
          rw [← Option.not_isSome_iff_eq_none, hsome]
          simp
        rw [hnone]
        exact ih h
      · rw [he] at h hsome
        obtain ⟨rfl, rfl⟩ := Prod.mk.inj (Option.some.inj h)
        obtain ⟨r', hr'⟩ := Option.isSome_iff_exists.mp hsome
        exact ⟨r', by rw [hr']; rfl, he, hr'⟩

/-- **The way to what a search finds**, node by node, is the reloaded image of
the way before. -/
theorem locate_reload {path : List String} {n : Node} {q : Loc} (h : locate path n = some q) :
    ∃ q', locate path (reload o n) = some q' ∧
      ∀ k, (reload o n).at? (q'.take k) = (n.at? (q.take k)).map (reload o) := by
  induction path generalizing n q with
  | nil =>
    obtain rfl := Option.some.inj h
    exact ⟨[], rfl, fun k => by simp⟩
  | cons s path ih =>
    obtain ⟨i, c, r, rfl, hc, hfirst⟩ := findSome?_of_locateIn h
    have hmatch : ∀ m : Node, m.isElement = false → matchIn s (locate path) m = none := by
      intro m hm
      simp [matchIn, named_of_not_isElement hm s]
    rw [← findSome?_filter_isElement hmatch] at hfirst
    obtain ⟨r₁, hr₁, hcr, hcr₁⟩ :=
      findSome?_matchIn_map (named_reload s) (isSome_locate_reload path) hfirst
    -- below the child the way is that of the rest of the path
    obtain ⟨r', hr', hway⟩ := ih hcr
    obtain rfl : r₁ = r' := Option.some.inj (hcr₁.symm.trans hr')
    rw [← filter_isElement_children_reload, findSome?_filter_isElement hmatch] at hr₁
    obtain ⟨j, hj, hloc⟩ := locateIn_of_findSome? hr₁ 0
    refine ⟨j :: r₁, by simpa [locate_cons] using hloc, fun k => ?_⟩
    rcases k with - | k
    · simp
    · rw [Nat.zero_add, List.take_succ_cons, List.take_succ_cons, at?_cons, at?_cons, hj, hc]
      exact hway k

/-! ### Trees that read back as they are -/

/-- Character data that no parse changes: it neither begins nor ends with white
space, and holds no carriage return. -/
structure KeptText (v : String) : Prop where
  head : ∃ c, v.toList.head? = some c ∧ isSpace c = false
  last : ∃ c, v.toList.getLast? = some c ∧ isSpace c = false
  eol : '\r' ∉ v.toList

/-- A tree of elements, each with one kept text or with elements in it. -/
inductive Kept : Node → Prop
  | text {s as v} : KeptText v → Kept (element s as [pcdata v])
  | elements {s as cs} : (∀ c ∈ cs, Kept c) → Kept (element s as cs)

theorem isElement_of_kept {n : Node} (h : Kept n) : n.isElement = true := by
  cases h <;> rfl

theorem normalizeEol_eq_self {cs : List Char} (h : '\r' ∉ cs) : normalizeEol cs = cs := by
  induction cs with
  | nil => rfl
  | cons c cs ih =>
    rw [List.mem_cons, not_or] at h
    rw [normalizeEol, ih h.2]
    · rintro _ rfl _
      exact h.1 rfl
    · rintro rfl
      exact h.1 rfl

theorem dropWhile_eq_self {cs : List Char} (h : ∃ c, cs.head? = some c ∧ isSpace c = false) :
    cs.dropWhile isSpace = cs := by
  obtain ⟨c, hc, hspace⟩ := h
  obtain ⟨cs, rfl⟩ := List.head?_eq_some_iff.mp hc
  simp [hspace]

theorem readPcdata_eq_self {v : String} (h : KeptText v) : readPcdata o v = some v := by
  obtain ⟨c, hc, hspace⟩ := h.head
  have hall : v.toList.all isSpace = false := by
    obtain ⟨cs, hcs⟩ := List.head?_eq_some_iff.mp hc
    simp [hcs, hspace]
  have htrim : trimChars v.toList = v.toList := by
    rw [trimChars, dropWhile_eq_self h.head, dropWhile_eq_self, List.reverse_reverse]
    rw [List.head?_reverse]
    exact h.last
  simp only [readPcdata, hall, Bool.false_eq_true, if_false, normalizeEol_eq_self h.eol, htrim,
    ite_self, String.ofList_toList]

/-- Elements that are their own images are read back as they are. -/
theorem reloadAll_eq_self {cs : List Node} (h : ∀ c ∈ cs, c.isElement = true ∧ reload o c = c) :
    reloadAll o cs = cs := by
  induction cs with
  | nil => rfl
  | cons c cs ih =>
    rw [List.forall_mem_cons] at h
    rw [reloadAll, ih h.2, h.1.2]
    cases c with
    | element s as ds => rfl
    | _ => exact absurd h.1.1 (by simp [isElement])

/-- So are children that each come back as they are. -/
theorem flatMap_readBack_eq_self {cs : List Node} (h : ∀ c ∈ cs, readBack o c = [c]) :
    cs.flatMap (readBack o) = cs := by
  rw [List.flatMap_congr h, List.flatMap_singleton']

theorem readBack_of_isElement {n : Node} (h : n.isElement = true) : readBack o n = [n] := by
  cases n with
  | element s as cs => rfl
  | _ => exact absurd h (by simp [isElement])

/-- **A kept tree reads back as it is**, whatever the options. -/
theorem reload_eq_self {n : Node} (h : Kept n) : reload o n = n := by
  induction h with
  | text hv => simp [reload, reloadAll, joinPcdata, readBack, readPcdata_eq_self hv]
  | elements hcs ih =>
    have hall := fun c hc => isElement_of_kept (hcs c hc)
    rw [reload, reloadAll_eq_self fun c hc => ⟨hall c hc, ih c hc⟩,
      flatMap_readBack_eq_self fun c hc => readBack_of_isElement (hall c hc)]

/-- So does a document of one, where declarations are not kept. -/
theorem reload_document_eq_self (ho : o.parseDeclaration = false) {n : Node} (h : Kept n) :
    reload o (document [n]) = document [n] := by
  have hall : ∀ c ∈ [n], c.isElement = true ∧ reload o c = c := by
    intro c hc
    obtain rfl := List.mem_singleton.mp hc
    exact ⟨isElement_of_kept h, reload_eq_self h⟩
  have htop : (declared [n]).filter (keepTop o) = [n] := by
    cases h <;> simp [declared, hasDeclaration, keepTop, ho]
  rw [reload, reloadAll_eq_self hall, htop,
    flatMap_readBack_eq_self fun c hc => readBack_of_isElement (hall c hc).1]

end Node

end Xml
