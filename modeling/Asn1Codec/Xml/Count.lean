/-
Asn1Codec/Xml/Count.lean

Counting the elements of a name.

`count skip s` is the number of elements named `s`, leaving out what stands in
an element named `skip`.  Elements of one name can so be told apart from edits
that may remove a whole `skip` element.

The count adds up over children.  An edit that touches text, or elements of
other names, keeps it; a removal lowers it, by the count of what is removed.
-/
import Asn1Codec.Xml.Location

namespace Xml

namespace Node

mutual

/-- The number of elements named `s` outside the elements named `skip`. -/
def count (skip s : String) : Node → ℕ
  | element t _ cs => if t = skip then 0 else (if t = s then 1 else 0) + countAll skip s cs
  | document cs => countAll skip s cs
  | _ => 0

/-- The same for a list of nodes. -/
def countAll (skip s : String) : List Node → ℕ
  | [] => 0
  | n :: ns => count skip s n + countAll skip s ns

end

section Count

variable {skip s : String}

/-! ### Lists of nodes -/

/-- Text holds no elements. -/
theorem count_of_isText {n : Node} (h : n.isText = true) : count skip s n = 0 := by
  cases n <;> simp_all [isText, count]

theorem count_of_named_skip {n : Node} (h : n.named skip = true) : count skip s n = 0 := by
  obtain ⟨as, cs, rfl⟩ := named_iff.mp h
  simp [count]

@[simp] theorem countAll_append (ns ms : List Node) :
    countAll skip s (ns ++ ms) = countAll skip s ns + countAll skip s ms := by
  induction ns with
  | nil => simp [countAll]
  | cons n ns ih => rw [List.cons_append, countAll, countAll, ih, Nat.add_assoc]

/-- An edit of one child that keeps its count keeps the sum. -/
theorem countAll_mapFirst {p : Node → Bool} {f : Node → Node}
    (hf : ∀ n, count skip s (f n) = count skip s n) (ns : List Node) :
    countAll skip s (mapFirst p f ns) = countAll skip s ns := by
  induction ns with
  | nil => rfl
  | cons n ns ih =>
    rcases h : p n with - | -
    · simp [mapFirst, h, countAll, ih]
    · simp [mapFirst, h, countAll, hf]

/-- Only the text of a list of siblings is changed. -/
theorem countAll_setFirstText (v : String) (ns : List Node) :
    countAll skip s (setFirstText v ns) = countAll skip s ns := by
  induction ns with
  | nil => rfl
  | cons n ns ih =>
    rcases h : n.isText with - | -
    · simp [setFirstText, h, countAll, ih]
    · simp [setFirstText, h, countAll, count_of_isText]

/-- What is removed here stood outside the count. -/
theorem countAll_eraseP (ns : List Node) :
    countAll skip s (ns.eraseP (named skip)) = countAll skip s ns := by
  induction ns with
  | nil => rfl
  | cons n ns ih =>
    rcases h : n.named skip with - | -
    · simp [h, countAll, ih]
    · simp [h, countAll, count_of_named_skip]

/-- What an edit of one child adds up to. -/
theorem countAll_modify {f : Node → Node} {i : ℕ} {ns : List Node} {c : Node}
    (hc : ns[i]? = some c) :
    countAll skip s (ns.modify i f) + count skip s c =
      countAll skip s ns + count skip s (f c) := by
  induction ns generalizing i with
  | nil => simp at hc
  | cons n ns ih =>
    rcases i with - | i
    · -- the child is the first one
      obtain rfl := Option.some.inj hc
      simp only [List.modify_zero_cons, countAll]
      omega
    · have hrest := ih (i := i) hc
      simp only [List.modify_succ_cons, countAll]
      omega

theorem countAll_modify_le {f : Node → Node} (hf : ∀ n, count skip s (f n) ≤ count skip s n)
    (i : ℕ) (ns : List Node) : countAll skip s (ns.modify i f) ≤ countAll skip s ns := by
  rcases hc : ns[i]? with - | c
  · -- there is no such child
    have hsame : ns.modify i f = ns := List.modify_eq_self (List.getElem?_eq_none_iff.mp hc)
    exact Nat.le_of_eq (congrArg _ hsame)
  · have hsum := @countAll_modify skip s f i ns c hc
    have hle := hf c
    omega

/-- A child with fewer of the elements lowers the sum. -/
theorem countAll_modify_lt {f : Node → Node} {i : ℕ} {ns : List Node} {c : Node}
    (hc : ns[i]? = some c) (hf : count skip s (f c) < count skip s c) :
    countAll skip s (ns.modify i f) < countAll skip s ns := by
  have hsum := @countAll_modify skip s f i ns c hc
  omega

/-- What the removal of one child takes away. -/
theorem countAll_eraseIdx {i : ℕ} {ns : List Node} {c : Node} (hc : ns[i]? = some c) :
    countAll skip s (ns.eraseIdx i) + count skip s c = countAll skip s ns := by
  induction ns generalizing i with
  | nil => simp at hc
  | cons n ns ih =>
    rcases i with - | i
    · obtain rfl := Option.some.inj hc
      simp only [List.eraseIdx_zero, List.tail_cons, countAll]
      omega
    · have hrest := ih (i := i) hc
      simp only [List.eraseIdx_cons_succ, countAll]
      omega

/-! ### Edits of the children -/

theorem count_withChildren {n : Node} {cs : List Node}
    (h : countAll skip s cs = countAll skip s n.children) :
    count skip s (n.withChildren cs) = count skip s n := by
  cases n <;> simp_all [withChildren, children, count]

theorem count_withChildren_le {n : Node} {cs : List Node}
    (h : countAll skip s cs ≤ countAll skip s n.children) :
    count skip s (n.withChildren cs) ≤ count skip s n := by
  cases n with
  | element t as ds =>
    simp only [withChildren, children, count] at h ⊢
    split <;> omega
  | document ds => simpa only [withChildren, children, count] using h
  | _ => exact Nat.le_refl _

/-- New children with a lower sum lower the count, unless the node is left out. -/
theorem count_withChildren_lt {n : Node} {cs : List Node} (hskip : n.named skip = false)
    (h : countAll skip s cs < countAll skip s n.children) :
    count skip s (n.withChildren cs) < count skip s n := by
  cases n with
  | element t as ds =>
    have ht : t ≠ skip := by simpa [named] using hskip
    simp only [withChildren, children, count, if_neg ht] at h ⊢
    omega
  | document ds => simpa only [withChildren, children, count] using h
  | _ => simp [children, countAll] at h

@[simp] theorem count_setText (v : String) (n : Node) :
    count skip s (n.setText v) = count skip s n :=
  count_withChildren (countAll_setFirstText v n.children)

theorem count_mapChild {t : String} {f : Node → Node}
    (hf : ∀ n, count skip s (f n) = count skip s n) (n : Node) :
    count skip s (n.mapChild t f) = count skip s n :=
  count_withChildren (countAll_mapFirst hf n.children)

@[simp] theorem count_removeChild (n : Node) :
    count skip s (n.removeChild skip) = count skip s n :=
  count_withChildren (countAll_eraseP n.children)

/-- An empty child of another name does not count. -/
theorem count_ensureChild {t : String} (hts : t ≠ s) (n : Node) :
    count skip s (n.ensureChild t) = count skip s n := by
  rw [ensureChild]
  split
  · refine count_withChildren ?_
    simp [countAll, count, hts]
  · rfl

theorem count_eraseChild_le (i : ℕ) (n : Node) :
    count skip s (n.eraseChild i) ≤ count skip s n := by
  refine count_withChildren_le ?_
  rcases hc : n.children[i]? with - | c
  · have hsame : n.children.eraseIdx i = n.children :=
      List.eraseIdx_of_length_le (List.getElem?_eq_none_iff.mp hc)
    exact Nat.le_of_eq (congrArg _ hsame)
  · rw [← @countAll_eraseIdx skip s i _ c hc]
    exact Nat.le_add_right ..

/-- The removal of an element of the name lowers the count. -/
theorem count_eraseChild_lt {i : ℕ} {n c : Node} (hskip : n.named skip = false)
    (hc : n.children[i]? = some c) (hs : c.named s = true) (hne : s ≠ skip) :
    count skip s (n.eraseChild i) < count skip s n := by
  refine count_withChildren_lt hskip ?_
  rw [← @countAll_eraseIdx skip s i _ c hc]
  obtain ⟨as, cs, rfl⟩ := named_iff.mp hs
  simp only [count, if_neg hne, if_true]
  omega

/-! ### Edits at a location -/

/-- By induction on the location, from the count of the node it leads to. -/
theorem count_mapAt_le {f : Node → Node} (hf : ∀ n, count skip s (f n) ≤ count skip s n)
    (p : Loc) (n : Node) : count skip s (mapAt f p n) ≤ count skip s n := by
  induction p generalizing n with
  | nil => exact hf n
  | cons i p ih =>
    rw [mapAt_cons]
    exact count_withChildren_le (countAll_modify_le ih i n.children)

/-- An edit that lowers the count of a node on a path that was found lowers the
count of the whole, if the path does not lead through a `skip` element. -/
theorem count_mapAt_lt {f : Node → Node} {path rest : List String} {p q : Loc} {n m : Node}
    (hp : locate (path ++ rest) n = some (p ++ q)) (hlen : p.length = path.length)
    (hn : n.named skip = false) (hpath : skip ∉ path) (hm : n.at? p = some m)
    (hf : m.named skip = false → count skip s (f m) < count skip s m) :
    count skip s (mapAt f p n) < count skip s n := by
  induction path generalizing p n with
  | nil =>
    obtain rfl := List.length_eq_zero_iff.mp hlen
    obtain rfl := Option.some.inj ((at?_nil n).symm.trans hm)
    exact hf hn
  | cons t path ih =>
    obtain ⟨i, p, rfl⟩ := List.exists_cons_of_length_eq_add_one hlen
    obtain ⟨j, c, r, hpq, hc, ht, hr⟩ := locate_cons_some hp
    obtain ⟨rfl, rfl⟩ := List.cons.inj hpq
    rw [List.mem_cons, not_or] at hpath
    -- the child is named after the first step of the path, which is not `skip`
    have hcskip : c.named skip = false := named_ne (Ne.symm hpath.1) c ht
    have hcm : c.at? p = some m := by
      rw [at?_cons, hc] at hm
      exact hm
    have hlt := ih hr (Nat.succ.inj hlen) hcskip hpath.2 hcm
    rw [mapAt_cons]
    exact count_withChildren_lt hn (countAll_modify_lt hc hlt)

/-- The removal of the element that a path finds lowers the count. -/
theorem count_eraseAt_lt {path : List String} {q : Loc} {n : Node}
    (hq : locate (path ++ [s]) n = some q) (hn : n.named skip = false) (hpath : skip ∉ path)
    (hne : s ≠ skip) : count skip s (eraseAt q n) < count skip s n := by
  obtain ⟨r, q', m, rfl, hlen, hm, hq', -⟩ := locate_append_some hq
  -- the last step is a child of the node that the rest of the path finds
  obtain ⟨i, c, _, rfl, hc, hs, hnil⟩ := locate_cons_some hq'
  obtain rfl := Option.some.inj hnil
  rw [eraseAt_append]
  exact count_mapAt_lt hq hlen hn hpath hm fun hm => count_eraseChild_lt hm hc hs hne

/-! ### Edits below the root

Of the root only its children matter, whatever its own name. -/

theorem countAll_children_mapAt_le {f : Node → Node}
    (hf : ∀ n, count skip s (f n) ≤ count skip s n) {p : Loc} (hp : p ≠ []) (n : Node) :
    countAll skip s (mapAt f p n).children ≤ countAll skip s n.children := by
  obtain ⟨i, p, rfl⟩ := List.exists_cons_of_ne_nil hp
  rw [children_mapAt_cons]
  exact countAll_modify_le (count_mapAt_le hf p) i n.children

/-- `count_mapAt_lt` with the first step of the path taken apart. -/
theorem countAll_children_mapAt_lt {f : Node → Node} {path : List String} {p : Loc} {n m : Node}
    (hp : locate path n = some p) (hne : path ≠ []) (hpath : skip ∉ path)
    (hm : n.at? p = some m)
    (hf : m.named skip = false → count skip s (f m) < count skip s m) :
    countAll skip s (mapAt f p n).children < countAll skip s n.children := by
  obtain ⟨t, path, rfl⟩ := List.exists_cons_of_ne_nil hne
  obtain ⟨i, c, r, rfl, hc, ht, hr⟩ := locate_cons_some hp
  rw [List.mem_cons, not_or] at hpath
  have hcm : c.at? r = some m := by
    rw [at?_cons, hc] at hm
    exact hm
  have hlt : count skip s (mapAt f r c) < count skip s c :=
    @count_mapAt_lt skip s f path [] r [] c m (by simpa using hr) (length_of_locate hr)
      (named_ne (Ne.symm hpath.1) c ht) hpath.2 hcm hf
  rw [children_mapAt_cons]
  exact countAll_modify_lt hc hlt

theorem countAll_children_mapChild {t : String} {f : Node → Node}
    (hf : ∀ n, count skip s (f n) = count skip s n) (n : Node) :
    countAll skip s (n.mapChild t f).children = countAll skip s n.children := by
  rw [mapChild, children_withChildren rfl]
  exact countAll_mapFirst hf n.children

end Count

end Node

end Xml
