/-
Asn1Codec/Xml/Apart.lean

Edits at a distance from what a path leads to.

Two paths are apart if neither goes on where the other ends.  `Edits es f` says
which paths an edit can show on: what lies apart from all of `es` is found as
before, and is what it was.  The rules give the paths of an edit from those of
its parts, whether a part is applied to the first child of a name or at a
location (`select_mapAt_apart`).

A query backtracks into later children of a name, while an edit goes to one of
them; so the rules compare names, not locations.
-/
import Asn1Codec.Xml.Reload

namespace Xml

/-- Neither path goes on where the other ends. -/
def Apart (e path : List String) : Prop := ¬ e <+: path ∧ ¬ path <+: e

instance (e path : List String) : Decidable (Apart e path) :=
  inferInstanceAs (Decidable (_ ∧ _))

namespace Apart

variable {e path : List String}

theorem ne_nil (h : Apart e path) : path ≠ [] := by
  rintro rfl
  exact h.2 List.nil_prefix

/-- Where both paths begin alike, the rest decides. -/
theorem cons_iff (s : String) : Apart (s :: e) (s :: path) ↔ Apart e path := by
  simp [Apart, List.cons_prefix_cons]

theorem of_ne {s t : String} (hst : s ≠ t) (e path : List String) :
    Apart (s :: e) (t :: path) := by
  constructor
  · intro h
    exact hst (List.cons_prefix_cons.mp h).1
  · intro h
    exact hst (List.cons_prefix_cons.mp h).1.symm

end Apart

namespace Node

/-! ### Locations and names -/

/-- A location that leads along some names. -/
def Leads : List String → Loc → Node → Prop
  | [], [], _ => True
  | s :: names, i :: p, n =>
    ∃ c, n.children[i]? = some c ∧ c.named s = true ∧ Leads names p c
  | _, _, _ => False

theorem leads_of_locate {path : List String} {n : Node} {p : Loc} (h : locate path n = some p) :
    Leads path p n := by
  induction path generalizing n p with
  | nil =>
    obtain rfl := Option.some.inj h
    trivial
  | cons s path ih =>
    obtain ⟨i, c, r, rfl, hc, hs, hr⟩ := locate_cons_some h
    exact ⟨c, hc, hs, ih hr⟩

/-- The way to the parent. -/
theorem Leads.dropLast {names : List String} {p : Loc} {n : Node} (h : Leads names p n) :
    Leads names.dropLast p.dropLast n := by
  induction names generalizing p n with
  | nil =>
    cases p with
    | nil => trivial
    | cons i p => exact h.elim
  | cons s names ih =>
    cases p with
    | nil => exact h.elim
    | cons i p =>
      obtain ⟨c, hc, hs, hp⟩ := h
      rcases names with - | ⟨t, names⟩
      · cases p with
        | nil => trivial
        | cons j p => exact hp.elim
      · cases p with
        | nil => exact hp.elim
        | cons j p => exact ⟨c, hc, hs, ih hp⟩

/-! ### Edits -/

/-- What an edit can show on: the paths that are not apart from all of `es`. -/
structure Edits (es : List (List String)) (f : Node → Node) : Prop where
  named : ∀ s n, (f n).named s = n.named s
  apart : ∀ path, (∀ e ∈ es, Apart e path) → ∀ n, select path (f n) = select path n

/-- Lists of children that agree on the way a path goes. -/
theorem select_cons_congr {s : String} {path : List String} {n m : Node}
    (h : List.Forall₂ (fun a b => b.named s = a.named s ∧
      (a.named s = true → select path b = select path a)) n.children m.children) :
    select (s :: path) m = select (s :: path) n := by
  rw [select_cons, select_cons]
  generalize n.children = as at h ⊢
  generalize m.children = bs at h ⊢
  induction h with
  | nil => rfl
  | @cons a b as bs hab _ ih =>
    rcases ha : a.named s with - | -
    · simpa [List.findSome?_cons, hab.1, ha] using ih
    · rw [List.findSome?_cons, List.findSome?_cons, hab.1, ha, if_pos rfl, if_pos rfl, hab.2 ha, ih]

/-- An edit at a location along some names. -/
theorem select_mapAt_apart {es : List (List String)} {f : Node → Node} (hf : Edits es f)
    (hes : es ≠ []) {names path : List String} {p : Loc} {n : Node} (h : Leads names p n)
    (hpath : ∀ e ∈ es, Apart (names ++ e) path) :
    select path (mapAt f p n) = select path n := by
  induction names generalizing p n path with
  | nil =>
    cases p with
    | nil => exact hf.apart path hpath n
    | cons i p => exact h.elim
  | cons s names ih =>
    cases p with
    | nil => exact h.elim
    | cons i p =>
      obtain ⟨c, hc, hs, hp⟩ := h
      rcases path with - | ⟨t, path⟩
      · obtain ⟨e, es, rfl⟩ := List.exists_cons_of_ne_nil hes
        exact absurd rfl (hpath e List.mem_cons_self).ne_nil
      apply select_cons_congr
      rw [children_mapAt_cons]
      refine List.forall₂_iff_get.mpr ⟨by simp, fun j hj hj' => ?_⟩
      simp only [List.get_eq_getElem, List.getElem_modify]
      split
      · rename_i hij
        subst hij
        refine ⟨named_mapAt hf.named t p _, fun ht => ?_⟩
        obtain rfl : n.children[i] = c := by
          rw [List.getElem?_eq_getElem hj] at hc
          exact Option.some.inj hc
        -- the child goes by one name
        obtain rfl : s = t := (name_of_named hs).symm.trans (name_of_named ht)
        exact ih hp fun e he => (Apart.cons_iff s).mp (hpath e he)
      · exact ⟨rfl, fun _ => rfl⟩

namespace Edits

variable {es es' : List (List String)} {f g : Node → Node}

/-- Any edit of the node itself. -/
theorem whole (hnamed : ∀ s n, (f n).named s = n.named s) : Edits [[]] f where
  named := hnamed
  apart _ h := absurd List.nil_prefix (h [] List.mem_cons_self).1

theorem comp (hf : Edits es f) (hg : Edits es' g) : Edits (es ++ es') (g ∘ f) where
  named s n := (hg.named s (f n)).trans (hf.named s n)
  apart path h n := by
    rw [List.forall_mem_append] at h
    rw [Function.comp, hg.apart path h.2, hf.apart path h.1]

/-- An edit of the first child of a name. -/
theorem mapChild (hf : Edits es f) (hes : es ≠ []) (s : String) :
    Edits (es.map (s :: ·)) (Node.mapChild s f) where
  named t n := named_mapChild t s f n
  apart path h n := by
    rw [List.forall_mem_map] at h
    rcases path with - | ⟨t, path⟩
    · obtain ⟨e, es, rfl⟩ := List.exists_cons_of_ne_nil hes
      exact absurd rfl (h e List.mem_cons_self).ne_nil
    apply select_cons_congr
    rw [Node.mapChild, children_withChildren rfl]
    have key (m : Node) (hm : m.named s = true) : (f m).named t = m.named t ∧
        (m.named t = true → select path (f m) = select path m) := by
      refine ⟨hf.named t m, fun ht => ?_⟩
      obtain rfl : s = t := (name_of_named hm).symm.trans (name_of_named ht)
      exact hf.apart path (fun e he => (Apart.cons_iff s).mp (h e he)) m
    induction n.children with
    | nil => exact .nil
    | cons m ns ih =>
      rcases hm : m.named s with - | -
      · rw [mapFirst, if_neg (by simp [hm])]
        exact .cons ⟨rfl, fun _ => rfl⟩ ih
      · rw [mapFirst, if_pos hm]
        exact .cons (key m hm) (List.forall₂_same.mpr fun _ _ => ⟨rfl, fun _ => rfl⟩)

end Edits

end Node

end Xml
