/-
Asn1Codec/Xml/Idempotent.lean

Reading back twice.

Character data comes out of a first reading without carriage returns, trimmed if
that is asked for, and with no second text next to it; none of this is changed by
a second one.  A CDATA section comes out as sections that are spread no further,
and a document with a declaration, if one is kept.  `Joined` is the form that
lists of children have before texts are dropped; dropping keeps it, since a text
never has a text for its neighbour.

Main result: a reload of a reload is the reload (`reload_reload`).
-/
import Asn1Codec.Xml.Reload

namespace Xml

variable {o : ParseOptions}

/-! ### Text -/

theorem not_mem_normalizeEol (cs : List Char) : '\r' ∉ normalizeEol cs := by
  fun_induction normalizeEol cs with
  | case1 cs ih => simpa using ih
  | case2 cs _ ih => simpa using ih
  | case3 c cs _ hc ih =>
    rw [List.mem_cons, not_or]
    exact ⟨fun h => hc h.symm, ih⟩
  | case4 => simp

theorem all_isSpace_normalizeEol (cs : List Char) :
    (normalizeEol cs).all isSpace = cs.all isSpace := by
  fun_induction normalizeEol cs with
  | case1 cs ih => simp [ih, isSpace]
  | case2 cs _ ih => simp [ih, isSpace]
  | case3 c cs _ _ ih => simp [ih]
  | case4 => rfl

/-- Dropping spaces in front does not change how a text ends, if there is more
in it. -/
theorem dropWhile_isSpace {cs : List Char} (h : cs.all isSpace = false) :
    (∃ c, (cs.dropWhile isSpace).head? = some c ∧ isSpace c = false) ∧
      (cs.dropWhile isSpace).getLast? = cs.getLast? := by
  induction cs with
  | nil => simp at h
  | cons c cs ih =>
    rcases hc : isSpace c with - | -
    · rw [List.dropWhile_cons_of_neg (by simp [hc])]
      exact ⟨⟨c, rfl, hc⟩, rfl⟩
    · have hcs : cs.all isSpace = false := by simpa [hc] using h
      rw [List.dropWhile_cons_of_pos hc, List.getLast?_cons]
      obtain ⟨hhead, hlast⟩ := ih hcs
      refine ⟨hhead, ?_⟩
      rw [hlast]
      cases cs with
      | nil => simp at hcs
      | cons d cs => simp [List.getLast?_cons]

theorem keptText_trimChars {cs : List Char} (h : cs.all isSpace = false) (heol : '\r' ∉ cs) :
    Node.KeptText (String.ofList (trimChars cs)) := by
  obtain ⟨⟨c, hhead, hc⟩, -⟩ := dropWhile_isSpace h
  have hrest : (cs.dropWhile isSpace).reverse.all isSpace = false := by
    obtain ⟨ds, hds⟩ := List.head?_eq_some_iff.mp hhead
    rw [List.all_reverse, hds]
    simp [hc]
  -- trimming the other end leaves the first character in place
  obtain ⟨⟨d, hlast, hd⟩, hfront⟩ := dropWhile_isSpace hrest
  constructor
  · refine ⟨c, ?_, hc⟩
    rw [String.toList_ofList, trimChars, List.head?_reverse, hfront, List.getLast?_reverse, hhead]
  · refine ⟨d, ?_, hd⟩
    rw [String.toList_ofList, trimChars, List.getLast?_reverse, hlast]
  · intro hmem
    rw [String.toList_ofList, trimChars, List.mem_reverse] at hmem
    have hmem := (List.dropWhile_sublist _).mem hmem
    rw [List.mem_reverse] at hmem
    exact heol ((List.dropWhile_sublist _).mem hmem)

/-- What has been read is read as it is. -/
theorem readPcdata_readPcdata {v w : String} (h : readPcdata o v = some w) :
    readPcdata o w = some w := by
  rw [readPcdata] at h
  split at h
  · cases h
  · rename_i hall
    have hspace : (normalizeEol v.toList).all isSpace = false := by
      rw [all_isSpace_normalizeEol]
      simpa using hall
    have heol := not_mem_normalizeEol v.toList
    obtain rfl := Option.some.inj h
    split
    · exact Node.readPcdata_eq_self (keptText_trimChars hspace heol)
    · rename_i htrim
      simp [readPcdata, hspace, Node.normalizeEol_eq_self heol, htrim]

/-! ### CDATA sections -/

/-- The first section is what the text begins with. -/
theorem head_cdataSections (cs : List Char) :
    ∃ p ps, cdataSections cs = p :: ps ∧ p <+: cs := by
  fun_induction cdataSections cs with
  | case1 cs _ => exact ⟨_, _, rfl, '>' :: cs, rfl⟩
  | case2 c cs _ ih =>
    obtain ⟨p, ps, hps, hp⟩ := ih
    rw [hps]
    exact ⟨c :: p, ps, rfl, List.cons_prefix_cons.mpr ⟨rfl, hp⟩⟩
  | case3 => exact ⟨[], [], rfl, List.nil_prefix⟩

/-- A section is spread no further. -/
theorem cdataSections_of_mem {cs p : List Char} (h : p ∈ cdataSections cs) :
    cdataSections p = [p] := by
  fun_induction cdataSections cs generalizing p with
  | case1 cs ih =>
    obtain ⟨q, qs, hqs, -⟩ := head_cdataSections cs
    rw [hqs, consHead, List.mem_cons, List.mem_cons] at h
    rcases h with rfl | rfl | h
    · rfl
    · rw [cdataSections, ih (hqs ▸ List.mem_cons_self), consHead]
      rintro _ h
      cases h
    · exact ih (hqs ▸ List.mem_cons_of_mem q h)
  | case2 c cs hnot ih =>
    obtain ⟨q, qs, hqs, t, ht⟩ := head_cdataSections cs
    rw [hqs, consHead, List.mem_cons] at h
    rcases h with rfl | h
    · -- what would end the section would have ended it before
      rw [cdataSections, ih (hqs ▸ List.mem_cons_self), consHead]
      rintro ds rfl rfl
      exact hnot (ds ++ t) rfl ht.symm
    · exact ih (hqs ▸ List.mem_cons_of_mem q h)
  | case3 =>
    obtain rfl := List.mem_singleton.mp h
    rfl

theorem mem_of_mem_cdataSections {cs p : List Char} (h : p ∈ cdataSections cs) {c : Char}
    (hc : c ∈ p) : c ∈ cs := by
  fun_induction cdataSections cs generalizing p with
  | case1 cs ih =>
    obtain ⟨q, qs, hqs, -⟩ := head_cdataSections cs
    rw [hqs, consHead, List.mem_cons, List.mem_cons] at h
    rcases h with rfl | rfl | h
    · simp_all
    · rcases List.mem_cons.mp hc with rfl | hc
      · simp
      · have hcs := ih (hqs ▸ List.mem_cons_self) hc
        simp [hcs]
    · have hcs := ih (hqs ▸ List.mem_cons_of_mem q h) hc
      simp [hcs]
  | case2 d cs _ ih =>
    obtain ⟨q, qs, hqs, -⟩ := head_cdataSections cs
    rw [hqs, consHead, List.mem_cons] at h
    rcases h with rfl | h
    · rcases List.mem_cons.mp hc with rfl | hc
      · exact List.mem_cons_self
      · exact List.mem_cons_of_mem d (ih (hqs ▸ List.mem_cons_self) hc)
    · exact List.mem_cons_of_mem d (ih (hqs ▸ List.mem_cons_of_mem q h) hc)
  | case3 =>
    obtain rfl := List.mem_singleton.mp h
    cases hc

namespace Node

/-! ### Children -/

theorem readBack_readBack {n m : Node} (h : m ∈ readBack o n) : readBack o m = [m] := by
  cases n with
  | pcdata v =>
    obtain ⟨w, hw, rfl⟩ := Option.map_eq_some_iff.mp (Option.mem_toList.mp h)
    rw [readBack, readPcdata_readPcdata hw]
    rfl
  | cdata v =>
    obtain ⟨cs, hcs, rfl⟩ := List.mem_map.mp h
    have heol : '\r' ∉ cs := fun hr =>
      not_mem_normalizeEol v.toList (mem_of_mem_cdataSections hcs hr)
    rw [readBack, String.toList_ofList, normalizeEol_eq_self heol, cdataSections_of_mem hcs]
    rfl
  | _ =>
    obtain rfl := List.mem_singleton.mp h
    rfl

/-- So is a list of what has been read. -/
theorem readBack_flatMap (ns : List Node) :
    (ns.flatMap (readBack o)).flatMap (readBack o) = ns.flatMap (readBack o) := by
  refine flatMap_readBack_eq_self fun m hm => ?_
  obtain ⟨n, -, hn⟩ := List.mem_flatMap.mp hm
  exact readBack_readBack hn

def isPcdata : Node → Bool
  | pcdata _ => true
  | _ => false

/-- Children that are read back one by one: none of them is changed on its own,
and no two texts are neighbours. -/
inductive Joined (o : ParseOptions) : List Node → Prop
  | nil : Joined o []
  | cons {n ns} : reload o n = n →
      (n.isPcdata = true → ∀ m, ns.head? = some m → m.isPcdata = false) →
      Joined o ns → Joined o (n :: ns)

theorem joinPcdata_of_not {n : Node} {ns : List Node}
    (h : n.isPcdata = true → ∀ m, ns.head? = some m → m.isPcdata = false) :
    joinPcdata n ns = n :: ns := by
  cases n with
  | pcdata v =>
    cases ns with
    | nil => rfl
    | cons m ns =>
      have hm := h rfl m rfl
      cases m with
      | pcdata w => cases hm
      | _ => rfl
  | _ => rfl

/-- Joining a node to such children gives such children. -/
theorem joined_joinPcdata {n : Node} (hn : reload o n = n) {ns : List Node} (h : Joined o ns) :
    Joined o (joinPcdata n ns) := by
  by_cases hboth : n.isPcdata = true → ∀ m, ns.head? = some m → m.isPcdata = false
  · rw [joinPcdata_of_not hboth]
    exact .cons hn hboth h
  · cases n with
    | pcdata v =>
      cases h with
      | nil => exact absurd (by simp) hboth
      | @cons m ns hm hnext hns =>
        cases m with
        | pcdata w => exact .cons rfl (fun _ => hnext rfl) hns
        | _ => exact absurd (by simp [isPcdata]) hboth
    | _ => exact absurd (by simp [isPcdata]) hboth

theorem reloadAll_of_joined {ns : List Node} (h : Joined o ns) : reloadAll o ns = ns := by
  induction h with
  | nil => rfl
  | cons hn hboth _ ih => rw [reloadAll, hn, ih, joinPcdata_of_not hboth]

/-- Nodes without character data in front of such children. -/
theorem joined_append {ns ms : List Node} (hns : ∀ n ∈ ns, n.isPcdata = false ∧ reload o n = n)
    (hms : Joined o ms) : Joined o (ns ++ ms) := by
  induction ns with
  | nil => exact hms
  | cons n ns ih =>
    rw [List.forall_mem_cons] at hns
    refine .cons hns.1.2 (fun hp => ?_) (ih hns.2)
    rw [hns.1.1] at hp
    cases hp

/-- What is read of a node that is no character data is none either, and there is
something. -/
theorem readBack_not_pcdata {n : Node} (h : n.isPcdata = false) :
    (∃ m ms, readBack o n = m :: ms) ∧ ∀ m ∈ readBack o n, m.isPcdata = false := by
  cases n with
  | pcdata v => cases h
  | cdata v =>
    obtain ⟨p, ps, hps, -⟩ := head_cdataSections (normalizeEol v.toList)
    refine ⟨⟨_, _, by rw [readBack, hps, List.map_cons]⟩, fun m hm => ?_⟩
    obtain ⟨cs, -, rfl⟩ := List.mem_map.mp hm
    rfl
  | _ =>
    refine ⟨⟨_, [], rfl⟩, fun m hm => ?_⟩
    obtain rfl := List.mem_singleton.mp hm
    rfl

/-- A node that no reading changes is read as nodes that none changes. -/
theorem reload_of_mem_readBack {n m : Node} (hn : reload o n = n) (hm : m ∈ readBack o n) :
    reload o m = m := by
  cases n with
  | pcdata v =>
    obtain ⟨w, -, rfl⟩ := Option.map_eq_some_iff.mp (Option.mem_toList.mp hm)
    rfl
  | cdata v =>
    obtain ⟨cs, -, rfl⟩ := List.mem_map.mp hm
    rfl
  | _ =>
    obtain rfl := List.mem_singleton.mp hm
    exact hn

theorem joined_flatMap {ns : List Node} (h : Joined o ns) :
    Joined o (ns.flatMap (readBack o)) := by
  induction h with
  | nil => exact .nil
  | @cons n ns hn hboth hns ih =>
    rw [List.flatMap_cons]
    rcases hp : n.isPcdata with - | -
    · exact joined_append (fun m hm => ⟨(readBack_not_pcdata hp).2 m hm,
        reload_of_mem_readBack hn hm⟩) ih
    -- a text is dropped or it stays one node, and what follows it is none
    cases n with
    | pcdata v =>
      rcases hv : readPcdata o v with - | w
      · simpa [readBack, hv] using ih
      have hw : readBack o (pcdata v) = [pcdata w] := by simp [readBack, hv]
      rw [hw, List.singleton_append]
      refine .cons rfl (fun _ x hx => ?_) ih
      cases hns with
      | nil => cases hx
      | @cons y ns _ _ _ =>
        obtain ⟨⟨m, ms, hms⟩, hnot⟩ := @readBack_not_pcdata o y (hboth rfl y rfl)
        rw [List.flatMap_cons, hms, List.cons_append] at hx
        obtain rfl := Option.some.inj hx
        exact hnot m (hms ▸ List.mem_cons_self)
    | _ => cases hp

theorem joined_filter {ns : List Node} (h : Joined o ns) : Joined o (ns.filter (keepTop o)) := by
  induction h with
  | nil => exact .nil
  | @cons n ns hn _ _ ih =>
    rcases hk : keepTop o n with - | -
    · rw [List.filter_cons_of_neg (by simp [hk])]
      exact ih
    · rw [List.filter_cons_of_pos hk]
      refine .cons hn (fun hp => ?_) ih
      cases n with
      | pcdata v => cases hk
      | _ => cases hp

theorem joined_declared {ns : List Node} (h : Joined o ns) : Joined o (declared ns) := by
  rw [declared]
  split
  · exact h
  · exact .cons rfl (fun hp => by cases hp) h

/-! ### The top level -/

/-- Where declarations are kept, so is the one that stands before the root. -/
theorem hasDeclaration_kept (ho : o.parseDeclaration = true) {ns : List Node}
    (h : hasDeclaration ns = true) :
    hasDeclaration ((ns.filter (keepTop o)).flatMap (readBack o)) = true := by
  -- the sections a CDATA node is read back as are no declarations
  have hcdata : ∀ (ps : List (List Char)) (ms : List Node), hasDeclaration ms = true →
      hasDeclaration ((ps.map fun cs => cdata (String.ofList cs)) ++ ms) = true := by
    intro ps ms hms
    induction ps with
    | nil => exact hms
    | cons p ps ih => exact ih
  induction ns with
  | nil => cases h
  | cons n ns ih =>
    cases n with
    | declaration as => simp [keepTop, ho, readBack, hasDeclaration]
    | element s as cs => cases h
    | cdata v =>
      rw [List.filter_cons_of_pos rfl, List.flatMap_cons]
      exact hcdata _ _ (ih h)
    | doctype v =>
      rw [List.filter_cons]
      split
      · exact ih h
      · exact ih h
    | pcdata v => exact ih h
    | document cs => exact ih h

/-- What has been kept and read is kept again. -/
theorem filter_keepTop_readBack (ns : List Node) :
    ((ns.filter (keepTop o)).flatMap (readBack o)).filter (keepTop o) =
      (ns.filter (keepTop o)).flatMap (readBack o) := by
  rw [List.filter_eq_self]
  intro m hm
  obtain ⟨n, hn, hm⟩ := List.mem_flatMap.mp hm
  have hkeep := (List.mem_filter.mp hn).2
  cases n with
  | pcdata v => cases hkeep
  | cdata v =>
    obtain ⟨cs, -, rfl⟩ := List.mem_map.mp hm
    rfl
  | _ =>
    obtain rfl := List.mem_singleton.mp hm
    exact hkeep

/-- The declaration that is added a second time is one that is not kept. -/
theorem filter_declared (ns : List Node) :
    (declared (((declared ns).filter (keepTop o)).flatMap (readBack o))).filter (keepTop o) =
      ((declared ns).filter (keepTop o)).flatMap (readBack o) := by
  rcases ho : o.parseDeclaration with - | -
  · rw [declared]
    split
    · exact filter_keepTop_readBack _
    · rw [List.filter_cons_of_neg (by simp [keepTop, ho])]
      exact filter_keepTop_readBack _
  · rw [declared, if_pos (hasDeclaration_kept ho (hasDeclaration_declared ns))]
    exact filter_keepTop_readBack _

/-! ### Trees -/

mutual

/-- **A tree that has been read back is read back as it is.** -/
theorem reload_reload : ∀ n : Node, reload o (reload o n) = reload o n
  | document cs => by
    rw [reload, reload, reloadAll_of_joined (joined_flatMap (joined_filter
      (joined_declared (joined_reloadAll cs)))), filter_declared, readBack_flatMap]
  | element s as cs => by
    rw [reload, reload, reloadAll_of_joined (joined_flatMap (joined_reloadAll cs)),
      readBack_flatMap]
  | pcdata _ => rfl
  | cdata _ => rfl
  | declaration _ => rfl
  | doctype _ => rfl

theorem joined_reloadAll : ∀ ns : List Node, Joined o (reloadAll o ns)
  | [] => .nil
  | n :: ns => by
    rw [reloadAll]
    exact joined_joinPcdata (reload_reload n) (joined_reloadAll ns)

end

end Node

end Xml
