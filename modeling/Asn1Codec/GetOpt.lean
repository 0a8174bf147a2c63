/-
Asn1Codec/GetOpt.lean

Short options on a command line, as GNU getopt reads them.

A command line is a list of words.  A word that starts with '-' and goes on holds
options; the others are operands, and the two may be mixed.  An option shares
its word with the flags before it, and the argument of an option is the rest of
its word or, if there is none, the next word.  `scan` yields what the calls of
getopt return one after the other; `Spells` is the syntax of command lines, with
no order in which they are read.

Main results: what a scan reads from a command line is spelled by it
(`spells_scan`), and what a command line spells is read from it
(`scan_of_spells`).  `render` is one spelling for every list of items and
operands, so no value and no operand is out of reach.
-/
import Mathlib.Data.List.Basic

namespace GetOpt

/-! ### The scan -/

/-- The option characters: whether one takes an argument, if it is an option. -/
structure Spec where
  takes : Char → Option Bool
  dash : takes '-' = none

/-- An option that getopt returns. -/
inductive Item where
  | flag (c : Char)
  | arg (c : Char) (value : String)
  deriving DecidableEq

/-- The character of an option. -/
def Item.name : Item → Char
  | .flag c => c
  | .arg c _ => c

/-- How a scan ends: with the operands, at a character that is no option, at an
option without its argument, or at a long option. -/
inductive Ending where
  | operands (ws : List String)
  | invalid (c : Char)
  | missing (c : Char)
  | long (w : String)
  deriving DecidableEq

/-- How the characters of a word end: with a flag, with an option and its
argument, with an option whose argument is the next word, or at a character that
is no option. -/
inductive Tail where
  | done
  | attached (c : Char) (value : List Char)
  | separate (c : Char)
  | invalid (c : Char)

/-- The characters of a word behind the '-': the flags, and what ends them. -/
def cluster (spec : Spec) : List Char → List Char × Tail
  | [] => ([], .done)
  | c :: cs =>
    match spec.takes c with
    | none => ([], .invalid c)
    | some false => (c :: (cluster spec cs).1, (cluster spec cs).2)
    | some true => ([], if cs = [] then .separate c else .attached c cs)

/-- The results of a sequence of calls. -/
structure Scan where
  items : List Item
  ending : Ending
  deriving DecidableEq

/-- Some results before the others. -/
def Scan.after (items : List Item) (s : Scan) : Scan := ⟨items ++ s.items, s.ending⟩

/-- An operand before the others. -/
def Scan.keep (w : String) (s : Scan) : Scan :=
  match s.ending with
  | .operands ws => ⟨s.items, .operands (w :: ws)⟩
  | e => ⟨s.items, e⟩

def flags (cs : List Char) : List Item := cs.map .flag

/-- What a word is on its own. -/
inductive Kind where
  | operand
  | stop
  | long
  | options (cs : List Char)

def kind (w : String) : Kind :=
  match w.toList with
  | ['-', '-'] => .stop
  | '-' :: '-' :: _ => .long
  | '-' :: c :: cs => .options (c :: cs)
  | _ => .operand

/-- The calls of getopt on a command line, up to the one that does not return an
option.  Operands are moved behind the options. -/
def scan (spec : Spec) : List String → Scan
  | [] => ⟨[], .operands []⟩
  | w :: ws =>
    match kind w with
    | .operand => (scan spec ws).keep w
    | .stop => ⟨[], .operands ws⟩
    | .long => ⟨[], .long w⟩
    | .options cs =>
      match cluster spec cs with
      | (fs, .done) => (scan spec ws).after (flags fs)
      | (fs, .attached c v) => (scan spec ws).after (flags fs ++ [.arg c (String.ofList v)])
      | (fs, .invalid c) => ⟨flags fs, .invalid c⟩
      | (fs, .separate c) =>
        match ws with
        | [] => ⟨flags fs, .missing c⟩
        | v :: ws => (scan spec ws).after (flags fs ++ [.arg c v])

/-! ### The syntax -/

/-- The word of some option characters. -/
def word (cs : List Char) : String := String.ofList ('-' :: cs)

/-- A word that holds options. -/
def IsOption (w : String) : Prop := ∃ c cs, w.toList = '-' :: c :: cs

/-- The syntax: a command line spells some items and operands. -/
inductive Spells (spec : Spec) : List String → List Item → List String → Prop
  | nil : Spells spec [] [] []
  | stop (ws : List String) : Spells spec ("--" :: ws) [] ws
  | operand {w ws items os} (hw : ¬ IsOption w) (h : Spells spec ws items os) :
      Spells spec (w :: ws) items (w :: os)
  | flags {cs ws items os} (hcs : cs ≠ []) (hflag : ∀ c ∈ cs, spec.takes c = some false)
      (h : Spells spec ws items os) : Spells spec (word cs :: ws) (flags cs ++ items) os
  | attached {cs c v ws items os} (hflag : ∀ c ∈ cs, spec.takes c = some false)
      (hc : spec.takes c = some true) (hv : v ≠ []) (h : Spells spec ws items os) :
      Spells spec (word (cs ++ c :: v) :: ws)
        (flags cs ++ .arg c (String.ofList v) :: items) os
  | separate {cs c v ws items os} (hflag : ∀ c ∈ cs, spec.takes c = some false)
      (hc : spec.takes c = some true) (h : Spells spec ws items os) :
      Spells spec (word (cs ++ [c]) :: v :: ws) (flags cs ++ .arg c v :: items) os

/-- An item that the options allow. -/
def Allowed (spec : Spec) : Item → Prop
  | .flag c => spec.takes c = some false
  | .arg c _ => spec.takes c = some true

/-- Every item in a word of its own, with its argument in the next one, and the
operands behind "--". -/
def render : List Item → List String → List String
  | [], os => "--" :: os
  | .flag c :: items, os => word [c] :: render items os
  | .arg c v :: items, os => word [c] :: v :: render items os

variable {spec : Spec}

theorem spells_render {items : List Item} (h : ∀ i ∈ items, Allowed spec i) (os : List String) :
    Spells spec (render items os) items os := by
  induction items with
  | nil => exact .stop os
  | cons i items ih =>
    have hrest := ih fun j hj => h j (List.mem_cons_of_mem _ hj)
    have hi := h i List.mem_cons_self
    cases i with
    | flag c =>
      have hflag : ∀ d ∈ [c], spec.takes d = some false := by
        intro d hd
        obtain rfl := List.mem_singleton.mp hd
        exact hi
      exact .flags (List.cons_ne_nil c []) hflag hrest
    | arg c v =>
      have hflag : ∀ d ∈ ([] : List Char), spec.takes d = some false := by simp
      exact .separate hflag hi hrest

/-! ### One word -/

theorem cluster_flags {cs : List Char} (h : ∀ c ∈ cs, spec.takes c = some false)
    (rest : List Char) : cluster spec (cs ++ rest) =
      (cs ++ (cluster spec rest).1, (cluster spec rest).2) := by
  induction cs with
  | nil => rfl
  | cons c cs ih =>
    rw [List.cons_append, cluster, h c List.mem_cons_self]
    simp only [ih fun d hd => h d (List.mem_cons_of_mem _ hd), List.cons_append]

theorem cluster_option {c : Char} (hc : spec.takes c = some true) (v : List Char) :
    cluster spec (c :: v) = ([], if v = [] then .separate c else .attached c v) := by
  rw [cluster, hc]

/-- What the characters of a word are, by what they end with. -/
theorem cluster_cases (spec : Spec) (cs : List Char) :
    (∀ c ∈ (cluster spec cs).1, spec.takes c = some false) ∧
      match (cluster spec cs).2 with
      | .done => cs = (cluster spec cs).1
      | .attached c v => cs = (cluster spec cs).1 ++ c :: v ∧ spec.takes c = some true ∧ v ≠ []
      | .separate c => cs = (cluster spec cs).1 ++ [c] ∧ spec.takes c = some true
      | .invalid c => (∃ rest, cs = (cluster spec cs).1 ++ c :: rest) ∧ spec.takes c = none := by
  induction cs with
  | nil => simp [cluster]
  | cons c cs ih =>
    rcases hc : spec.takes c with - | - | -
    · simp [cluster, hc]
    · simp only [cluster, hc]
      obtain ⟨hflag, htail⟩ := ih
      refine ⟨?_, ?_⟩
      · intro d hd
        rcases List.mem_cons.mp hd with rfl | hd
        · exact hc
        · exact hflag d hd
      · rcases h : (cluster spec cs).2 with - | ⟨d, v⟩ | d | d <;> rw [h] at htail
        · exact congrArg (c :: ·) htail
        · exact ⟨congrArg (c :: ·) htail.1, htail.2⟩
        · exact ⟨congrArg (c :: ·) htail.1, htail.2⟩
        · obtain ⟨⟨rest, hrest⟩, hnone⟩ := htail
          exact ⟨⟨rest, congrArg (c :: ·) hrest⟩, hnone⟩
    · rw [cluster_option hc]
      by_cases hcs : cs = []
      · simp [hcs, hc]
      · simp [hcs, hc]

/-! ### The scan is the syntax -/

@[simp] theorem toList_word (cs : List Char) : (word cs).toList = '-' :: cs := String.toList_ofList

theorem word_of_toList {w : String} {cs : List Char} (h : w.toList = '-' :: cs) : w = word cs := by
  rw [word, ← h, String.ofList_toList]

theorem kind_word {cs : List Char} (hcs : cs ≠ []) (hdash : cs.head? ≠ some '-') :
    kind (word cs) = .options cs := by
  rcases cs with - | ⟨c, cs⟩
  · exact absurd rfl hcs
  · have hc : c ≠ '-' := by simpa using hdash
    simp [kind, hc]

theorem kind_operand {w : String} (hw : ¬ IsOption w) : kind w = .operand := by
  rcases hlist : w.toList with - | ⟨c, - | ⟨d, cs⟩⟩
  · simp [kind, hlist]
  · simp [kind, hlist]
  · have hc : c ≠ '-' := by
      rintro rfl
      exact hw ⟨d, cs, hlist⟩
    simp [kind, hlist, hc]

/-- Every word is of one of the kinds. -/
theorem kind_eq (w : String) :
    match kind w with
    | .operand => ¬ IsOption w
    | .stop => w = "--"
    | .long => ∃ cs, cs ≠ [] ∧ w = word ('-' :: cs)
    | .options cs => cs ≠ [] ∧ cs.head? ≠ some '-' ∧ w = word cs := by
  by_cases hoption : IsOption w
  · obtain ⟨c, cs, hw⟩ := hoption
    obtain rfl := word_of_toList hw
    by_cases hc : c = '-'
    · subst hc
      rcases cs with - | ⟨d, cs⟩
      · rfl
      · have hkind : kind (word ('-' :: d :: cs)) = .long := by simp [kind]
        rw [hkind]
        exact ⟨d :: cs, List.cons_ne_nil d cs, rfl⟩
    · have hdash : (c :: cs).head? ≠ some '-' := by simpa using hc
      rw [kind_word (List.cons_ne_nil c cs) hdash]
      exact ⟨List.cons_ne_nil c cs, hdash, rfl⟩
  · rw [kind_operand hoption]
    exact hoption

theorem keep_operands {w : String} {s : Scan} {os : List String}
    (h : (s.keep w).ending = .operands os) :
    ∃ os', os = w :: os' ∧ s.ending = .operands os' ∧ (s.keep w).items = s.items := by
  rw [Scan.keep] at h ⊢
  rcases hs : s.ending with ws | c | c | v
  · rw [hs] at h
    exact ⟨ws, (Ending.operands.inj h).symm, rfl, rfl⟩
  all_goals
    rw [hs] at h
    cases h

/-- What a scan reads is spelled on the command line. -/
theorem spells_scan {ws os : List String} (h : (scan spec ws).ending = .operands os) :
    Spells spec ws (scan spec ws).items os := by
  fun_induction scan spec ws generalizing os with
  | case1 =>
    obtain rfl := Ending.operands.inj h
    exact .nil
  | case2 w ws hkind ih =>
    -- an operand is kept until the options behind it are read
    obtain ⟨os', rfl, hos, hitems⟩ := keep_operands h
    have hw := kind_eq w
    rw [hkind] at hw
    rw [hitems]
    exact .operand hw (ih hos)
  | case3 w ws hkind =>
    obtain rfl := Ending.operands.inj h
    have hw := kind_eq w
    rw [hkind] at hw
    rw [show w = "--" from hw]
    exact .stop _
  | case4 => cases h
  | case5 w ws cs hkind fs hcluster ih =>
    have hw := kind_eq w
    obtain ⟨hflag, heq⟩ := cluster_cases spec cs
    rw [hkind] at hw
    rw [hcluster] at hflag heq
    obtain ⟨hcs, -, rfl⟩ := hw
    obtain rfl : cs = fs := heq
    exact .flags hcs hflag (ih h)
  | case6 w ws cs hkind fs c v hcluster ih =>
    have hw := kind_eq w
    obtain ⟨hflag, htail⟩ := cluster_cases spec cs
    rw [hkind] at hw
    rw [hcluster] at hflag htail
    obtain ⟨-, -, rfl⟩ := hw
    obtain ⟨rfl, hc, hv⟩ := htail
    rw [Scan.after, List.append_assoc]
    exact .attached hflag hc hv (ih h)
  | case7 => cases h
  | case8 => cases h
  | case9 w cs hkind fs c hcluster v ws ih =>
    -- the next word is the argument, whatever it looks like
    have hw := kind_eq w
    obtain ⟨hflag, htail⟩ := cluster_cases spec cs
    rw [hkind] at hw
    rw [hcluster] at hflag htail
    obtain ⟨-, -, rfl⟩ := hw
    obtain ⟨rfl, hc⟩ := htail
    rw [Scan.after, List.append_assoc]
    exact .separate hflag hc (ih h)

theorem head_ne_dash {cs : List Char} {c : Char} (v : List Char)
    (hflag : ∀ c ∈ cs, spec.takes c = some false) (hc : spec.takes c = some true) :
    (cs ++ c :: v).head? ≠ some '-' := by
  intro h
  rcases cs with - | ⟨d, cs⟩
  · obtain rfl : c = '-' := by simpa using h
    simp [spec.dash] at hc
  · obtain rfl : d = '-' := by simpa using h
    simpa [spec.dash] using hflag '-' List.mem_cons_self

/-- What a command line spells is read by a scan. -/
theorem scan_of_spells {ws os : List String} {items : List Item}
    (h : Spells spec ws items os) : scan spec ws = ⟨items, .operands os⟩ := by
  induction h with
  | nil => rfl
  | stop ws => rfl
  | @operand w ws items os hw _ ih =>
    simp [scan, kind_operand hw, ih, Scan.keep]
  | @flags cs ws items os hcs hflag _ ih =>
    have hcluster := cluster_flags hflag []
    rw [List.append_nil] at hcluster
    -- a cluster that began with '-' would be a long option
    have hdash : cs.head? ≠ some '-' := by
      intro h
      simpa [spec.dash] using hflag '-' (List.mem_of_head? h)
    simp [scan, kind_word hcs hdash, hcluster, cluster, ih, Scan.after]
  | @attached cs c v ws items os hflag hc hv _ ih =>
    have hkind := kind_word (by simp) (head_ne_dash v hflag hc)
    simp [scan, hkind, cluster_flags hflag, cluster_option hc, hv, ih, Scan.after]
  | @separate cs c v ws items os hflag hc _ ih =>
    have hkind := kind_word (by simp) (head_ne_dash [] hflag hc)
    simp [scan, hkind, cluster_flags hflag, cluster_option hc, ih, Scan.after]

theorem allowed_flags {cs : List Char} (h : ∀ c ∈ cs, spec.takes c = some false) :
    ∀ i ∈ flags cs, Allowed spec i := by
  intro i hi
  obtain ⟨c, hc, rfl⟩ := List.mem_map.mp hi
  exact h c hc

/-- A scan returns options only, also when it ends early. -/
theorem allowed_scan (ws : List String) : ∀ i ∈ (scan spec ws).items, Allowed spec i := by
  fun_induction scan spec ws with
  | case1 => simp
  | case2 w ws _ ih =>
    have hitems : ((scan spec ws).keep w).items = (scan spec ws).items := by
      rw [Scan.keep]
      split <;> rfl
    rw [hitems]
    exact ih
  | case3 => simp
  | case4 => simp
  | case5 w ws cs _ fs hcluster ih =>
    have hflag := (cluster_cases spec cs).1
    rw [hcluster] at hflag
    exact List.forall_mem_append.mpr ⟨allowed_flags hflag, ih⟩
  | case6 w ws cs _ fs c v hcluster ih =>
    obtain ⟨hflag, htail⟩ := cluster_cases spec cs
    rw [hcluster] at hflag htail
    refine List.forall_mem_append.mpr ⟨List.forall_mem_append.mpr ⟨allowed_flags hflag, ?_⟩, ih⟩
    intro i hi
    obtain rfl := List.mem_singleton.mp hi
    exact htail.2.1
  | case7 w ws cs _ fs c hcluster =>
    have hflag := (cluster_cases spec cs).1
    rw [hcluster] at hflag
    exact allowed_flags hflag
  | case8 w cs _ fs c hcluster =>
    have hflag := (cluster_cases spec cs).1
    rw [hcluster] at hflag
    exact allowed_flags hflag
  | case9 w cs _ fs c hcluster v ws ih =>
    obtain ⟨hflag, htail⟩ := cluster_cases spec cs
    rw [hcluster] at hflag htail
    refine List.forall_mem_append.mpr ⟨List.forall_mem_append.mpr ⟨allowed_flags hflag, ?_⟩, ih⟩
    intro i hi
    obtain rfl := List.mem_singleton.mp hi
    exact htail.2

end GetOpt
