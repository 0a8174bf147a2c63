/-
Asn1Codec/Tool.lean

The command line of a tool: the options it is built with, and parseArgs.

addOption tells getopt about an option in `optionString` and keeps the option
itself in `optionsMap`.  The two are asked in turn: getopt decides what is an
option and what takes an argument, the map what is set.  `Consistent` says that
they answer alike, which every call of addOption preserves; so an option that
getopt returns is always found in the map (`parseArgs_ne_error`).

Main result: parseArgs accepts a command line exactly when it spells some items
and operands, and then every option has what was given last (`parseArgs_iff`).
-/
import Asn1Codec.GetOpt
import Mathlib.Data.Int.Notation

namespace Asn1Codec

open GetOpt (Item Spells)

/-! ### Exceptions -/

/-- The exceptions that reach main, with their what() text: those of the standard
library, and spdlog_ex.  `undefined` is no exception: it stands for the lookup of
a long option in a table that has no end and whose names are gone, and for the
first of no operands. -/
inductive StdExn where
  | invalidArgument (what : String)
  | outOfRange (what : String)
  | spdlog (what : String)
  | undefined
  deriving DecidableEq

/-! ### Options -/

/-- Tool::Option. -/
@[ext] structure CliOption where
  sname : Char
  lname : String
  desc : String
  argReqd : ℤ
  arg : String
  isSet : Bool
  deriving DecidableEq

namespace CliOption

/-- argReqd(). -/
def takesArgument (o : CliOption) : Bool := o.argReqd == 1

/-- hasArg(). -/
def hasArg (o : CliOption) : Bool := o.isSet && !o.arg.isEmpty

/-- set(). -/
def set (o : CliOption) : CliOption := { o with isSet := true }

/-- set(value). -/
def setTo (value : String) (o : CliOption) : CliOption := { o.set with arg := value }

end CliOption

/-- What addOption is called with.  A short name is a byte, none of the three
characters that getopt does not allow, and nothing that parseArgs takes for
something else: the result `?`, and the results 0, 1 and -1. -/
structure OptionSpec where
  shortName : Char
  longName : String
  description : String
  hasArg : ℤ
  defaultArg : String
  allowed : shortName ∉ ['-', ':', ';', '?'] ∧ 1 < shortName.toNat ∧ shortName.toNat < 255

def OptionSpec.option (o : OptionSpec) : CliOption :=
  ⟨o.shortName, o.longName, o.description, o.hasArg, o.defaultArg, false⟩

/-! ### The tool -/

/-- The members of Tool that parsing and the accessors use; `os` is what has
been written to the stream `os_`. -/
structure Tool where
  optionsMap : Char → Option CliOption
  optionString : String
  operands : List String
  os : String

abbrev ToolM := EStateM StdExn Tool

/-- strchr on an option string, and the colon behind the character. -/
def takesIn : List Char → Char → Option Bool
  | [], _ => none
  | c :: cs, d => if c = d then some (cs.head? == some ':') else takesIn cs d

namespace Tool

/-- The tool as it is built, with its own error reports suppressed. -/
def constructed : Tool := ⟨fun _ => none, ":", [], ""⟩

/-- addOption. -/
def addOption (t : Tool) (o : OptionSpec) : Tool :=
  { t with
    optionsMap := fun c =>
      if c = o.shortName then (t.optionsMap c).or (some o.option) else t.optionsMap c
    optionString := t.optionString ++
      String.ofList (o.shortName :: if o.hasArg > 0 then [':'] else []) }

/-- What getopt makes of the option string. -/
def spec (t : Tool) : GetOpt.Spec where
  takes c :=
    if c = '-' ∨ c = ':' ∨ c = ';' then none else takesIn t.optionString.toList c
  dash := by simp

/-- set. -/
def set (shortName : Char) (argument : Option String) : ToolM Unit := do
  match (← get).optionsMap shortName with
  | none => throw (.invalidArgument "The option was not found.")
  | some o =>
    let o := o.set
    let o := match argument with
      | some value => if o.takesArgument then o.setTo value else o
      | none => o
    modify fun t => { t with
      optionsMap := fun c => if c = shortName then some o else t.optionsMap c }

/-- The default branch of the switch, for an option that getopt_long returns. -/
def setItem : Item → ToolM Unit
  | .flag c => set c none
  | .arg c value => set c (some value)

def setItems : List Item → ToolM Unit
  | [] => pure ()
  | i :: items => do
    setItem i
    setItems items

/-- parseArgs, on the words behind the name of the program. -/
def parseArgs (args : List String) : ToolM Bool := do
  let s := GetOpt.scan (← get).spec args
  setItems s.items
  match s.ending with
  | .invalid c =>
    modify fun t =>
      { t with os := t.os ++ "CLI Error: -" ++ c.toString ++ " is an invalid option.\n" }
    pure false
  | .missing c =>
    modify fun t => { t with
      os := t.os ++ "CLI Error: -" ++ c.toString ++ " is missing a required argument\n" }
    pure false
  | .long _ => throw .undefined
  | .operands ws =>
    modify fun t => { t with operands := ws }
    pure true

/-- getOption. -/
def getOption (t : Tool) (shortName : Char) : Except StdExn CliOption :=
  match t.optionsMap shortName with
  | some o => .ok o
  | none =>
    .error (.invalidArgument ("The option: -" ++ toString shortName.toNat ++ " was not found."))

/-- optString. -/
def optString (t : Tool) (shortName : Char) : Except StdExn String :=
  (t.getOption shortName).map CliOption.arg

/-- optIsSet. -/
def optIsSet (t : Tool) (shortName : Char) : Bool :=
  match t.optionsMap shortName with
  | some o => o.isSet
  | none => false

/-! ### The two views of the options -/

/-- The option string and the map know the same options. -/
def Consistent (t : Tool) : Prop :=
  ∀ c, t.spec.takes c = (t.optionsMap c).map fun o => decide (0 < o.argReqd)

end Tool

theorem takesIn_append {c d : Char} (hc : c ≠ ':') (hd : d ≠ ':') (b : Bool) (s : List Char) :
    takesIn (s ++ c :: if b then [':'] else []) d =
      (takesIn s d).or (if d = c then some b else none) := by
  induction s with
  | nil =>
    by_cases hcd : c = d
    · subst hcd
      rcases b with - | -
      · simp [takesIn]
      · simp [takesIn]
    · have hdc : d ≠ c := fun h => hcd h.symm
      rcases b with - | -
      · simp [takesIn, hcd, hdc]
      · simp [takesIn, hcd, hdc, Ne.symm hd]
  | cons x s ih =>
    by_cases hx : x = d
    · -- the character behind the first occurrence is the same unless `s` ends there
      rcases s with - | ⟨y, s⟩
      · simp [takesIn, hx, hc]
      · simp [takesIn, hx]
    · simp [takesIn, hx, ih]

namespace Tool

theorem consistent_constructed : constructed.Consistent := by
  intro c
  by_cases hc : c = '-' ∨ c = ':' ∨ c = ';'
  · simp [spec, hc, constructed]
  · have hcolon : ':' ≠ c := fun h => hc (Or.inr (Or.inl h.symm))
    simp [spec, hc, constructed, takesIn, hcolon]

theorem consistent_addOption {t : Tool} (h : t.Consistent) (o : OptionSpec) :
    (t.addOption o).Consistent := by
  intro c
  have hc := h c
  obtain ⟨hdash, hcolon, hsemi⟩ :
      o.shortName ≠ '-' ∧ o.shortName ≠ ':' ∧ o.shortName ≠ ';' := by
    have hnot := o.allowed.1
    simp only [List.mem_cons, not_or] at hnot
    exact ⟨hnot.1, hnot.2.1, hnot.2.2.1⟩
  by_cases hspecial : c = '-' ∨ c = ':' ∨ c = ';'
  · -- getopt does not look these characters up, and no option is named so
    have hne : c ≠ o.shortName := by
      rintro rfl
      rcases hspecial with h | h | h
      · exact hdash h
      · exact hcolon h
      · exact hsemi h
    simpa [spec, hspecial, addOption, hne] using hc
  · have hcc : c ≠ ':' := fun h => hspecial (Or.inr (Or.inl h))
    have happend := takesIn_append hcolon hcc (decide (o.hasArg > 0)) t.optionString.toList
    simp only [spec, hspecial, if_false] at hc ⊢
    simp only [addOption, String.toList_append, String.toList_ofList]
    simp only [decide_eq_true_eq] at happend
    rw [happend, hc]
    by_cases hname : c = o.shortName
    · -- the first option of a name stands in both: emplace keeps it, and strchr finds it
      rcases t.optionsMap c with - | p
      · simp [hname, OptionSpec.option]
      · simp [hname]
    · simp [hname]

/-- A tool with some options. -/
def build (options : List OptionSpec) : Tool := options.foldl addOption constructed

/-- **The two views agree** in every tool that addOption builds. -/
theorem consistent_build (options : List OptionSpec) : (build options).Consistent := by
  suffices h : ∀ t : Tool, t.Consistent → (options.foldl addOption t).Consistent from
    h constructed consistent_constructed
  induction options with
  | nil => exact fun t ht => ht
  | cons o options ih => exact fun t ht => ih _ (consistent_addOption ht o)

end Tool

/-! ### What the options hold afterwards -/

/-- The value that an item gives for an option. -/
def valueFor (c : Char) : Item → Option String
  | .flag _ => none
  | .arg d value => if d = c then some value else none

/-- An option after some items: it is set if one of them names it, and its
argument is the last one given. -/
def CliOption.given (items : List Item) (c : Char) (o : CliOption) : CliOption :=
  { o with
    isSet := o.isSet || items.any (·.name = c)
    arg :=
      if o.takesArgument then ((items.filterMap (valueFor c)).getLast?).getD o.arg else o.arg }

namespace Tool

/-- The tool after some items. -/
def given (items : List Item) (t : Tool) : Tool :=
  { t with optionsMap := fun c => (t.optionsMap c).map (CliOption.given items c) }

@[simp] theorem given_optionsMap (items : List Item) (t : Tool) (c : Char) :
    (t.given items).optionsMap c = (t.optionsMap c).map (CliOption.given items c) := rfl

end Tool

theorem CliOption.given_nil (c : Char) (o : CliOption) : o.given [] c = o := by
  simp [given]

theorem CliOption.given_append (items items' : List Item) (c : Char) (o : CliOption) :
    (o.given items c).given items' c = o.given (items ++ items') c := by
  refine CliOption.ext rfl rfl rfl rfl ?_ ?_
  · show (if o.takesArgument then
        ((items'.filterMap (valueFor c)).getLast?).getD (o.given items c).arg
      else (o.given items c).arg) = _
    rcases ht : o.takesArgument with - | -
    · simp [given, ht]
    · -- the last value counts, and the earlier ones stand in where there is none
      simp only [given, ht, if_true, List.filterMap_append, List.getLast?_append]
      rcases (items'.filterMap (valueFor c)).getLast? with - | v
      · rfl
      · rfl
  · simp [given, Bool.or_assoc]

/-- An item is about one option. -/
theorem CliOption.given_of_ne {i : Item} {c : Char} (h : i.name ≠ c) (o : CliOption) :
    o.given [i] c = o := by
  cases i with
  | flag d => simp [given, valueFor, h]
  | arg d v =>
    have hd : d ≠ c := h
    simp [given, valueFor, h, hd]

namespace Tool

theorem given_nil (t : Tool) : t.given [] = t := by
  rcases t with ⟨optionsMap, optionString, operands, os⟩
  simp only [given, mk.injEq, and_true]
  funext c
  rcases optionsMap c with - | o
  · rfl
  · exact congrArg some (CliOption.given_nil c o)

theorem given_append (items items' : List Item) (t : Tool) :
    (t.given items).given items' = t.given (items ++ items') := by
  simp only [given, mk.injEq, and_true]
  funext c
  rcases t.optionsMap c with - | o
  · rfl
  · exact congrArg some (CliOption.given_append items items' c o)

/-! ### The loop -/

/-- The map has the option of an item. -/
def Knows (t : Tool) (i : Item) : Prop := ∃ o, t.optionsMap i.name = some o

/-- The option of an item is replaced. -/
theorem given_singleton {t : Tool} {i : Item} {o : CliOption}
    (ho : t.optionsMap i.name = some o) :
    { t with optionsMap := fun c =>
        if c = i.name then some (o.given [i] i.name) else t.optionsMap c } = t.given [i] := by
  simp only [given, mk.injEq, and_true]
  funext c
  by_cases hc : c = i.name
  · subst hc
    simp [ho]
  · rw [if_neg hc]
    rcases t.optionsMap c with - | p
    · rfl
    · exact congrArg some (CliOption.given_of_ne (Ne.symm hc) p).symm

theorem run_setItem {t : Tool} {i : Item} (h : t.Knows i) :
    (setItem i).run t = .ok () (t.given [i]) := by
  obtain ⟨o, ho⟩ := h
  rw [← given_singleton ho]
  cases i with
  | flag c =>
    have hset : o.given [.flag c] c = o.set := by
      simp [CliOption.given, CliOption.set, Item.name, valueFor]
    have ho : t.optionsMap c = some o := ho
    simp [setItem, set, ho, Item.name, hset]
  | arg c v =>
    have hset : o.given [.arg c v] c = if o.takesArgument then o.set.setTo v else o.set := by
      rcases ht : o.takesArgument with - | - <;>
        simp [CliOption.given, CliOption.set, CliOption.setTo, Item.name, valueFor, ht]
    have ho : t.optionsMap c = some o := ho
    have htakes : o.set.takesArgument = o.takesArgument := rfl
    simp [setItem, set, ho, Item.name, hset, htakes]

theorem knows_given {t : Tool} {i : Item} (h : t.Knows i) (items : List Item) :
    (t.given items).Knows i := by
  obtain ⟨o, ho⟩ := h
  exact ⟨_, by rw [given_optionsMap, ho]; rfl⟩

theorem run_setItems {t : Tool} {items : List Item} (h : ∀ i ∈ items, t.Knows i) :
    (setItems items).run t = .ok () (t.given items) := by
  induction items generalizing t with
  | nil =>
    rw [given_nil]
    rfl
  | cons i items ih =>
    have hrest : ∀ j ∈ items, (t.given [i]).Knows j := fun j hj =>
      knows_given (h j (List.mem_cons_of_mem _ hj)) [i]
    rw [setItems, EStateM.run_bind, run_setItem (h i List.mem_cons_self)]
    show (setItems items).run (t.given [i]) = _
    rw [ih hrest, given_append]
    rfl

/-- What getopt returns is in the map. -/
theorem knows_scan {t : Tool} (h : t.Consistent) (args : List String) :
    ∀ i ∈ (GetOpt.scan t.spec args).items, t.Knows i := by
  intro i hi
  have hallowed := GetOpt.allowed_scan args i hi
  have htakes : ∃ b, t.spec.takes i.name = some b := by
    cases i with
    | flag c => exact ⟨false, hallowed⟩
    | arg c v => exact ⟨true, hallowed⟩
  obtain ⟨b, hb⟩ := htakes
  rw [h i.name, Option.map_eq_some_iff] at hb
  obtain ⟨o, ho, -⟩ := hb
  exact ⟨o, ho⟩

/-- The run of parseArgs. -/
theorem run_parseArgs {t : Tool} (h : t.Consistent) (args : List String) :
    (parseArgs args).run t =
      let s := GetOpt.scan t.spec args
      match s.ending with
      | .invalid c => .ok false { t.given s.items with
          os := t.os ++ "CLI Error: -" ++ c.toString ++ " is an invalid option.\n" }
      | .missing c => .ok false { t.given s.items with
          os := t.os ++ "CLI Error: -" ++ c.toString ++ " is missing a required argument\n" }
      | .long _ => .error .undefined (t.given s.items)
      | .operands ws => .ok true { t.given s.items with operands := ws } := by
  simp only [parseArgs, EStateM.run_bind, EStateM.run_get, run_setItems (knows_scan h args)]
  rcases (GetOpt.scan t.spec args).ending with ws | c | c | w
  · rfl
  · rfl
  · rfl
  · rfl

/-- A tool whose options were added never throws that an option was not found:
getopt has caught it. -/
theorem parseArgs_ne_error (options : List OptionSpec) (args : List String) (what : String)
    (t : Tool) : (parseArgs args).run (build options) ≠ .error (.invalidArgument what) t := by
  rw [run_parseArgs (consistent_build options)]
  rcases h : (GetOpt.scan (build options).spec args).ending with ws | c | c | w <;> simp [h]

theorem spells_of_parseArgs {options : List OptionSpec} {args : List String} {t : Tool}
    (h : (parseArgs args).run (build options) = .ok true t) :
    ∃ items operands, Spells (build options).spec args items operands ∧
      t = { (build options).given items with operands := operands } := by
  rw [run_parseArgs (consistent_build options)] at h
  rcases hend : (GetOpt.scan (build options).spec args).ending with ws | c | c | w <;>
    simp only [hend] at h
  · exact ⟨_, ws, GetOpt.spells_scan hend, (EStateM.Result.ok.inj h).2.symm⟩
  · cases (EStateM.Result.ok.inj h).1
  · cases (EStateM.Result.ok.inj h).1
  · cases h

theorem parseArgs_of_spells {options : List OptionSpec} {args : List String} {items : List Item}
    {operands : List String} (h : Spells (build options).spec args items operands) :
    (parseArgs args).run (build options) =
      .ok true { (build options).given items with operands := operands } := by
  rw [run_parseArgs (consistent_build options), GetOpt.scan_of_spells h]

/-- Whatever the options allow can be given. -/
theorem parseArgs_render {options : List OptionSpec} {items : List Item}
    (h : ∀ i ∈ items, GetOpt.Allowed (build options).spec i) (operands : List String) :
    (parseArgs (GetOpt.render items operands)).run (build options) =
      .ok true { (build options).given items with operands := operands } :=
  parseArgs_of_spells (GetOpt.spells_render h operands)

/-- **Accepted command lines**: a tool with at least one option accepts exactly
the command lines that spell some items and operands, and is left with what
these items give its options. -/
theorem parseArgs_iff (o : OptionSpec) (options : List OptionSpec) (args : List String)
    (t : Tool) :
    (parseArgs args).run (build (o :: options)) = .ok true t ↔
      ∃ items operands, Spells (build (o :: options)).spec args items operands ∧
        t = { (build (o :: options)).given items with operands := operands } := by
  constructor
  · exact spells_of_parseArgs
  · rintro ⟨items, operands, h, rfl⟩
    exact parseArgs_of_spells h

end Tool

end Asn1Codec
