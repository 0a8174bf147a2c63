/-
Asn1Codec/Configuration.lean

The configuration file: the loop of configure over its lines, with the string
utilities it calls.

`split` goes by getline, which does not report an empty last piece, and the loop
accepts a line that has two pieces.  So `a=b=` counts as `a` and `b`, and the
value has lost its last character.  `NeverTruncated` says what a configuration
should be to its file; `wholeSetting` reads a line by its first '='.

The key and the value of a stripped line are those of the line because stripping
passes over a '=', which is no delimiter (`trim_append_cons`).
-/
import Asn1Codec.Batch
import Asn1Codec.Runs

namespace Asn1Codec

/-! ### The string utilities -/

/-- string_utilities::DELIMITERS. -/
def delimiters : List Char := [' ', '\x0c', '\n', '\r', '\t', '\x0b']

def isDelimiter (c : Char) : Bool := delimiters.contains c

/-- string_utilities::strip. -/
def strip (s : String) : String := String.ofList (trim isDelimiter s.toList)

/-- string_utilities::split. -/
def split (s : String) (delim : Char) : List String :=
  (pieces delim s.toList).map String.ofList

/-! ### The loop of configure -/

/-- A StrStrMap. -/
abbrev StrStrMap := String → Option String

/-- `m[k] = v`. -/
def StrStrMap.set (m : StrStrMap) (k v : String) : StrStrMap :=
  fun k' => if k' = k then some v else m k'

/-- Conf::set of librdkafka, for a topic and for a global configuration: whether
it gives CONF_OK for a key and a value, after what has been set. -/
structure KafkaConf where
  topicSet : StrStrMap → String → String → Bool
  globalSet : StrStrMap → String → String → Bool

/-- The places where a setting can go. -/
inductive Store
  | tconf
  | conf
  | pconf
  deriving DecidableEq

/-- A setting that the loop has handed to a store: the line it comes from, and
whether the store took it. -/
structure Entry where
  line : String
  store : Store
  key : String
  value : String
  ok : Bool
  deriving DecidableEq

/-- What the loop has built: the three stores and the lines warned about; `log`
is the record of what was handed to the stores. -/
structure Configuration where
  tconf : StrStrMap
  conf : StrStrMap
  pconf : StrStrMap
  warnings : List String
  log : List Entry

def Configuration.empty : Configuration := ⟨fun _ => none, fun _ => none, fun _ => none, [], []⟩

/-- A setting: Kafka's own configurations are asked first, and pconf has what
neither of them takes. -/
def Configuration.set (K : KafkaConf) (c : Configuration) (line key value : String) :
    Configuration :=
  let topicOk := K.topicSet c.tconf key value
  let globalOk := K.globalSet c.conf key value
  let done := topicOk || globalOk
  { tconf := if topicOk then c.tconf.set key value else c.tconf
    conf := if globalOk then c.conf.set key value else c.conf
    pconf := if !done then c.pconf.set key value else c.pconf
    warnings := c.warnings
    log := c.log ++ [⟨line, .tconf, key, value, topicOk⟩, ⟨line, .conf, key, value, globalOk⟩,
      ⟨line, .pconf, key, value, !done⟩] }

/-- A line that the loop passes over, being empty or a comment. -/
def Skipped (line : String) : Prop :=
  strip line = "" ∨ (strip line).toList.head? = some '#'

instance (line : String) : Decidable (Skipped line) := by unfold Skipped; infer_instance

/-- The two pieces of a line, if it has two. -/
def settingOf (line : String) : Option (String × String) :=
  match split (strip line) '=' with
  | [key, value] => some (strip key, strip value)
  | _ => none

/-- The body of the loop. -/
def configureLine (K : KafkaConf) (line : String) (c : Configuration) : Configuration :=
  if Skipped line then c
  else
    match settingOf line with
    | some (key, value) => c.set K line key value
    | none => { c with warnings := c.warnings ++ [strip line] }

/-- The loop, over a file with the content `text`. -/
def configureLoop (K : KafkaConf) (text : String) : Configuration :=
  Runs.run (configureLine K) .empty (getlines text)

/-! ### What a configuration should be -/

/-- The content of a store. -/
def Configuration.lookup (c : Configuration) : Store → StrStrMap
  | .tconf => c.tconf
  | .conf => c.conf
  | .pconf => c.pconf

/-- The entries that a store took for a key. -/
def Entry.takenBy (s : Store) (k : String) (e : Entry) : Bool :=
  e.store == s && e.key == k && e.ok

/-- The setting of a line: the key is the trimmed text before the first '=', the
value the whole trimmed text after it, unless that has a '=' in turn. -/
def wholeSetting (line : String) : Option (String × String) :=
  if '=' ∈ line.toList then
    let key := strip (String.ofList (line.toList.takeWhile (· ≠ '=')))
    let value := strip (String.ofList (line.toList.dropWhile (· ≠ '=')).tail)
    if '=' ∈ value.toList then none else some (key, value)
  else none

/-- No value is silently truncated: what goes to a store is the whole setting of
its line, a line without one is warned about and goes nowhere, and a store has
for a key what it took last. -/
structure NeverTruncated (c : Configuration) (lines : List String) : Prop where
  whole : ∀ e ∈ c.log, e.line ∈ lines ∧ ¬ Skipped e.line ∧
    wholeSetting e.line = some (e.key, e.value)
  rejects : ∀ line ∈ lines, ¬ Skipped line → wholeSetting line = none →
    strip line ∈ c.warnings ∧ ∀ e ∈ c.log, e.line ≠ line
  last : ∀ s k, c.lookup s k = ((c.log.filter (Entry.takenBy s k)).getLast?).map Entry.value

/-- A line with exactly two '=', the second of them its last character. -/
def CutLine (line : String) : Prop :=
  ¬ Skipped line ∧ (strip line).toList.count '=' = 2 ∧ (strip line).toList.getLast? = some '='

instance (line : String) : Decidable (CutLine line) := by unfold CutLine; infer_instance

/-! ### One line -/

theorem isDelimiter_equals : isDelimiter '=' = false := rfl

theorem toList_strip (s : String) : (strip s).toList = trim isDelimiter s.toList :=
  String.toList_ofList

section Line

variable {line : String} {k v : List Char}

theorem toList_strip_append (hline : line.toList = k ++ '=' :: v) :
    (strip line).toList = k.dropWhile isDelimiter ++ '=' :: v.rdropWhile isDelimiter := by
  rw [toList_strip, hline, trim_append_cons isDelimiter_equals]

theorem not_mem_dropWhile (hk : '=' ∉ k) : '=' ∉ k.dropWhile isDelimiter :=
  fun h => hk ((List.dropWhile_suffix isDelimiter).subset h)

/-- A line without a '=' has no setting. -/
theorem settingOf_of_not_mem (h : '=' ∉ line.toList) : settingOf line = none := by
  have hstrip : '=' ∉ (strip line).toList := by
    rw [toList_strip, mem_trim isDelimiter_equals]
    exact h
  rw [settingOf, split]
  by_cases hempty : (strip line).toList = []
  · rw [hempty]
    rfl
  · rw [pieces_of_not_mem '=' hstrip hempty]
    rfl

/-- The setting of a line with a first '=' goes by the pieces of what follows. -/
theorem settingOf_eq_some (hline : line.toList = k ++ '=' :: v) (hk : '=' ∉ k)
    {key value : String} :
    settingOf line = some (key, value) ↔ key = strip (String.ofList k) ∧
      ∃ x, pieces '=' (v.rdropWhile isDelimiter) = [x] ∧ value = strip (String.ofList x) := by
  have hkey : strip (String.ofList (k.dropWhile isDelimiter)) = strip (String.ofList k) := by
    rw [strip, strip, String.toList_ofList, String.toList_ofList, trim_dropWhile]
  rw [settingOf, split, toList_strip_append hline, pieces_append_cons '=' (not_mem_dropWhile hk)]
  -- one piece after the key makes a pair; none, or two, does not
  rcases pieces '=' (v.rdropWhile isDelimiter) with - | ⟨x, - | ⟨y, ys⟩⟩
  · simp
  · simp [hkey, eq_comm]
  · simp

theorem wholeSetting_append (hline : line.toList = k ++ '=' :: v) (hk : '=' ∉ k) :
    wholeSetting line =
      if '=' ∈ v then none else some (strip (String.ofList k), strip (String.ofList v)) := by
  have hall : ∀ c ∈ k, (decide (c ≠ '=')) = true := by
    intro c hc
    rw [decide_eq_true_eq]
    rintro rfl
    exact hk hc
  -- the key ends at the first =, which `k` does not have
  have htake : (k ++ '=' :: v).takeWhile (· ≠ '=') = k := by
    rw [List.takeWhile_append_of_pos hall]
    simp
  have hdrop : (k ++ '=' :: v).dropWhile (· ≠ '=') = '=' :: v := by
    rw [List.dropWhile_append_of_pos hall]
    simp
  have hmem : '=' ∈ (strip (String.ofList v)).toList ↔ '=' ∈ v := by
    rw [toList_strip, mem_trim isDelimiter_equals, String.toList_ofList]
  rw [wholeSetting, hline, htake, hdrop, if_pos (by simp)]
  simp only [List.tail_cons, hmem]

theorem getLast?_append_cons_concat (l x : List Char) (d c : Char) :
    (l ++ d :: (x ++ [c])).getLast? = some c := by
  rw [← List.cons_append, ← List.append_assoc, List.getLast?_concat]

theorem cutLine_append (hline : line.toList = k ++ '=' :: v) (hk : '=' ∉ k) :
    CutLine line ↔ ¬ Skipped line ∧ ∃ x, '=' ∉ x ∧ v.rdropWhile isDelimiter = x ++ ['='] := by
  rw [CutLine, toList_strip_append hline, List.count_append, List.count_cons_self,
    List.count_eq_zero_of_not_mem (not_mem_dropWhile hk)]
  refine and_congr_right fun _ => ?_
  constructor
  · -- two = in all and one at the end: the value is `x ++ [=]` with none in `x`
    rintro ⟨hcount, hlast⟩
    rcases (v.rdropWhile isDelimiter).eq_nil_or_concat with hnil | ⟨x, c, hx⟩
    · simp [hnil] at hcount
    · rw [hx, List.concat_eq_append] at hcount hlast
      rw [getLast?_append_cons_concat, Option.some.injEq] at hlast
      subst hlast
      refine ⟨x, ?_, by simpa using hx⟩
      rw [← List.count_eq_zero]
      simpa using hcount
  · rintro ⟨x, hx, heq⟩
    rw [heq, getLast?_append_cons_concat]
    simp [List.count_eq_zero_of_not_mem hx]

/-- A line that is not cut is read as a whole, or not at all. -/
theorem wholeSetting_of_settingOf (hskip : ¬ Skipped line) (hcut : ¬ CutLine line)
    {key value : String} (h : settingOf line = some (key, value)) :
    wholeSetting line = some (key, value) := by
  by_cases hmem : '=' ∈ line.toList
  · obtain ⟨k, v, hline, hk⟩ := List.eq_append_cons_of_mem hmem
    obtain ⟨rfl, x, hpieces, rfl⟩ := (settingOf_eq_some hline hk).mp h
    rcases (pieces_eq_singleton '=').mp hpieces with ⟨hv, -, rfl⟩ | ⟨hx, hv⟩
    · have hv : '=' ∉ v := by
        rwa [← mem_trim isDelimiter_equals, ← trim_rdropWhile, mem_trim isDelimiter_equals]
      rw [wholeSetting_append hline hk, if_neg hv]
      simp only [strip, String.toList_ofList, trim_rdropWhile]
    · -- getline dropped an empty last piece, so the line was cut
      exact absurd ((cutLine_append hline hk).mpr ⟨hskip, x, hx, hv⟩) hcut
  · rw [settingOf_of_not_mem hmem] at h
    cases h

/-- A cut line has a setting, which is not its whole one. -/
theorem settingOf_of_cutLine (hcut : CutLine line) :
    (∃ key value, settingOf line = some (key, value)) ∧ wholeSetting line = none := by
  have hmem : '=' ∈ line.toList := by
    rw [← mem_trim isDelimiter_equals, ← toList_strip]
    exact List.mem_of_getLast? hcut.2.2
  obtain ⟨k, v, hline, hk⟩ := List.eq_append_cons_of_mem hmem
  obtain ⟨-, x, hx, hv⟩ := (cutLine_append hline hk).mp hcut
  constructor
  · exact ⟨_, _, (settingOf_eq_some hline hk).mpr
      ⟨rfl, x, (pieces_eq_singleton '=').mpr (.inr ⟨hx, hv⟩), rfl⟩⟩
  · have hv : '=' ∈ v := by
      rw [← mem_trim isDelimiter_equals, ← trim_rdropWhile, mem_trim isDelimiter_equals, hv]
      simp
    rw [wholeSetting_append hline hk, if_pos hv]

end Line

/-! ### The run of the loop -/

variable (K : KafkaConf)

/-- What the loop does with a line: the whole line is passed over, warned about,
or handed to the stores. -/
theorem configureLine_cases (line : String) (c : Configuration) :
    Skipped line ∧ configureLine K line c = c ∨
    ¬ Skipped line ∧ settingOf line = none ∧
      configureLine K line c = { c with warnings := c.warnings ++ [strip line] } ∨
    ¬ Skipped line ∧ ∃ key value, settingOf line = some (key, value) ∧
      configureLine K line c = c.set K line key value := by
  rw [configureLine]
  by_cases hskip : Skipped line
  · exact .inl ⟨hskip, if_pos hskip⟩
  · rw [if_neg hskip]
    rcases settingOf line with - | ⟨key, value⟩
    · exact .inr (.inl ⟨hskip, rfl, rfl⟩)
    · exact .inr (.inr ⟨hskip, key, value, rfl, rfl⟩)

/-- The record and the warnings only grow. -/
def Grows (c c' : Configuration) : Prop := c.log ⊆ c'.log ∧ c.warnings ⊆ c'.warnings

theorem grows_configureLine (line : String) (c : Configuration) :
    Grows c (configureLine K line c) := by
  rcases configureLine_cases K line c with ⟨-, h⟩ | ⟨-, -, h⟩ | ⟨-, key, value, -, h⟩
  · rw [h]
    exact ⟨List.Subset.refl _, List.Subset.refl _⟩
  · rw [h]
    exact ⟨List.Subset.refl _, List.subset_append_left _ _⟩
  · rw [h]
    exact ⟨List.subset_append_left _ _, List.Subset.refl _⟩

theorem grows_run (c : Configuration) (lines : List String) :
    Grows c (Runs.run (configureLine K) c lines) := by
  refine Runs.run_invariant (P := Grows c) ?_ ⟨List.Subset.refl _, List.Subset.refl _⟩ lines
  rintro line c' ⟨hlog, hwarnings⟩
  have hstep := grows_configureLine K line c'
  exact ⟨fun e he => hstep.1 (hlog he), fun w hw => hstep.2 (hwarnings hw)⟩

/-- What the body does with a line of the file is still there after the loop. -/
theorem grows_of_mem {lines : List String} {line : String} (h : line ∈ lines)
    (c : Configuration) :
    ∃ c', Grows (configureLine K line c') (Runs.run (configureLine K) c lines) := by
  obtain ⟨before, after, rfl⟩ := List.append_of_mem h
  refine ⟨Runs.run (configureLine K) c before, ?_⟩
  rw [Runs.run_append]
  exact grows_run K _ after

/-- An entry comes from a line of the file, and has the setting of that line. -/
theorem mem_log_run {e : Entry} {lines : List String} {c : Configuration}
    (h : e ∈ (Runs.run (configureLine K) c lines).log) :
    e ∈ c.log ∨ e.line ∈ lines ∧ ¬ Skipped e.line ∧ settingOf e.line = some (e.key, e.value) := by
  induction lines generalizing c with
  | nil => exact .inl h
  | cons line lines ih =>
    rcases ih h with hmem | ⟨hline, hsetting⟩
    · rcases configureLine_cases K line c with ⟨-, hc⟩ | ⟨-, -, hc⟩ | ⟨hskip, key, value, hkv, hc⟩
      · rw [hc] at hmem
        exact .inl hmem
      · rw [hc] at hmem
        exact .inl hmem
      · rw [hc, Configuration.set, List.mem_append] at hmem
        rcases hmem with hmem | hmem
        · exact .inl hmem
        · simp only [List.mem_cons, List.not_mem_nil, or_false] at hmem
          rcases hmem with rfl | rfl | rfl <;>
            exact .inr ⟨List.mem_cons_self, hskip, hkv⟩
    · exact .inr ⟨List.mem_cons_of_mem _ hline, hsetting⟩

theorem exists_entry {lines : List String} {line : String} (h : line ∈ lines)
    (hskip : ¬ Skipped line) {key value : String} (hkv : settingOf line = some (key, value))
    (c : Configuration) :
    ∃ e ∈ (Runs.run (configureLine K) c lines).log, e.line = line := by
  obtain ⟨c', hlog, -⟩ := grows_of_mem K h c
  refine ⟨⟨line, .tconf, key, value, K.topicSet c'.tconf key value⟩, hlog ?_, rfl⟩
  rw [configureLine, if_neg hskip, hkv]
  simp [Configuration.set]

theorem mem_warnings {lines : List String} {line : String} (h : line ∈ lines)
    (hskip : ¬ Skipped line) (hnone : settingOf line = none) (c : Configuration) :
    strip line ∈ (Runs.run (configureLine K) c lines).warnings := by
  obtain ⟨c', -, hwarnings⟩ := grows_of_mem K h c
  apply hwarnings
  rw [configureLine, if_neg hskip, hnone]
  simp

/-! ### What stands in a store -/

/-- The value that a store took last for a key. -/
def standing (log : List Entry) (s : Store) (k : String) : Option String :=
  ((log.filter (Entry.takenBy s k)).getLast?).map Entry.value

theorem standing_append (log es : List Entry) (s : Store) (k : String) :
    standing (log ++ es) s k = (standing es s k).or (standing log s k) := by
  rw [standing, List.filter_append, List.getLast?_append, standing, standing]
  rcases (es.filter (Entry.takenBy s k)).getLast? with - | e
  · rfl
  · rfl

theorem lookup_set (c : Configuration) (line key value : String) (s : Store) (k : String) :
    (c.set K line key value).lookup s k =
      (standing [⟨line, .tconf, key, value, K.topicSet c.tconf key value⟩,
        ⟨line, .conf, key, value, K.globalSet c.conf key value⟩,
        ⟨line, .pconf, key, value,
          !(K.topicSet c.tconf key value || K.globalSet c.conf key value)⟩] s k).or
      (c.lookup s k) := by
  rw [Configuration.set]
  by_cases hk : key = k
  · subst hk
    rcases s with - | - | -
    · rcases K.topicSet c.tconf key value <;>
        simp [standing, Entry.takenBy, Configuration.lookup, StrStrMap.set]
    · rcases K.globalSet c.conf key value <;>
        simp [standing, Entry.takenBy, Configuration.lookup, StrStrMap.set]
    · rcases K.topicSet c.tconf key value || K.globalSet c.conf key value <;>
        simp [standing, Entry.takenBy, Configuration.lookup, StrStrMap.set]
  · have hother (m : StrStrMap) : m.set key value k = m k := if_neg (Ne.symm hk)
    have hnone (a b c : Bool) : standing [⟨line, .tconf, key, value, a⟩,
        ⟨line, .conf, key, value, b⟩, ⟨line, .pconf, key, value, c⟩] s k = none := by
      simp [standing, Entry.takenBy, hk]
    rw [hnone, Option.none_or]
    rcases s with - | - | -
    all_goals
      simp only [Configuration.lookup]
      split
      · exact hother _
      · rfl

/-- A store has what it took last. -/
theorem lookup_run (lines : List String) (s : Store) (k : String) :
    (Runs.run (configureLine K) .empty lines).lookup s k =
      standing (Runs.run (configureLine K) .empty lines).log s k := by
  revert s k
  refine Runs.run_invariant
    (P := fun c : Configuration => ∀ s k, c.lookup s k = standing c.log s k) ?_ ?_ lines
  · intro line c h s k
    rcases configureLine_cases K line c with ⟨-, hc⟩ | ⟨-, -, hc⟩ | ⟨-, key, value, -, hc⟩
    · rw [hc, h]
    · rw [hc]
      exact h s k
    · rw [hc, lookup_set, h]
      exact (standing_append c.log _ s k).symm
  · rintro (- | - | -) k <;> rfl

/-- A credential in base 64 loses the padding at its end. -/
theorem password_truncated :
    ¬ NeverTruncated (configureLoop ⟨fun _ _ _ => false, fun _ _ _ => true⟩
      "group.id=0\nsasl.password=c2VjcmV0cw=\n")
        (getlines "group.id=0\nsasl.password=c2VjcmV0cw=\n") := by
  rintro ⟨hwhole, -, -⟩
  have h := (hwhole ⟨"sasl.password=c2VjcmV0cw=", .conf, "sasl.password", "c2VjcmV0cw", true⟩
    (by decide +kernel)).2.2
  revert h
  decide +kernel

/-- **No silent truncation, exactly**: the loop keeps every value whole if and
only if no line of the file has a second '=' as its last character. -/
theorem neverTruncated_iff (text : String) :
    NeverTruncated (configureLoop K text) (getlines text) ↔
      ∀ line ∈ getlines text, ¬ CutLine line := by
  constructor
  · rintro ⟨hwhole, -, -⟩ line hline hcut
    obtain ⟨⟨key, value, hsetting⟩, hnone⟩ := settingOf_of_cutLine hcut
    obtain ⟨e, he, rfl⟩ := exists_entry K hline hcut.1 hsetting .empty
    have hsome := (hwhole e he).2.2
    rw [hnone] at hsome
    cases hsome
  · intro hcut
    have hwhole : ∀ e ∈ (configureLoop K text).log, e.line ∈ getlines text ∧
        ¬ Skipped e.line ∧ wholeSetting e.line = some (e.key, e.value) := by
      intro e he
      rcases mem_log_run K he with hempty | ⟨hline, hskip, hsetting⟩
      · cases hempty
      · exact ⟨hline, hskip, wholeSetting_of_settingOf hskip (hcut _ hline) hsetting⟩
    refine ⟨hwhole, fun line hline hskip hnone => ⟨?_, ?_⟩, fun s k => ?_⟩
    · rcases hsetting : settingOf line with - | ⟨key, value⟩
      · exact mem_warnings K hline hskip hsetting .empty
      · rw [wholeSetting_of_settingOf hskip (hcut line hline) hsetting] at hnone
        cases hnone
    · rintro e he rfl
      rw [(hwhole e he).2.2] at hnone
      cases hnone
    · exact lookup_run K (getlines text) s k

end Asn1Codec
