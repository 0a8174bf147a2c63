/-
Asn1Codec/Batch.lean

The HTTP endpoint that decodes a batch, one message a line.

The variables that a line is read into are declared outside the loop of
post_batch and keep what an earlier line has left in them, the JSON value even
when the line fails halfway.  `Vars` holds them all.  `batchLine` is one turn of
the loop with its two try blocks, `lineOutput` what a line contributes to the
response on its own, and `run_batchLine` says that the turn appends that and
leaves nothing for a later turn to read.

JSON values are those of the vendored nlohmann::json; its parser is the
parameter `parse`, which may return any value and throw any of the classes.
-/
import Asn1Codec.Http
import Asn1Codec.Pieces
import Mathlib.Algebra.Group.Int.Defs
import Mathlib.Data.Rat.Defs

namespace Asn1Codec

variable {V : Type}

/-! ### JSON values -/

/-- `nlohmann::json`.  A number_float is finite after a parse, so it is a
rational; an object is its list of members. -/
inductive Json where
  | null
  | boolean (b : Bool)
  | numberInteger (i : Int64)
  | numberUnsigned (u : UInt64)
  | numberFloat (q : ℚ)
  | string (s : String)
  | array (xs : List Json)
  | object (members : List (String × Json))

/-- The exceptions of nlohmann::json that reading a line can meet, with what()
behind the name of the class. -/
inductive JsonExn where
  | parseError (what : String)
  | typeError (id : ℕ) (what : String)
  | outOfRange (id : ℕ) (what : String)
  deriving DecidableEq

namespace Json

/-- `type_name()`. -/
def typeName : Json → String
  | null => "null"
  | boolean _ => "boolean"
  | numberInteger _ => "number"
  | numberUnsigned _ => "number"
  | numberFloat _ => "number"
  | string _ => "string"
  | array _ => "array"
  | object _ => "object"

/-- `operator[]` with a key: the element and the value afterwards.  A null
becomes an object, and a missing element a null member. -/
def subscript (key : String) : Json → Except JsonExn (Json × Json)
  | null => .ok (null, object [(key, null)])
  | object members =>
    match members.lookup key with
    | some v => .ok (v, object members)
    | none => .ok (null, object (members ++ [(key, null)]))
  | v =>
    .error (.typeError 305 ("cannot use operator[] with a string argument with " ++ v.typeName))

/-- `static_cast<long>` of a double.  Out of the range C++ leaves the value
undefined; it is that of x86-64 here. -/
def truncate (q : ℚ) : Int64 :=
  let n := q.num.tdiv q.den
  if -2 ^ 63 ≤ n ∧ n < 2 ^ 63 then Int64.ofInt n else Int64.minValue

/-- The conversion to a long. -/
def getLong : Json → Except JsonExn Int64
  | numberInteger i => .ok i
  | numberUnsigned u => .ok u.toInt64
  | numberFloat q => .ok (truncate q)
  | v => .error (.typeError 302 ("type must be number, but is " ++ v.typeName))

/-- The conversion to a string. -/
def getString : Json → Except JsonExn String
  | string s => .ok s
  | v => .error (.typeError 302 ("type must be string, but is " ++ v.typeName))

end Json

/-! ### The endpoint -/

/-- What the turn of a line can throw. -/
inductive BatchExn where
  | json (e : JsonExn)
  | codec (e : Exn)
  deriving DecidableEq

/-- The variables declared outside the loop, and the codec. -/
structure Vars where
  outfile : String
  msgCount : ℕ
  hexLine : String
  jsonValue : Json
  timestamp : Int64
  messageType : String
  codec : Codec

abbrev BatchM := EStateM BatchExn Vars

/-- Run a method of the codec. -/
def onCodec {α : Type} (x : CodecM α) : BatchM α := fun v =>
  match x v.codec with
  | .ok a c => .ok a { v with codec := c }
  | .error e c => .error (.codec e) { v with codec := c }

/-- Continue with a JSON result, or throw. -/
def ofJson {α : Type} : Except JsonExn α → BatchM α
  | .ok a => pure a
  | .error e => throw (.json e)

/-- A try block with its handler, which finds the variables as the throw left
them. -/
def handling {α : Type} (x : BatchM α) (handler : BatchExn → BatchM α) : BatchM α := fun v =>
  match x v with
  | .ok a v' => .ok a v'
  | .error e v' => handler e v'

/-- `json_value[key]`. -/
def field (key : String) : BatchM Json := do
  let (x, jsonValue) ← ofJson ((← get).jsonValue.subscript key)
  modify fun v => { v with jsonValue := jsonValue }
  pure x

/-- The conversion of `json_value[key]` to the type of the variable it is
assigned to. -/
def fieldAs {α : Type} (key : String) (convert : Json → Except JsonExn α) : BatchM α := do
  let x ← field key
  ofJson (convert x)

/-- The body of the inner try block. -/
def readFields (parse : String → Except JsonExn Json) (line : String) : BatchM Bool := do
  let jsonValue ← ofJson (parse line)
  modify fun v => { v with jsonValue := jsonValue }
  let timestamp ← fieldAs "timestamp" Json.getLong
  modify fun v => { v with timestamp := timestamp }
  let messageType ← fieldAs "type" Json.getString
  modify fun v => { v with messageType := messageType }
  let hexLine ← fieldAs "hex" Json.getString
  modify fun v => { v with hexLine := hexLine }
  pure true

/-- The inner try block: false where its handler continues with the next line.
Only a parse_error is handled here. -/
def readJsonLine (parse : String → Except JsonExn Json) (line : String) : BatchM Bool :=
  handling (readFields parse line) fun
    | .json (.parseError _) => pure false
    | e => throw e

/-- The call of decode_messageframe_data on hex_line, which is erased in place
before anything is thrown. -/
def decodeHexLine (E : Externals V) : BatchM (Bool × String) := do
  let hexLine := (← get).hexLine
  modify fun v => { v with hexLine := removeSpaces hexLine }
  let (decodeOk, _, xb) ← onCodec (callDecodeMessageframe E hexLine)
  pure (decodeOk, xb)

/-- The part of the turn behind the reading of the line. -/
def writeLine (E : Externals V) (isJson : Bool) : BatchM Unit := do
  let (decodeOk, xb) ← decodeHexLine E
  if !decodeOk then pure ()
  else
    let xmlLine := xb
    if isJson then
      modify fun v => { v with
        outfile := v.outfile ++ v.messageType ++ "," ++ toString v.timestamp ++ "\n" }
    modify fun v => { v with outfile := v.outfile ++ xmlLine ++ "\n" }

/-- One turn of the loop: the outer try block and its handler, which logs. -/
def batchLine (E : Externals V) (parse : String → Except JsonExn Json) (isJson : Bool)
    (line : String) : BatchM Unit :=
  handling
    (if line = "" then pure ()
    else do
      modify fun v => { v with msgCount := v.msgCount + 1 }
      let go ← if isJson then readJsonLine parse line
        else do
          modify fun v => { v with hexLine := line }
          pure true
      if go then writeLine E isJson)
    fun _ => pure ()

/-- The lines that getline reads, up to the end of the stream. -/
def splitLines : List Char → List (List Char)
  | [] => []
  | c :: cs =>
    if c = '\n' then [] :: splitLines cs
    else
      match splitLines cs with
      | [] => [[c]]
      | l :: ls => (c :: l) :: ls

def getlines (s : String) : List String := (splitLines s.toList).map String.ofList

/-- The loop. -/
def batchLoop (E : Externals V) (parse : String → Except JsonExn Json) (isJson : Bool) :
    List String → BatchM Unit
  | [] => pure ()
  | line :: lines => do
    batchLine E parse isJson line
    batchLoop E parse isJson lines

/-- post_batch; `t` is what the uninitialised timestamp holds. -/
def postBatch (E : Externals V) (parse : String → Except JsonExn Json) (t : Int64)
    (req : Request) : EStateM BatchExn Codec Response := fun c =>
  let isJson := containsText req.contentType "json"
  match batchLoop E parse isJson (getlines req.body) ⟨"", 0, "", .null, t, "", c⟩ with
  | .ok _ v => .ok ⟨200, "text/plain", v.outfile⟩ v.codec
  | .error e v => .error e v.codec

/-! ### What a line contributes -/

/-- The fields of a line in JSON mode. -/
structure Metadata where
  messageType : String
  timestamp : Int64
  hex : String

/-- A number as a long. -/
def Json.toLong? : Json → Option Int64
  | .numberInteger i => some i
  | .numberUnsigned u => some u.toInt64
  | .numberFloat q => some (truncate q)
  | _ => none

def Json.toString? : Json → Option String
  | .string s => some s
  | _ => none

/-- The fields of a JSON value: an object with a number and two strings. -/
def Json.metadata : Json → Option Metadata
  | .object members =>
    match (members.lookup "timestamp").bind Json.toLong?,
      (members.lookup "type").bind Json.toString?, (members.lookup "hex").bind Json.toString? with
    | some timestamp, some messageType, some hex => some ⟨messageType, timestamp, hex⟩
    | _, _, _ => none
  | _ => none

/-- The XER that post_single returns for a text. -/
def singleXer (E : Externals V) (c : Codec) (hex : String) : Option String :=
  match (postSingle E ⟨"text/plain", hex⟩).run c with
  | .ok resp _ => if resp.code = 200 then some resp.body else none
  | .error _ _ => none

/-- The output of a line that is read as hex behind some metadata. -/
def xerLine (E : Externals V) (c : Codec) (metadataLine hex : String) : String :=
  match singleXer E c hex with
  | none => ""
  | some xer => metadataLine ++ xer ++ "\n"

/-- The line that precedes the XER in JSON mode. -/
def Metadata.line (m : Metadata) : String := m.messageType ++ "," ++ toString m.timestamp ++ "\n"

/-- What a line contributes to the response. -/
def lineOutput (E : Externals V) (parse : String → Except JsonExn Json) (c : Codec)
    (isJson : Bool) (line : String) : String :=
  if line = "" then ""
  else if isJson then
    match (parse line).toOption.bind Json.metadata with
    | none => ""
    | some m => xerLine E c m.line m.hex
  else xerLine E c "" line

/-! ### One turn -/

/-- The codec after a number of calls: only the log has grown. -/
def SameSyntax (c c' : Codec) : Prop := c'.req.decodeMessageframeType = c.req.decodeMessageframeType

theorem singleXer_eq (E : Externals V) (c : Codec) (hex : String) :
    singleXer E c hex = (decodeHexData E "MessageFrame" .messageFrame
      c.req.decodeMessageframeType hex).toOption := by
  rw [singleXer, run_postSingle]
  rcases decodeHexData E "MessageFrame" .messageFrame c.req.decodeMessageframeType hex
    with e | xml
  · rfl
  · rfl

theorem lineOutput_congr (E : Externals V) (parse : String → Except JsonExn Json) {c c' : Codec}
    (h : SameSyntax c c') (isJson : Bool) :
    lineOutput E parse c' isJson = lineOutput E parse c isJson := by
  have hsingle : singleXer E c' = singleXer E c := by
    funext hex
    rw [singleXer_eq, singleXer_eq, h]
  funext line
  simp only [lineOutput, xerLine, hsingle]

/-- A method that writes nothing and leaves the codec alone, also when it
throws. -/
def Silent {α : Type} (x : BatchM α) : Prop :=
  ∀ v, (finalState (x.run v)).outfile = v.outfile ∧ (finalState (x.run v)).codec = v.codec

section Silent

variable {α β : Type}

theorem silent_pure (a : α) : Silent (pure a) := fun _ => ⟨rfl, rfl⟩

theorem silent_throw (e : BatchExn) : Silent (throw e : BatchM α) := fun _ => ⟨rfl, rfl⟩

theorem silent_ofJson (r : Except JsonExn α) : Silent (ofJson r) := by
  rcases r with e | a
  · exact silent_throw _
  · exact silent_pure a

theorem silent_modify {f : Vars → Vars}
    (hf : ∀ v, (f v).outfile = v.outfile ∧ (f v).codec = v.codec) : Silent (modify f) := hf

theorem run_handling (x : BatchM α) (handler : BatchExn → BatchM α) (v : Vars) :
    (handling x handler).run v =
      match x.run v with
      | .ok a v' => .ok a v'
      | .error e v' => (handler e).run v' := rfl

theorem run_onCodec (x : CodecM α) (v : Vars) :
    (onCodec x).run v =
      match x.run v.codec with
      | .ok a c => .ok a { v with codec := c }
      | .error e c => .error (.codec e) { v with codec := c } := rfl

theorem Silent.bind {x : BatchM α} {f : α → BatchM β} (hx : Silent x) (hf : ∀ a, Silent (f a)) :
    Silent (x >>= f) := by
  intro v
  have hv := hx v
  rw [EStateM.run_bind]
  rcases h : x.run v with ⟨a, v'⟩ | ⟨e, v'⟩
  · rw [h] at hv
    exact ⟨(hf a v').1.trans hv.1, (hf a v').2.trans hv.2⟩
  · rw [h] at hv
    exact hv

theorem Silent.handling {x : BatchM α} {handler : BatchExn → BatchM α} (hx : Silent x)
    (hh : ∀ e, Silent (handler e)) : Silent (handling x handler) := by
  intro v
  have hv := hx v
  rw [run_handling]
  rcases h : x.run v with ⟨a, v'⟩ | ⟨e, v'⟩
  · rw [h] at hv
    exact hv
  · rw [h] at hv
    exact ⟨(hh e v').1.trans hv.1, (hh e v').2.trans hv.2⟩

end Silent

theorem silent_field (key : String) : Silent (field key) := by
  intro v
  rcases h : v.jsonValue.subscript key with e | ⟨x, jsonValue⟩
  · simp [field, ofJson, h]
  · simp [field, ofJson, h]

theorem silent_readFields (parse : String → Except JsonExn Json) (line : String) :
    Silent (readFields parse line) := by
  have hfield : ∀ {α : Type} (key : String) (convert : Json → Except JsonExn α),
      Silent (fieldAs key convert) := by
    intro α key convert
    exact (silent_field key).bind fun x => silent_ofJson _
  refine (silent_ofJson _).bind fun jsonValue => ?_
  refine (silent_modify (by intro v; exact ⟨rfl, rfl⟩)).bind fun _ => ?_
  refine (hfield _ _).bind fun timestamp => ?_
  refine (silent_modify (by intro v; exact ⟨rfl, rfl⟩)).bind fun _ => ?_
  refine (hfield _ _).bind fun messageType => ?_
  refine (silent_modify (by intro v; exact ⟨rfl, rfl⟩)).bind fun _ => ?_
  refine (hfield _ _).bind fun hexLine => ?_
  refine (silent_modify (by intro v; exact ⟨rfl, rfl⟩)).bind fun _ => ?_
  exact silent_pure true

theorem silent_readJsonLine (parse : String → Except JsonExn Json) (line : String) :
    Silent (readJsonLine parse line) := by
  apply (silent_readFields parse line).handling
  intro e
  split
  · exact silent_pure false
  · exact silent_throw _

theorem toLong?_eq (x : Json) : x.toLong? = x.getLong.toOption := by
  cases x <;> rfl

theorem toString?_eq (x : Json) : x.toString? = x.getString.toOption := by
  cases x <;> rfl

/-- A field of an object is converted, or something is thrown. -/
theorem run_fieldAs {α : Type} {convert : Json → Except JsonExn α}
    (hnull : (convert .null).toOption = none) (key : String) {v : Vars}
    {members : List (String × Json)} (hv : v.jsonValue = .object members) :
    match (members.lookup key).bind fun x => (convert x).toOption with
    | some a => (fieldAs key convert).run v = .ok a v
    | none => ∃ e v', (fieldAs key convert).run v = .error e v' := by
  rcases hlook : members.lookup key with - | x
  · rcases hc : convert .null with e | a
    · refine ⟨.json e, { v with jsonValue := .object (members ++ [(key, .null)]) }, ?_⟩
      simp [fieldAs, field, hv, Json.subscript, hlook, ofJson, hc]
    · rw [hc] at hnull
      exact absurd hnull (by simp [Except.toOption])
  · have hsame : { v with jsonValue := .object members } = v := by rw [← hv]
    rcases hc : convert x with e | a
    · simp [fieldAs, field, hv, Json.subscript, hlook, ofJson, hc, Except.toOption]
    · simp [fieldAs, field, hv, Json.subscript, hlook, ofJson, hc, Except.toOption, hsame]

theorem run_fieldAs_of_no_object {α : Type} {convert : Json → Except JsonExn α}
    (hnull : (convert .null).toOption = none) (key : String) {v : Vars}
    (hv : ∀ members, v.jsonValue ≠ .object members) :
    ∃ e v', (fieldAs key convert).run v = .error e v' := by
  rcases hj : v.jsonValue with - | b | i | u | q | s | xs | members
  · -- a null becomes an object without the key
    rcases hc : convert .null with e | a
    · refine ⟨.json e, { v with jsonValue := .object [(key, .null)] }, ?_⟩
      simp [fieldAs, field, hj, Json.subscript, ofJson, hc]
    · rw [hc] at hnull
      exact absurd hnull (by simp [Except.toOption])
  all_goals first
    | exact absurd hj (hv _)
    | exact ⟨_, v, by simp [fieldAs, field, hj, Json.subscript, ofJson]; rfl⟩

/-- The fields of a line are read as they stand in this line. -/
theorem run_readFields (parse : String → Except JsonExn Json) (line : String) (v : Vars) :
    match (parse line).toOption.bind Json.metadata with
    | some m => ∃ v', (readFields parse line).run v = .ok true v' ∧ v'.messageType = m.messageType ∧
        v'.timestamp = m.timestamp ∧ v'.hexLine = m.hex
    | none => ∃ e v', (readFields parse line).run v = .error e v' := by
  have hlong : (Json.getLong .null).toOption = none := rfl
  have hstring : (Json.getString .null).toOption = none := rfl
  have hlongs : Json.toLong? = fun x => x.getLong.toOption := funext toLong?_eq
  have hstrings : Json.toString? = fun x => x.getString.toOption := funext toString?_eq
  rcases hparse : parse line with e | x
  · exact ⟨.json e, v, by simp [readFields, ofJson, hparse]⟩
  show match x.metadata with
    | some m => _
    | none => _
  by_cases hx : ∃ members, x = .object members
  · obtain ⟨members, rfl⟩ := hx
    rw [Json.metadata, hlongs, hstrings]
    -- the three fields, one after the other
    let v₁ : Vars := { v with jsonValue := .object members }
    have h₁ := run_fieldAs hlong "timestamp" (v := v₁) rfl
    rcases ht : (members.lookup "timestamp").bind fun x => x.getLong.toOption with - | timestamp
    · rw [ht] at h₁
      obtain ⟨e, v', h₁⟩ := h₁
      exact ⟨e, v', by simp [readFields, ofJson, hparse, v₁, h₁]⟩
    rw [ht] at h₁
    let v₂ : Vars := { v₁ with timestamp := timestamp }
    have h₂ := run_fieldAs hstring "type" (v := v₂) rfl
    rcases hm : (members.lookup "type").bind fun x => x.getString.toOption with - | messageType
    · rw [hm] at h₂
      obtain ⟨e, v', h₂⟩ := h₂
      exact ⟨e, v', by simp [readFields, ofJson, hparse, v₁, v₂, h₁, h₂]⟩
    rw [hm] at h₂
    let v₃ : Vars := { v₂ with messageType := messageType }
    have h₃ := run_fieldAs hstring "hex" (v := v₃) rfl
    rcases hh : (members.lookup "hex").bind fun x => x.getString.toOption with - | hex
    · rw [hh] at h₃
      obtain ⟨e, v', h₃⟩ := h₃
      exact ⟨e, v', by simp [readFields, ofJson, hparse, v₁, v₂, v₃, h₁, h₂, h₃]⟩
    rw [hh] at h₃
    refine ⟨{ v₃ with hexLine := hex }, ?_, rfl, rfl, rfl⟩
    simp [readFields, ofJson, hparse, v₁, v₂, v₃, h₁, h₂, h₃]
  · have hnone : x.metadata = none := by
      rcases x with - | b | i | u | q | s | xs | members
      all_goals first
        | rfl
        | exact absurd ⟨members, rfl⟩ hx
    rw [hnone]
    have hno : ∀ members, { v with jsonValue := x }.jsonValue ≠ .object members :=
      fun members h => hx ⟨members, h⟩
    obtain ⟨e, v', h⟩ := run_fieldAs_of_no_object hlong "timestamp" hno
    exact ⟨e, v', by simp [readFields, ofJson, hparse, h]⟩

/-- A line whose fields are read goes on; any other stops here, with or without
a throw. -/
theorem run_readJsonLine (parse : String → Except JsonExn Json) (line : String) (v : Vars) :
    match (parse line).toOption.bind Json.metadata with
    | some m => ∃ v', (readJsonLine parse line).run v = .ok true v' ∧
        v'.messageType = m.messageType ∧ v'.timestamp = m.timestamp ∧ v'.hexLine = m.hex
    | none => ∃ v', (readJsonLine parse line).run v = .ok false v' ∨
        ∃ e, (readJsonLine parse line).run v = .error e v' := by
  have hfields := run_readFields parse line v
  rcases hm : (parse line).toOption.bind Json.metadata with - | m
  · rw [hm] at hfields
    obtain ⟨e, v', h⟩ := hfields
    refine ⟨v', ?_⟩
    rw [readJsonLine, run_handling, h]
    rcases e with (what | ⟨n, what⟩ | ⟨n, what⟩) | e
    · exact .inl rfl
    · exact .inr ⟨_, rfl⟩
    · exact .inr ⟨_, rfl⟩
    · exact .inr ⟨_, rfl⟩
  · rw [hm] at hfields
    obtain ⟨v', h, hread⟩ := hfields
    exact ⟨v', by rw [readJsonLine, run_handling, h], hread⟩

/-- The line in front of the XER, from the variables. -/
def Vars.metadataLine (v : Vars) (isJson : Bool) : String :=
  if isJson then v.messageType ++ "," ++ toString v.timestamp ++ "\n" else ""

/-- hex_line is decoded and written with its metadata, or nothing is written. -/
theorem run_writeLine (E : Externals V) (isJson : Bool) (v : Vars) :
    let v' := finalState ((writeLine E isJson).run v)
    v'.outfile = v.outfile ++ xerLine E v.codec (v.metadataLine isJson) v.hexLine ∧
      SameSyntax v.codec v'.codec := by
  have hcall := run_callDecodeMessageframe E v.hexLine v.codec
  rw [xerLine, singleXer_eq]
  rcases hdec : decodeHexData E "MessageFrame" .messageFrame v.codec.req.decodeMessageframeType
    v.hexLine with e | xml
  · rw [hdec] at hcall
    simp [writeLine, decodeHexLine, run_onCodec, hcall, Except.toOption, SameSyntax,
      Codec.decoding]
  · rw [hdec] at hcall
    rcases isJson with - | -
    · simp [writeLine, decodeHexLine, run_onCodec, hcall, Except.toOption, SameSyntax,
        Codec.decoding, Vars.metadataLine, String.append_assoc]
    · simp [writeLine, decodeHexLine, run_onCodec, hcall, Except.toOption, SameSyntax,
        Codec.decoding, Vars.metadataLine, String.append_assoc]

theorem run_handling_log (x : BatchM Unit) (v : Vars) :
    (handling x fun _ => pure ()).run v = .ok () (finalState (x.run v)) := by
  rw [run_handling]
  rcases x.run v with ⟨-, v'⟩ | ⟨e, v'⟩
  · rfl
  · rfl

/-- **One turn** of the loop ends, whatever the line, and appends what the line
contributes on its own. -/
theorem run_batchLine (E : Externals V) (parse : String → Except JsonExn Json) (isJson : Bool)
    (line : String) (v : Vars) :
    ∃ v', (batchLine E parse isJson line).run v = .ok () v' ∧
      v'.outfile = v.outfile ++ lineOutput E parse v.codec isJson line ∧
      SameSyntax v.codec v'.codec := by
  refine ⟨_, run_handling_log _ v, ?_⟩
  by_cases hline : line = ""
  · simp [hline, lineOutput, SameSyntax]
  let w : Vars := { v with msgCount := v.msgCount + 1 }
  rcases isJson with - | -
  · have hwrite := run_writeLine E false { w with hexLine := line }
    simpa [hline, lineOutput, Vars.metadataLine, w] using hwrite
  · have hread := run_readJsonLine parse line w
    -- whatever it leaves in the variables, nothing is written and no call is made
    have hleft : (finalState ((readJsonLine parse line).run w)).outfile = v.outfile ∧
        (finalState ((readJsonLine parse line).run w)).codec = v.codec :=
      silent_readJsonLine parse line w
    rcases hm : (parse line).toOption.bind Json.metadata with - | m
    · rw [hm] at hread
      obtain ⟨v', h | ⟨e, h⟩⟩ := hread
      · rw [h] at hleft
        have hout : v'.outfile = v.outfile := hleft.1
        have hcodec : v'.codec = v.codec := hleft.2
        simp [hline, lineOutput, hm, w, h, hout, hcodec, SameSyntax]
      · rw [h] at hleft
        have hout : v'.outfile = v.outfile := hleft.1
        have hcodec : v'.codec = v.codec := hleft.2
        simp [hline, lineOutput, hm, w, h, hout, hcodec, SameSyntax]
    · rw [hm] at hread
      obtain ⟨v', h, htype, htime, hhex⟩ := hread
      rw [h] at hleft
      have hout : v'.outfile = v.outfile := hleft.1
      have hcodec : v'.codec = v.codec := hleft.2
      have hwrite := run_writeLine E true v'
      simpa [hline, lineOutput, hm, w, h, hout, hcodec, Vars.metadataLine, Metadata.line, htype,
        htime, hhex] using hwrite

/-! ### The whole batch -/

/-- The loop appends what the lines contribute, in their order. -/
theorem run_batchLoop (E : Externals V) (parse : String → Except JsonExn Json) (isJson : Bool)
    (lines : List String) (v : Vars) :
    ∃ v', (batchLoop E parse isJson lines).run v = .ok () v' ∧
      v'.outfile = v.outfile ++ String.join (lines.map (lineOutput E parse v.codec isJson)) ∧
      SameSyntax v.codec v'.codec := by
  induction lines generalizing v with
  | nil => exact ⟨v, rfl, by simp [String.join], rfl⟩
  | cons line lines ih =>
    obtain ⟨v₁, h₁, hout₁, hsyn₁⟩ := run_batchLine E parse isJson line v
    obtain ⟨v₂, h₂, hout₂, hsyn₂⟩ := ih v₁
    refine ⟨v₂, ?_, ?_, hsyn₂.trans hsyn₁⟩
    · simp [batchLoop, h₁, h₂]
    · rw [hout₂, hout₁, lineOutput_congr E parse hsyn₁, List.map_cons, String.join_cons,
        String.append_assoc]

/-! ### Lines of joined bodies -/

/-- The lines are the pieces between the newlines. -/
theorem splitLines_eq (cs : List Char) : splitLines cs = pieces '\n' cs := by
  induction cs with
  | nil => rfl
  | cons c cs ih =>
    rw [splitLines, pieces, ih]
    rcases pieces '\n' cs with - | ⟨l, ls⟩
    · rfl
    · rfl

/-- A function of the lines that ignores empty lines is joined accordingly. -/
theorem join_getlines {f : String → String} (hf : f "" = "") (s t : String) :
    String.join ((getlines (s ++ "\n" ++ t)).map f) =
      String.join ((getlines s).map f) ++ String.join ((getlines t).map f) := by
  have htoList : (s ++ "\n" ++ t).toList = s.toList ++ '\n' :: t.toList := by
    simp [String.toList_append]
  simp only [getlines, splitLines_eq, htoList]
  rcases pieces_append '\n' s.toList t.toList with h | h
  · rw [h, List.map_append, List.map_append, String.join_append]
  · have hempty : f (String.ofList []) = "" := hf
    rw [h, List.map_append, List.map_append, String.join_append, List.map_cons, List.map_cons,
      String.join_cons, hempty, String.empty_append]

/-- What post_batch returns, as a function of the body. -/
def batchBody (E : Externals V) (parse : String → Except JsonExn Json) (c : Codec)
    (contentType body : String) : String :=
  String.join ((getlines body).map (lineOutput E parse c (containsText contentType "json")))

theorem run_postBatch (E : Externals V) (parse : String → Except JsonExn Json) (t : Int64)
    (c : Codec) (contentType body : String) :
    ∃ c', (postBatch E parse t ⟨contentType, body⟩).run c =
      .ok ⟨200, "text/plain", batchBody E parse c contentType body⟩ c' := by
  let v : Vars := ⟨"", 0, "", .null, t, "", c⟩
  obtain ⟨v', h, hout, -⟩ :=
    run_batchLoop E parse (containsText contentType "json") (getlines body) v
  refine ⟨v'.codec, ?_⟩
  have hrun : batchLoop E parse (containsText contentType "json") (getlines body) v = .ok () v' := h
  have hbody : v'.outfile = batchBody E parse c contentType body := by
    rw [hout]
    exact String.empty_append
  show postBatch E parse t ⟨contentType, body⟩ c = _
  simp only [postBatch, v] at hrun ⊢
  rw [hrun, ← hbody]

/-- **A batch is the sequential map of its lines**: post_batch returns what the
lines contribute, each on its own, in their order; so it is a homomorphism of
bodies joined by a newline, and a line without output can be left out. -/
theorem postBatch_map (E : Externals V) (parse : String → Except JsonExn Json) (t : Int64)
    (c : Codec) (contentType : String) :
    (∀ body, ∃ c', (postBatch E parse t ⟨contentType, body⟩).run c =
      .ok ⟨200, "text/plain", batchBody E parse c contentType body⟩ c') ∧
    (∀ body body', batchBody E parse c contentType (body ++ "\n" ++ body') =
      batchBody E parse c contentType body ++ batchBody E parse c contentType body') ∧
    (∀ body line body', batchBody E parse c contentType line = "" →
      batchBody E parse c contentType (body ++ "\n" ++ line ++ "\n" ++ body') =
        batchBody E parse c contentType (body ++ "\n" ++ body')) := by
  have hjoin : ∀ body body', batchBody E parse c contentType (body ++ "\n" ++ body') =
      batchBody E parse c contentType body ++ batchBody E parse c contentType body' := by
    intro body body'
    exact join_getlines (by simp [lineOutput]) body body'
  refine ⟨run_postBatch E parse t c contentType, hjoin, ?_⟩
  intro body line body' hline
  rw [hjoin, hjoin body line, hline, String.append_empty, hjoin]

/-- Libraries that decode any bytes to one and the same structure, write it as an
empty element, and read that element. -/
def anyFrame : Externals Unit where
  loadBuffer o s :=
    if s = "<MessageFrame/>" then (none, .document [.element "MessageFrame" [] []])
    else emptyHanded.loadBuffer o s
  asnDecode _ _ bytes := if bytes = [] then .wmore 0 else .ok () bytes.length
  asnCheckConstraints _ _ := none
  xerEncode td _ := .ok ("<" ++ td.name ++ "/>")
  xerDecode _ _ := .ok () 0
  asnEncode _ _ _ := .ok [0]

/-- A line that is no hex, between two that are. -/
theorem postBatch_map_badLine :
    batchBody anyFrame (fun _ => .ok .null) configuredCodec "text/plain"
        ("00" ++ "\n" ++ "zz" ++ "\n" ++ "01") =
      batchBody anyFrame (fun _ => .ok .null) configuredCodec "text/plain" ("00" ++ "\n" ++ "01") :=
  (postBatch_map anyFrame (fun _ => .ok .null) 0 configuredCodec "text/plain").2.2 "00" "zz" "01"
    (by decide +kernel)

end Asn1Codec
