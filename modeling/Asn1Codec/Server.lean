/-
Asn1Codec/Server.lean

The HTTP server: the handlers of any number of requests, on one codec.

The server answers requests on several threads, and all of them call
decode_messageframe_data of the same codec.  A turn of a thread is a call of
post_single or a turn of the loop of post_batch; within a turn the codec is
called at most once, and that call reads a single member, the transfer syntax of
a MessageFrame, which no handler writes.

Main result: every request is answered as if it were the only one, in whatever
order the threads take their turns (`server_answers`).
-/
import Asn1Codec.Batch
import Asn1Codec.Logger
import Asn1Codec.Sharing

namespace Asn1Codec

variable {V : Type}

/-! ### The server -/

/-- The members of Http_Server that its constructor sets. -/
structure HttpServer where
  logger : AcmLogger
  port : ℤ
  concurrency : ℤ

def HttpServer.constructed (host : Host) (files : Files) : Except StdExn HttpServer := do
  let logger ← AcmLogger.constructed host files "http_server"
  let portString := getEnvironmentVariable host "ACM_HTTP_SERVER_PORT"
  let concurrencyString := getEnvironmentVariable host "ACM_HTTP_SERVER_CONCURRENCY"
  let port ← if !portString.isEmpty then stoi portString else pure 9999
  let concurrency ← if !concurrencyString.isEmpty then stoi concurrencyString else pure 4
  pure ⟨logger, port, concurrency⟩

/-! ### The handlers -/

/-- A request, with the handler that its route names; `t` is what the
uninitialised timestamp of post_batch holds. -/
inductive Posted where
  | single (req : Request)
  | batch (req : Request) (t : Int64)

/-- The variables of post_batch. -/
structure Locals where
  outfile : String
  msgCount : ℕ
  hexLine : String
  jsonValue : Json
  timestamp : Int64
  messageType : String

/-- The variables with the codec that the turn finds. -/
def Locals.vars (l : Locals) (c : Codec) : Vars :=
  ⟨l.outfile, l.msgCount, l.hexLine, l.jsonValue, l.timestamp, l.messageType, c⟩

def Vars.locals (v : Vars) : Locals :=
  ⟨v.outfile, v.msgCount, v.hexLine, v.jsonValue, v.timestamp, v.messageType⟩

/-- Where a handler stands: at its beginning, at the top of its loop, or behind
its return or throw. -/
inductive Handler where
  | single (req : Request)
  | loop (isJson : Bool) (lines : List String) (l : Locals)
  | ended (r : Except BatchExn Response)

def Posted.enter : Posted → Handler
  | .single req => .single req
  | .batch req t =>
    .loop (containsText req.contentType "json") (getlines req.body) ⟨"", 0, "", .null, t, ""⟩

variable (E : Externals V) (parse : String → Except JsonExn Json)

def Handler.step : Handler → Codec → Handler × Codec
  | .single req, c =>
    match (postSingle E req).run c with
    | .ok resp c' => (.ended (.ok resp), c')
    | .error e c' => (.ended (.error (.codec e)), c')
  | .loop _ [] l, c => (.ended (.ok ⟨200, "text/plain", l.outfile⟩), c)
  | .loop isJson (line :: lines) l, c =>
    match (batchLine E parse isJson line).run (l.vars c) with
    | .ok _ v => (.loop isJson lines v.locals, v.codec)
    | .error e v => (.ended (.error e), v.codec)
  | .ended r, c => (.ended r, c)

/-- The state of the server with all of its handlers called. -/
def Server.start {ι : Type} (calls : ι → Posted) (c : Codec) : Sharing.State ι Handler Codec :=
  ⟨fun i => (calls i).enter, c⟩

/-! ### A request on its own -/

/-- What a handler returns or throws when nothing else is called. -/
def Posted.answer (c : Codec) : Posted → Except BatchExn Response
  | .single req =>
    match (postSingle E req).run c with
    | .ok resp _ => .ok resp
    | .error e _ => .error (.codec e)
  | .batch req t =>
    match (postBatch E parse t req).run c with
    | .ok resp _ => .ok resp
    | .error e _ => .error e

/-- The turns that a handler takes. -/
def Posted.turns : Posted → ℕ
  | .single _ => 1
  | .batch req _ => (getlines req.body).length + 1

/-- What a handler is after `n` of its turns. -/
def Posted.After (c : Codec) : Posted → ℕ → Handler → Prop
  | .single req, 0, h => h = .single req
  | .single req, _ + 1, h => h = .ended ((Posted.single req).answer E parse c)
  | .batch req t, n, h =>
    if n ≤ (getlines req.body).length then
      ∃ l, h = .loop (containsText req.contentType "json") ((getlines req.body).drop n) l ∧
        l.outfile = String.join (((getlines req.body).take n).map
          (lineOutput E parse c (containsText req.contentType "json")))
    else h = .ended ((Posted.batch req t).answer E parse c)

variable {E parse}

/-- The answer to a single request depends on the transfer syntax alone. -/
theorem step_single {c c' : Codec} (h : SameSyntax c c') (req : Request) :
    ((Handler.single req).step E parse c').1 = .ended ((Posted.single req).answer E parse c) ∧
      SameSyntax c ((Handler.single req).step E parse c').2 := by
  have hsyntax : c'.req.decodeMessageframeType = c.req.decodeMessageframeType := h
  simp only [Handler.step, Posted.answer, run_postSingle, hsyntax]
  rcases decodeHexData E "MessageFrame" .messageFrame c.req.decodeMessageframeType req.body
    with e | xml
  · exact ⟨rfl, h⟩
  · exact ⟨rfl, h⟩

/-- The batch of a body is answered with what its lines contribute. -/
theorem answer_batch (c : Codec) (req : Request) (t : Int64) :
    (Posted.batch req t).answer E parse c =
      .ok ⟨200, "text/plain", String.join ((getlines req.body).map
        (lineOutput E parse c (containsText req.contentType "json")))⟩ := by
  obtain ⟨c', h⟩ := run_postBatch E parse t c req.contentType req.body
  simp only [Posted.answer, h]
  rfl

/-- A turn of the loop appends what its line contributes. -/
theorem step_line {c c' : Codec} (h : SameSyntax c c') (isJson : Bool) (line : String)
    (lines : List String) (l : Locals) :
    ∃ l', ((Handler.loop isJson (line :: lines) l).step E parse c').1 = .loop isJson lines l' ∧
      l'.outfile = l.outfile ++ lineOutput E parse c isJson line ∧
      SameSyntax c ((Handler.loop isJson (line :: lines) l).step E parse c').2 := by
  obtain ⟨v, hrun, hout, hsyntax⟩ := run_batchLine E parse isJson line (l.vars c')
  simp only [Handler.step, hrun]
  refine ⟨v.locals, rfl, ?_, hsyntax.trans h⟩
  -- of the codec, a line sees the transfer syntax only
  have hsame : lineOutput E parse c' isJson line = lineOutput E parse c isJson line :=
    congrFun (lineOutput_congr E parse h isJson) line
  show v.outfile = _
  rw [hout, ← hsame]
  rfl

/-- A turn keeps the transfer syntax, wherever the handler stands. -/
theorem sameSyntax_step {c c' : Codec} (h : SameSyntax c c') (handler : Handler) :
    SameSyntax c (handler.step E parse c').2 := by
  cases handler with
  | single req => exact (step_single h req).2
  | loop isJson lines l =>
    cases lines with
    | nil => exact h
    | cons line lines =>
      obtain ⟨l', -, -, hsyntax⟩ := step_line h isJson line lines l
      exact hsyntax
  | ended r => exact h

/-- The own turns of a handler. -/
theorem after_step {c c' : Codec} (h : SameSyntax c c') (posted : Posted) (n : ℕ)
    (handler : Handler) (hafter : posted.After E parse c n handler) :
    posted.After E parse c (n + 1) (handler.step E parse c').1 := by
  cases posted with
  | single req =>
    cases n with
    | zero =>
      obtain rfl : handler = .single req := hafter
      exact (step_single h req).1
    | succ n =>
      obtain rfl : handler = .ended _ := hafter
      rfl
  | batch req t =>
    rw [Posted.After] at hafter ⊢
    by_cases hn : n ≤ (getlines req.body).length
    · rw [if_pos hn] at hafter
      obtain ⟨l, rfl, hout⟩ := hafter
      rcases Nat.lt_or_eq_of_le hn with hlt | heq
      · -- a line is left
        rw [if_pos (Nat.succ_le_of_lt hlt), List.drop_eq_getElem_cons hlt]
        obtain ⟨l', hstep, hout', -⟩ := step_line h
          (containsText req.contentType "json") (getlines req.body)[n]
          ((getlines req.body).drop (n + 1)) l
        refine ⟨l', hstep, ?_⟩
        rw [hout', hout, List.take_succ_eq_append_getElem hlt, List.map_append, String.join_append]
        simp
      · -- the loop ends
        rw [if_neg (by omega), heq, List.drop_length, answer_batch]
        rw [heq, List.take_length] at hout
        show Handler.ended (.ok ⟨200, "text/plain", l.outfile⟩) = _
        rw [hout]
    · -- an ended handler stays as it is
      rw [if_neg hn] at hafter
      rw [if_neg (by omega), hafter]
      rfl

theorem after_enter (c : Codec) (posted : Posted) : posted.After E parse c 0 posted.enter := by
  cases posted with
  | single req => rfl
  | batch req t =>
    rw [Posted.After, if_pos (Nat.zero_le _)]
    exact ⟨_, rfl, rfl⟩

/-- A handler that has taken its turns has ended. -/
theorem ended_of_turns {c : Codec} {posted : Posted} {n : ℕ} {handler : Handler}
    (h : posted.After E parse c n handler) (hn : posted.turns ≤ n) :
    handler = .ended (posted.answer E parse c) := by
  cases posted with
  | single req =>
    obtain ⟨n, rfl⟩ : ∃ m, n = m + 1 := ⟨n - 1, by rw [Posted.turns] at hn; omega⟩
    exact h
  | batch req t =>
    rw [Posted.turns] at hn
    rwa [Posted.After, if_neg (by omega)] at h

/-- A handler that has ended has taken its turns. -/
theorem turns_of_ended {c : Codec} {posted : Posted} {n : ℕ} {r : Except BatchExn Response}
    (h : posted.After E parse c n (.ended r)) : posted.turns ≤ n := by
  cases posted with
  | single req =>
    cases n with
    | zero => cases h
    | succ n => exact Nat.succ_le_succ (Nat.zero_le n)
  | batch req t =>
    rw [Posted.After] at h
    split at h
    · obtain ⟨l, hl, -⟩ := h
      cases hl
    · rw [Posted.turns]
      omega

/-- **The server**: in every order of turns, a handler that has ended has answered
its request as it does when nothing else is called, and one that has taken its
turns has ended. -/
theorem server_answers {ι : Type} [DecidableEq ι] (E : Externals V)
    (parse : String → Except JsonExn Json) (calls : ι → Posted) (c : Codec) (turns : List ι)
    (i : ι) :
    let h := (Runs.run (Sharing.next (Handler.step E parse)) (Server.start calls c) turns).loc i
    (∀ r, h = .ended r → r = (calls i).answer E parse c) ∧
      ((calls i).turns ≤ turns.count i → h = .ended ((calls i).answer E parse c)) := by
  intro h
  have hafter : (calls i).After E parse c (turns.count i) h := by
    -- the other handlers leave the transfer syntax as it is, whatever the order of turns
    apply Sharing.run_modular (I := SameSyntax c) (P := fun i n h => (calls i).After E parse c n h)
    · intro i n handler c' hc' _
      exact sameSyntax_step hc' handler
    · intro i n handler c' hc' hn
      exact after_step hc' (calls i) n handler hn
    · rfl
    · exact fun i => after_enter c (calls i)
  refine ⟨fun r hr => ?_, fun hturns => ended_of_turns hafter hturns⟩
  rw [hr] at hafter
  exact Handler.ended.inj (ended_of_turns hafter (turns_of_ended hafter))

end Asn1Codec
