import Sicha.Response

/-!
# The actions of a log

The vocabulary of the statements about runs: which actions hand data to the caller,
and what the caller has heard.

Main results:

- Theorem {lit}`heardOn_append`: what is heard of two stretches of a log.
-/

namespace Sicha

variable {σ : Type}

/-- The actions of a log. -/
def World.acts (w : World σ) : List Act :=
  w.log.map Entry.act

/-- A call of a data callback. -/
def Act.isData : Act → Bool
  | .onDelta _ _ | .onReasoning _ _ | .onRawChunk _ _ => true
  | _ => false

/-- A call of the validator. -/
def Act.isValidate : Act → Bool
  | .validate _ => true
  | _ => false

/-- A request handed to the transport. -/
def Act.isPerform : Act → Bool
  | .perform _ _ _ => true
  | _ => false

/-- A chat attempt: a request handed over with a sink. -/
def Act.isAttempt : Act → Bool
  | .perform _ sink _ => sink
  | _ => false

/-- Neither a poll nor a request nor a wait: what happens inside an attempt. -/
def Act.isAside : Act → Bool
  | .poll _ | .perform _ _ _ | .wait _ _ => false
  | _ => true

/-- A call of {lit}`on_delta` or {lit}`on_reasoning` with at least one byte. -/
def Act.isDelta : Act → Bool
  | .onDelta bytes _ | .onReasoning bytes _ => !bytes.isEmpty
  | _ => false

/-- The bytes a call delivers on a channel. -/
def Act.deltaOn (ch : Channel) : Act → Bytes
  | .onDelta bytes _ => if ch = .content then bytes else []
  | .onReasoning bytes _ => if ch = .reasoning then bytes else []
  | _ => []

/-- What the caller hears on a channel. -/
def heardOn (ch : Channel) (acts : List Act) : Bytes :=
  acts.flatMap (Act.deltaOn ch)

/-- What is heard on a channel in two parts in a row. -/
@[simp]
theorem heardOn_append (ch : Channel) (as bs : List Act) :
    heardOn ch (as ++ bs) = heardOn ch as ++ heardOn ch bs := by
  simp [heardOn]

/-- Nothing is heard without acts. -/
@[simp]
theorem heardOn_nil (ch : Channel) : heardOn ch [] = [] :=
  rfl

/-- A delta is heard on its own channel. -/
theorem act_deltaOn (ch ch' : Channel) (bytes : Bytes) (rc : Int) :
    (ch'.act bytes rc).deltaOn ch = if ch = ch' then bytes else [] := by
  cases ch <;> cases ch' <;> rfl

/-- A delta is data. -/
@[simp]
theorem channel_act_isData (ch : Channel) (bytes : Bytes) (rc : Int) :
    (ch.act bytes rc).isData = true := by
  cases ch <;> rfl

/-- A delta happens inside an attempt. -/
@[simp]
theorem channel_act_isAside (ch : Channel) (bytes : Bytes) (rc : Int) :
    (ch.act bytes rc).isAside = true := by
  cases ch <;> rfl

/-- A delta with no bytes is none. -/
@[simp]
theorem channel_act_isDelta (ch : Channel) (bytes : Bytes) (rc : Int) :
    (ch.act bytes rc).isDelta = !bytes.isEmpty := by
  cases ch <;> rfl

/-- An act stands behind the others. -/
@[simp]
theorem World.act_acts {α : Type} (w : World σ) (f : σ → α × σ) (mk : α → Act) :
    (w.act f mk).2.acts = w.acts ++ [mk (w.act f mk).1] := by
  simp [World.acts]

/-- A note stands behind the others. -/
@[simp]
theorem World.note_acts (w : World σ) (a : Act) : (w.note a).acts = w.acts ++ [a] := by
  simp [World.acts]

/-! ## The visible trace -/

/-- Everything but the polls of the token and the debug log. -/
def Act.visible : Act → Bool
  | .poll _ | .debug _ => false
  | _ => true

/-- The visible actions of a log. -/
def World.trace (w : World σ) : List Act :=
  w.acts.filter Act.visible

/-- A visible act stands behind the others on the trace. -/
theorem World.act_trace {α : Type} (w : World σ) (f : σ → α × σ) (mk : α → Act) :
    (w.act f mk).2.trace = w.trace ++ [mk (w.act f mk).1].filter Act.visible := by
  simp only [World.trace, World.act_acts, List.filter_append]

/-- So does a visible note. -/
theorem World.note_trace (w : World σ) (a : Act) :
    (w.note a).trace = w.trace ++ [a].filter Act.visible := by
  simp only [World.trace, World.note_acts, List.filter_append]

/-- What is quiet is not on the trace. -/
@[simp]
theorem World.quiet_trace {α : Type} (w : World σ) (f : σ → α × σ) :
    (w.quiet f).2.trace = w.trace :=
  rfl

/-- The trace does not show the environment. -/
@[simp]
theorem World.env_trace (w : World σ) (env : σ) : World.trace { w with env := env } = w.trace :=
  rfl

/-- The debug log is not on the trace. -/
@[simp]
theorem debugLog_trace (c : Client σ) (text : Bytes) (w : World σ) :
    (c.debugLog text w).trace = w.trace := by
  unfold Client.debugLog
  split_ifs
  · rw [World.note_trace]
    exact List.append_nil _
  · rfl

end Sicha
