import Sicha.Request.Text
import Sicha.Transport.Queue

/-!
# Reading the calls of the scripted transport

A translation of the functions that read what the scripted transport has recorded.  Threads read at
any moment, while others push and perform; the entry is copied under the mutex, and what it points
to stays.

Main results:

- Definition {lit}`callSnapshot`: the entry of an index.
- Theorem {lit}`script_reads`: the entries are the requests of the performs that were recorded, and
  no later step changes one.
-/

namespace Sicha

/-! ## The readers -/

/-- {lit}`sicha_script_call_count`. -/
def scriptCallCount (st : ScriptState) : UInt32 :=
  UInt32.ofNat st.calls.length

/-- {lit}`call_snapshot`; {lit}`none` is the zeroed entry. -/
def callSnapshot (st : ScriptState) (i : UInt32) : Option ScriptCall :=
  st.calls[i.toNat]?

/-- {lit}`sicha_script_call_url`. -/
def scriptCallUrl (st : ScriptState) (i : UInt32) : Option Bytes :=
  (callSnapshot st i).map ScriptCall.url

/-- {lit}`sicha_script_call_body`, with the length it stores. -/
def scriptCallBody (st : ScriptState) (i : UInt32) : Option Bytes × Nat :=
  match callSnapshot st i with
  | some call => (some call.body, call.body.length)
  | none => (none, 0)

/-- {lit}`sicha_script_call_header`: the first header of that name. -/
def scriptCallHeader (st : ScriptState) (i : UInt32) (name : Option Bytes) : Option Bytes :=
  match callSnapshot st i, name with
  | some call, some name =>
      (call.headers.find? fun h => headerNameEq h.name name).map Header.value
  | _, _ => none

/-! ## What they read -/

/-- What is read at an index is what a request says, or nothing without one. -/
structure ReadsAs (st : ScriptState) (i : UInt32) (rq : Option HttpRequest) : Prop where
  url : scriptCallUrl st i = rq.map HttpRequest.url
  body : scriptCallBody st i = (rq.map HttpRequest.body, rq.elim 0 fun rq => rq.body.length)
  header : ∀ name, scriptCallHeader st i name =
    rq.bind fun rq => name.bind fun name =>
      (rq.headers.find? fun h => headerNameEq h.name name).map Header.value

/-- An entry is read as the snapshot of its record. -/
theorem readsAs_of_snapshot {st : ScriptState} {i : UInt32} {rq : Option HttpRequest}
    (h : callSnapshot st i = rq.map scriptCallOf) : ReadsAs st i rq := by
  refine ⟨?_, ?_, fun name => ?_⟩
  · rw [scriptCallUrl, h]
    cases rq <;> rfl
  · rw [scriptCallBody, h]
    cases rq <;> rfl
  · unfold scriptCallHeader
    rw [h]
    cases rq <;> cases name <;> rfl

/-- An entry that is there stays. -/
theorem callSnapshot_later {st st' : ScriptState} (h : st.calls <+: st'.calls) {i : UInt32}
    (hi : i.toNat < st.calls.length) : callSnapshot st' i = callSnapshot st i := by
  obtain ⟨more, hmore⟩ := h
  rw [callSnapshot, callSnapshot, ← hmore, List.getElem?_append_left hi]

section Runs

variable {w ι : Type} [DecidableEq ι]

/-- Threads push, perform and read in any order, and any allocation may fail.  At every moment the
count is that of the performs that have been recorded, and the entry of every index says what the
request of the perform recorded at this place says, or there is none; and whatever happens later, an
entry that has been read is read again. -/
theorem script_reads (H : Heap w) (env : w) (past : List (ι × ScriptEvent))
    (c : Threads ι (ScriptState × w) ScriptThread)
    (hrun : Threads.Run (ScriptStep H) (scriptStart ι env) past c) :
    (scriptCallCount c.shared.1).toNat = (recorded past).length % 2 ^ 32 ∧
      (∀ i, ReadsAs c.shared.1 i (recorded past)[i.toNat]?) ∧
      ∀ more c', Threads.Run (ScriptStep H) c more c' → ∀ i rq,
        (recorded past)[i.toNat]? = some rq → ReadsAs c'.shared.1 i (some rq) := by
  have hcalls := (run_accounts hrun).calls
  have hsnapshot (i : UInt32) :
      callSnapshot c.shared.1 i = (recorded past)[i.toNat]?.map scriptCallOf := by
    rw [callSnapshot, hcalls, List.getElem?_map]
  refine ⟨?_, fun i => readsAs_of_snapshot (hsnapshot i), fun more c' hmore i rq hrq =>
    readsAs_of_snapshot ?_⟩
  · rw [scriptCallCount, hcalls, List.length_map]
    exact UInt32.toNat_ofNat'
  · have hi : i.toNat < c.shared.1.calls.length := by
      rw [hcalls, List.length_map]
      exact (List.getElem?_eq_some_iff.mp hrq).1
    rw [callSnapshot_later (run_calls hmore) hi, hsnapshot, hrq]

end Runs

/-- The perform of the plain run is read back. -/
theorem script_reads_plain :
    ∃ c : Threads Bool (ScriptState × Unit) ScriptThread,
      ReadsAs c.shared.1 0 (some plainCall) ∧ ReadsAs c.shared.1 1 none := by
  obtain ⟨c, hrun⟩ := plain_run
  have hreads := (script_reads Heap.plentiful () _ c hrun).2.1
  exact ⟨c, hreads 0, hreads 1⟩

end Sicha
