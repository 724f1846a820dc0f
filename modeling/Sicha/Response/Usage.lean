import Sicha.Response.Rule

/-!
# Token counts

What the {lit}`usage` object of a body or an event makes of the three token counts.  A body or an
event gets as far as its usage if it is accepted up to there; then the counts are lifted from it,
and else they stay.

Main results:

- Theorem {lit}`liftUsage_documented`: a count is lifted as documented, unless the member is a
  real number.
- Theorems {lit}`responseParse_counts` and {lit}`streamOnEvent_counts`: where the counts of a body
  and of an event come from.
- Theorem {lit}`tokenCounts_iff`: when the counts behind a body and an event are the documented
  ones.
-/

namespace Sicha

/-- The three token counts. -/
inductive UsageField where
  | prompt
  | completion
  | total
deriving DecidableEq

/-- The member of the {lit}`usage` object. -/
def UsageField.key : UsageField → Bytes
  | .prompt => ascii "prompt_tokens"
  | .completion => ascii "completion_tokens"
  | .total => ascii "total_tokens"

/-- The JSON integers. -/
def Json.integer? : Json → Option Int
  | .uint n => some n.toNat
  | .sint n => some n.toInt
  | _ => none

/-- The count a member documents: an integer from 0 to 2^63-1, else the count that was there. -/
def reportedCount (old : Int) (member : Option Json) : Int :=
  match member.bind Json.integer? with
  | some n => if 0 ≤ n ∧ n ≤ 2 ^ 63 - 1 then n else old
  | none => old

section Counts

variable [SizeT] {w : Type}

/-- The count on a result. -/
def UsageField.count (f : UsageField) (r : Result) : Int :=
  match f with
  | .prompt => r.promptTokens
  | .completion => r.completionTokens
  | .total => r.totalTokens

/-- Each count is lifted from its own member. -/
theorem liftUsage_count (f : UsageField) (r : Result) {root usage : Json}
    (h : root.get? (ascii "usage") = some usage) (hobj : usage.isObj = true) :
    f.count (liftUsage r root) = liftCount (f.count r) (liftI64 usage f.key) := by
  have hfilter : (root.get? (ascii "usage")).filter Json.isObj = some usage := by
    rw [h, Option.filter_some, if_pos hobj]
  unfold liftUsage
  rw [hfilter]
  cases f <;> rfl

omit [SizeT] in
/-- An unsigned number as {lit}`int64_t`: itself below 2^63, else negative. -/
theorem uint_toInt (n : UInt64) :
    (n.toNat < 2 ^ 63 ∧ n.toInt64.toInt = n.toNat) ∨
      (2 ^ 63 ≤ n.toNat ∧ n.toInt64.toInt < 0) := by
  have hlt := n.toNat_lt
  have hval : n.toInt64.toInt =
      if 2 * n.toNat < 2 ^ 64 then (n.toNat : Int) else (n.toNat : Int) - (2 ^ 64 : Nat) :=
    BitVec.toInt_eq_toNat_cond n.toBitVec
  rw [hval]
  split_ifs with hsmall
  · exact .inl ⟨by omega, rfl⟩
  · exact .inr ⟨by omega, by omega⟩

omit [SizeT] in
/-- One count: as documented, unless the member is a real number and the count is not 0. -/
theorem liftCount_iff (old : Int) (usage : Json) (key : Bytes) :
    liftCount old (liftI64 usage key) = reportedCount old (usage.get? key) ↔
      old = 0 ∨ ∀ bits, usage.get? key ≠ some (.real bits) := by
  unfold liftCount liftI64 reportedCount
  cases hmember : usage.get? key with
  | none => simp
  | some member =>
      cases member with
      | uint n =>
          have hn : (some (Json.uint n)).bind Json.sint? = some n.toInt64.toInt := rfl
          have hm : (some (Json.uint n)).bind Json.integer? = some (n.toNat : Int) := rfl
          simp only [hn, hm, Option.getD_some]
          refine iff_of_true ?_ (.inr (by simp))
          rcases uint_toInt n with ⟨hsmall, hval⟩ | ⟨hlarge, hval⟩
          · rw [hval, if_pos (by omega), if_pos (by omega)]
          · rw [if_neg (by omega), if_neg (by omega)]
      | sint n =>
          have hn : (some (Json.sint n)).bind Json.sint? = some n.toInt := rfl
          have hm : (some (Json.sint n)).bind Json.integer? = some n.toInt := rfl
          have hmax := n.toInt_lt
          simp only [hn, hm, Option.getD_some]
          refine iff_of_true ?_ (.inr (by simp))
          by_cases hsign : 0 ≤ n.toInt
          · rw [if_pos hsign, if_pos (by omega)]
          · rw [if_neg hsign, if_neg (by omega)]
      | real bits =>
          have hn : (some (Json.real bits)).bind Json.sint? = some 0 := rfl
          have hm : (some (Json.real bits)).bind Json.integer? = none := rfl
          simp only [hn, hm, Option.getD_some, ge_iff_le]
          constructor
          · exact fun h => .inl h.symm
          · rintro (h | h)
            · exact h.symm
            · exact absurd rfl (h bits)
      | _ => exact iff_of_true (by simp [Json.sint?, Json.integer?]) (.inr (by simp))

/-- The count that a body or an event documents: that of its usage object, else the one that was
there. -/
def UsageField.documented (f : UsageField) (old : Int) (root : Json) : Int :=
  match (root.get? (ascii "usage")).filter Json.isObj with
  | some usage => reportedCount old (usage.get? f.key)
  | none => old

/-- The usage object writes the count as a real number. -/
def UsageField.IsReal (f : UsageField) (root : Json) : Prop :=
  ∃ usage bits, (root.get? (ascii "usage")).filter Json.isObj = some usage ∧
    usage.get? f.key = some (.real bits)

/-- What is lifted is what is documented, unless the member is a real number and the count is not
0. -/
theorem liftUsage_documented (f : UsageField) (r : Result) (root : Json) :
    f.count (liftUsage r root) = f.documented (f.count r) root ↔
      f.count r = 0 ∨ ¬ f.IsReal root := by
  unfold UsageField.documented UsageField.IsReal
  cases husage : (root.get? (ascii "usage")).filter Json.isObj with
  | none =>
      unfold liftUsage
      rw [husage]
      exact iff_of_true rfl (.inr (by simp))
  | some usage =>
      obtain ⟨hget, hobj⟩ := Option.filter_eq_some_iff.mp husage
      rw [liftUsage_count f r hget hobj]
      refine (liftCount_iff (f.count r) usage f.key).trans (or_congr_right ?_)
      constructor
      · rintro hno ⟨_, bits, ⟨⟩, hbits⟩
        exact hno bits hbits
      · exact fun hno bits hbits => hno ⟨usage, bits, rfl, hbits⟩

/-! ## Where counts come from -/

/-- The model does not touch the counts. -/
theorem liftModel_count (f : UsageField) (H : Heap w) (r : Result) (root : Json) (s : w) :
    f.count (liftModel H r root s).2.1 = f.count r := by
  unfold liftModel resultSetModel
  split
  · split_ifs <;> cases f <;> rfl
  · rfl

/-- What is lifted depends on the count alone. -/
theorem liftUsage_congr (f : UsageField) {r r' : Result} (h : f.count r = f.count r')
    (root : Json) : f.count (liftUsage r root) = f.count (liftUsage r' root) := by
  cases husage : (root.get? (ascii "usage")).filter Json.isObj with
  | none =>
      unfold liftUsage
      rw [husage]
      exact h
  | some usage =>
      obtain ⟨hget, hobj⟩ := Option.filter_eq_some_iff.mp husage
      rw [liftUsage_count f r hget hobj, liftUsage_count f r' hget hobj, h]

/-- The count is lifted if {lit}`reached` holds, and else it is the one that was there. -/
structure Lifts (f : UsageField) (r : Result) (root : Json) (reached : Prop) (r' : Result) :
    Prop where
  lifted : reached → f.count r' = f.count (liftUsage r root)
  kept : ¬ reached → f.count r' = f.count r

/-- What stops before the usage keeps the count. -/
theorem Lifts.stopped {f : UsageField} {r r' : Result} {root : Json} {reached : Prop}
    (hnot : ¬ reached) (h : f.count r' = f.count r) : Lifts f r root reached r' :=
  ⟨fun hreached => absurd hreached hnot, fun _ => h⟩

/-- A step that keeps the count, and may stop the parse, before the rest. -/
theorem Lifts.after {f : UsageField} {r r' r'' : Result} {root : Json} {reached reached' : Prop}
    (h : Lifts f r' root reached' r'') (hsame : f.count r' = f.count r)
    (hiff : reached ↔ reached') : Lifts f r root reached r'' := by
  rw [hiff]
  refine ⟨fun hreached => ?_, fun hnot => (h.kept hnot).trans hsame⟩
  exact (h.lifted hreached).trans (liftUsage_congr f hsame root)

/-! ## Bodies -/

section Bodies

variable (H : Heap w)

/-- The finish reason of the choice, if it has one, is stored. -/
def FinishTaken (choice0 : Json) (s : w) : Prop :=
  ∀ raw, choice0.getStr? (ascii "finish_reason") = some raw → (H.alloc (raw.length + 1) s).1 = true

/-- The reasoning of the choice, if it has one, fits and is stored, and so is the finish reason. -/
def ReasoningTaken (choice0 : Json) (msg : Option Json) (r : Result) (s : w) : Prop :=
  match findReasoning choice0 msg with
  | none => FinishTaken H choice0 s
  | some reasoning =>
      (bufAppend H r.reasoning reasoning s).1.err = .ok ∧
        FinishTaken H choice0 (bufAppend H r.reasoning reasoning s).2

/-- The choice has a content that fits and is stored, or none and tool calls; and its reasoning and
finish reason are stored. -/
def ContentTaken (choice0 : Json) (r : Result) (s : w) : Prop :=
  let msg := (choice0.get? (ascii "message")).filter Json.isObj
  match msg.bind fun m => m.getStr? (ascii "content") with
  | some content =>
      (bufAppend H r.text content s).1.err = .ok ∧
        ReasoningTaken H choice0 msg r (bufAppend H r.text content s).2
  | none => hasToolCalls msg = true ∧ ReasoningTaken H choice0 msg r s

/-- A body is accepted up to its usage: its first choice is an object, and what is in it is
stored. -/
def BodyReaches (Y : Yyjson) (r : Result) (body : Bytes) (s : w) (root : Json) : Prop :=
  body.length ≠ 0 ∧ ∃ s1 choice0, yyjsonRead Y H body s = (some root, s1) ∧
    (firstChoice root).filter Json.isObj = some choice0 ∧ ContentTaken H choice0 r s1

variable (f : UsageField) (root : Json) (r : Result) (s : w)

/-- Behind the usage there is only the model. -/
theorem parseTail_lifts : Lifts f r root True (parseTail H root r s).2.2.1 := by
  have hmodel := liftModel_count f H (liftUsage r root) root s
  refine ⟨fun _ => ?_, fun hnot => absurd trivial hnot⟩
  unfold parseTail
  split <;> rename_i hlift <;> rw [hlift] at hmodel <;> exact hmodel

/-- The usage is reached if the finish reason is stored. -/
theorem parseFinish_lifts (choice0 : Json) :
    Lifts f r root (FinishTaken H choice0 s) (parseFinish H root choice0 r s).2.2.1 := by
  unfold parseFinish FinishTaken
  cases choice0.getStr? (ascii "finish_reason") with
  | none => exact (parseTail_lifts H f root r s).after rfl (by simp)
  | some raw =>
      have hkeep : f.count (resultSetFinish H r raw s).2.1 = f.count r := by
        unfold resultSetFinish
        split_ifs <;> cases f <;> rfl
      have hset : (resultSetFinish H r raw s).1 = .ok ↔ (H.alloc (raw.length + 1) s).1 = true := by
        unfold resultSetFinish
        split_ifs with hgrant <;> simp [hgrant]
      have hiff : (∀ raw', some raw = some raw' → (H.alloc (raw'.length + 1) s).1 = true) ↔
          (resultSetFinish H r raw s).1 = .ok := by
        rw [hset]
        exact ⟨fun h => h raw rfl, fun h raw' heq => Option.some.inj heq ▸ h⟩
      dsimp only
      rw [hiff]
      split <;> rename_i hout <;> rw [hout] at hkeep ⊢
      · exact (parseTail_lifts H f root _ _).after hkeep (by simp)
      · rename_i hne
        exact .stopped hne hkeep

/-- An append that leaves no error goes on. -/
theorem afterAppend_lifts {r' : Result} {b : Buf} {next : Result → w → Status × BodyState × Result × w}
    {reached : Prop} (h : Lifts f r' root reached (next r' s).2.2.1)
    (hsame : f.count r' = f.count r) :
    Lifts f r root (b.err = .ok ∧ reached) (afterAppend b r' s next).2.2.1 := by
  unfold afterAppend bufStatus
  split_ifs with hbig hfail
  · exact .stopped (fun hboth => by simp [hbig] at hboth) hsame
  · exact .stopped (fun hboth => hfail hboth.1) hsame
  · exact h.after hsame (by simp [not_not.mp hfail])

/-- The usage is reached if the reasoning and the finish reason are stored. -/
theorem parseReasoning_lifts (choice0 : Json) (msg : Option Json) :
    Lifts f r root (ReasoningTaken H choice0 msg r s)
      (parseReasoning H root choice0 msg r s).2.2.1 := by
  unfold parseReasoning ReasoningTaken
  cases findReasoning choice0 msg with
  | none => exact parseFinish_lifts H f root r s choice0
  | some reasoning =>
      exact afterAppend_lifts f root r _ (parseFinish_lifts H f root _ _ choice0)
        (by cases f <;> rfl)

/-- The usage is reached if there is an answer, and it is stored. -/
theorem parseContent_lifts (choice0 : Json) :
    Lifts f r root (ContentTaken H choice0 r s) (parseContent H root choice0 r s).2.2.1 := by
  unfold parseContent ContentTaken
  dsimp only
  cases ((choice0.get? (ascii "message")).filter Json.isObj).bind
      fun m => m.getStr? (ascii "content") with
  | some content =>
      exact afterAppend_lifts f root r _ (parseReasoning_lifts H f root _ _ choice0 _)
        (by cases f <;> rfl)
  | none =>
      dsimp only
      split_ifs with hcalls
      · exact (parseReasoning_lifts H f root r s choice0 _).after rfl (by simp [hcalls])
      · exact .stopped (fun hboth => hcalls hboth.1) rfl

/-- The counts of a body that is accepted up to its usage are those lifted from it; the counts of
any other stay. -/
theorem responseParse_counts (Y : Yyjson) (body : Bytes) :
    (∀ root, BodyReaches H Y r body s root → Y.read body = some root ∧
      f.count (responseParse Y H r body s).2.2.1 = f.count (liftUsage r root)) ∧
    ((∀ root, ¬ BodyReaches H Y r body s root) →
      f.count (responseParse Y H r body s).2.2.1 = f.count r) := by
  unfold responseParse
  split_ifs with hempty
  · exact ⟨fun root hreaches => absurd hempty hreaches.1, fun _ => rfl⟩
  · rcases hgot : yyjsonRead Y H body s with ⟨_ | root, s1⟩
    · refine ⟨?_, fun _ => rfl⟩
      rintro root ⟨-, s', choice0, hgot', -⟩
      rw [hgot] at hgot'
      cases hgot'
    · dsimp only
      cases hchoice : (firstChoice root).filter Json.isObj with
      | none =>
          refine ⟨?_, fun _ => rfl⟩
          rintro root' ⟨-, s', choice0, hgot', hchoice', -⟩
          rw [hgot] at hgot'
          cases hgot'
          rw [hchoice] at hchoice'
          cases hchoice'
      | some choice0 =>
          have hlifts := parseContent_lifts H f root r s1 choice0
          refine ⟨?_, fun hnot => hlifts.kept fun htaken => ?_⟩
          · rintro root' ⟨-, s', choice0', hgot', hchoice', htaken⟩
            rw [hgot] at hgot'
            cases hgot'
            rw [hchoice] at hchoice'
            cases hchoice'
            exact ⟨yyjsonRead_some hgot, hlifts.lifted htaken⟩
          · exact hnot root ⟨hempty, s1, choice0, hgot, hchoice, htaken⟩

end Bodies

/-! ## Events -/

section Events

variable {σ : Type} (H : Heap σ) (cbs : Option (Callbacks σ)) (f : UsageField)

/-- A raw payload does not touch the result. -/
theorem rawChunk_r (data : Bytes) (s : StreamW σ) : (rawChunk H cbs data s).2.r = s.r := by
  unfold rawChunk
  dsimp only
  split_ifs
  · rfl
  · exact (callData_same _ _ _ _).1

/-- A delivery does not touch the counts. -/
theorem deliverOpt_count (ch : Channel) (bytes : Option Bytes) (s : StreamW σ) :
    f.count (deliverOpt H cbs ch bytes s).2.r = f.count s.r := by
  have hset : ∀ b, f.count (ch.setBuf s.r b) = f.count s.r := by
    intro b
    cases ch <;> cases f <;> rfl
  cases bytes with
  | none => rfl
  | some bytes =>
      unfold deliverOpt deliver
      dsimp only
      split_ifs
      · rfl
      · exact hset _
      · exact hset _
      · rw [(deliverCall_same _ _ _ _).1]
        exact hset _
      · rw [(deliverCall_same _ _ _ _).1]

/-- What keeps the count, step by step, keeps it. -/
theorem andThen_count {x : Int × StreamW σ} {next : StreamW σ → Int × StreamW σ} {n : Int}
    (hx : f.count x.2.r = n) (hnext : ∀ s, f.count s.r = n → f.count (next s).2.r = n) :
    f.count (andThen x next).2.r = n := by
  unfold andThen
  split_ifs
  · exact hnext _ hx
  · exact hx

/-- The choice of an event does not touch the counts. -/
theorem streamChoice_count (data : Bytes) (choice0 : Json) (s : StreamW σ) :
    f.count (streamChoice H cbs data choice0 s).2.r = f.count s.r := by
  refine andThen_count f ?_ fun s1 hs1 => ?_
  · split
    · refine andThen_count f (deliverOpt_count H cbs f _ _ s) fun s1 hs1 => ?_
      refine andThen_count f ((deliverOpt_count H cbs f _ _ s1).trans hs1) fun s2 hs2 => ?_
      split_ifs
      · rw [rawChunk_r]
        exact hs2
      · exact hs2
    · rfl
  · have hkeep : ∀ raw, f.count (resultSetFinish H s1.r raw s1.world.env).2.1 = f.count s1.r := by
      intro raw
      unfold resultSetFinish
      split_ifs <;> cases f <;> rfl
    unfold streamFinish
    split
    · exact hs1
    · dsimp only
      split_ifs <;> exact (hkeep _).trans hs1

/-- The counts that the last step of an event leaves are those lifted from it. -/
theorem streamLift_counts (root : Json) (s : StreamW σ) :
    f.count (streamLift H root s).2.r = f.count (liftUsage s.r root) := by
  have hmodel := liftModel_count f H (liftUsage s.r root) root s.world.env
  unfold streamLift
  dsimp only
  split_ifs <;> exact hmodel

/-- The counts behind an event that reads as an object are those lifted from it, if its first choice
is taken in without a refusal. -/
theorem streamEvent_lifts (data : Bytes) (root : Json) (s : StreamW σ) :
    Lifts f s.r root (∀ choice0, firstChoice root = some choice0 → choice0.isObj = true ∧
      (streamChoice H cbs data choice0 s).1 = 0) (streamEvent H cbs data root s).2.r := by
  unfold streamEvent
  cases hchoice : firstChoice root with
  | none =>
      dsimp only
      exact ⟨fun _ => streamLift_counts H f root s, fun hnot => absurd nofun hnot⟩
  | some choice0 =>
      have hcount := streamChoice_count H cbs f data choice0 s
      dsimp only
      split_ifs with hobj
      · by_cases hzero : (streamChoice H cbs data choice0 s).1 = 0
        · rw [andThen, if_pos hzero]
          refine ⟨fun _ => ?_, fun hnot => absurd ?_ hnot⟩
          · rw [streamLift_counts]
            exact liftUsage_congr f hcount root
          · rintro _ ⟨⟩
            exact ⟨hobj, hzero⟩
        · rw [andThen, if_neg hzero]
          exact .stopped (fun htaken => hzero (htaken choice0 rfl).2) hcount
      · rw [rawChunk_r]
        exact .stopped (fun htaken => hobj (htaken choice0 rfl).1) rfl

/-- An event is accepted up to its usage: its payload is a JSON object without an {lit}`error`
member, whose first choice, if it has one, is an object that is taken in without a refusal, by the
allocator, a cap or a callback. -/
def EventReaches (Y : Yyjson) (data : Bytes) (s : StreamW σ) (root : Json) : Prop :=
  data ≠ ascii "[DONE]" ∧ ∃ env, yyjsonRead Y H data s.world.env = (some root, env) ∧
    (root.isObj && (root.get? (ascii "error")).isNone) = true ∧
    ∀ choice0, firstChoice root = some choice0 → choice0.isObj = true ∧
      (streamChoice H cbs data choice0
        { s.setEnv env with ctx := { s.ctx with sawEvent := true } }).1 = 0

/-- The counts behind an event that is accepted up to its usage are those lifted from it; any other
event leaves them. -/
theorem streamOnEvent_counts (Y : Yyjson) (data : Bytes) (s : StreamW σ) :
    (∀ root, EventReaches H cbs Y data s root → Y.read data = some root ∧
      f.count (streamOnEvent Y H cbs data s).2.r = f.count (liftUsage s.r root)) ∧
    ((∀ root, ¬ EventReaches H cbs Y data s root) →
      f.count (streamOnEvent Y H cbs data s).2.r = f.count s.r) := by
  unfold streamOnEvent
  split_ifs with hdone
  · exact ⟨fun root hreaches => absurd hdone hreaches.1, fun _ => rfl⟩
  · rcases hgot : yyjsonRead Y H data s.world.env with ⟨_ | root, env⟩
    · refine ⟨?_, fun _ => congrArg f.count (rawChunk_r H cbs data _)⟩
      rintro root ⟨-, env', hgot', -⟩
      rw [hgot] at hgot'
      cases hgot'
    · dsimp only
      split_ifs with hobject
      · have hlifts := streamEvent_lifts H cbs f data root
          { s.setEnv env with ctx := { s.ctx with sawEvent := true } }
        refine ⟨?_, fun hnot => hlifts.kept fun htaken => ?_⟩
        · rintro root' ⟨-, env', hgot', -, htaken⟩
          rw [hgot] at hgot'
          cases hgot'
          exact ⟨yyjsonRead_some hgot, hlifts.lifted htaken⟩
        · exact hnot root ⟨hdone, env, hgot, hobject, htaken⟩
      · refine ⟨?_, fun _ => congrArg f.count (rawChunk_r H cbs data _)⟩
        rintro root' ⟨-, env', hgot', hobject', -⟩
        rw [hgot] at hgot'
        cases hgot'
        exact absurd hobject' hobject

end Events

/-! ## Documented counts -/

/-- The count behind a body or an event is the one it documents: of the tree that was read from it,
if it is JSON. -/
def UsageField.Right (f : UsageField) (old new : Int) (tree : Option Json) : Prop :=
  new = (tree.map (f.documented old)).getD old

/-- When a count comes out right: the usage is reached, and does not write it as a real number
unless it was 0 before; or the usage is not reached, and documents no other count than the one that
was there. -/
def UsageField.ComesRight (f : UsageField) (old : Int) (tree : Option Json)
    (reaches : Json → Prop) : Prop :=
  ∀ root, tree = some root →
    (reaches root ∧ (old = 0 ∨ ¬ f.IsReal root)) ∨ (¬ reaches root ∧ f.documented old root = old)

/-- A count that is lifted if the usage is reached, and else stays. -/
theorem right_iff {f : UsageField} {r : Result} {new : Int} {tree : Option Json}
    {reaches : Json → Prop}
    (hreached : ∀ root, reaches root → tree = some root ∧ new = f.count (liftUsage r root))
    (hkept : (∀ root, ¬ reaches root) → new = f.count r) :
    f.Right (f.count r) new tree ↔ f.ComesRight (f.count r) tree reaches := by
  unfold UsageField.Right UsageField.ComesRight
  cases tree with
  | none =>
      refine iff_of_true (hkept fun root hroot => ?_) nofun
      cases (hreached root hroot).1
  | some root =>
      have honly : (∀ root', some root = some root' →
          (reaches root' ∧ (f.count r = 0 ∨ ¬ f.IsReal root')) ∨
            (¬ reaches root' ∧ f.documented (f.count r) root' = f.count r)) ↔
          (reaches root ∧ (f.count r = 0 ∨ ¬ f.IsReal root)) ∨
            (¬ reaches root ∧ f.documented (f.count r) root = f.count r) :=
        ⟨fun h => h root rfl, fun h _ heq => Option.some.inj heq ▸ h⟩
      rw [honly, Option.map_some, Option.getD_some]
      by_cases hroot : reaches root
      · rw [(hreached root hroot).2, liftUsage_documented]
        exact ⟨fun h => .inl ⟨hroot, h⟩, fun h => (h.resolve_right fun h => h.1 hroot).2⟩
      · have hnone : ∀ root', ¬ reaches root' := by
          intro root' hroot'
          cases (hreached root' hroot').1
          exact hroot hroot'
        rw [hkept hnone]
        exact ⟨fun h => .inr ⟨hroot, h.symm⟩, fun h => (h.resolve_left fun h => hroot h.1).2.symm⟩

/-- Token counts: behind every body and every event, whatever the allocator and the callbacks do,
each count is the documented one if and only if the usage is reached and the member is no real
number (or the count was 0 before), or the usage is not reached and documents nothing new; and
after a reset every count is unknown. -/
theorem tokenCounts_iff {σ : Type} (f : UsageField) :
    (∀ (Y : Yyjson) (H : Heap σ) (r : Result) (body : Bytes) (s : σ),
      f.Right (f.count r) (f.count (responseParse Y H r body s).2.2.1) (Y.read body) ↔
        f.ComesRight (f.count r) (Y.read body) (BodyReaches H Y r body s)) ∧
    (∀ (Y : Yyjson) (H : Heap σ) (cbs : Option (Callbacks σ)) (data : Bytes) (s : StreamW σ),
      f.Right (f.count s.r) (f.count (streamOnEvent Y H cbs data s).2.r) (Y.read data) ↔
        f.ComesRight (f.count s.r) (Y.read data) (EventReaches H cbs Y data s)) ∧
    ∀ r, f.count (resultResetContent r) = -1 := by
  refine ⟨fun Y H r body s => ?_, fun Y H cbs data s => ?_, fun r => by cases f <;> rfl⟩
  · obtain ⟨hreached, hkept⟩ := responseParse_counts H f r s Y body
    exact right_iff hreached hkept
  · obtain ⟨hreached, hkept⟩ := streamOnEvent_counts H cbs f Y data s
    exact right_iff hreached hkept

end Counts

section Plain

attribute [local instance] lp64

/-- A body with an answer, and a count that is written with an exponent: the double 1e3. -/
def exponentAnswer : Json :=
  .obj [(ascii "choices", .arr [.obj [(ascii "message", .obj [(ascii "content", .str (ascii "hi"))])]]),
    (ascii "usage", .obj [(ascii "total_tokens", .real 0x408F400000000000)])]

/-- The text of that body. -/
def exponentText : Bytes :=
  ascii "\x7b\"choices\":[\x7b\"message\":\x7b\"content\":\"hi\"\x7d\x7d],\"usage\":\x7b\"total_tokens\":1e3\x7d\x7d"

/-- A real number is stored as the count 0. -/
theorem tokenCounts_real :
    ¬ ∀ (f : UsageField) (Y : Yyjson) (H : Heap Unit) (r : Result) (body : Bytes),
      f.Right (f.count r) (f.count (responseParse Y H r body ()).2.2.1) (Y.read body) := by
  intro h
  have hzero := h .total (plainYyjson exponentText exponentAnswer) Heap.plentiful (resultInit 64)
    exponentText
  revert hzero
  unfold UsageField.Right
  decide +kernel

end Plain

end Sicha
