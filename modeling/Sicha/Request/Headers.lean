import Sicha.Lib.HeaderLines
import Sicha.Request.Backend

/-!
# The headers of a request

A resolved backend holds what its description says, checked; the headers of an attempt
and of the abort assist are built from it.

Main results:

- Theorem {lit}`backendInit_described`: a resolved backend is the checked description.
- Theorem {lit}`buildHeaders_yields`: the headers of an attempt as a list.
- Theorem {lit}`SafeHeader.roundTrip`: safe headers survive the way over the wire.
- Theorems {lit}`attemptHeaders_safe`, {lit}`attemptHeaders_count` and
  {lit}`attemptHeaders_authorization`: what an accepted backend can put on the wire.
-/

namespace Sicha

variable {w : Type}

open Fallible

/-! ## Safe headers -/

/-- A byte no header value may hold: a control byte other than the tab, or DEL.  CR, LF and
NUL are among them. -/
def badValueByte (b : UInt8) : Prop :=
  (b < 0x20 ∧ b ≠ 9) ∨ b = 0x7F

/-- A header that cannot inject anything: its name is a non-empty token and its value holds
no bad byte. -/
structure SafeHeader (h : Header) : Prop where
  nonempty : h.name ≠ []
  token : ∀ b ∈ h.name, isTokenChar b = true
  value : ∀ b ∈ h.value, ¬ badValueByte b

/-- A value is accepted exactly if it has no control byte in it. -/
theorem valueBytesOk_iff {v : Bytes} : valueBytesOk v = true ↔ ∀ b ∈ v, ¬ badValueByte b := by
  unfold valueBytesOk badValueByte
  rw [List.all_eq_true]
  refine forall₂_congr fun b _ => ?_
  by_cases hdel : b = 0x7F <;> by_cases hctl : b < 0x20 <;> by_cases htab : b = 9 <;>
    simp [hdel, hctl, htab]

/-- A token and a clean value make a safe header. -/
theorem named_safe {name value : Bytes} (hname : name ≠ [])
    (htoken : name.all isTokenChar = true) (hvalue : valueBytesOk value = true) :
    SafeHeader ⟨name, value⟩ :=
  ⟨hname, List.all_eq_true.mp htoken, valueBytesOk_iff.mp hvalue⟩

/-- A header that is accepted is safe. -/
theorem headerValidate_safe {name value : Bytes}
    (h : headerValidate (some name) (some value) = .ok) : SafeHeader ⟨name, value⟩ := by
  unfold headerValidate at h
  dsimp only at h
  split_ifs at h with hname hbytes
  rw [Bool.and_eq_true] at hbytes
  exact named_safe hname hbytes.1 hbytes.2

/-- A header as a line of the wire sees it. -/
def Header.field (h : Header) : HeaderLines.Field :=
  (h.name, h.value)

/-- A safe header is a clean field of a header block. -/
theorem SafeHeader.clean {h : Header} (hsafe : SafeHeader h) : HeaderLines.Clean h.field where
  noColon hmem := absurd (hsafe.token 58 hmem) (by decide)
  name hmem := absurd (hsafe.token 13 hmem) (by decide)
  value hmem := hsafe.value 13 hmem (.inl (by decide))

/-- Safe headers survive the way over the wire. -/
theorem SafeHeader.roundTrip {headers : List Header} (h : ∀ x ∈ headers, SafeHeader x) :
    HeaderLines.parse (HeaderLines.text (headers.map Header.field)) =
      headers.map Header.field := by
  refine HeaderLines.parse_text fun f hf => ?_
  obtain ⟨x, hx, rfl⟩ := List.mem_map.mp hf
  exact (h x hx).clean

/-! ## Names -/

/-- Two names that differ in case only. -/
def SameName (a b : Bytes) : Prop :=
  a.map lowerByte = b.map lowerByte

instance (a b : Bytes) : Decidable (SameName a b) :=
  inferInstanceAs (Decidable (_ = _))

/-- The comparison of names looks past the case of letters, and at nothing else. -/
theorem headerNameEq_iff (a b : Bytes) : headerNameEq a b = true ↔ SameName a b := by
  unfold SameName
  induction a generalizing b with
  | nil => cases b <;> simp [headerNameEq]
  | cons x xs ih =>
      cases b with
      | nil => simp [headerNameEq]
      | cons y ys => simp [headerNameEq, ih]

/-- How often a name occurs. -/
def occurrences (name : String) (headers : List Header) : Nat :=
  headers.countP fun h => decide (SameName h.name (ascii name))

/-! ## The backend -/

/-- The URLs, headers and secrets of an accepted backend. -/
structure SafeBackend (b : Backend) : Prop where
  apiKey : ∀ key, b.apiKey = some key → valueBytesOk key = true
  extra : ∀ h ∈ b.extraHeaders, SafeHeader h ∧ isReservedHeader h.name b.apiKey.isSome = false

/-- The backend a checked description resolves to. -/
def resolvedBackend (d : BackendDesc) (url model : Bytes) (headers : List Header) : Backend where
  baseUrl := url
  urlChat := urlJoin url (ascii "/chat/completions")
  urlAbort :=
    if d.flags &&& backendKoboldCancelAssist ≠ 0 then
      some (urlJoin (urlOrigin url) (ascii "/api/extra/abort"))
    else none
  apiKey := d.apiKey
  model := model
  extraHeaders := headers
  extraBodyJson := d.extraBodyJson
  timeouts := timeoutsResolve d.timeouts
  flags := d.flags
  abort_iff := by split_ifs with h <;> simp [h]

/-- The backend is what its description, checked, resolves to. -/
def Describes (d : BackendDesc) (b : Backend) : Prop :=
  ∃ url model headers, backendDescCheck d = some (url, model, headers) ∧
    b = resolvedBackend d url model headers

/-- The headers of an attempt: three constants, the key, and the backend's own. -/
def attemptHeaders (b : Backend) (stream : Bool) (userAgent : Bytes) : List Header :=
  [⟨ascii "Content-Type", ascii "application/json"⟩,
    ⟨ascii "Accept", if stream then ascii "text/event-stream" else ascii "application/json"⟩,
    ⟨ascii "User-Agent", userAgent⟩] ++
  (b.apiKey.map fun key => (⟨ascii "Authorization", ascii "Bearer " ++ key⟩ : Header)).toList ++
  b.extraHeaders

section Yields

variable {H : Heap w} {X : Prop} (hheap : H.Reliable ∨ X)

/-- A header of two copied strings. -/
theorem headerOf_copies {n v : Bytes} {name value : Option Bytes}
    (hname : name = some n ∨ name = none ∧ X) (hvalue : value = some v ∨ value = none ∧ X) :
    headerOf name value = some ⟨n, v⟩ ∨ headerOf name value = none ∧ X := by
  rcases hname with rfl | ⟨rfl, hX⟩
  · rcases hvalue with rfl | ⟨rfl, hX⟩
    · exact .inl rfl
    · exact .inr ⟨rfl, hX⟩
  · exact .inr ⟨rfl, hX⟩

include hheap

/-- A copied header is the header, unless the allocator refused. -/
theorem dupHeader_yields (h : Header) :
    Yields X (dupHeader H h) fun o => o = some h ∨ o = none ∧ X := by
  refine yields_bind (mallocFor_yields hheap _ h.name) fun name hname => ?_
  refine yields_bind (mallocFor_yields hheap _ h.value) fun value hvalue => ?_
  exact yields_pure (headerOf_copies hname hvalue)

/-- A copied string is the string, unless the allocator refused. -/
theorem dupOptional_yields (s : Option Bytes) :
    Yields X (dupOptional H s) fun o => o = s ∨ lost s o = true ∧ X := by
  cases s with
  | none => exact yields_pure (.inl rfl)
  | some s =>
      intro st
      obtain ⟨o, ho, h⟩ | h := mallocFor_yields hheap (s.length + 1) s st
      · refine .inl ⟨o, ho, ?_⟩
        rcases h with rfl | ⟨rfl, hX⟩
        · exact .inl rfl
        · exact .inr ⟨rfl, hX⟩
      · exact .inr h

/-- The abort URL is the one that the flags ask for. -/
theorem abortUrlOf_yields (flags : UInt32) (url : Bytes) :
    Yields X (abortUrlOf H flags url) fun u =>
      u.val = if flags &&& backendKoboldCancelAssist ≠ 0 then
        some (urlJoin (urlOrigin url) (ascii "/api/extra/abort")) else none := by
  unfold abortUrlOf
  split_ifs with hflag
  · rw [map_eq_pure_bind]
    have hurl : Yields X (abortUrl H url)
        (· = urlJoin (urlOrigin url) (ascii "/api/extra/abort")) := by
      refine yields_bind (mallocFor_yields hheap _ _) fun origin horigin => ?_
      refine yields_bind (orNomem_yields horigin) ?_
      rintro _ rfl
      refine yields_bind (mallocFor_yields hheap _ _) fun copy hcopy => ?_
      exact orNomem_yields hcopy
    refine yields_bind hurl ?_
    rintro _ rfl
    exact yields_pure rfl
  · exact yields_pure rfl

/-- The extra headers are copied as they are. -/
theorem copyExtraHeaders_yields (headers : List Header) :
    Yields X (copyExtraHeaders H headers) (· = headers) := by
  unfold copyExtraHeaders
  split_ifs with hnil
  · exact yields_pure hnil.symm
  · refine yields_bind (yields_guarded (hheap.imp_left fun h s => h _ s)) fun _ _ => ?_
    have hcopies := @yields_forList _ _ _ _ X (fun h => do
      let copy ← dupHeader H h
      orNomem copy) id headers fun h _ =>
        yields_bind (dupHeader_yields hheap h) fun copy hcopy => orNomem_yields hcopy
    rw [List.map_id] at hcopies
    exact hcopies

/-- The key becomes a bearer header, unless the allocator refused. -/
theorem authorizationOf_yields (key : Option Bytes) :
    Yields X (authorizationOf H key) fun copies =>
      copies = ((key.map fun key =>
        (⟨ascii "Authorization", ascii "Bearer " ++ key⟩ : Header)).toList).map some ∨
      none ∈ copies ∧ X := by
  cases key with
  | none => exact yields_pure (.inl rfl)
  | some key =>
      unfold authorizationOf
      dsimp only
      rw [map_eq_pure_bind]
      have hcopy : Yields X (dupAuthorization H key) fun o =>
          o = some ⟨ascii "Authorization", ascii "Bearer " ++ key⟩ ∨ o = none ∧ X := by
        refine yields_bind (mallocFor_yields hheap _ (ascii "Bearer " ++ key))
          fun value hvalue => ?_
        refine yields_bind (mallocFor_yields hheap _ (ascii "Authorization")) fun name hname => ?_
        exact yields_pure (headerOf_copies hname hvalue)
      refine yields_bind hcopy ?_
      rintro o (rfl | ⟨rfl, hX⟩)
      · exact yields_pure (.inl rfl)
      · exact yields_pure (.inr ⟨by simp, hX⟩)

/-- The headers are copied in their order, unless the allocator refused. -/
theorem forList_dupHeader_yields (headers : List Header) :
    Yields X (forList (dupHeader H) headers) fun copies =>
      copies = headers.map some ∨ none ∈ copies ∧ X := by
  induction headers with
  | nil => exact yields_pure (.inl rfl)
  | cons h headers ih =>
      refine yields_bind (dupHeader_yields hheap h) fun copy hcopy => ?_
      refine yields_bind ih fun copies hcopies => yields_pure ?_
      rcases hcopy with rfl | ⟨rfl, hX⟩
      · rcases hcopies with rfl | ⟨hnone, hX⟩
        · exact .inl rfl
        · exact .inr ⟨List.mem_cons_of_mem _ hnone, hX⟩
      · exact .inr ⟨by simp, hX⟩

omit hheap in
/-- Where no copy is missing, the copies are the headers. -/
theorem allPresent_yields {copies : List (Option Header)} {headers : List Header}
    (h : copies = headers.map some ∨ none ∈ copies ∧ X) :
    Yields X (allPresent copies : Fallible Status w _) (· = headers) := by
  unfold allPresent
  rcases h with rfl | ⟨hnone, hX⟩
  · have hall : (headers.map some).mapM id = some headers := by
      induction headers with
      | nil => rfl
      | cons h headers ih => simp [ih]
    rw [hall]
    exact yields_pure rfl
  · have hlost : copies.mapM id = none := by
      induction copies with
      | nil => simp at hnone
      | cons o copies ih =>
          cases o with
          | none => simp
          | some o =>
              have hrest := ih (by simpa using hnone)
              simp [hrest]
    rw [hlost]
    exact yields_throw hX

/-- The headers of an attempt as a list. -/
theorem buildHeaders_yields (b : Backend) (stream : Bool) (userAgent : Bytes) :
    Yields X (buildHeaders H b stream userAgent) (· = attemptHeaders b stream userAgent) := by
  refine yields_bind (yields_guarded (hheap.imp_left fun h s => h _ s)) fun _ _ => ?_
  refine yields_bind (dupHeader_yields hheap _) fun contentType hcontent => ?_
  refine yields_bind (dupHeader_yields hheap _) fun accept haccept => ?_
  refine yields_bind (dupHeader_yields hheap _) fun agent hagent => ?_
  refine yields_bind (authorizationOf_yields hheap _) fun auth hauth => ?_
  refine yields_bind (forList_dupHeader_yields hheap _) fun extra hextra => ?_
  refine allPresent_yields ?_
  rcases hcontent with rfl | ⟨rfl, hX⟩
  · rcases haccept with rfl | ⟨rfl, hX⟩
    · rcases hagent with rfl | ⟨rfl, hX⟩
      · rcases hauth with rfl | ⟨hnone, hX⟩
        · rcases hextra with rfl | ⟨hnone, hX⟩
          · exact .inl (by simp [attemptHeaders])
          · exact .inr ⟨by simp [hnone], hX⟩
        · exact .inr ⟨by simp [hnone], hX⟩
      · exact .inr ⟨by simp, hX⟩
    · exact .inr ⟨by simp, hX⟩
  · exact .inr ⟨by simp, hX⟩

end Yields

/-- A computation ends with a value or an error. -/
theorem yields_any {ε α : Type} (m : Fallible ε w α) : Yields True m fun _ => True := by
  intro s
  rcases hrun : (m.exec s).1 with e | a
  · exact .inr ⟨trivial, e, rfl⟩
  · exact .inl ⟨a, rfl, trivial⟩

/-- A resolved backend is the checked description. -/
theorem backendInit_described (Y : Yyjson) (H : Heap w) (d : BackendDesc) :
    Yields True (backendInit Y H d) (Describes d) := by
  have hheap : H.Reliable ∨ True := .inr trivial
  unfold backendInit
  cases hcheck : backendDescCheck d with
  | none => exact yields_throw trivial
  | some parts =>
      obtain ⟨url, model, headers⟩ := parts
      refine yields_bind (yields_any _) fun _ _ => ?_
      refine yields_bind (mallocFor_yields hheap _ url) fun baseCopy hbase => ?_
      have hchat : Yields True (chatUrlOf H baseCopy url) fun o =>
          o = some (urlJoin url (ascii "/chat/completions")) ∨ o = none ∧ True := by
        rcases hbase with rfl | ⟨rfl, -⟩
        · exact mallocFor_yields hheap _ _
        · exact yields_pure (.inr ⟨rfl, trivial⟩)
      refine yields_bind hchat fun chatCopy hchatCopy => ?_
      refine yields_bind (mallocFor_yields hheap _ model) fun modelCopy hmodel => ?_
      refine yields_bind (dupOptional_yields hheap d.apiKey) fun apiKey hkey => ?_
      refine yields_bind (dupOptional_yields hheap d.extraBodyJson) fun extraBody hbody => ?_
      refine yields_bind (abortUrlOf_yields hheap d.flags url) fun urlAbort habort => ?_
      refine yields_bind (copyExtraHeaders_yields hheap headers) ?_
      rintro _ rfl
      rcases hbase with rfl | ⟨rfl, -⟩
      · rcases hchatCopy with rfl | ⟨rfl, -⟩
        · rcases hmodel with rfl | ⟨rfl, -⟩
          · dsimp only
            split_ifs with hlost
            · exact yields_throw trivial
            · rw [Bool.or_eq_true, not_or] at hlost
              obtain rfl := hkey.resolve_right fun h => hlost.1 h.1
              obtain rfl := hbody.resolve_right fun h => hlost.2 h.1
              refine yields_pure ⟨url, model, _, hcheck, ?_⟩
              unfold resolvedBackend
              congr 1
          · exact yields_throw trivial
        · exact yields_throw trivial
      · exact yields_throw trivial

/-! ## What an accepted backend can send -/

/-- What the checks of a description that pass have established. -/
theorem backendDescCheck_some {d : BackendDesc} {url model : Bytes} {headers : List Header}
    (h : backendDescCheck d = some (url, model, headers)) :
    d.baseUrl = some url ∧ d.apiKey.any (fun key => key == [] || !valueBytesOk key) = false ∧
      d.extraHeaders.items.mapM (extraHeaderCheck d.apiKey.isSome) = some headers := by
  unfold backendDescCheck at h
  by_cases hstruct : d.structSizeOk = false
  · rw [if_pos hstruct] at h
    cases h
  rw [if_neg hstruct] at h
  by_cases hflags : d.flags &&& ~~~(backendKoboldCancelAssist ||| backendStreamUsage) ≠ 0
  · rw [if_pos hflags] at h
    cases h
  rw [if_neg hflags] at h
  split at h
  · rename_i hbase _
    split_ifs at h with hurl hmodel hkey hdangling
    obtain ⟨headers', hheaders, heq⟩ := Option.map_eq_some_iff.mp h
    cases heq
    exact ⟨hbase, by simpa using hkey, hheaders⟩
  · cases h

/-- A checked list comes from elements that pass. -/
theorem mem_of_mapM {α β : Type} {f : α → Option β} {as : List α} {bs : List β}
    (h : as.mapM f = some bs) {b : β} (hb : b ∈ bs) : ∃ a ∈ as, f a = some b := by
  induction as generalizing bs with
  | nil =>
      cases h
      cases hb
  | cons a as ih =>
      rw [List.mapM_cons] at h
      obtain ⟨b', hb', h⟩ := Option.bind_eq_some_iff.mp h
      obtain ⟨bs', hbs', h⟩ := Option.bind_eq_some_iff.mp h
      cases h
      rcases List.mem_cons.mp hb with rfl | hb
      · exact ⟨a, by simp, hb'⟩
      · obtain ⟨a', ha', hf⟩ := ih hbs' hb
        exact ⟨a', List.mem_cons_of_mem a ha', hf⟩

/-- The checks leave only safe headers with names of their own. -/
theorem Describes.safe {d : BackendDesc} {b : Backend} (h : Describes d b) : SafeBackend b := by
  obtain ⟨url, model, headers, hcheck, rfl⟩ := h
  obtain ⟨-, hkey, hheaders⟩ := backendDescCheck_some hcheck
  constructor
  · intro key hsome
    change d.apiKey = some key at hsome
    rw [hsome] at hkey
    simp only [Option.any_some, Bool.or_eq_false_iff, Bool.not_eq_false'] at hkey
    exact hkey.2
  · intro x hx
    obtain ⟨ref, -, href⟩ := mem_of_mapM hheaders hx
    unfold extraHeaderCheck at href
    split at href
    · split_ifs at href with hok
      cases href
      exact ⟨headerValidate_safe hok.1, hok.2⟩
    · cases href

/-- A name the client generates itself is none of the backend's own. -/
theorem reserved_of_sameName {name : Bytes} {haveKey : Bool}
    (h : isReservedHeader name haveKey = false) :
    ¬ SameName name (ascii "Content-Type") ∧ ¬ SameName name (ascii "Accept") ∧
      ¬ SameName name (ascii "User-Agent") ∧
      (haveKey = true → ¬ SameName name (ascii "Authorization")) := by
  simp only [isReservedHeader, Bool.or_eq_false_iff, Bool.and_eq_false_iff] at h
  obtain ⟨⟨⟨⟨⟨⟨htype, haccept⟩, hagent⟩, -⟩, -⟩, -⟩, hauth⟩ := h
  have hno : ∀ other, headerNameEq name other = false → ¬ SameName name other := by
    intro other hne hsame
    rw [(headerNameEq_iff name other).mpr hsame] at hne
    cases hne
  refine ⟨hno _ htype, hno _ haccept, hno _ hagent, fun hkey => ?_⟩
  rcases hauth with hauth | hauth
  · rw [hkey] at hauth
    cases hauth
  · exact hno _ hauth

/-- The value of the Authorization header is safe when the key is. -/
theorem bearer_safe {key : Bytes} (h : valueBytesOk key = true) :
    SafeHeader ⟨ascii "Authorization", ascii "Bearer " ++ key⟩ := by
  refine named_safe (by decide) (by decide) ?_
  unfold valueBytesOk at h ⊢
  rw [List.all_append, h]
  decide

/-- The content type is a safe header. -/
theorem json_safe : SafeHeader ⟨ascii "Content-Type", ascii "application/json"⟩ :=
  headerValidate_safe (by decide)

variable {b : Backend} (hb : SafeBackend b) {userAgent : Bytes}
  (hagent : valueBytesOk userAgent = true) (stream : Bool)

include hb

include hagent in
/-- All headers of an attempt are safe. -/
theorem attemptHeaders_safe : ∀ h ∈ attemptHeaders b stream userAgent, SafeHeader h := by
  intro h hh
  simp only [attemptHeaders, List.mem_append, List.mem_cons, List.not_mem_nil, or_false,
    Option.mem_toList, Option.map_eq_some_iff] at hh
  rcases hh with (((rfl | rfl | rfl) | ⟨key, hkey, rfl⟩) | hh)
  · exact json_safe
  · cases stream <;> exact headerValidate_safe (by decide)
  · exact named_safe (by decide) (by decide) hagent
  · exact bearer_safe (hb.apiKey key hkey)
  · exact (hb.extra h hh).1

omit hb in
/-- A name that is none of the backend's own. -/
theorem occurrences_extra {name : String}
    (h : ∀ x ∈ b.extraHeaders, ¬ SameName x.name (ascii name)) :
    occurrences name b.extraHeaders = 0 := by
  unfold occurrences
  rw [List.countP_eq_zero]
  intro x hx
  simpa using h x hx

/-- The three generated names occur once each. -/
theorem attemptHeaders_count {name : String}
    (hname : name = "Content-Type" ∨ name = "Accept" ∨ name = "User-Agent") :
    occurrences name (attemptHeaders b stream userAgent) = 1 := by
  have hextra : occurrences name b.extraHeaders = 0 := by
    refine occurrences_extra fun x hx => ?_
    have hnames := reserved_of_sameName (hb.extra x hx).2
    rcases hname with rfl | rfl | rfl
    · exact hnames.1
    · exact hnames.2.1
    · exact hnames.2.2.1
  unfold occurrences at hextra ⊢
  unfold attemptHeaders
  rw [List.countP_append, List.countP_append, hextra]
  cases b.apiKey <;> rcases hname with rfl | rfl | rfl <;> rfl

/-- With a key, the Authorization header occurs once. -/
theorem attemptHeaders_authorization (hkey : b.apiKey.isSome = true) :
    occurrences "Authorization" (attemptHeaders b stream userAgent) = 1 := by
  have hextra : occurrences "Authorization" b.extraHeaders = 0 :=
    occurrences_extra fun x hx => (reserved_of_sameName (hb.extra x hx).2).2.2.2 hkey
  obtain ⟨key, hsome⟩ := Option.isSome_iff_exists.mp hkey
  unfold occurrences at hextra ⊢
  unfold attemptHeaders
  rw [List.countP_append, List.countP_append, hextra, hsome]
  rfl

end Sicha
