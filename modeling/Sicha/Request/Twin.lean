import Mathlib.Data.List.Forall2
import Sicha.Request.ChatBody
import Sicha.Request.Headers

/-!
# Two requests side by side

The same request for the same backend, over two allocators that answer alike: the bodies are
the same, and so are the headers, but for the key.

Main results:

- Theorem {lit}`buildChatBody_alike`: two bodies in lockstep.
- Definitions {lit}`Rekeyed` and {lit}`HeadersTwin`: backends and headers that differ in a key.
- Theorem {lit}`buildHeaders_alike`: two header sets in lockstep.
-/

namespace Sicha

variable {v w : Type}

open Fallible

section Alike

variable {H : Heap v} {K : Heap w} {Rel : v → w → Prop} (hsim : H.Sim K Rel)

include hsim

/-! ## Copies -/

/-- A request for a string is answered the same. -/
theorem mallocFor_alike {α : Type} (n : Nat) (value : α) :
    Alike Rel Eq (mallocFor H n value) (mallocFor K n value) := by
  refine alike_total fun s t hst => ?_
  obtain ⟨hgrant, hrel⟩ := hsim n s t hst
  rw [hgrant]
  exact ⟨rfl, hrel⟩

omit hsim in
/-- A missing block fails the same. -/
theorem orNomem_alike {α : Type} (o : Option α) :
    Alike Rel Eq (orNomem o : Fallible Status v α) (orNomem o) := by
  cases o with
  | some a => exact alike_pure rfl
  | none => exact alike_throw _

/-- A header is copied the same. -/
theorem dupHeader_alike (x : Header) : Alike Rel Eq (dupHeader H x) (dupHeader K x) :=
  alike_then (mallocFor_alike hsim _ _) fun _ =>
    alike_then (mallocFor_alike hsim _ _) fun _ => alike_pure rfl

/-- A text is read the same. -/
theorem yyjsonRead_alike (Y : Yyjson) (text : Bytes) :
    Alike Rel Eq (total (yyjsonRead Y H text) : Fallible Status v _)
      (total (yyjsonRead Y K text)) := by
  refine alike_total fun s t hst => ?_
  obtain ⟨hgrant, hrel⟩ := hsim yyjsonChunk s t hst
  unfold yyjsonRead
  rw [hgrant]
  split_ifs <;> exact ⟨rfl, hrel⟩

/-! ## Validation -/

/-- A JSON object is checked the same. -/
theorem validateOptionalObject_alike (Y : Yyjson) (json : Option Bytes) :
    Alike Rel Eq (validateOptionalObject Y H json) (validateOptionalObject Y K json) := by
  cases json with
  | some json =>
      refine alike_then (yyjsonRead_alike hsim Y json) fun root => ?_
      split_ifs
      · exact alike_pure rfl
      · exact alike_throw _
  | none => exact alike_pure rfl

/-- A request is validated the same. -/
theorem requestValidate_alike (Y : Yyjson) (req : Request) :
    Alike Rel Eq (requestValidate Y H req) (requestValidate Y K req) := by
  unfold requestValidate
  split_ifs
  · refine alike_then ?_ fun _ => validateOptionalObject_alike hsim Y _
    unfold validateMessagesJson
    split
    · refine alike_then (yyjsonRead_alike hsim Y _) fun root => ?_
      split_ifs
      · exact alike_pure rfl
      · exact alike_throw _
    · exact alike_pure rfl
  · exact alike_throw _

/-! ## The body -/

/-- A call of the document builder succeeds the same. -/
theorem yyjsonCall_alike : Alike Rel Eq (yyjsonCall H) (yyjsonCall K) :=
  alike_guarded (hsim _) _

/-- A member is added the same. -/
theorem addMember_alike (key : String) (value : Json) (members : List (Bytes × Json)) :
    Alike Rel Eq (addMember H key value members) (addMember K key value members) :=
  alike_then (yyjsonCall_alike hsim) fun _ => alike_pure rfl

/-- A member is added under a condition the same. -/
theorem addMemberIf_alike (cond : Bool) (key : String) (value : Json)
    (members : List (Bytes × Json)) :
    Alike Rel Eq (addMemberIf H cond key value members) (addMemberIf K cond key value members) := by
  unfold addMemberIf
  split_ifs
  · exact addMember_alike hsim _ _ _
  · exact alike_pure rfl

/-- Passthrough JSON is imported the same. -/
theorem importJson_alike (Y : Yyjson) (json : Bytes) (expectObj : Bool) :
    Alike Rel Eq (importJson Y H json expectObj) (importJson Y K json expectObj) := by
  refine alike_then (yyjsonRead_alike hsim Y json) fun root => ?_
  split
  · exact alike_then (yyjsonCall_alike hsim) fun _ => alike_pure rfl
  · exact alike_throw _

/-- A message is turned into JSON the same. -/
theorem messageJson_alike (m : Message) :
    Alike Rel Eq (messageJson H m) (messageJson K m) := by
  refine alike_then (yyjsonCall_alike hsim) fun _ => ?_
  refine alike_then (addMember_alike hsim _ _ _) fun _ => ?_
  refine alike_then (addMember_alike hsim _ _ _) fun _ => ?_
  exact alike_then (addMemberIf_alike hsim _ _ _ _) fun _ => alike_pure rfl

/-- The messages become a member the same. -/
theorem messagesMember_alike (Y : Yyjson) (req : Request) :
    Alike Rel Eq (messagesMember Y H req) (messagesMember Y K req) := by
  unfold messagesMember
  split
  · refine alike_then (importJson_alike hsim Y _ _) fun _ => ?_
    exact alike_then (yyjsonCall_alike hsim) fun _ => alike_pure rfl
  · refine alike_then (yyjsonCall_alike hsim) fun _ => ?_
    refine alike_then (yyjsonCall_alike hsim) fun _ => ?_
    exact alike_then (alike_forList (messageJson_alike hsim) _) fun _ => alike_pure rfl

/-- The samplers become members the same. -/
theorem samplerMembers_alike (req : Request) (members : List (Bytes × Json)) :
    Alike Rel Eq (samplerMembers H req members) (samplerMembers K req members) := by
  refine alike_then (addMemberIf_alike hsim _ _ _ _) fun _ => ?_
  refine alike_then (addMemberIf_alike hsim _ _ _ _) fun _ => ?_
  refine alike_then (addMemberIf_alike hsim _ _ _ _) fun _ => ?_
  refine alike_then (addMemberIf_alike hsim _ _ _ _) fun _ => ?_
  refine alike_then (addMemberIf_alike hsim _ _ _ _) fun _ => ?_
  exact addMemberIf_alike hsim _ _ _ _

/-- The stop strings become a member the same. -/
theorem stopMember_alike (req : Request) (members : List (Bytes × Json)) :
    Alike Rel Eq (stopMember H req members) (stopMember K req members) := by
  unfold stopMember
  split
  · exact alike_pure rfl
  · refine alike_then (yyjsonCall_alike hsim) fun _ => ?_
    refine alike_then (yyjsonCall_alike hsim) fun _ => ?_
    refine alike_then (alike_forList (fun s => ?_) _) fun _ => alike_pure rfl
    exact alike_then (yyjsonCall_alike hsim) fun _ => alike_pure rfl

/-- The response format becomes a member the same. -/
theorem responseFormatMember_alike (Y : Yyjson) (req : Request)
    (members : List (Bytes × Json)) :
    Alike Rel Eq (responseFormatMember Y H req members) (responseFormatMember Y K req members) := by
  unfold responseFormatMember
  split
  · exact alike_then (importJson_alike hsim Y _ _) fun _ => addMember_alike hsim _ _ _
  · exact alike_pure rfl

/-- The backend's own members are merged the same. -/
theorem mergeMembers_alike (members extra : List (Bytes × Json)) :
    Alike Rel Eq (mergeMembers H members extra) (mergeMembers K members extra) := by
  induction extra generalizing members with
  | nil => exact alike_pure rfl
  | cons m rest ih =>
      refine alike_then ?_ fun members => ih members
      refine alike_then (mallocFor_alike hsim _ _) fun _ => ?_
      refine alike_then (mallocFor_alike hsim _ _) fun _ => ?_
      refine alike_then (orNomem_alike _) fun _ => ?_
      exact alike_then (orNomem_alike _) fun _ => alike_pure rfl

/-- Two backends that differ in their keys at most. -/
structure Rekeyed (b b' : Backend) : Prop where
  baseUrl : b.baseUrl = b'.baseUrl
  urlChat : b.urlChat = b'.urlChat
  urlAbort : b.urlAbort = b'.urlAbort
  model : b.model = b'.model
  extraHeaders : b.extraHeaders = b'.extraHeaders
  extraBodyJson : b.extraBodyJson = b'.extraBodyJson
  timeouts : b.timeouts = b'.timeouts
  flags : b.flags = b'.flags

omit hsim in
/-- A backend differs from itself in its key at most. -/
theorem Rekeyed.refl (b : Backend) : Rekeyed b b :=
  ⟨rfl, rfl, rfl, rfl, rfl, rfl, rfl, rfl⟩

section Backends

variable {b b' : Backend} (hb : Rekeyed b b')

include hb

/-- The members of a stream do not depend on the key. -/
theorem streamMembers_alike (stream : Bool) (members : List (Bytes × Json)) :
    Alike Rel Eq (streamMembers H b stream members) (streamMembers K b' stream members) := by
  unfold streamMembers
  split_ifs
  · refine alike_then (addMember_alike hsim _ _ _) fun members => ?_
    unfold streamOptionsMember
    rw [hb.flags]
    split_ifs
    · refine alike_then (yyjsonCall_alike hsim) fun _ => ?_
      exact alike_then (addMember_alike hsim _ _ _) fun _ => addMember_alike hsim _ _ _
    · exact alike_pure rfl
  · exact alike_pure rfl

/-- The backend's own members do not depend on the key. -/
theorem extraMembers_alike (Y : Yyjson) (members : List (Bytes × Json)) :
    Alike Rel Eq (extraMembers Y H b members) (extraMembers Y K b' members) := by
  unfold extraMembers
  rw [hb.extraBodyJson]
  split
  · refine alike_then (yyjsonRead_alike hsim Y _) fun root => ?_
    exact alike_then (orNomem_alike _) fun _ => mergeMembers_alike hsim _ _
  · exact alike_pure rfl

/-- The key of a backend is not in its bodies. -/
theorem buildChatBody_alike (Y : Yyjson) (req : Request) (stream : Bool) :
    Alike Rel Eq (buildChatBody Y H b req stream) (buildChatBody Y K b' req stream) := by
  unfold buildChatBody
  rw [hb.model]
  refine alike_then (requestValidate_alike hsim Y req) fun _ => ?_
  refine alike_then (yyjsonCall_alike hsim) fun _ => ?_
  refine alike_then (yyjsonCall_alike hsim) fun _ => ?_
  refine alike_then (addMember_alike hsim _ _ _) fun _ => ?_
  refine alike_then (messagesMember_alike hsim Y req) fun _ => ?_
  refine alike_then (streamMembers_alike hsim hb stream _) fun _ => ?_
  refine alike_then (samplerMembers_alike hsim req _) fun _ => ?_
  refine alike_then (stopMember_alike hsim req _) fun _ => ?_
  refine alike_then (responseFormatMember_alike hsim Y req _) fun _ => ?_
  refine alike_then (extraMembers_alike hsim hb Y _) fun _ => ?_
  exact alike_then (yyjsonCall_alike hsim) fun _ => orNomem_alike _

end Backends

/-! ## The headers -/

/-- The Authorization header for a key. -/
def bearer (key : Bytes) : Header :=
  ⟨ascii "Authorization", ascii "Bearer " ++ key⟩

/-- Two header lists that are the same, or that differ in one header, which carries the two
keys. -/
inductive HeadersTwin (key key' : Option Bytes) : List Header → List Header → Prop
  | same (hkey : key = key') (hs : List Header) : HeadersTwin key key' hs hs
  | bearer {a a' : Bytes} (ha : key = some a) (ha' : key' = some a') (pre post : List Header) :
      HeadersTwin key key' (pre ++ bearer a :: post) (pre ++ bearer a' :: post)

omit hsim in
/-- What is related to itself, if it is there. -/
theorem optionRel_self {α : Type} {R : α → α → Prop} {o : Option α} (h : ∀ a ∈ o, R a a) :
    Option.Rel R o o := by
  cases o with
  | none => exact .none
  | some a => exact .some (h a rfl)

/-- The copy of a key is granted on both sides or on neither. -/
def KeyAlike (H : Heap v) (K : Heap w) (Rel : v → w → Prop) (extra : Nat) :
    Option Bytes → Option Bytes → Prop :=
  Option.Rel fun a a' => ∀ s t, Rel s t →
    (H.alloc (a.length + extra) s).1 = (K.alloc (a'.length + extra) t).1 ∧
      Rel (H.alloc (a.length + extra) s).2 (K.alloc (a'.length + extra) t).2

/-- The copies of one key. -/
theorem KeyAlike.self (extra : Nat) (key : Option Bytes) : KeyAlike H K Rel extra key key :=
  optionRel_self fun a _ => hsim (a.length + extra)

omit hsim in
/-- Both backends have a key, or neither has. -/
theorem KeyAlike.isSome {extra : Nat} {key key' : Option Bytes}
    (h : KeyAlike H K Rel extra key key') : key.isSome = key'.isSome := by
  cases h with
  | none => rfl
  | some _ => rfl

omit hsim in
/-- Two copies that are granted alike. -/
theorem mallocFor_copies {α : Type} {n n' : Nat} {a a' : α}
    (halloc : ∀ s t, Rel s t → (H.alloc n s).1 = (K.alloc n' t).1 ∧
      Rel (H.alloc n s).2 (K.alloc n' t).2) :
    Alike Rel (Option.Rel fun x x' => x = a ∧ x' = a') (mallocFor H n a) (mallocFor K n' a') := by
  refine alike_total fun s t hst => ?_
  obtain ⟨hgrant, hrel⟩ := halloc s t hst
  rw [hgrant]
  refine ⟨?_, hrel⟩
  split_ifs
  · exact .some ⟨rfl, rfl⟩
  · exact .none

/-- The bearer header carries the key, and is else made the same. -/
theorem dupAuthorization_alike {a a' : Bytes} (halloc : ∀ s t, Rel s t →
    (H.alloc (a.length + 8) s).1 = (K.alloc (a'.length + 8) t).1 ∧
      Rel (H.alloc (a.length + 8) s).2 (K.alloc (a'.length + 8) t).2) :
    Alike Rel (Option.Rel fun x x' => x = bearer a ∧ x' = bearer a') (dupAuthorization H a)
      (dupAuthorization K a') := by
  refine alike_bind (mallocFor_copies halloc) fun value value' hvalue => ?_
  refine alike_bind (mallocFor_copies (hsim _)) fun name name' hname => alike_pure ?_
  cases hvalue with
  | none => cases hname <;> exact .none
  | some hvalue =>
      cases hname with
      | none => exact .none
      | some hname =>
          obtain ⟨rfl, rfl⟩ := hvalue
          obtain ⟨rfl, rfl⟩ := hname
          exact .some ⟨rfl, rfl⟩

omit hsim in
/-- Two arrays that differ in one string. -/
theorem allPresent_alike {a a' : Bytes} {o o' : Option Header}
    (ho : Option.Rel (fun x x' => x = bearer a ∧ x' = bearer a') o o')
    (pre post : List (Option Header)) :
    Alike Rel (HeadersTwin (some a) (some a'))
      (allPresent (pre ++ o :: post) : Fallible Status v _) (allPresent (pre ++ o' :: post)) := by
  unfold allPresent
  rw [List.mapM_append, List.mapM_append, List.mapM_cons, List.mapM_cons]
  cases pre.mapM id with
  | none => exact alike_throw _
  | some pre =>
      cases ho with
      | none => exact alike_throw _
      | some h =>
          obtain ⟨rfl, rfl⟩ := h
          cases post.mapM id with
          | none => exact alike_throw _
          | some post => exact alike_pure (.bearer rfl rfl pre post)

/-- The headers of an attempt on both sides, with the keys of the two backends. -/
theorem buildHeaders_alike {b b' : Backend} (hb : Rekeyed b b')
    (hkey : KeyAlike H K Rel 8 b.apiKey b'.apiKey) (stream : Bool) (userAgent : Bytes) :
    Alike Rel (HeadersTwin b.apiKey b'.apiKey) (buildHeaders H b stream userAgent)
      (buildHeaders K b' stream userAgent) := by
  unfold buildHeaders
  rw [hkey.isSome, hb.extraHeaders]
  generalize b.apiKey = key, b'.apiKey = key' at hkey
  refine alike_then (alike_guarded (hsim _) _) fun _ => ?_
  refine alike_then (dupHeader_alike hsim _) fun contentType => ?_
  refine alike_then (dupHeader_alike hsim _) fun accept => ?_
  refine alike_then (dupHeader_alike hsim _) fun agent => ?_
  cases hkey with
  | none =>
      refine alike_then (alike_pure rfl) fun auth => ?_
      refine alike_then (alike_forList (dupHeader_alike hsim) _) fun extra => ?_
      unfold allPresent
      split
      · exact alike_pure (.same rfl _)
      · exact alike_throw _
  | @some a a' halloc =>
      have hauth : Alike Rel
          (fun auth auth' => ∃ o o', auth = [o] ∧ auth' = [o'] ∧
            Option.Rel (fun x x' => x = bearer a ∧ x' = bearer a') o o')
          (authorizationOf H (some a)) (authorizationOf K (some a')) :=
        alike_map (dupAuthorization_alike hsim halloc) fun o o' ho => ⟨o, o', rfl, rfl, ho⟩
      refine alike_bind hauth ?_
      rintro _ _ ⟨o, o', rfl, rfl, ho⟩
      refine alike_then (alike_forList (dupHeader_alike hsim) _) fun extra => ?_
      exact allPresent_alike ho [contentType, accept, agent] extra

end Alike

end Sicha
