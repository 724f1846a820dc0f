import Sicha.Request.Headers

/-!
# Base URLs

Which strings are accepted as a base URL, and what the two URLs derived from one look like.

Main results:

- Theorem {lit}`urlValidate_ok_iff`: the accepted strings.
- Theorem {lit}`urlValidate_baseUrl_iff`: they are the documented ones, but for a missing host
  in front of a port.
- Theorem {lit}`backendInit_urls`: the chat URL and the abort URL keep scheme and authority.
-/

namespace Sicha

/-! ## The scheme -/

/-- A scheme the client speaks, in any letter case, with what stands before the authority. -/
def IsScheme (scheme : Bytes) : Prop :=
  scheme.map lowerByte = ascii "http://" ∨ scheme.map lowerByte = ascii "https://"

instance (scheme : Bytes) : Decidable (IsScheme scheme) :=
  inferInstanceAs (Decidable (_ ∨ _))

/-- The prefix is compared past the case of letters. -/
theorem prefixCi_iff {s word : Bytes} :
    prefixCi s word = true ↔ (s.take word.length).map lowerByte = word := by
  induction word generalizing s with
  | nil => simp [prefixCi]
  | cons b word ih =>
      cases s with
      | nil => simp [prefixCi]
      | cons a s => simp [prefixCi, ih]

/-- The two schemes have seven and eight bytes. -/
theorem isScheme_length {scheme : Bytes} :
    (scheme.map lowerByte = ascii "http://" → scheme.length = 7) ∧
      (scheme.map lowerByte = ascii "https://" → scheme.length = 8) := by
  constructor <;> intro h <;> have hlen := congrArg List.length h <;>
    rw [List.length_map] at hlen <;> exact hlen.trans (by decide)

/-- The length of the scheme, of a string that starts with one. -/
theorem schemeLen_scheme {scheme rest : Bytes} (h : IsScheme scheme) :
    schemeLen (scheme ++ rest) = scheme.length := by
  have hword : ∀ word : String, scheme.map lowerByte = ascii word →
      prefixCi (scheme ++ rest) (ascii word) = true := by
    intro word h
    have hlen : scheme.length = (ascii word).length := by
      rw [← h, List.length_map]
    rw [prefixCi_iff, ← hlen, List.take_left, h]
  unfold schemeLen
  rcases h with h | h
  · have hlen := isScheme_length.1 h
    have hsecure : ¬ prefixCi (scheme ++ rest) (ascii "https://") = true := by
      intro hsecure
      -- the first seven bytes tell the two schemes apart
      have hseven := congrArg (List.take 7) (prefixCi_iff.mp hsecure)
      rw [← List.map_take, List.take_take, show min 7 (ascii "https://").length = 7 by decide,
        ← hlen, List.take_left, h, hlen] at hseven
      exact absurd hseven (by decide)
    rw [if_neg hsecure, if_pos (hword _ h), hlen]
  · rw [if_pos (hword _ h), isScheme_length.2 h]

/-- A string with a scheme length starts with a scheme of that length. -/
theorem schemeLen_pos {url : Bytes} (h : schemeLen url ≠ 0) :
    IsScheme (url.take (schemeLen url)) ∧ schemeLen url ≤ url.length := by
  have hlong : ∀ word : String, prefixCi url (ascii word) = true →
      (ascii word).length ≤ url.length := by
    intro word hword
    have hlen := congrArg List.length (prefixCi_iff.mp hword)
    rw [List.length_map, List.length_take] at hlen
    omega
  unfold schemeLen at h ⊢
  split_ifs at h ⊢ with hsecure hplain
  · exact ⟨.inr (prefixCi_iff.mp hsecure), hlong _ hsecure⟩
  · exact ⟨.inl (prefixCi_iff.mp hplain), hlong _ hplain⟩
  · exact absurd rfl h

/-! ## Accepted strings -/

/-- No control byte, space, DEL, {lit}`#`, {lit}`?` or backslash anywhere. -/
def CleanUrl (url : Bytes) : Prop :=
  ∀ b ∈ url, 0x20 < b ∧ b ≠ 0x7F ∧ b ≠ 35 ∧ b ≠ 63 ∧ b ≠ 92

/-- A good byte is printable, and is none of the three that are refused. -/
theorem urlByteBad_iff (b : UInt8) :
    urlByteBad b = false ↔ 0x20 < b ∧ b ≠ 0x7F ∧ b ≠ 35 ∧ b ≠ 63 ∧ b ≠ 92 := by
  simp only [urlByteBad, Bool.or_eq_false_iff, decide_eq_false_iff_not, beq_eq_false_iff_ne,
    ne_eq, UInt8.not_le, and_assoc]

/-- The scan over the bytes finds a clean URL. -/
theorem cleanUrl_iff {url : Bytes} : CleanUrl url ↔ url.any urlByteBad = false := by
  rw [List.any_eq_false]
  exact forall₂_congr fun b _ => by rw [← urlByteBad_iff, Bool.not_eq_true]

/-- The accepted strings: a scheme, at least one byte that is no slash, and nothing bad. -/
theorem urlValidate_ok_iff {url : Bytes} :
    urlValidate (some url) = .ok ↔
      ∃ scheme b rest, url = scheme ++ b :: rest ∧ IsScheme scheme ∧ b ≠ chSlash ∧
        CleanUrl url := by
  rw [cleanUrl_iff]
  unfold urlValidate
  constructor
  · intro h
    dsimp only at h
    by_cases hscheme : schemeLen url = 0
    · rw [if_pos hscheme] at h
      cases h
    rw [if_neg hscheme] at h
    obtain ⟨hword, hlen⟩ := schemeLen_pos hscheme
    cases hget : url[schemeLen url]? with
    | none =>
        rw [hget] at h
        cases h
    | some b =>
        rw [hget] at h
        dsimp only at h
        split_ifs at h with hslash hbad
        refine ⟨url.take (schemeLen url), b, url.drop (schemeLen url + 1), ?_, hword, hslash,
          by simpa using hbad⟩
        obtain ⟨hlt, hb⟩ := List.getElem?_eq_some_iff.mp hget
        rw [← hb, ← List.drop_eq_getElem_cons hlt, List.take_append_drop]
  · rintro ⟨scheme, b, rest, rfl, hword, hslash, hclean⟩
    have hlen := @schemeLen_scheme scheme (b :: rest) hword
    have hpos : scheme.length ≠ 0 := by
      rcases hword with h | h <;> have hl := congrArg List.length h <;>
        rw [List.length_map] at hl <;> rw [hl] <;> decide
    have hget : (scheme ++ b :: rest)[scheme.length]? = some b := by simp
    dsimp only
    rw [hlen, if_neg hpos, hget]
    dsimp only
    rw [if_neg hslash, if_neg (by rw [hclean]; decide)]

/-! ## The documented grammar -/

/-- {lit}`':'`, in front of a port. -/
def chPort : UInt8 := 58

/-- The documented shape: a scheme, a host that is not empty, and nothing bad. -/
def BaseUrl (url : Bytes) : Prop :=
  (∃ scheme b rest, url = scheme ++ b :: rest ∧ IsScheme scheme ∧ b ≠ chSlash ∧ b ≠ chPort) ∧
    CleanUrl url

/-- A scheme, a port without a host, and nothing bad. -/
def PortOnly (url : Bytes) : Prop :=
  (∃ scheme rest, url = scheme ++ chPort :: rest ∧ IsScheme scheme) ∧ CleanUrl url

/-- A string starts with at most one scheme. -/
theorem scheme_unique {scheme scheme' rest rest' : Bytes} (h : IsScheme scheme)
    (h' : IsScheme scheme') (heq : scheme ++ rest = scheme' ++ rest') :
    scheme = scheme' ∧ rest = rest' := by
  refine List.append_inj heq ?_
  rw [← @schemeLen_scheme scheme rest h, heq, schemeLen_scheme h']

/-- A port without a host is accepted, and not of the documented shape. -/
theorem PortOnly.accepted {url : Bytes} (h : PortOnly url) :
    urlValidate (some url) = .ok ∧ ¬ BaseUrl url := by
  obtain ⟨⟨scheme, rest, heq, hscheme⟩, hclean⟩ := h
  refine ⟨urlValidate_ok_iff.mpr ⟨scheme, chPort, rest, heq, hscheme, by decide, hclean⟩, ?_⟩
  rintro ⟨⟨scheme', b, rest', heq', hscheme', -, hport⟩, -⟩
  have hsame := (scheme_unique hscheme hscheme' (heq.symm.trans heq')).2
  exact hport (List.cons.inj hsame).1.symm

/-- The base-URL grammar: of every string, acceptance and the documented shape agree, unless
the string has a port and no host. -/
theorem urlValidate_baseUrl_iff (url : Bytes) :
    (urlValidate (some url) = .ok ↔ BaseUrl url) ↔ ¬ PortOnly url := by
  constructor
  · intro hiff hport
    exact hport.accepted.2 (hiff.mp hport.accepted.1)
  · intro hport
    rw [urlValidate_ok_iff]
    constructor
    · rintro ⟨scheme, b, rest, heq, hscheme, hslash, hclean⟩
      refine ⟨⟨scheme, b, rest, heq, hscheme, hslash, ?_⟩, hclean⟩
      rintro rfl
      exact hport ⟨⟨scheme, rest, heq, hscheme⟩, hclean⟩
    · rintro ⟨⟨scheme, b, rest, heq, hscheme, hslash, -⟩, hclean⟩
      exact ⟨scheme, b, rest, heq, hscheme, hslash, hclean⟩

/-- A port without a host is accepted. -/
theorem urlValidate_portOnly :
    ¬ ∀ url, urlValidate (some url) = .ok ↔ BaseUrl url := by
  intro h
  have hport : PortOnly (ascii "http://:80") :=
    ⟨⟨ascii "http://", ascii "80", by decide, by decide⟩, cleanUrl_iff.mpr (by decide)⟩
  exact hport.accepted.2 ((h _).mp hport.accepted.1)

/-! ## The derived URLs -/

/-- A base URL in its parts: the scheme, the longest run of other bytes than slashes, and
the rest. -/
structure UrlParts (url scheme authority rest : Bytes) : Prop where
  split : url = scheme ++ authority ++ rest
  scheme : IsScheme scheme
  noSlash : chSlash ∉ authority
  maximal : rest = [] ∨ rest.head? = some chSlash

/-- What the two derived URLs keep of a base URL. -/
structure Derived (url scheme authority chat abort : Bytes) : Prop where
  /-- the base without its trailing slashes, and the path -/
  trimmed : ∃ base n, url = base ++ List.replicate n chSlash ∧ base.getLast? ≠ some chSlash ∧
    chat = base ++ ascii "/chat/completions"
  chatOrigin : scheme ++ authority ++ [chSlash] <+: chat
  abortOrigin : abort = scheme ++ authority ++ ascii "/api/extra/abort"
  chatClean : CleanUrl chat
  abortClean : CleanUrl abort

/-- Every accepted URL has its parts, and its authority is not empty. -/
theorem urlParts_exist {url : Bytes} (h : urlValidate (some url) = .ok) :
    ∃ scheme authority rest, UrlParts url scheme authority rest := by
  obtain ⟨scheme, b, rest, rfl, hscheme, -, -⟩ := urlValidate_ok_iff.mp h
  refine ⟨scheme, (b :: rest).takeWhile (· != chSlash), (b :: rest).dropWhile (· != chSlash),
    ?_, hscheme, ?_, ?_⟩
  · rw [List.append_assoc, List.takeWhile_append_dropWhile]
  · intro hmem
    have hne := List.mem_takeWhile_imp hmem
    simp at hne
  · rcases hdrop : (b :: rest).dropWhile (· != chSlash) with _ | ⟨c, tail⟩
    · exact .inl rfl
    · refine .inr ?_
      have hhead := List.head?_dropWhile_not (· != chSlash) (b :: rest)
      rw [hdrop] at hhead
      simpa using hhead

/-- The authority of an accepted URL is not empty, so nothing in front of the rest ends with a
slash. -/
theorem UrlParts.last {url scheme authority rest : Bytes} (h : UrlParts url scheme authority rest)
    (hok : urlValidate (some url) = .ok) (hne : scheme ++ authority ≠ []) :
    ¬ ((scheme ++ authority).getLast hne == chSlash) = true := by
  obtain ⟨scheme', b, rest', heq, hscheme', hslash, -⟩ := urlValidate_ok_iff.mp hok
  have hsplit := h.split
  rw [List.append_assoc] at hsplit
  have hrest := (scheme_unique h.scheme hscheme' (hsplit.symm.trans heq)).2
  have hauthority : authority ≠ [] := by
    rintro rfl
    rcases h.maximal with rfl | hhead
    · cases hrest
    · rw [show rest = b :: rest' from hrest] at hhead
      exact hslash (Option.some.inj hhead)
  rw [List.getLast_append_of_ne_nil hne hauthority, beq_iff_eq]
  intro hlast
  exact h.noSlash (hlast ▸ List.getLast_mem hauthority)

/-- Trimming from the right stops in front of what does not end with a slash. -/
theorem rdropWhile_append {p : UInt8 → Bool} {front : Bytes}
    (hlast : ∀ hne : front ≠ [], ¬ p (front.getLast hne) = true) (back : Bytes) :
    (front ++ back).rdropWhile p = front ++ back.rdropWhile p := by
  induction back using List.reverseRecOn with
  | nil =>
      rw [List.append_nil, List.rdropWhile_nil, List.append_nil]
      exact List.rdropWhile_eq_self_iff.mpr hlast
  | append_singleton back x ih =>
      rw [← List.append_assoc]
      by_cases hx : p x = true
      · rw [List.rdropWhile_concat_pos _ _ _ hx, List.rdropWhile_concat_pos _ _ _ hx, ih]
      · rw [List.rdropWhile_concat_neg _ _ _ hx, List.rdropWhile_concat_neg _ _ _ hx,
          List.append_assoc]

/-- Slashes at the end are dropped, however many. -/
theorem rdropWhile_slashes (base : Bytes) (n : Nat) :
    (base ++ List.replicate n chSlash).rdropWhile (· == chSlash) =
      base.rdropWhile (· == chSlash) := by
  induction n with
  | zero => rw [List.replicate_zero, List.append_nil]
  | succ n ih =>
      rw [List.replicate_succ', ← List.append_assoc, List.rdropWhile_concat_pos _ _ _ (by simp), ih]

/-- Two clean parts make a clean whole. -/
theorem CleanUrl.append {front back : Bytes} (hfront : CleanUrl front) (hback : CleanUrl back) :
    CleanUrl (front ++ back) := by
  intro b hb
  rcases List.mem_append.mp hb with hb | hb
  · exact hfront b hb
  · exact hback b hb

/-- The origin is the scheme and the authority. -/
theorem UrlParts.urlOrigin {url scheme authority rest : Bytes}
    (h : UrlParts url scheme authority rest) : urlOrigin url = scheme ++ authority := by
  have hsplit := h.split
  rw [List.append_assoc] at hsplit
  have hrest : rest.takeWhile (· != chSlash) = [] := by
    rcases h.maximal with rfl | hhead
    · rfl
    · obtain ⟨tail, rfl⟩ := List.head?_eq_some_iff.mp hhead
      simp
  unfold Sicha.urlOrigin
  rw [hsplit, schemeLen_scheme h.scheme, List.take_left, List.drop_left,
    List.takeWhile_append_of_pos, hrest, List.append_nil]
  intro b hb
  simpa using fun heq : b = chSlash => h.noSlash (heq ▸ hb)

/-- The two URLs derived from an accepted one. -/
theorem UrlParts.derived {url scheme authority rest : Bytes}
    (h : UrlParts url scheme authority rest) (hok : urlValidate (some url) = .ok) :
    Derived url scheme authority (urlJoin url (ascii "/chat/completions"))
      (urlJoin (Sicha.urlOrigin url) (ascii "/api/extra/abort")) := by
  have hclean : CleanUrl url := by
    obtain ⟨_, _, _, _, _, _, hclean⟩ := urlValidate_ok_iff.mp hok
    exact hclean
  have hbase : url.rdropWhile (· == chSlash) =
      scheme ++ authority ++ rest.rdropWhile (· == chSlash) := by
    rw [h.split]
    exact rdropWhile_append (h.last hok) rest
  have horigin : (scheme ++ authority).rdropWhile (· == chSlash) = scheme ++ authority :=
    List.rdropWhile_eq_self_iff.mpr (h.last hok)
  have hfront : CleanUrl (scheme ++ authority) := by
    intro b hb
    exact hclean b (h.split ▸ List.mem_append_left rest hb)
  refine
    { trimmed := ⟨url.rdropWhile (· == chSlash), (url.rtakeWhile (· == chSlash)).length, ?_, ?_,
        rfl⟩
      chatOrigin := ?_
      abortOrigin := ?_
      chatClean := ?_
      abortClean := ?_ }
  · have hslashes : url.rtakeWhile (· == chSlash) =
        List.replicate (url.rtakeWhile (· == chSlash)).length chSlash :=
      List.eq_replicate_of_mem fun b hb => by simpa using List.mem_rtakeWhile_imp hb
    rw [← hslashes, List.rdropWhile_append_rtakeWhile]
  · intro hlast
    have hne : url.rdropWhile (· == chSlash) ≠ [] := by
      intro hnil
      rw [hnil] at hlast
      cases hlast
    have hnot := List.rdropWhile_last_not (· == chSlash) url hne
    rw [List.getLast?_eq_some_getLast hne, Option.some.injEq] at hlast
    rw [hlast] at hnot
    simp at hnot
  · unfold urlJoin
    rw [hbase, List.append_assoc (scheme ++ authority), List.prefix_append_right_inj]
    rcases hrest : rest.rdropWhile (· == chSlash) with _ | ⟨c, tail⟩
    · exact ⟨ascii "chat/completions", by decide⟩
    · have hprefix := List.rdropWhile_prefix (· == chSlash) (l := rest)
      rw [hrest] at hprefix
      obtain ⟨slashes, hslashes⟩ := hprefix
      rcases h.maximal with rfl | hhead
      · cases hslashes
      · rw [← hslashes] at hhead
        obtain rfl : c = chSlash := Option.some.inj hhead
        exact ⟨tail ++ ascii "/chat/completions", rfl⟩
  · unfold urlJoin
    rw [h.urlOrigin, horigin]
  · refine CleanUrl.append (fun b hb => ?_) (cleanUrl_iff.mpr (by decide))
    exact hclean b ((List.rdropWhile_prefix (· == chSlash) url).subset hb)
  · unfold urlJoin
    rw [h.urlOrigin, horigin]
    exact hfront.append (cleanUrl_iff.mpr (by decide))

/-- Further slashes at the end are accepted too, and change neither of the two URLs. -/
theorem UrlParts.slashes {url scheme authority rest : Bytes}
    (h : UrlParts url scheme authority rest) (n : Nat) :
    UrlParts (url ++ List.replicate n chSlash) scheme authority
      (rest ++ List.replicate n chSlash) where
  split := by rw [h.split, List.append_assoc]
  scheme := h.scheme
  noSlash := h.noSlash
  maximal := by
    rcases h.maximal with rfl | hhead
    · cases n with
      | zero => exact .inl rfl
      | succ n => exact .inr rfl
    · obtain ⟨tail, rfl⟩ := List.head?_eq_some_iff.mp hhead
      exact .inr rfl

/-- Slashes at the end do not make a URL invalid. -/
theorem urlValidate_slashes {url : Bytes} (h : urlValidate (some url) = .ok) (n : Nat) :
    urlValidate (some (url ++ List.replicate n chSlash)) = .ok := by
  obtain ⟨scheme, b, rest, rfl, hscheme, hslash, hclean⟩ := urlValidate_ok_iff.mp h
  refine urlValidate_ok_iff.mpr ⟨scheme, b, rest ++ List.replicate n chSlash, ?_, hscheme, hslash,
    hclean.append ?_⟩
  · rw [List.append_assoc, List.cons_append]
  · intro c hc
    rw [List.eq_of_mem_replicate hc]
    decide

/-- URL derivation: the chat URL and the abort URL of a backend keep the scheme and the authority
of its base URL, and slashes at the end of the base URL change neither. -/
theorem backendInit_urls {w : Type} (url : Bytes) (h : urlValidate (some url) = .ok) :
    ∃ chat abort, (∃ scheme authority rest, UrlParts url scheme authority rest) ∧
      (∀ scheme authority rest, UrlParts url scheme authority rest →
        Derived url scheme authority chat abort) ∧
      ∀ n, urlValidate (some (url ++ List.replicate n chSlash)) = .ok ∧
        ∀ (Y : Yyjson) (H : Heap w) (d : BackendDesc) (s s' : w) (b : Backend),
          d.baseUrl = some (url ++ List.replicate n chSlash) →
          (backendInit Y H d).exec s = (.ok b, s') →
          b.urlChat = chat ∧
            b.urlAbort = if d.flags &&& backendKoboldCancelAssist ≠ 0 then some abort else none := by
  refine ⟨urlJoin url (ascii "/chat/completions"),
    urlJoin (urlOrigin url) (ascii "/api/extra/abort"), urlParts_exist h,
    fun scheme authority rest hparts => hparts.derived h, fun n => ⟨urlValidate_slashes h n, ?_⟩⟩
  intro Y H d s s' b hurl hinit
  obtain ⟨url', model, headers, hcheck, rfl⟩ := (backendInit_described Y H d).value hinit
  have hsame : url' = url ++ List.replicate n chSlash :=
    Option.some.inj ((backendDescCheck_some hcheck).1.symm.trans hurl)
  obtain ⟨scheme, authority, rest, hparts⟩ := urlParts_exist h
  subst hsame
  refine ⟨?_, ?_⟩
  · change urlJoin _ _ = _
    unfold urlJoin
    rw [rdropWhile_slashes]
  · change (if _ then some (urlJoin (urlOrigin _) _) else none) = _
    rw [(hparts.slashes n).urlOrigin, hparts.urlOrigin]

/-- A description whose base URL ends in slashes. -/
def slashDesc : BackendDesc where
  structSizeOk := true
  baseUrl := some (ascii "HTTP://h:1/v1//")
  apiKey := none
  model := some (ascii "m")
  extraHeaders := .null 0
  extraBodyJson := none
  timeouts := ⟨0, 0, 0, 0⟩
  flags := backendKoboldCancelAssist

/-- A URL with a capital scheme and slashes at its end. -/
theorem backendInit_urls_slashes :
    ∃ b, (backendInit (plainYyjson [] .null) Heap.plentiful slashDesc).exec () = (.ok b, ()) ∧
      ∃ abort, b.urlAbort = some abort ∧
        Derived (ascii "HTTP://h:1/v1") (ascii "HTTP://") (ascii "h:1") b.urlChat abort := by
  obtain ⟨chat, abort, -, hderived, hslashes⟩ := @backendInit_urls Unit (ascii "HTTP://h:1/v1")
    (by decide)
  obtain ⟨hchat, habort⟩ := (hslashes 2).2 (plainYyjson [] .null) Heap.plentiful slashDesc () _ _
    (by decide) rfl
  refine ⟨_, rfl, abort, habort, ?_⟩
  · rw [hchat]
    exact hderived _ _ (ascii "/v1") ⟨by decide, by decide, by decide, .inr (by decide)⟩

end Sicha
