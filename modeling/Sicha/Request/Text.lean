import Sicha.Base
import Mathlib.Data.List.DropRight

/-!
# Text the client accepts

The checks of {lit}`request.c` on text that a caller supplies: strict UTF-8, base
URLs, header names and header values, and the two URL derivations.

Main results:

- Definitions {lit}`utf8Valid`, {lit}`urlValidate` and {lit}`headerValidate`.
-/

namespace Sicha

/-! ## UTF-8 -/

/-- A continuation byte. -/
def isCont (b : UInt8) : Bool :=
  b &&& 0xC0 == 0x80

/-- {lit}`sicha_utf8_valid`. -/
def utf8Valid : Bytes → Bool
  | [] => true
  | b :: rest =>
      if b < 0x80 then utf8Valid rest
      else if b < 0xC2 then false -- continuation byte or overlong lead
      else if b < 0xE0 then
        match rest with
        | b1 :: rest => if isCont b1 then utf8Valid rest else false
        | _ => false
      else if b < 0xF0 then
        let lo := if b = 0xE0 then 0xA0 else 0x80 -- no overlongs
        let hi := if b = 0xED then 0x9F else 0xBF -- no surrogates
        match rest with
        | b1 :: b2 :: rest =>
            if b1 < lo ∨ b1 > hi ∨ isCont b2 = false then false else utf8Valid rest
        | _ => false
      else if b < 0xF5 then
        let lo := if b = 0xF0 then 0x90 else 0x80 -- no overlongs
        let hi := if b = 0xF4 then 0x8F else 0xBF -- at most U+10FFFF
        match rest with
        | b1 :: b2 :: b3 :: rest =>
            if b1 < lo ∨ b1 > hi ∨ isCont b2 = false ∨ isCont b3 = false then false
            else utf8Valid rest
        | _ => false
      else false -- never appears in UTF-8

example : utf8Valid [0xE2, 0x82, 0xAC] = true ∧ utf8Valid [0xED, 0xA0, 0x80] = false := by
  decide

/-! ## URLs -/

/-- An ASCII capital in lower case. -/
def lowerByte (b : UInt8) : UInt8 :=
  if b ≥ 65 ∧ b ≤ 90 then b - 65 + 97 else b

/-- {lit}`prefix_ci`: only the string is folded to lower case. -/
def prefixCi : Bytes → Bytes → Bool
  | _, [] => true
  | a :: s, b :: rest => lowerByte a == b && prefixCi s rest
  | [], _ :: _ => false

/-- {lit}`scheme_len`, 0 if bad. -/
def schemeLen (url : Bytes) : Nat :=
  if prefixCi url (ascii "https://") then 8
  else if prefixCi url (ascii "http://") then 7
  else 0

/-- {lit}`'/'`. -/
def chSlash : UInt8 := 47

/-- The bytes that no URL may hold. -/
def urlByteBad (b : UInt8) : Bool :=
  b ≤ 0x20 || b == 0x7F || b == 35 || b == 63 || b == 92

/-- {lit}`sicha_url_validate`. -/
def urlValidate (baseUrl : Option Bytes) : Status :=
  match baseUrl with
  | none => .invalidArg
  | some url =>
      if schemeLen url = 0 then .invalidArg
      else
        match url[schemeLen url]? with
        | none => .invalidArg -- empty host
        | some b =>
            if b = chSlash then .invalidArg -- empty host
            else if url.any urlByteBad then .invalidArg
            else .ok

/-- {lit}`sicha_url_join`: the base without trailing slashes, and the path. -/
def urlJoin (baseUrl path : Bytes) : Bytes :=
  baseUrl.rdropWhile (· == chSlash) ++ path

/-- {lit}`sicha_url_origin`: the scheme and the authority. -/
def urlOrigin (baseUrl : Bytes) : Bytes :=
  baseUrl.take (schemeLen baseUrl) ++
    (baseUrl.drop (schemeLen baseUrl)).takeWhile (· != chSlash)

/-! ## Headers -/

/-- {lit}`sicha_header_name_eq`. -/
def headerNameEq : Bytes → Bytes → Bool
  | a :: as, b :: bs => lowerByte a == lowerByte b && headerNameEq as bs
  | [], [] => true
  | _, _ => false

/-- {lit}`is_token_char`. -/
def isTokenChar (b : UInt8) : Bool :=
  (b ≥ 97 && b ≤ 122) || (b ≥ 65 && b ≤ 90) || (b ≥ 48 && b ≤ 57) ||
    (ascii "!#$%&'*+-.^_\x60|~").contains b

/-- {lit}`value_bytes_ok`: no control bytes but the tab, and no DEL. -/
def valueBytesOk (v : Bytes) : Bool :=
  v.all fun b => !((b < 0x20 && b != 9) || b == 0x7F)

/-- {lit}`sicha_header_validate`. -/
def headerValidate (name value : Option Bytes) : Status :=
  match name, value with
  | some name, some value =>
      if name = [] then .invalidArg
      else if name.all isTokenChar && valueBytesOk value then .ok
      else .invalidArg
  | _, _ => .invalidArg

end Sicha
