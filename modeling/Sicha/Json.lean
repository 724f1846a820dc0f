import Sicha.Buf
import Sicha.Lib.Fallible

/-!
# JSON trees

The part of yyjson that the client uses.  The reader and the writer are foreign
code and enter as a parameter; the accessors and the mutable-tree operations are
the documented ones.  Every yyjson call that may allocate asks the heap.

Main results:

- Definition {lit}`Yyjson`: the reader and the writer.
- Definition {lit}`Json.get?`: {lit}`yyjson_obj_get`, the first member of a name.
-/

namespace Sicha

/-- A JSON value as yyjson types it.  A {lit}`real` is given by the bits of its
double. -/
inductive Json where
  | null
  | bool (b : Bool)
  | uint (n : UInt64)
  | sint (n : Int64)
  | real (bits : UInt64)
  | str (s : Bytes)
  | arr (items : List Json)
  | obj (members : List (Bytes × Json))

/-- {lit}`yyjson_is_obj`. -/
def Json.isObj : Json → Bool
  | .obj _ => true
  | _ => false

/-- {lit}`yyjson_is_arr`. -/
def Json.isArr : Json → Bool
  | .arr _ => true
  | _ => false

/-- {lit}`yyjson_obj_get`: the first member of that name, if the value is an object. -/
def Json.get? (v : Json) (key : Bytes) : Option Json :=
  match v with
  | .obj members => (members.find? fun m => m.1 == key).map Prod.snd
  | _ => none

/-- {lit}`yyjson_get_str` with {lit}`yyjson_get_len`, of a string. -/
def Json.str? : Json → Option Bytes
  | .str s => some s
  | _ => none

/-- {lit}`yyjson_arr_get_first`, of a non-empty array. -/
def Json.first? : Json → Option Json
  | .arr (v :: _) => some v
  | _ => none

/-- The string under a name, when the member is a string. -/
def Json.getStr? (v : Json) (key : Bytes) : Option Bytes :=
  (v.get? key).bind Json.str?

/-- {lit}`yyjson_get_sint` of a number: an integer as {lit}`int64_t`, a real as 0. -/
def Json.sint? : Json → Option Int
  | .uint n => some n.toInt64.toInt
  | .sint n => some n.toInt
  | .real _ => some 0
  | _ => none

/-- The reader and the writer.  The reader refuses malformed text, the writer a tree
it cannot encode. -/
structure Yyjson where
  read : Bytes → Option Json
  write : Json → Option Bytes

/-- The bytes asked for by one allocating call of yyjson; its true size is the
library's business. -/
def yyjsonChunk : Nat := 1

/-- {lit}`yyjson_read`: NULL for malformed text and for a refused allocation. -/
def yyjsonRead {w : Type} (Y : Yyjson) (H : Heap w) (text : Bytes) (s : w) :
    Option Json × w :=
  if (H.alloc yyjsonChunk s).1 then (Y.read text, (H.alloc yyjsonChunk s).2)
  else (none, (H.alloc yyjsonChunk s).2)

/-- A read changes the environment only through the allocator. -/
theorem yyjsonRead_keeps {w : Type} (Y : Yyjson) {H : Heap w} {P : w → Prop}
    (halloc : ∀ n s, P s → P (H.alloc n s).2) (text : Bytes) {s : w} (hs : P s) :
    P (yyjsonRead Y H text s).2 := by
  unfold yyjsonRead
  split_ifs <;> exact halloc _ s hs

/-- What a read brings is the tree of the text. -/
theorem yyjsonRead_some {w : Type} {Y : Yyjson} {H : Heap w} {text : Bytes} {s s' : w} {root : Json}
    (h : yyjsonRead Y H text s = (some root, s')) : Y.read text = some root := by
  unfold yyjsonRead at h
  split_ifs at h
  · exact congrArg Prod.fst h
  · cases h

/-- The body of a plain request, as a streaming call writes it. -/
def plainBody : Bytes :=
  ascii "\x7b\"model\":\"m\",\"messages\":[\x7b\"role\":\"user\",\"content\":\"hi\"\x7d],\"stream\":true\x7d"

/-- A reader that knows one text, and a writer of the plain body. -/
def plainYyjson (text : Bytes) (tree : Json) : Yyjson where
  read t := if t = text then some tree else none
  write _ := some plainBody

end Sicha
