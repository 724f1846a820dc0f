import Sicha.Sse

/-!
# The caps of the parser

Whatever it is fed, and whatever its callback does, the line and the pending event of the
parser stay within {lit}`max_event_bytes`.

Main results:

- Theorems {lit}`sseFeed_capped` and {lit}`sseFinish_capped`: every call into the parser
  keeps its buffers within their cap.
-/

namespace Sicha

variable [SizeT] {w : Type}

/-- The two buffers of the parser are within their cap. -/
structure Sse.Capped (p : Sse) (cap : Nat) : Prop where
  line : p.line.Capped cap
  data : p.data.Capped cap

/-- A new parser keeps to its cap. -/
theorem sseInit_capped (cap : Nat) : (sseInit cap).Capped cap :=
  ⟨bufInit_capped cap, bufInit_capped cap⟩

/-- A check keeps to the cap. -/
theorem sseCheckBufs_capped {p : Sse} {cap : Nat} (h : p.Capped cap) :
    (sseCheckBufs p).2.Capped cap := by
  unfold sseCheckBufs
  split_ifs <;> exact ⟨h.line, h.data⟩

section Step

variable {cap : Nat} (hcap : 0 < cap) (H : Heap w) (f : Option (OnEvent w))

include hcap

/-- A value that is collected keeps to the cap. -/
theorem sseCollect_capped {p : Sse} (h : p.Capped cap) (value : Bytes) (s : w) :
    (sseCollect H p value s).2.1.Capped cap := by
  have hjoin : (sseJoin H p s).1.Capped cap := by
    unfold sseJoin
    split_ifs
    · exact bufAppend_capped hcap h.data H [chLF] s
    · exact h.data
  exact sseCheckBufs_capped ⟨h.line, bufAppend_capped hcap hjoin H value _⟩

/-- So does a line. -/
theorem sseLine_capped {p : Sse} (h : p.Capped cap) (line : Bytes) (s : w) :
    (sseLine H f p line s).2.1.Capped cap := by
  unfold sseLine sseDispatch
  split_ifs
  · exact ⟨h.line, bufReset_capped h.data⟩
  · exact h
  · exact h
  · exact sseCollect_capped hcap H h _ s
  · exact h

/-- So does a byte behind the mark. -/
theorem sseChar_capped (ch : UInt8) {p : Sse} (h : p.Capped cap) (s : w) :
    (sseChar H f ch p s).2.1.Capped cap := by
  have hline := sseLine_capped hcap H f (p := { p with lastWasCr := false }) ⟨h.line, h.data⟩
    p.line.bytes s
  have hended := bufReset_capped hline.line
  unfold sseChar
  dsimp only
  split_ifs
  · exact ⟨h.line, h.data⟩
  · exact ⟨hended, hline.data⟩
  · exact ⟨hended, hline.data⟩
  · exact ⟨hended, hline.data⟩
  · exact sseCheckBufs_capped ⟨bufAppend_capped hcap h.line H [ch] s, h.data⟩
  · exact sseCheckBufs_capped ⟨bufAppend_capped hcap h.line H [ch] s, h.data⟩

/-- So does any byte. -/
theorem sseByte_capped (ch : UInt8) {ps : Sse × w} (h : ps.1.Capped cap) :
    (sseByte H f ch ps).2.1.Capped cap := by
  have hheld := @sseCheckBufs_capped _ { ps.1 with
    line := (bufAppend H ps.1.line (bom.take ps.1.bomSeen) ps.2).1, bomSeen := 0,
    bomDecided := true } cap ⟨bufAppend_capped hcap h.line H _ _, h.data⟩
  unfold sseByte
  dsimp only
  split_ifs
  · exact sseChar_capped hcap H f ch h _
  · exact ⟨h.line, h.data⟩
  · exact sseChar_capped hcap H f ch hheld _
  · exact hheld

/-- A chunk keeps the parser within its cap. -/
theorem sseFeed_capped {p : Sse} (h : p.Capped cap) (bytes : Bytes) (s : w) :
    (sseFeed H f p bytes s).2.1.Capped cap := by
  by_cases hp : p.err = .ok
  · rw [sseFeed_eq_run H f bytes hp]
    have hrun := @StopFold.run_spec _ _ _ _ _ (sseByte H f) (fun ps => ps.1.Capped cap)
      (fun _ ps => ps.1.Capped cap)
      (fun ch ps hps => ⟨fun _ => sseByte_capped hcap H f ch hps,
        fun _ => sseByte_capped hcap H f ch hps⟩) bytes (p, s) h
    by_cases hzero : (StopFold.run (sseByte H f) bytes (p, s)).1 = 0
    · exact hrun.1 hzero
    · exact hrun.2 hzero
  · unfold sseFeed
    rw [if_pos hp]
    exact h

/-- The end of input keeps the parser within its cap. -/
theorem sseFinish_capped {p : Sse} (h : p.Capped cap) (s : w) :
    (sseFinish H f p s).2.1.Capped cap := by
  have hheld : (sseHeld H p s).1.Capped cap := by
    unfold sseHeld
    split_ifs
    · exact ⟨bufAppend_capped hcap h.line H _ s, h.data⟩
    · exact ⟨h.line, h.data⟩
  have htail : (sseTail H f (sseHeld H p s).1 (sseHeld H p s).2).2.1.Capped cap := by
    have hline := sseLine_capped hcap H f hheld (sseHeld H p s).1.line.bytes (sseHeld H p s).2
    unfold sseTail
    split_ifs
    · exact ⟨bufReset_capped hline.line, hline.data⟩
    · exact hheld
  have hlast := sseLine_capped hcap H f htail []
    (sseTail H f (sseHeld H p s).1 (sseHeld H p s).2).2.2
  unfold sseFinish
  dsimp only
  split_ifs
  · exact h
  · exact htail
  · exact hlast
  · exact hlast
  · exact hlast

end Step

end Sicha
