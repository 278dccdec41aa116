import MusicImport.Proofs.Journal.Entry

/-! The lines of a journal as bytes. A line end is a byte of its own, so what was torn off inside of a
character still shows where the last complete line ends; as a text it can only be read if it was torn
off between two characters. -/
namespace MusicImport

namespace Text

theorem toList_loop (bs : ByteArray) (i : Nat) (r : List UInt8) :
    ByteArray.toList.loop bs i r = r.reverse ++ bs.data.toList.drop i := by
  fun_induction ByteArray.toList.loop bs i r with
  | case1 i r hi ih =>
    have hlength : i < bs.data.toList.length := by simpa using hi
    have hget : bs.get! i = bs.data.toList[i] := by
      rw [Array.getElem_toList]
      exact getElem!_pos bs.data i hi
    rw [ih, List.drop_eq_getElem_cons hlength, hget]
    simp
  | case2 i r hi =>
    have hlength : bs.data.toList.length ≤ i := by simpa using hi
    rw [List.drop_eq_nil_of_le hlength, List.append_nil]

theorem toList_byteArray (bs : ByteArray) : bs.toList = bs.data.toList := by
  simp [ByteArray.toList, toList_loop]

/-- The bytes of a text are those of its characters. -/
theorem toUTF8_toList (cs : List Char) :
    (String.ofList cs).toUTF8.toList = cs.flatMap String.utf8EncodeChar := by
  rw [toList_byteArray, String.toUTF8_eq_toByteArray, String.toByteArray_ofList, List.utf8Encode]
  simp

theorem toByteArray_ofList (cs : List Char) :
    (String.ofList cs).toByteArray = ⟨(cs.flatMap String.utf8EncodeChar).toArray⟩ := by
  rw [← toUTF8_toList, toList_byteArray, String.toUTF8_eq_toByteArray]

/-- Characters whose bytes come first come first. -/
theorem prefix_of_utf8_append {cs ds : List Char} {bs : List UInt8}
    (h : cs.flatMap String.utf8EncodeChar ++ bs = ds.flatMap String.utf8EncodeChar) : cs <+: ds := by
  refine List.isPrefix_of_utf8Encode_append_eq_utf8Encode ⟨bs.toArray⟩ ?_
  rw [← String.toByteArray_ofList, ← String.toByteArray_ofList, toByteArray_ofList,
    toByteArray_ofList, ← h]
  ext1
  simp

/-- The text of bytes, if they are one. -/
theorem fromUTF8?_eq_some {bs : ByteArray} {s : String} :
    String.fromUTF8? bs = some s ↔ bs = s.toByteArray := by
  unfold String.fromUTF8?
  split
  next h =>
    constructor
    · intro hs
      cases hs
      rfl
    · rintro rfl
      rfl
  next h =>
    constructor
    · intro hs
      cases hs
    · rintro rfl
      exact absurd s.isValidUTF8 h

/-- A boundary between two characters, in the bytes of a text. -/
theorem isValid_iff_take {cs : List Char} {k : Nat} :
    (String.Pos.Raw.mk k).IsValid (String.ofList cs) ↔
      ∃ i, k = ((cs.take i).flatMap String.utf8EncodeChar).length := by
  rw [String.Pos.Raw.isValid_ofList]
  refine exists_congr fun i => ?_
  rw [← String.size_toByteArray, toByteArray_ofList]
  rfl

theorem ofNat_eq_newline {n : Nat} (h : n < 256) : 10 = UInt8.ofNat n ↔ n = 10 := by
  constructor
  · intro hn
    have hvalue := congrArg UInt8.toNat hn
    rw [UInt8.toNat_ofNat'] at hvalue
    have : (10 : UInt8).toNat = 10 := rfl
    omega
  · rintro rfl
    rfl

/-- No part of another character looks like a line end. -/
theorem newline_mem_utf8EncodeChar {c : Char} : 10 ∈ String.utf8EncodeChar c ↔ c = '\n' := by
  constructor
  · intro h
    have hvalue : c.val.toNat = 10 := by
      unfold String.utf8EncodeChar at h
      simp only at h
      split at h
      · rw [List.mem_singleton, ofNat_eq_newline (by omega)] at h
        exact h
      · split at h
        · simp only [List.mem_cons, List.not_mem_nil, or_false] at h
          rw [ofNat_eq_newline (by omega), ofNat_eq_newline (by omega)] at h
          omega
        · split at h
          · simp only [List.mem_cons, List.not_mem_nil, or_false] at h
            rw [ofNat_eq_newline (by omega), ofNat_eq_newline (by omega),
              ofNat_eq_newline (by omega)] at h
            omega
          · simp only [List.mem_cons, List.not_mem_nil, or_false] at h
            rw [ofNat_eq_newline (by omega), ofNat_eq_newline (by omega),
              ofNat_eq_newline (by omega), ofNat_eq_newline (by omega)] at h
            omega
    exact Char.toNat_inj.mp hvalue
  · rintro rfl
    decide

end Text

namespace ResumeEntry

/-- The bytes that are written for an entry. -/
def bytes (e : ResumeEntry) : List UInt8 := (String.ofList e.line).toUTF8.toList

theorem bytes_eq (e : ResumeEntry) :
    e.bytes = e.toJson.print.flatMap String.utf8EncodeChar ++ [10] := by
  rw [bytes, Text.toUTF8_toList, line, List.flatMap_append]
  rfl

theorem flatMap_bytes (es : List ResumeEntry) :
    es.flatMap bytes = (es.flatMap line).flatMap String.utf8EncodeChar := by
  induction es with
  | nil => rfl
  | cons e es ih =>
    rw [List.flatMap_cons, List.flatMap_cons, List.flatMap_append, ih, bytes, Text.toUTF8_toList]

theorem newline_not_mem_take {e : ResumeEntry} {k : Nat} (hk : k < e.bytes.length) :
    10 ∉ e.bytes.take k := by
  have hchars : 10 ∉ e.toJson.print.flatMap String.utf8EncodeChar := by
    intro h
    obtain ⟨c, hc, hbyte⟩ := List.mem_flatMap.mp h
    exact e.newline_not_mem_print (Text.newline_mem_utf8EncodeChar.mp hbyte ▸ hc)
  rw [bytes_eq, List.length_append, List.length_singleton] at hk
  rw [bytes_eq, List.take_append_of_le_length (by omega)]
  exact fun h => hchars (List.mem_of_mem_take h)

end ResumeEntry

namespace JournalWriter

/-- Up to the last line end: lines, and nothing of what follows without one. -/
theorem completeLines_append {lines tail : List UInt8} (hlines : lines = [] ∨ lines.getLast? = some 10)
    (htail : 10 ∉ tail) : completeLines (lines ++ tail) = lines := by
  have hskip : ∀ b ∈ tail.reverse, (b != 10) = true := by
    intro b hb
    have : b ≠ 10 := by
      rintro rfl
      exact htail (List.mem_reverse.mp hb)
    simpa using this
  unfold completeLines
  rw [List.reverse_append, List.dropWhile_append_of_pos hskip]
  obtain rfl | hlast := hlines
  · rfl
  · obtain ⟨init, rfl⟩ := List.getLast?_eq_some_iff.mp hlast
    simp

theorem endsLine (es : List ResumeEntry) :
    es.flatMap ResumeEntry.bytes = [] ∨ (es.flatMap ResumeEntry.bytes).getLast? = some 10 := by
  obtain rfl | ⟨init, last, rfl⟩ := es.eq_nil_or_concat
  · exact .inl rfl
  · right
    simp [ResumeEntry.bytes_eq]

theorem completeLines_torn (es : List ResumeEntry) {e : ResumeEntry} {k : Nat}
    (hk : k < e.bytes.length) :
    completeLines (es.flatMap ResumeEntry.bytes ++ e.bytes.take k) =
      es.flatMap ResumeEntry.bytes :=
  completeLines_append (endsLine es) (ResumeEntry.newline_not_mem_take hk)

end JournalWriter

namespace JournalSnapshot

variable (es : List ResumeEntry) {e : ResumeEntry} {k : Nat}

/-- What was torn off a line between two characters is a text without a line end. -/
theorem fromUTF8?_torn (hk : k < e.bytes.length)
    (hvalid : (String.Pos.Raw.mk k).IsValid (String.ofList e.line)) :
    ∃ tail, '\n' ∉ tail ∧
      String.fromUTF8? ⟨(es.flatMap ResumeEntry.bytes ++ e.bytes.take k).toArray⟩ =
        some (String.ofList (es.flatMap ResumeEntry.line ++ tail)) := by
  obtain ⟨i, hi⟩ := Text.isValid_iff_take.mp hvalid
  have htorn : e.bytes.take k = (e.line.take i).flatMap String.utf8EncodeChar := by
    have hcut : e.bytes = (e.line.take i).flatMap String.utf8EncodeChar ++
        (e.line.drop i).flatMap String.utf8EncodeChar := by
      rw [← List.flatMap_append, List.take_append_drop, ResumeEntry.bytes, Text.toUTF8_toList]
    rw [hcut, hi, List.take_left]
  refine ⟨e.line.take i, fun hmem => ?_, ?_⟩
  · refine ResumeEntry.newline_not_mem_take hk ?_
    rw [htorn]
    exact List.mem_flatMap.mpr ⟨'\n', hmem, Text.newline_mem_utf8EncodeChar.mpr rfl⟩
  · rw [Text.fromUTF8?_eq_some, Text.toByteArray_ofList, List.flatMap_append, htorn,
      ResumeEntry.flatMap_bytes]

/-- What was torn off inside of a character makes the bytes no text. -/
theorem fromUTF8?_torn_eq_none (hk : k < e.bytes.length)
    (hvalid : ¬ (String.Pos.Raw.mk k).IsValid (String.ofList e.line)) :
    String.fromUTF8? ⟨(es.flatMap ResumeEntry.bytes ++ e.bytes.take k).toArray⟩ = none := by
  rw [Option.eq_none_iff_forall_ne_some]
  intro s hs
  obtain ⟨cs, rfl⟩ := s.exists_eq_ofList
  have hbytes : es.flatMap ResumeEntry.bytes ++ e.bytes.take k =
      cs.flatMap String.utf8EncodeChar := by
    have harray := Text.fromUTF8?_eq_some.mp hs
    rw [Text.toByteArray_ofList] at harray
    simpa using congrArg ByteArray.data harray
  rw [ResumeEntry.flatMap_bytes] at hbytes
  obtain ⟨tail, rfl⟩ := Text.prefix_of_utf8_append hbytes
  rw [List.flatMap_append, List.append_cancel_left_eq] at hbytes
  have hline : tail.flatMap String.utf8EncodeChar ++ e.bytes.drop k =
      e.line.flatMap String.utf8EncodeChar := by
    rw [← hbytes, List.take_append_drop, ResumeEntry.bytes, Text.toUTF8_toList]
  obtain ⟨rest, hrest⟩ := Text.prefix_of_utf8_append hline
  -- the bytes that were written end where the characters that they hold do
  refine hvalid (Text.isValid_iff_take.mpr ⟨tail.length, ?_⟩)
  rw [← hrest, List.take_left, ← hbytes, List.length_take, Nat.min_eq_left hk.le]

end JournalSnapshot
end MusicImport
