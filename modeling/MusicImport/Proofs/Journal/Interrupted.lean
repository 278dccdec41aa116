import MusicImport.Proofs.Files.Parents
import MusicImport.Proofs.Journal.Bytes

/-! A journal after an interrupted append. Opening it drops the torn line, and what is appended then
follows the complete lines. Reading it passes the torn line over, unless it was torn off inside of a
character: then the file is no text, and nothing of it can be read. -/
namespace MusicImport

namespace FileTree

variable {t : FileTree} {path : FilePath}

/-- A file that can be read can be written, and then read with its new content. -/
theorem read_of_write {c : ByteArray} (h : t.read path = .ok c) (d : ByteArray) :
    ∃ q, t.locate path = .ok q ∧ t.write path d = .ok (t.put q (.file d)) ∧
      (t.put q (.file d)).read path = .ok d := by
  obtain ⟨q, hq, -, hwrite⟩ := write_of_read h d
  exact ⟨q, hq, hwrite, read_of_write_ok hwrite⟩

theorem readText_ok {bs : ByteArray} (h : t.read path = .ok bs) :
    t.readText path =
      match String.fromUTF8? bs with
      | some s => .ok s
      | none => .error .notText := by
  unfold readText
  rw [h]
  simp only [Bind.bind, Except.bind]
  cases String.fromUTF8? bs <;> rfl

end FileTree

namespace JournalWriter

variable {t : FileTree} {path : FilePath}

/-- Opens a journal that is there: what follows its last line end is dropped. -/
theorem openAt_of_read (hw : t.WellFormed) {bs : List UInt8} (h : t.read path = .ok ⟨bs.toArray⟩) :
    ∃ t', openAt t path = (.ok ⟨path, (completeLines bs).length⟩, t') ∧
      t'.read path = .ok ⟨(completeLines bs).toArray⟩ := by
  obtain ⟨q, hq, hwrite, hread⟩ := FileTree.read_of_write h ⟨(completeLines bs).toArray⟩
  refine ⟨_, ?_, hread⟩
  have hbytes : ByteArray.toList ⟨bs.toArray⟩ = bs := Text.toList_byteArray _
  unfold openAt
  cases hparent : path.parent? with
  | none => simp [h, hbytes, hwrite]
  | some parent => simp [hw.ensureDirectory_parent hq hparent, h, hbytes, hwrite]

theorem overwrite_end (bs new : List UInt8) : overwrite bs bs.length new = bs ++ new := by
  simp [overwrite]

/-- Appending does not fail: what can be read can be written, and what was removed is not missed. -/
theorem append_ok (w : JournalWriter) (t : FileTree) (e : ResumeEntry) :
    ∃ t', w.append t e = .ok (⟨w.path, w.position + e.bytes.length⟩, t') := by
  cases hread : t.read w.path with
  | error _ => exact ⟨t, by simp only [append, hread]; rfl⟩
  | ok bytes =>
    obtain ⟨q, -, hwrite, -⟩ := FileTree.read_of_write hread
      ⟨(overwrite bytes.toList w.position e.bytes).toArray⟩
    refine ⟨t.put q (.file ⟨(overwrite bytes.toList w.position e.bytes).toArray⟩), ?_⟩
    unfold ResumeEntry.bytes at hwrite ⊢
    simp only [append, hread, hwrite]

/-- At the end of a journal an entry adds its line. -/
theorem append_at_end {w : JournalWriter} {bs : List UInt8} (hread : t.read w.path = .ok ⟨bs.toArray⟩)
    (hend : w.position = bs.length) (e : ResumeEntry) :
    ∃ t', w.append t e = .ok (⟨w.path, (bs ++ e.bytes).length⟩, t') ∧
      t'.read w.path = .ok ⟨(bs ++ e.bytes).toArray⟩ := by
  obtain ⟨q, -, hwrite, hnew⟩ := FileTree.read_of_write hread ⟨(bs ++ e.bytes).toArray⟩
  have hbytes : ByteArray.toList ⟨bs.toArray⟩ = bs := Text.toList_byteArray _
  have hline : overwrite bs w.position (String.ofList e.line).toUTF8.toList = bs ++ e.bytes := by
    rw [hend]
    exact overwrite_end bs e.bytes
  refine ⟨_, ?_, hnew⟩
  simp only [append, hread, hbytes, hline, hwrite]
  simp [hend, ResumeEntry.bytes]

/-- Appends entries one after the other. -/
def appendAll (w : JournalWriter) (t : FileTree) :
    List ResumeEntry → Except ImportFailure (JournalWriter × FileTree)
  | [] => .ok (w, t)
  | e :: es =>
    match w.append t e with
    | .ok (w, t) => w.appendAll t es
    | .error e => .error e

theorem appendAll_at_end {w : JournalWriter} {bs : List UInt8}
    (hread : t.read w.path = .ok ⟨bs.toArray⟩) (hend : w.position = bs.length)
    (es : List ResumeEntry) :
    ∃ t', w.appendAll t es = .ok (⟨w.path, (bs ++ es.flatMap ResumeEntry.bytes).length⟩, t') ∧
      t'.read w.path = .ok ⟨(bs ++ es.flatMap ResumeEntry.bytes).toArray⟩ := by
  induction es generalizing w t bs with
  | nil =>
    refine ⟨t, ?_, by simpa using hread⟩
    simp [appendAll, ← hend]
  | cons e es ih =>
    obtain ⟨u, happend, hu⟩ := append_at_end hread hend e
    obtain ⟨t', hall, ht'⟩ := ih (w := ⟨w.path, (bs ++ e.bytes).length⟩) hu rfl
    rw [List.append_assoc, ← List.flatMap_cons] at hall ht'
    exact ⟨t', by rw [appendAll, happend]; exact hall, ht'⟩

end JournalWriter

namespace JournalSnapshot

variable {t : FileTree} {path : FilePath} {es : List ResumeEntry}

/-- A journal of complete lines, and of a line without end behind them, as a text. -/
theorem load_of_text (hes : ∀ e ∈ es, e.timestamp.isValid) {bs : ByteArray} {tail : List Char}
    (htail : '\n' ∉ tail) (hread : t.read path = .ok bs)
    (htext : String.fromUTF8? bs = some (String.ofList (es.flatMap ResumeEntry.line ++ tail))) :
    load t path = .ok (ofEntries es) := by
  simp only [load, FileTree.readText_ok hread, htext, ofText_lines hes htail]

theorem load_lines (hes : ∀ e ∈ es, e.timestamp.isValid)
    (hread : t.read path = .ok ⟨(es.flatMap ResumeEntry.bytes).toArray⟩) :
    load t path = .ok (ofEntries es) := by
  refine load_of_text hes List.not_mem_nil hread ?_
  rw [Text.fromUTF8?_eq_some, List.append_nil, Text.toByteArray_ofList, ResumeEntry.flatMap_bytes]

theorem load_torn (hes : ∀ e ∈ es, e.timestamp.isValid) {e : ResumeEntry} {k : Nat}
    (hk : k < e.bytes.length)
    (hread : t.read path = .ok ⟨(es.flatMap ResumeEntry.bytes ++ e.bytes.take k).toArray⟩) :
    load t path =
      if (String.Pos.Raw.mk k).IsValid (String.ofList e.line) then .ok (ofEntries es)
      else .error (.io .notText) := by
  split
  next hvalid =>
    obtain ⟨tail, htail, htext⟩ := fromUTF8?_torn es hk hvalid
    exact load_of_text hes htail hread htext
  next hvalid =>
    simp [load, FileTree.readText_ok hread, fromUTF8?_torn_eq_none es hk hvalid]

/-- After an append that was interrupted, the entries before it are loaded exactly if it broke off
between two characters. Once the journal is opened and appended to, they are loaded in any case, with the
entries that were appended. -/
theorem load_interrupted {fs : List ResumeEntry} {e : ResumeEntry} {k : Nat} (hw : t.WellFormed)
    (hes : ∀ x ∈ es ++ fs, x.timestamp.isValid) (hk : k < e.bytes.length)
    (hread : t.read path = .ok ⟨(es.flatMap ResumeEntry.bytes ++ e.bytes.take k).toArray⟩) :
    (load t path =
      if (String.Pos.Raw.mk k).IsValid (String.ofList e.line) then .ok (ofEntries es)
      else .error (.io .notText)) ∧
    ∃ w t₁ w' t₂, JournalWriter.openAt t path = (.ok w, t₁) ∧ w.appendAll t₁ fs = .ok (w', t₂) ∧
      load t₂ path = .ok (ofEntries (es ++ fs)) := by
  refine ⟨load_torn (fun x hx => hes x (List.mem_append_left fs hx)) hk hread, ?_⟩
  obtain ⟨t₁, hopen, hread₁⟩ := JournalWriter.openAt_of_read hw hread
  rw [JournalWriter.completeLines_torn es hk] at hopen hread₁
  obtain ⟨t₂, happend, hread₂⟩ := JournalWriter.appendAll_at_end
    (w := ⟨path, (es.flatMap ResumeEntry.bytes).length⟩) hread₁ rfl fs
  rw [← List.flatMap_append] at hread₂
  exact ⟨_, t₁, _, t₂, hopen, happend, load_lines hes hread₂⟩

/-- A finished group. -/
def doneEntry (key : GroupKey) : ResumeEntry :=
  { key := key, outcome := .done, timestamp := .epoch }

/-- A journal with one line, and with as many bytes of another. -/
def tornJournal (k : Nat) : FileTree :=
  { nodes := [(["journal"],
      .file ⟨([doneEntry "a"].flatMap ResumeEntry.bytes ++ (doneEntry "é").bytes.take k).toArray⟩)] }

theorem tornJournal_wellFormed (k : Nat) : (tornJournal k).WellFormed := .of_nodes (by rfl) rfl

theorem tornJournal_read (k : Nat) :
    (tornJournal k).read ⟨"journal"⟩ =
      .ok ⟨([doneEntry "a"].flatMap ResumeEntry.bytes ++ (doneEntry "é").bytes.take k).toArray⟩ := by
  rfl

theorem length_bytes_accented : 9 < (doneEntry "é").bytes.length := by
  rw [ResumeEntry.bytes_eq]
  decide

/-- The ninth byte of the line is the first of the two of its key. -/
theorem load_interrupted_accented :
    (load (tornJournal 9) ⟨"journal"⟩ =
      if (String.Pos.Raw.mk 9).IsValid (String.ofList (doneEntry "é").line) then
        .ok (ofEntries [doneEntry "a"])
      else .error (.io .notText)) ∧
    ∃ w t₁ w' t₂, JournalWriter.openAt (tornJournal 9) ⟨"journal"⟩ = (.ok w, t₁) ∧
      w.appendAll t₁ [doneEntry "b"] = .ok (w', t₂) ∧
      load t₂ ⟨"journal"⟩ = .ok (ofEntries [doneEntry "a", doneEntry "b"]) :=
  load_interrupted (tornJournal_wellFormed 9) (by decide) length_bytes_accented (tornJournal_read 9)

/-- The torn line is not passed over where it was torn off inside of a character. -/
theorem torn_character_not_ignored :
    ¬ ∀ (t : FileTree) (path : FilePath) (es : List ResumeEntry) (e : ResumeEntry) (k : Nat),
      t.WellFormed → (∀ x ∈ e :: es, x.timestamp.isValid) → k < e.bytes.length →
        t.read path = .ok ⟨(es.flatMap ResumeEntry.bytes ++ e.bytes.take k).toArray⟩ →
          load t path = .ok (ofEntries es) := by
  intro h
  have hload := h (tornJournal 9) ⟨"journal"⟩ [doneEntry "a"] (doneEntry "é") 9
    (tornJournal_wellFormed 9) (by decide) length_bytes_accented (tornJournal_read 9)
  have hcut : ¬ (String.Pos.Raw.mk 9).IsValid (String.ofList (doneEntry "é").line) := by
    decide
  rw [load_torn (by decide) length_bytes_accented (tornJournal_read 9), if_neg hcut] at hload
  cases hload

end JournalSnapshot
end MusicImport
