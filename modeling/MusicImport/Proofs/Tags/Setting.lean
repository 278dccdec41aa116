import MusicImport.Proofs.Journal.Timestamp
import MusicImport.Proofs.Paths
import MusicImport.Proofs.Text.Normal
import MusicImport.Tags.VorbisComment

/-! What keyed texts tell after values were set in them. Setting a value replaces the texts of one key. Most
values are told by the texts of a single key, so they are set without a bearing on each other; but a total
may stand behind a number, and a year under either of two keys. -/
namespace MusicImport

namespace TagKey

/-- The texts under a key, in their order. -/
def texts (k : TagKey) (cs : List Comment) : List String :=
  (cs.filter (·.key? = some k)).map (·.text)

@[simp] theorem key?_name (k : TagKey) (text : String) : (⟨k.name, text⟩ : Comment).key? = some k := by
  have hname : ofName? k.name = some k := by cases k <;> decide
  exact hname

@[simp] theorem texts_append (k : TagKey) (cs ds : List Comment) :
    texts k (cs ++ ds) = texts k cs ++ texts k ds := by simp [texts]

theorem texts_singleton (k : TagKey) (c : Comment) :
    texts k [c] = if c.key? = some k then [c.text] else [] := by
  by_cases h : c.key? = some k <;> simp [texts, h]

theorem texts_setComment (k key : TagKey) (text : String) (cs : List Comment) :
    texts k (setComment key text cs) = if k = key then [text] else texts k cs := by
  rw [setComment, texts_append, texts_singleton, key?_name]
  by_cases h : k = key
  · subst h
    have hdropped : texts k (cs.filter (·.key? ≠ some k)) = [] := by
      simp [texts, List.filter_filter]
    rw [hdropped]
    simp
  · have hkept : texts k (cs.filter (·.key? ≠ some key)) = texts k cs := by
      unfold texts
      rw [List.filter_filter]
      congr 1
      refine List.filter_congr fun c _ => ?_
      by_cases hc : c.key? = some k <;> simp [hc, h]
    rw [hkept]
    simp [h, Ne.symm h]

theorem texts_setSome {α : Type} (k key : TagKey) (g : α → String) (o : Option α) (cs : List Comment) :
    texts k (setSome key g o cs) = if k = key then (o.map fun a => [g a]).getD (texts k cs)
      else texts k cs := by
  cases o with
  | none => simp [setSome]
  | some a => rw [setSome, texts_setComment, Option.map_some, Option.getD_some]

end TagKey

/-- A number by itself in a text. -/
def total? (s : String) : Option Nat := count? (Text.trimChars s.toList)

section Digits

variable {n : Nat}

theorem digits_eq_padded (n : Nat) : (toString n).toList = Timestamp.padded 0 n := by
  simp [Timestamp.padded]

theorem isDigit_of_mem_digits {c : Char} (h : c ∈ (toString n).toList) : c.isDigit :=
  Timestamp.isDigit_of_mem_padded (digits_eq_padded n ▸ h)

theorem trimChars_digits (n : Nat) : Text.trimChars (toString n).toList = (toString n).toList := by
  refine Text.trimChars_eq_self (fun c hc => ?_) fun before c hcs => ?_
  · exact Timestamp.isBlank_of_isDigit (isDigit_of_mem_digits (List.mem_of_mem_head? hc))
  · exact Timestamp.isBlank_of_isDigit (isDigit_of_mem_digits (n := n) (hcs ▸ List.mem_concat_self))

theorem count?_digits (h : n < word32) : count? (toString n).toList = some n := by
  have hdigits : Text.digits? (toString n).toList = some n := by
    rw [digits_eq_padded, Timestamp.digits?_padded]
  unfold count?
  split
  next rest hplus =>
    have hdigit : '+'.isDigit := isDigit_of_mem_digits (n := n) (hplus ▸ .head _)
    simp at hdigit
  next => simp only [hdigits, Option.bind_some, h, if_true]

theorem total?_toString (h : n < word32) : total? (toString n) = some n := by
  rw [total?, trimChars_digits, count?_digits h]

/-- A number that was written stands by itself. -/
theorem position_toString (h : n < word32) : position (toString n) = (some n, none) := by
  have hstroke : ∀ c ∈ (toString n).toList, (c != '/') = true := by
    intro c hc
    simp only [bne_iff_ne, ne_eq]
    rintro rfl
    exact FilePath.slash_not_mem_digits n hc
  have htake := List.takeWhile_eq_self_iff.mpr hstroke
  have hdrop := List.dropWhile_eq_nil_iff.mpr hstroke
  simp only [position, trimChars_digits, htake, hdrop, count?_digits h]

/-- Trimming a text that starts with a number leaves the number. -/
theorem trimChars_digits_append (n : Nat) (rest : List Char) :
    ∃ kept, Text.trimChars ((toString n).toList ++ rest) = (toString n).toList ++ kept := by
  have hblank : ∀ c ∈ (toString n).toList, Text.isBlank c = false := fun c hc =>
    Timestamp.isBlank_of_isDigit (isDigit_of_mem_digits hc)
  obtain ⟨d, ds, hds⟩ : ∃ d ds, (toString n).toList = d :: ds :=
    List.exists_cons_of_ne_nil (digits_eq_padded n ▸ Timestamp.padded_ne_nil 0 n)
  have hstart : ((toString n).toList ++ rest).dropWhile Text.isBlank = (toString n).toList ++ rest := by
    rw [hds, List.cons_append, List.dropWhile_cons_of_neg]
    simp [hblank d (hds ▸ .head _)]
  rw [Text.trimChars_eq, hstart]
  exact Text.exists_rdropWhile_append hblank rest

/-- Whatever follows its four digits, a year is read back. -/
theorem yearOf?_append {y : Int} (h : 1000 ≤ y ∧ y ≤ 9999) (rest : String) :
    yearOf? (toString y ++ rest) = some y := by
  obtain ⟨n, rfl⟩ := Int.eq_ofNat_of_zero_le (by omega : 0 ≤ y)
  have hlength : (toString n).toList.length = 4 := by
    have hlow := (Nat.length_toDigits_le_iff (b := 10) (n := n) (k := 3) (by decide) (by decide)).not.mpr
      (by omega)
    have hhigh := (Nat.length_toDigits_le_iff (b := 10) (n := n) (k := 4) (by decide) (by decide)).mpr
      (by omega)
    simp only [Nat.toString_eq_repr, Nat.toList_repr]
    omega
  obtain ⟨kept, hkept⟩ := trimChars_digits_append n rest.toList
  have hdigits : Text.digits? (toString n).toList = some n := by
    rw [digits_eq_padded, Timestamp.digits?_padded]
  have htext : (toString (n : Int) ++ rest).toList = (toString n).toList ++ rest.toList := by
    rw [String.toList_append]
    rfl
  have htake : ((toString n).toList ++ kept).takeWhile Char.isDigit =
      (toString n).toList ++ kept.takeWhile Char.isDigit :=
    List.takeWhile_append_of_pos fun c hc => isDigit_of_mem_digits hc
  simp only [yearOf?, htext, hkept, htake, List.length_append, hlength, List.take_left' hlength, hdigits]
  rw [if_pos (by omega)]
  rfl

end Digits

/-- What the last text of a key means. -/
def TagKey.last {α : Type} (k : TagKey) (meaning : String → Option α) (cs : List Comment) : Option α :=
  (k.texts cs).getLast?.bind meaning

/-- What the texts of two keys say about a total, one after the other. -/
def totalIn (number total : TagKey) (cs : List Comment) : Option Nat :=
  cs.foldl (fun told c =>
    if c.key? = some total then total? c.text
    else if c.key? = some number then told.or (position c.text).2
    else told) none

def Comment.year? (c : Comment) : Option Int :=
  if c.key? = some .year ∨ c.key? = some .recordingDate then yearOf? c.text else none

/-- The first year that either of its keys has. -/
def yearIn (cs : List Comment) : Option Int := cs.findSome? Comment.year?

/-- What keyed texts tell about a track, value by value. -/
def Track.told (path : FilePath) (length : Option Nat) (cs : List Comment) : Track :=
  { path, length
    title := TagKey.title.last nonBlank? cs
    artist := TagKey.artist.last nonBlank? cs
    album := TagKey.album.last nonBlank? cs
    albumArtist := TagKey.albumArtist.last nonBlank? cs
    trackNumber := TagKey.trackNumber.last (fun s => (position s).1) cs
    trackTotal := totalIn .trackNumber .trackTotal cs
    discNumber := TagKey.discNumber.last (fun s => (position s).1) cs
    discTotal := totalIn .discNumber .discTotal cs
    year := yearIn cs
    label := TagKey.label.last nonBlank? cs
    catalogNumber := TagKey.catalogNumber.last nonBlank? cs
    trackId := TagKey.recordingId.last nonBlank? cs
    albumId := TagKey.releaseId.last nonBlank? cs }

section Told

variable {α : Type}

theorem TagKey.last_concat (k : TagKey) (meaning : String → Option α) (cs : List Comment) (c : Comment) :
    k.last meaning (cs ++ [c]) = if c.key? = some k then meaning c.text else k.last meaning cs := by
  rw [last, texts_append, texts_singleton]
  split
  · rw [List.getLast?_concat, Option.bind_some]
  · rw [List.append_nil, last]

theorem totalIn_concat (number total : TagKey) (cs : List Comment) (c : Comment) :
    totalIn number total (cs ++ [c]) =
      if c.key? = some total then total? c.text
      else if c.key? = some number then (totalIn number total cs).or (position c.text).2
      else totalIn number total cs := List.foldl_concat ..

theorem yearIn_append (cs ds : List Comment) : yearIn (cs ++ ds) = (yearIn cs).or (yearIn ds) :=
  List.findSome?_append

theorem yearIn_cons (c : Comment) (cs : List Comment) : yearIn (c :: cs) = c.year?.or (yearIn cs) := by
  rw [yearIn, List.findSome?_cons]
  cases c.year? <;> rfl

theorem yearIn_singleton (c : Comment) : yearIn [c] = c.year? := by
  rw [yearIn_cons]
  exact Option.or_none

theorem Track.addComments_eq_told (path : FilePath) (length : Option Nat) (cs : List Comment) :
    ({ path, length } : Track).addComments cs = told path length cs := by
  induction cs using List.reverseRecOn with
  | nil => rfl
  | append_singleton cs c ih =>
    have hstep : ({ path, length } : Track).addComments (cs ++ [c]) = (told path length cs).addComment c := by
      rw [← ih]
      exact List.foldl_concat ..
    rw [hstep]
    simp only [told, TagKey.last_concat, totalIn_concat, yearIn_append, yearIn_singleton]
    unfold addComment Comment.year?
    cases hc : c.key? with
    | none => simp
    | some k => cases k <;> simp [total?]

end Told

/-- Whether a year is written into the recording date: the first one is long enough for that. -/
def dated (cs : List Comment) : Bool :=
  ((TagKey.recordingDate.texts cs).head?.bind afterFourBytes?).isSome

/-- The first year under the key that a year is not written to. -/
def otherYear (cs : List Comment) : Option Int :=
  ((if dated cs then TagKey.year else TagKey.recordingDate).texts cs).findSome? yearOf?

section Set

variable {α : Type} {k key number total : TagKey} {meaning : String → Option α} {g : α → String}
  {o : Option α} {y : Int}

theorem setYear_eq (hy : 0 ≤ y) (cs : List Comment) :
    ∃ rest, setYear (some y) cs =
      setComment (if dated cs then .recordingDate else .year) (toString y ++ rest) cs := by
  have hdate : (cs.find? (·.key? = some .recordingDate)).bind (fun c => afterFourBytes? c.text) =
      (TagKey.recordingDate.texts cs).head?.bind afterFourBytes? := by
    rw [TagKey.texts, List.head?_map, List.head?_filter, Option.bind_map]
    rfl
  rw [setYear, if_neg (Int.not_lt.mpr hy), hdate]
  cases hrest : (TagKey.recordingDate.texts cs).head?.bind afterFourBytes? with
  | none =>
    have hdated : dated cs = false := by rw [dated, hrest]; rfl
    exact ⟨"", by simp [hdated]⟩
  | some rest =>
    have hdated : dated cs = true := by rw [dated, hrest]; rfl
    exact ⟨rest, by simp [hdated]⟩

theorem setYear_cases (o : Option Int) (cs : List Comment) : setYear o cs = cs ∨
    ∃ k text, (k = .year ∨ k = .recordingDate) ∧ setYear o cs = setComment k text cs := by
  cases o with
  | none => exact .inl rfl
  | some y =>
    by_cases hy : y < 0
    · exact .inl (if_pos hy)
    · obtain ⟨rest, hset⟩ := setYear_eq (Int.not_lt.mp hy) cs
      refine .inr ⟨_, _, ?_, hset⟩
      split
      · exact .inr rfl
      · exact .inl rfl

theorem TagKey.texts_setYear (hyear : k ≠ .year) (hdate : k ≠ .recordingDate) (o : Option Int)
    (cs : List Comment) : k.texts (setYear o cs) = k.texts cs := by
  obtain hsame | ⟨key, text, rfl | rfl, hset⟩ := setYear_cases o cs
  · rw [hsame]
  · rw [hset, texts_setComment, if_neg hyear]
  · rw [hset, texts_setComment, if_neg hdate]

theorem TagKey.last_setYear (hyear : k ≠ .year) (hdate : k ≠ .recordingDate) (o : Option Int)
    (cs : List Comment) : k.last meaning (setYear o cs) = k.last meaning cs := by
  rw [last, texts_setYear hyear hdate, last]

theorem TagKey.last_setSome_of_ne {β : Type} {g : β → String} (h : k ≠ key) (o : Option β)
    (cs : List Comment) : k.last meaning (setSome key g o cs) = k.last meaning cs := by
  rw [last, texts_setSome, if_neg h, last]

/-- A value that was set is told if its text means it. -/
theorem TagKey.last_setSome (h : ∀ a ∈ o, meaning (g a) = some a) (cs : List Comment) :
    k.last meaning (setSome k g o cs) = o.or (k.last meaning cs) := by
  rw [last, texts_setSome, if_pos rfl]
  cases o with
  | none => rfl
  | some a => exact h a rfl

theorem totalIn_filter_of_ne (hnumber : k ≠ number) (htotal : k ≠ total) (cs : List Comment) :
    totalIn number total (cs.filter (·.key? ≠ some k)) = totalIn number total cs := by
  unfold totalIn
  rw [List.foldl_filter]
  refine List.foldl_ext _ _ _ fun told c _ => ?_
  by_cases hc : c.key? = some k <;> simp [hc, hnumber, htotal]

theorem totalIn_setComment_of_ne (hnumber : k ≠ number) (htotal : k ≠ total) (text : String)
    (cs : List Comment) : totalIn number total (setComment k text cs) = totalIn number total cs := by
  rw [setComment, totalIn_concat, TagKey.key?_name, totalIn_filter_of_ne hnumber htotal]
  simp [hnumber, htotal]

/-- Without the numbers, the total is what its own texts say. -/
theorem totalIn_filter_number (h : number ≠ total) (cs : List Comment) :
    totalIn number total (cs.filter (·.key? ≠ some number)) = total.last total? cs := by
  induction cs using List.reverseRecOn with
  | nil => rfl
  | append_singleton cs c ih =>
    rw [List.filter_append, TagKey.last_concat, ← ih]
    by_cases hc : c.key? = some number
    · simp [hc, h]
    · have hkept : [c].filter (·.key? ≠ some number) = [c] := by simp [hc]
      rw [hkept, totalIn_concat, if_neg hc]

theorem totalIn_setSome_of_ne (hnumber : k ≠ number) (htotal : k ≠ total) (g : α → String) (o : Option α)
    (cs : List Comment) : totalIn number total (setSome k g o cs) = totalIn number total cs := by
  cases o with
  | none => rfl
  | some a => exact totalIn_setComment_of_ne hnumber htotal _ cs

theorem totalIn_setYear (hnumber : number ≠ .year ∧ number ≠ .recordingDate)
    (htotal : total ≠ .year ∧ total ≠ .recordingDate) (o : Option Int) (cs : List Comment) :
    totalIn number total (setYear o cs) = totalIn number total cs := by
  obtain hsame | ⟨key, text, rfl | rfl, hset⟩ := setYear_cases o cs
  · rw [hsame]
  · rw [hset, totalIn_setComment_of_ne hnumber.1.symm htotal.1.symm]
  · rw [hset, totalIn_setComment_of_ne hnumber.2.symm htotal.2.symm]

theorem totalIn_setSome_total {o : Option Nat} (h : ∀ n ∈ o, n < word32) (cs : List Comment) :
    totalIn number total (setSome total toString o cs) = o.or (totalIn number total cs) := by
  cases o with
  | none => rfl
  | some n =>
    rw [setSome, setComment, totalIn_concat, TagKey.key?_name, if_pos rfl, total?_toString (h n rfl)]
    rfl

/-- A number that is set takes the total with it that stood behind the old one. -/
theorem totalIn_setSome_number (hne : number ≠ total) {o : Option Nat} (h : ∀ n ∈ o, n < word32)
    (cs : List Comment) : totalIn number total (setSome number toString o cs) =
      if o.isSome then total.last total? cs else totalIn number total cs := by
  cases o with
  | none => rfl
  | some n =>
    rw [setSome, setComment, totalIn_concat, TagKey.key?_name, totalIn_filter_number hne,
      position_toString (h n rfl)]
    simp [hne]

theorem yearIn_filter_of_ne (hyear : k ≠ .year) (hdate : k ≠ .recordingDate) (cs : List Comment) :
    yearIn (cs.filter (·.key? ≠ some k)) = yearIn cs := by
  induction cs with
  | nil => rfl
  | cons c cs ih =>
    by_cases hc : c.key? = some k
    · have hnone : c.year? = none := by simp [Comment.year?, hc, hyear, hdate]
      rw [List.filter_cons_of_neg (by simp [hc]), ih, yearIn_cons, hnone, Option.none_or]
    · rw [List.filter_cons_of_pos (by simp [hc]), yearIn_cons, yearIn_cons, ih]

theorem yearIn_setSome_of_ne (hyear : k ≠ .year) (hdate : k ≠ .recordingDate) (g : α → String)
    (o : Option α) (cs : List Comment) : yearIn (setSome k g o cs) = yearIn cs := by
  cases o with
  | none => rfl
  | some a =>
    rw [setSome, setComment, yearIn_append, yearIn_singleton, yearIn_filter_of_ne hyear hdate]
    simp [Comment.year?, hyear, hdate]

/-- Without the texts of one of its keys, the year is what the other one has. -/
theorem yearIn_filter_year {other : TagKey}
    (h : k = .year ∧ other = .recordingDate ∨ k = .recordingDate ∧ other = .year) (cs : List Comment) :
    yearIn (cs.filter (·.key? ≠ some k)) = (other.texts cs).findSome? yearOf? := by
  rw [TagKey.texts, List.findSome?_map]
  induction cs with
  | nil => rfl
  | cons c cs ih =>
    by_cases hk : c.key? = some k
    · have hother : c.key? ≠ some other := by
        rcases h with ⟨rfl, rfl⟩ | ⟨rfl, rfl⟩ <;> simp [hk]
      rw [List.filter_cons_of_neg (by simp [hk]), ih, List.filter_cons_of_neg (by simp [hother])]
    · rw [List.filter_cons_of_pos (by simp [hk]), yearIn_cons, ih]
      by_cases hother : c.key? = some other
      · have hyear : c.year? = yearOf? c.text := by
          rcases h with ⟨rfl, rfl⟩ | ⟨rfl, rfl⟩ <;> simp [Comment.year?, hother]
        rw [List.filter_cons_of_pos (by simp [hother]), List.findSome?_cons, hyear, Function.comp_apply]
        cases yearOf? c.text <;> rfl
      · have hyear : c.year? = none := by
          rcases h with ⟨rfl, rfl⟩ | ⟨rfl, rfl⟩ <;> simp [Comment.year?, hk, hother]
        rw [List.filter_cons_of_neg (by simp [hother]), hyear, Option.none_or]

theorem otherYear_setSome_of_ne (hyear : k ≠ .year) (hdate : k ≠ .recordingDate) (g : α → String)
    (o : Option α) (cs : List Comment) : otherYear (setSome k g o cs) = otherYear cs := by
  have hkept {a : TagKey} (ha : a ≠ k) : a.texts (setSome k g o cs) = a.texts cs := by
    rw [TagKey.texts_setSome, if_neg ha]
  have hdated : dated (setSome k g o cs) = dated cs := by rw [dated, hkept hdate.symm, dated]
  rw [otherYear, otherYear, hdated]
  split
  · rw [hkept hyear.symm]
  · rw [hkept hdate.symm]

/-- A year that is set comes after the one under the other key. -/
theorem yearIn_setYear {o : Option Int} (h : ∀ y ∈ o, 1000 ≤ y ∧ y ≤ 9999) (cs : List Comment) :
    yearIn (setYear o cs) = if o.isSome then (otherYear cs).or o else yearIn cs := by
  cases o with
  | none => rfl
  | some y =>
    have hy := h y rfl
    obtain ⟨rest, hset⟩ := setYear_eq (by omega : 0 ≤ y) cs
    have hwritten {k : TagKey} (hk : k = .year ∨ k = .recordingDate) :
        (⟨k.name, toString y ++ rest⟩ : Comment).year? = some y := by
      rw [Comment.year?, TagKey.key?_name, if_pos (by simpa using hk), yearOf?_append hy]
    rw [hset, setComment, yearIn_append, yearIn_singleton, Option.isSome_some, if_pos rfl]
    cases hdated : dated cs with
    | true =>
      simp only [otherYear, hdated, if_true]
      rw [yearIn_filter_year (.inr ⟨rfl, rfl⟩), hwritten (.inr rfl)]
    | false =>
      simp only [otherYear, hdated, Bool.false_eq_true, if_false]
      rw [yearIn_filter_year (.inl ⟨rfl, rfl⟩), hwritten (.inl rfl)]

end Set

namespace TagFields

variable {f : TagFields}

/-- A text that is there is not empty and has no blanks around it. -/
def CleanText (o : Option String) : Prop := ∀ s ∈ o, Text.trim s = s ∧ s ≠ ""

/-- A number that is there has 32 bits at most. -/
def InWord (o : Option Nat) : Prop := ∀ n ∈ o, n < word32

/-- Values that stand for themselves: texts without blanks around them, and a year of four digits. -/
structure Clean (f : TagFields) : Prop where
  title : CleanText f.title
  artist : CleanText f.artist
  album : CleanText f.album
  albumArtist : CleanText f.albumArtist
  label : CleanText f.label
  catalogNumber : CleanText f.catalogNumber
  trackId : CleanText f.trackId
  albumId : CleanText f.albumId
  trackNumber : InWord f.trackNumber
  trackTotal : InWord f.trackTotal
  discNumber : InWord f.discNumber
  discTotal : InWord f.discTotal
  year : ∀ y ∈ f.year, 1000 ≤ y ∧ y ≤ 9999

/-- What is left to tell of a total when a number is set: only what stands by itself. -/
def totalLeft (value : Option Nat) (number total : TagKey) (cs : List Comment) : Option Nat :=
  if value.isSome then total.last total? cs else totalIn number total cs

/-- What is told after all values were set. -/
theorem told_applyFields (h : f.Clean) (path : FilePath) (length : Option Nat) (cs : List Comment) :
    Track.told path length (applyFields f cs) =
      { (Track.told path length cs).withFields f with
        trackTotal := f.trackTotal.or (totalLeft f.trackNumber .trackNumber .trackTotal cs)
        discTotal := f.discTotal.or (totalLeft f.discNumber .discNumber .discTotal cs)
        year := if f.year.isSome then (otherYear cs).or f.year else yearIn cs } := by
  have htext {k : TagKey} {o : Option String} (ho : CleanText o) (ds : List Comment) :
      k.last nonBlank? (setSome k id o ds) = o.or (k.last nonBlank? ds) := by
    refine TagKey.last_setSome (fun s hs => ?_) ds
    obtain ⟨htrim, hne⟩ := ho s hs
    rw [nonBlank?, id, htrim, if_neg hne]
  have hnumber {k : TagKey} {o : Option Nat} (ho : InWord o) (ds : List Comment) :
      k.last (fun s => (position s).1) (setSome k toString o ds) =
        o.or (k.last (fun s => (position s).1) ds) :=
    TagKey.last_setSome (fun n hn => by rw [position_toString (ho n hn)]) ds
  -- every other value is set under a key that says nothing of the one that is asked for
  simp (disch := decide) only [Track.told, Track.withFields, applyFields, totalLeft,
    htext h.title, htext h.artist, htext h.album, htext h.albumArtist, htext h.label,
    htext h.catalogNumber, htext h.trackId, htext h.albumId, hnumber h.trackNumber, hnumber h.discNumber,
    totalIn_setSome_total h.trackTotal, totalIn_setSome_total h.discTotal,
    totalIn_setSome_number _ h.trackNumber, totalIn_setSome_number _ h.discNumber,
    yearIn_setYear h.year, TagKey.last_setSome_of_ne, TagKey.last_setYear, totalIn_setSome_of_ne,
    totalIn_setYear, yearIn_setSome_of_ne, otherYear_setSome_of_ne]

end TagFields
end MusicImport
