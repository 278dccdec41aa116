import MusicImport.Library.Transfer

/-! Double dots in composed paths: a path beside or below another has no more of them than the two
together, and a numbered file name is none. Paths are the same if their components are. -/
namespace MusicImport
namespace Text

variable {sep : Char}

theorem splitChars_append (xs ys : List Char) :
    splitChars sep (xs ++ sep :: ys) = splitChars sep xs ++ splitChars sep ys := by
  induction xs with
  | nil => simp [splitChars]
  | cons c cs ih =>
    simp only [List.cons_append, splitChars]
    split
    · rw [ih, List.cons_append]
    · rw [ih]
      cases hs : splitChars sep cs with
      | nil => exact absurd hs (splitChars_ne_nil sep cs)
      | cons piece pieces => simp

theorem splitChars_of_not_mem {cs : List Char} (h : sep ∉ cs) : splitChars sep cs = [cs] := by
  induction cs with
  | nil => rfl
  | cons c cs ih =>
    have hc : c ≠ sep := fun hc => h (by simp [hc])
    have hcs : sep ∉ cs := fun hx => h (by simp [hx])
    simp [splitChars, hc, ih hcs]

theorem not_mem_of_mem_splitChars {cs piece : List Char} (h : piece ∈ splitChars sep cs) :
    sep ∉ piece := by
  induction cs generalizing piece with
  | nil => simp_all [splitChars]
  | cons c cs ih =>
    simp only [splitChars] at h
    split at h
    · obtain rfl | h := List.mem_cons.mp h
      · simp
      · exact ih h
    next hc =>
      cases hs : splitChars sep cs with
      | nil => exact absurd hs (splitChars_ne_nil sep cs)
      | cons first rest =>
        rw [hs] at h
        obtain rfl | h := List.mem_cons.mp h
        · have hfirst : sep ∉ first := ih (by simp [hs])
          simp [Ne.symm hc, hfirst]
        · exact ih (by simp [hs, h])

theorem mem_split {s piece : String} : piece ∈ split sep s ↔ piece.toList ∈ splitChars sep s.toList := by
  simp only [split, List.mem_map]
  constructor
  · rintro ⟨cs, hcs, rfl⟩
    simpa using hcs
  · intro h
    exact ⟨piece.toList, h, by simp⟩

/-- Pieces that were joined are found again. -/
theorem splitChars_joinWith {pieces : List String} (hne : pieces ≠ [])
    (h : ∀ p ∈ pieces, sep ∉ p.toList) :
    splitChars sep (joinWith (String.ofList [sep]) pieces).toList = pieces.map String.toList := by
  induction pieces with
  | nil => exact absurd rfl hne
  | cons first rest ih =>
    have hfirst := splitChars_of_not_mem (h first (.head _))
    cases rest with
    | nil => simpa [joinWith] using hfirst
    | cons second rest =>
      have hrest := ih (by simp) fun p hp => h p (.tail _ hp)
      simp only [joinWith, String.toList_append, String.toList_ofList, List.append_assoc,
        List.singleton_append, splitChars_append, hfirst, hrest]
      rfl

end Text

theorem toList_toString_injective {m n : Nat} (h : (toString m).toList = (toString n).toList) : m = n := by
  have hdigits : Nat.toDigits 10 m = Nat.toDigits 10 n := by
    simpa only [Nat.toString_eq_repr, Nat.toList_repr] using h
  have hread := congrArg (fun digits => Nat.ofDigitChars 10 digits 0) hdigits
  simpa using hread

namespace FilePath

variable {p q dest : FilePath}

/-- A path with a double dot among its pieces. -/
def Climbs (p : FilePath) : Prop := ".." ∈ p.pieces

instance : Decidable p.Climbs := inferInstanceAs (Decidable (".." ∈ p.pieces))

theorem climbs_iff : p.Climbs ↔ ['.', '.'] ∈ Text.splitChars '/' p.text.toList :=
  Text.mem_split

theorem climbs_join (h : (p.join q).Climbs) : p.Climbs ∨ q.Climbs := by
  unfold join at h
  split at h
  · exact .inr h
  · split at h
    · exact .inr h
    · split at h
      next hlast =>
        simp only [beq_iff_eq] at hlast
        obtain ⟨before, hbefore⟩ := List.getLast?_eq_some_iff.mp hlast
        rw [climbs_iff] at h ⊢
        rw [String.toList_append, hbefore, List.append_assoc, List.singleton_append,
          Text.splitChars_append, List.mem_append] at h
        obtain h | h := h
        · left
          rw [hbefore, Text.splitChars_append]
          exact List.mem_append_left _ h
        · exact .inr (climbs_iff.mpr h)
      · rw [climbs_iff] at h ⊢
        rw [String.toList_append, String.toList_append, List.append_assoc] at h
        have hsep : "/".toList = ['/'] := rfl
        rw [hsep, List.singleton_append, Text.splitChars_append, List.mem_append] at h
        exact h.imp id climbs_iff.mpr

theorem mem_takeComponents {absolute first : Bool} {n : Nat} {pieces : List String} {piece : String}
    (h : piece ∈ takeComponents absolute n first pieces) : piece ∈ pieces := by
  induction pieces generalizing n first with
  | nil => cases n <;> simp [takeComponents] at h
  | cons a rest ih =>
    cases n with
    | zero => simp [takeComponents] at h
    | succ n =>
      simp only [takeComponents, List.mem_cons] at h
      obtain rfl | h := h
      · exact .head _
      · exact .tail _ (ih h)

/-- A path put together from pieces climbs where one of them does. -/
theorem climbs_joinWith {pieces : List String} (h : ∀ piece ∈ pieces, '/' ∉ piece.toList)
    (hc : (FilePath.mk (Text.joinWith "/" pieces)).Climbs) : ".." ∈ pieces := by
  rw [climbs_iff] at hc
  by_cases hne : pieces = []
  · simp [hne, Text.joinWith, Text.splitChars] at hc
  · have hslash : "/" = String.ofList ['/'] := rfl
    rw [hslash, Text.splitChars_joinWith hne h] at hc
    obtain ⟨piece, hpiece, hdots⟩ := List.mem_map.mp hc
    have : piece = ".." := String.toList_inj.mp hdots
    exact this ▸ hpiece

theorem climbs_parent (hp : p.parent? = some q) (h : q.Climbs) : p.Climbs := by
  unfold parent? at hp
  split at hp
  · cases hp
  · cases hp
  · split at hp
    · cases hp
      simp [Climbs, pieces, Text.split, Text.splitChars] at h
    · cases hp
      exact mem_takeComponents (climbs_joinWith (fun piece hpiece =>
        Text.not_mem_of_mem_splitChars (Text.mem_split.mp (mem_takeComponents hpiece))) h)

theorem climbs_withFileName {name : String} (h : (p.withFileName name).Climbs) :
    p.Climbs ∨ (FilePath.mk name).Climbs := by
  unfold withFileName at h
  split at h
  · obtain h | h := climbs_join h
    · left
      cases hp : p.parent? with
      | none => simp [hp, Climbs, pieces, Text.split, Text.splitChars] at h
      | some parent => exact climbs_parent hp (by simpa [hp] using h)
    · exact .inr h
  · exact climbs_join h

/-- A text that is cut at a character is what stands on both sides of it. -/
theorem cutLast?_eq {sep : Char} {cs before after : List Char}
    (h : Text.cutLast? sep cs = some (before, after)) : cs = before ++ sep :: after := by
  unfold Text.cutLast? at h
  split at h
  · cases h
  next d rest hrest =>
    cases h
    have hd : d = sep := by
      have hhead := List.head?_dropWhile_not (· != sep) cs.reverse
      rw [hrest] at hhead
      simpa using hhead
    have hcs := List.takeWhile_append_dropWhile (p := (· != sep)) (l := cs.reverse)
    rw [hrest, hd] at hcs
    have hreverse := congrArg List.reverse hcs
    simpa using hreverse.symm

/-- A text is cut before what does not have the character. -/
theorem cutLast?_append {sep : Char} {before after : List Char} (h : sep ∉ after) :
    Text.cutLast? sep (before ++ sep :: after) = some (before, after) := by
  have hafter : ∀ c ∈ after.reverse, (c != sep) = true := by
    intro c hc
    rw [bne_iff_ne]
    rintro rfl
    exact h (List.mem_reverse.mp hc)
  have hreverse : (before ++ sep :: after).reverse = after.reverse ++ sep :: before.reverse := by simp
  unfold Text.cutLast?
  simp only [hreverse, List.dropWhile_append_of_pos hafter, List.takeWhile_append_of_pos hafter]
  simp

theorem mem_cutLast {sep c : Char} {cs before after : List Char}
    (h : Text.cutLast? sep cs = some (before, after)) (hc : c ∈ before ∨ c ∈ after) : c ∈ cs := by
  rw [cutLast?_eq h, List.mem_append, List.mem_cons]
  exact hc.imp_right .inr

theorem mem_cutName {name : String} {c : Char}
    (hc : c ∈ (cutName name).1.toList ∨ ∃ ext, (cutName name).2 = some ext ∧ c ∈ ext.toList) :
    c ∈ name.toList := by
  unfold cutName at hc
  split at hc
  next before after hcut =>
    split at hc
    · simpa using hc
    · refine mem_cutLast hcut ?_
      simpa using hc
  · simpa using hc

theorem mem_components {name : String} (h : Component.name name ∈ p.components) :
    name ∈ p.pieces := by
  have of {first : Bool} {piece : String} (hp : Component.ofPiece? first piece = some (.name name)) :
      piece = name := by
    unfold Component.ofPiece? at hp
    split at hp
    · cases hp
    · split at hp
      · split at hp <;> cases hp
      · split at hp <;> cases hp
        rfl
  unfold components at h
  split at h
  · cases h
  next first rest hpieces =>
    rw [hpieces]
    obtain h | h := List.mem_append.mp h
    · split at h
      · simp at h
      · exact of (Option.mem_toList.mp h) ▸ .head _
    · obtain ⟨piece, hmem, hp⟩ := List.mem_filterMap.mp h
      exact of hp ▸ .tail _ hmem

theorem slash_not_mem_fileName {name : String} (h : p.fileName? = some name) :
    '/' ∉ name.toList := by
  unfold fileName? at h
  split at h
  next n hlast =>
    cases h
    exact Text.not_mem_of_mem_splitChars
      (Text.mem_split.mp (mem_components (List.mem_of_getLast? hlast)))
  · cases h

/-- A name with something else in it is no double dot. -/
theorem not_climbs_name {name : String} {c : Char} (hslash : '/' ∉ name.toList)
    (hc : c ∈ name.toList) (hdot : c ≠ '.') : ¬ (FilePath.mk name).Climbs := by
  rw [climbs_iff, Text.splitChars_of_not_mem hslash, List.mem_singleton]
  intro h
  simp [← h, hdot] at hc

theorem not_mem_digits {c : Char} (h : c.isDigit = false) (n : Nat) : c ∉ (toString n).toList := by
  intro hc
  have hmem : c ∈ Nat.toDigits 10 n := by simpa [Nat.toString_eq_repr, Nat.repr] using hc
  have hdigit := Nat.isDigit_of_mem_toDigits (by decide) (by decide) hmem
  rw [h] at hdigit
  cases hdigit

theorem slash_not_mem_digits (n : Nat) : '/' ∉ (toString n).toList := not_mem_digits rfl n

/-- A number in parentheses makes a name neither a double dot nor a longer path. -/
theorem not_climbs_numberedName {name : String} (h : '/' ∉ name.toList) (n : Nat) :
    ¬ (FilePath.mk (numberedName name n)).Climbs := by
  have hdigits := slash_not_mem_digits n
  unfold numberedName
  rcases hcut : cutName name with ⟨stem, ext⟩
  have hstem : '/' ∉ stem.toList := fun hc => h (mem_cutName (.inl (by simpa [hcut] using hc)))
  cases ext with
  | none => exact not_climbs_name (c := '(') (by simp_all) (by simp) (by decide)
  | some ext =>
    have hext : '/' ∉ ext.toList := fun hc => h (mem_cutName (.inr ⟨ext, by simp [hcut], hc⟩))
    exact not_climbs_name (c := '(') (by simp_all) (by simp) (by decide)

theorem climbs_numbered {n : Nat} (hp : numbered dest n = .ok p) (h : p.Climbs) :
    dest.Climbs := by
  unfold numbered at hp
  split at hp
  · cases hp
  · split at hp
    · cases hp
    next name hname =>
      cases hp
      exact (climbs_withFileName h).resolve_right
        (not_climbs_numberedName (slash_not_mem_fileName hname) n)

variable {r : FilePath}

theorem same_iff : p.same q ↔ p.components = q.components := by simp [same]

theorem same_refl (p : FilePath) : p.same p := by simp [same]

theorem same_comm : p.same q ↔ q.same p := by rw [same_iff, same_iff, eq_comm]

theorem same_trans (h : p.same q) (h' : q.same r) : p.same r := by
  rw [same_iff] at *
  rw [h, h']

theorem same_congr (h : p.same q) (r : FilePath) : p.same r = q.same r := by
  rw [same_iff] at h
  simp [same, h]

end FilePath
end MusicImport
